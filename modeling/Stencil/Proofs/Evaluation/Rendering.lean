import Mathlib.Data.List.Forall2
import Stencil.Evaluation.Assembly
import Stencil.Proofs.Document.Faults

/-!
# Putting a result together

A result is complete or there is none. Either every file of an evaluation is
rendered, and the result has one rendered file for each, in the order of the
files; or there is a first file whose documents cannot be written, and the
failure names it. Both cases are given here without reference to how the
files are gone through.

## Main definitions

* `Renders` — what a file is rendered to.
* `documentsOf` — the documents of files one after another.
* `marshalFailure` — the failure of a file that cannot be written.

## Main results

* `assemble_complete`, `assemble_unserialisable` — the result in either
  case.
* `orderedFiles_cases` — one of the two cases applies.
-/

namespace Stencil

/-- What a file is rendered to: its documents as YAML, or its text. -/
inductive Renders (sets : DocumentSets) (fragments : Fragments) (f : Located) :
    OutputFile → Prop
  | documents {docs : List Document} {bytes : List UInt8} (found : sets.lookup f = some docs)
      (written : Documents.serialize docs = .ok bytes) :
      Renders sets fragments f ⟨f.path, bytes, f.file.kind⟩
  | fragment {output : OutputFile} (none : sets.lookup f = none)
      (found : fragments.lookup f = some output) : Renders sets fragments f output

/-- The documents of some files, one after another. -/
def documentsOf (sets : DocumentSets) (files : List Located) : List Document :=
  files.flatMap fun f => (sets.lookup f).getD []

/-- The failure of a file whose documents cannot be written. -/
def marshalFailure (f : Located) (x : Fault) : Failure :=
  .error (.evaluation f.path ("marshaling template result: " ++ x.message)) (some x)

variable {sets : DocumentSets} {fragments : Fragments}

private theorem renderFiles_cons {f : Located} {fs : List Located} {output : OutputFile}
    (h : Renders sets fragments f output) :
    renderFiles sets fragments (f :: fs) =
      (renderFiles sets fragments fs).map (output :: ·) := by
  cases h with
  | @documents docs bytes found written =>
      simp only [renderFiles, found, renderDocuments, written]
      cases renderFiles sets fragments fs <;> rfl
  | fragment none found =>
      simp only [renderFiles, none, found]
      cases renderFiles sets fragments fs <;> rfl

private theorem renderFiles_complete {files : List Located} {outputs : List OutputFile}
    (h : List.Forall₂ (Renders sets fragments) files outputs) :
    renderFiles sets fragments files = .ok outputs := by
  induction h with
  | nil => rfl
  | cons one _ ih => rw [renderFiles_cons one, ih]; rfl

private theorem renderFiles_unserialisable {before after : List Located} {f : Located}
    {docs : List Document} {x : Fault}
    (rendered : ∀ g ∈ before, ∃ output, Renders sets fragments g output)
    (found : sets.lookup f = some docs) (broken : Documents.serialize docs = .error (.fault x)) :
    renderFiles sets fragments (before ++ f :: after) = .error (marshalFailure f x) := by
  induction before with
  | nil =>
      simp only [List.nil_append, renderFiles, found, renderDocuments, broken]
      rfl
  | cons g before ih =>
      obtain ⟨output, one⟩ := rendered g (List.mem_cons_self ..)
      rw [List.cons_append, renderFiles_cons one,
        ih fun g hg => rendered g (List.mem_cons_of_mem _ hg)]
      rfl

/-- **A complete result**: one rendered file for each file in order, the
documents of all of them, and the exports as they are. -/
theorem assemble_complete {outputs : List OutputFile} (exports : List Export)
    (h : List.Forall₂ (Renders sets fragments) (orderedFiles sets fragments) outputs) :
    assemble sets fragments exports =
      .ok ⟨outputs, documentsOf sets (orderedFiles sets fragments), exports⟩ := by
  simp only [assemble, renderFiles_complete h]
  rfl

/-- **No result**: the failure is that of the first file, in order, that
cannot be written. -/
theorem assemble_unserialisable {before after : List Located} {f : Located}
    {docs : List Document} {x : Fault} (exports : List Export)
    (order : orderedFiles sets fragments = before ++ f :: after)
    (rendered : ∀ g ∈ before, ∃ output, Renders sets fragments g output)
    (found : sets.lookup f = some docs) (broken : Documents.serialize docs = .error (.fault x)) :
    assemble sets fragments exports = .error (marshalFailure f x) := by
  simp only [assemble, order, renderFiles_unserialisable rendered found broken]
  rfl

/-- A file of an evaluation has documents or a text. -/
private theorem known_of_mem_orderedFiles {f : Located} (h : f ∈ orderedFiles sets fragments) :
    (∃ docs, sets.lookup f = some docs) ∨
      sets.lookup f = none ∧ ∃ output, fragments.lookup f = some output := by
  have hmem : f ∈ sets.map (·.1) ++ fragments.map (·.1) := by
    simpa [orderedFiles, Located.sort, Located.sortBy] using h
  cases hs : sets.lookup f with
  | some docs => exact .inl ⟨docs, rfl⟩
  | none =>
      refine .inr ⟨rfl, ?_⟩
      rw [List.lookup_eq_none_iff] at hs
      have hf : (fragments.lookup f).isSome = true := by
        rw [List.lookup_isSome_iff]
        rcases List.mem_append.mp hmem with hm | hm
        · obtain ⟨p, hp, rfl⟩ := List.mem_map.mp hm
          exact absurd (beq_self_eq_true p.1) (by simpa using hs p hp)
        · obtain ⟨p, hp, rfl⟩ := List.mem_map.mp hm
          exact ⟨p, hp, beq_self_eq_true p.1⟩
      exact Option.isSome_iff_exists.mp hf

private theorem renders_cases {f : Located} (h : f ∈ orderedFiles sets fragments) :
    (∃ output, Renders sets fragments f output) ∨
      ∃ docs x, sets.lookup f = some docs ∧ Documents.serialize docs = .error (.fault x) := by
  rcases known_of_mem_orderedFiles h with ⟨docs, found⟩ | ⟨none, output, found⟩
  · cases written : Documents.serialize docs with
    | ok bytes => exact .inl ⟨_, .documents found written⟩
    | error y =>
        obtain ⟨x, rfl⟩ := Documents.serialize_onlyFaults docs y written
        exact .inr ⟨docs, x, found, written⟩
  · exact .inl ⟨output, .fragment none found⟩

/-- **Complete or none.** All files are rendered, or there is a first one
that cannot be written. -/
theorem orderedFiles_cases (sets : DocumentSets) (fragments : Fragments) :
    (∃ outputs, List.Forall₂ (Renders sets fragments) (orderedFiles sets fragments) outputs) ∨
      ∃ before f after docs x, orderedFiles sets fragments = before ++ f :: after ∧
        (∀ g ∈ before, ∃ output, Renders sets fragments g output) ∧
        sets.lookup f = some docs ∧ Documents.serialize docs = .error (.fault x) := by
  suffices hsuff : ∀ files, (∀ f ∈ files, f ∈ orderedFiles sets fragments) →
      (∃ outputs, List.Forall₂ (Renders sets fragments) files outputs) ∨
        ∃ before f after docs x, files = before ++ f :: after ∧
          (∀ g ∈ before, ∃ output, Renders sets fragments g output) ∧
          sets.lookup f = some docs ∧ Documents.serialize docs = .error (.fault x) from
    hsuff _ fun f hf => hf
  intro files hfiles
  induction files with
  | nil => exact .inl ⟨[], .nil⟩
  | cons f fs ih =>
      rcases renders_cases (hfiles f (List.mem_cons_self ..)) with
        ⟨output, one⟩ | ⟨docs, x, found, broken⟩
      · rcases ih fun g hg => hfiles g (List.mem_cons_of_mem _ hg) with
          ⟨outputs, all⟩ | ⟨before, g, after, docs, x, rfl, rendered, found, broken⟩
        · exact .inl ⟨output :: outputs, .cons one all⟩
        · refine .inr ⟨f :: before, g, after, docs, x, rfl, ?_, found, broken⟩
          intro e he
          rcases List.mem_cons.mp he with rfl | he
          · exact ⟨output, one⟩
          · exact rendered e he
      · exact .inr ⟨[], f, fs, docs, x, rfl, nofun, found, broken⟩

end Stencil
