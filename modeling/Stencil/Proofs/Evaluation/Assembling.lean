import Stencil.Proofs.Evaluation.Rendering
import Stencil.Proofs.Failure
import Stencil.Proofs.Library.Sorting
import Stencil.Proofs.Text.Named

/-!
# Assembling what files render to

The document sets and the texts of an evaluation are given by file, in the order
in which the files were evaluated. Every file has either a document set or a text,
and has it once. The assembled result has one rendered file for each of them, in
the order of files; or there is no result, and the failure names the first file in
that order whose documents cannot be written. If the order tells all files apart,
the order in which they were given makes no difference.

## Main results

* `Renders.written` — the documents of a file that is rendered can be written.
* `assemble_congr` — a result depends on what is found for files, and on their
  order.
* `assemble_of_written` — a result if all documents can be written.
* `assemble_outcome` — what is assembled.
-/

namespace Stencil

variable {sets sets' : DocumentSets} {fragments fragments' : Fragments}

/-- The documents of a file can be written if the file is rendered. -/
theorem Renders.written {f : Located} {docs : List Document} {output : OutputFile}
    (h : Renders sets fragments f output) (found : sets.lookup f = some docs) :
    ∃ bytes, Documents.serialize docs = .ok bytes := by
  cases h with
  | documents found' written =>
      rw [found] at found'
      cases found'
      exact ⟨_, written⟩
  | fragment none =>
      rw [found] at none
      cases none

/-- The rendered files depend on what is found for the files. -/
theorem renderFiles_congr (found : ∀ f, sets.lookup f = sets'.lookup f)
    (found' : ∀ f, fragments.lookup f = fragments'.lookup f) (files : List Located) :
    renderFiles sets fragments files = renderFiles sets' fragments' files := by
  induction files with
  | nil => rfl
  | cons f files ih => rw [renderFiles, renderFiles, found, found', ih]

/-- **A result depends on what is found for files**, and on their order. -/
theorem assemble_congr (found : ∀ f, sets.lookup f = sets'.lookup f)
    (found' : ∀ f, fragments.lookup f = fragments'.lookup f)
    (order : orderedFiles sets fragments = orderedFiles sets' fragments')
    (exports : List Export) : assemble sets fragments exports = assemble sets' fragments' exports := by
  simp only [assemble, order, found, renderFiles_congr found found']

/-- There is a result if the documents of every file can be written. -/
theorem assemble_of_written (fragments : Fragments) (exports : List Export)
    (written : ∀ p ∈ sets, ∃ bytes, Documents.serialize p.2 = .ok bytes) :
    ∃ outputs, List.Forall₂ (Renders sets fragments) (orderedFiles sets fragments) outputs ∧
      assemble sets fragments exports =
        .ok ⟨outputs, documentsOf sets (orderedFiles sets fragments), exports⟩ := by
  rcases orderedFiles_cases sets fragments with
    ⟨outputs, rendered⟩ | ⟨-, f, -, docs, x, -, -, found, broken⟩
  · exact ⟨outputs, rendered, assemble_complete exports rendered⟩
  · obtain ⟨bytes, hbytes⟩ := written _ (Named.mem_of_lookup_eq_some found)
    cases broken.symm.trans hbytes

/-- **What is assembled** from document sets and texts, if no file comes twice
among them. There is one rendered file for each file, in the order of the library's
path and then of the path within it: of a document set it has the path and the kind
of the file and the bytes of the documents, and a text stays as it is. The documents
of all sets follow one another in the same order, and exports stay as they are. If
the documents of a file cannot be written, there is no result, and the failure names
the first such file. If the order tells the files apart, it does not matter in which
order they are given. -/
theorem assemble_outcome (sets : DocumentSets) (fragments : Fragments) (exports : List Export)
    (once : (sets.map (·.1) ++ fragments.map (·.1)).Nodup) :
    let files := sets.map (·.1) ++ fragments.map (·.1)
    ∃ order : List Located, order.Perm files ∧
      order.Pairwise (fun f g => f.library.pathParts < g.library.pathParts ∨
        f.library.pathParts = g.library.pathParts ∧ ¬ g.file.path < f.file.path) ∧
      ((∀ p ∈ sets, ∃ bytes, Documents.serialize p.2 = .ok bytes) →
        ∃ outputs, List.Forall₂ (Renders sets fragments) order outputs ∧
          assemble sets fragments exports = .ok ⟨outputs, documentsOf sets order, exports⟩) ∧
      ((∃ p ∈ sets, ∃ x, Documents.serialize p.2 = .error x) →
        ∃ before f after docs x, order = before ++ f :: after ∧ (f, docs) ∈ sets ∧
          Documents.serialize docs = .error (.fault x) ∧
          (∀ g ∈ before, ∀ docs, (g, docs) ∈ sets →
            ∃ bytes, Documents.serialize docs = .ok bytes) ∧
          assemble sets fragments exports = .error (marshalFailure f x)) ∧
      ((files.map fun f => (f.library.pathParts, f.file.path)).Nodup →
        ∀ sets' fragments', sets.Perm sets' → fragments.Perm fragments' →
          assemble sets' fragments' exports = assemble sets fragments exports) := by
  intro files
  have onceSets : (sets.map (·.1)).Nodup := (List.nodup_append.mp once).1
  have onceFragments : (fragments.map (·.1)).Nodup := (List.nodup_append.mp once).2.1
  have perm : (orderedFiles sets fragments).Perm files := Located.sortBy_perm id _
  refine ⟨orderedFiles sets fragments, perm, ?_, ?_, ?_, ?_⟩
  · exact (Located.sortBy_ordered id files).imp fun h => Located.precedes_iff.mp h
  · exact assemble_of_written fragments exports
  · rintro ⟨p, hp, y, broken⟩
    rcases orderedFiles_cases sets fragments with
      ⟨outputs, rendered⟩ | ⟨before, f, after, docs, x, order, rendered, found, broken'⟩
    -- A file whose documents cannot be written is among the files, so it is not true
    -- that all of them are rendered.
    · have mem : p.1 ∈ orderedFiles sets fragments :=
        perm.symm.subset (List.mem_append_left _ (List.mem_map_of_mem hp))
      obtain ⟨output, one⟩ := exists_of_forall₂ rendered p.1 mem
      obtain ⟨bytes, hbytes⟩ := one.written (Named.lookup_eq_some_of_nodup onceSets hp)
      cases broken.symm.trans hbytes
    · refine ⟨before, f, after, docs, x, order, Named.mem_of_lookup_eq_some found, broken', ?_,
        assemble_unserialisable exports order rendered found broken'⟩
      intro g hg docs' hdocs'
      obtain ⟨output, one⟩ := rendered g hg
      exact one.written (Named.lookup_eq_some_of_nodup onceSets hdocs')
  · intro keys sets' fragments' permSets permFragments
    refine (assemble_congr (Named.lookup_of_perm permSets onceSets)
      (Named.lookup_of_perm permFragments onceFragments) ?_ exports).symm
    exact Located.sort_of_perm ((permSets.map _).append (permFragments.map _)) keys

/-- A file of a nested library, whose document cannot be written, is given before
two files of the library above. It comes last in order, and the failure names it,
in whichever order the files are given. -/
theorem assemble_outcome_nested :
    let root : Library := ⟨[], [], [], []⟩
    let nested : Library := ⟨"nested", "nested", [], []⟩
    let broken : Located := ⟨⟨0, "a.yml", [], .yaml, true, none, none⟩, nested⟩
    let empty : Located := ⟨⟨1, "b.yml", [], .yaml, true, none, none⟩, root⟩
    let note : Located := ⟨⟨2, "c.txt", [], .text, true, none, none⟩, root⟩
    let sets : DocumentSets :=
      [(broken, [⟨.ofPosition .unknown, .plain (.object 0)⟩]), (empty, [])]
    let fragments : Fragments := [(note, ⟨"c.txt", [0x68, 0x69], .text⟩)]
    ∃ x, assemble sets fragments [] = .error (marshalFailure broken x) ∧
      assemble sets.reverse fragments [] = .error (marshalFailure broken x) := by
  intro root nested broken empty note sets fragments
  have once : (sets.map (·.1) ++ fragments.map (·.1)).Nodup := by decide
  obtain ⟨order, -, -, -, failing, given⟩ := assemble_outcome sets fragments [] once
  obtain ⟨-, f, -, docs, x, -, mem, unwritten, -, failed⟩ :=
    failing ⟨_, List.mem_cons_self .., _, rfl⟩
  have named : f = broken := by
    rcases List.mem_cons.mp mem with h | mem
    · exact congrArg Prod.fst h
    · cases List.mem_singleton.mp mem
      cases unwritten
  rw [named] at failed
  refine ⟨x, failed, ?_⟩
  rw [given (by decide) sets.reverse fragments (List.reverse_perm sets).symm (.refl _), failed]

end Stencil
