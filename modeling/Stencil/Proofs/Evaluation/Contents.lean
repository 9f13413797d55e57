import Mathlib.Data.List.Nodup
import Stencil.Proofs.Evaluation.Operations
import Stencil.Proofs.Evaluation.Outcome
import Stencil.Proofs.Library.Within
import Stencil.Proofs.Text.Named

/-!
# The contents of a result

A successful evaluation neither loses nor duplicates a file. Its rendered
files are those of the outputs of the library, its exports those of the
library files that are not output, its documents those of the YAML outputs;
every other file of the tree is left alone.

The flags and the kind of a file decide what it contributes: `Contributes`
says so for one file, and a pass that ends without failure is a list of such
contributions, one for each file. What a result contains is read off this
list.

## Main definitions

* `Library.outputs`, `Library.exporters` — the files that are rendered, and
  those that define names.
* `Contributes` — what a file can contribute.
* `Loader.PostProcessed` — what the post-processor of an evaluation is given
  and answers.

## Main results

* `Pass.contributes` — the contributions of a pass.
* `eval_contents` — the contents of a result.
-/

namespace Stencil

variable {σ : Type}

/-- Whether a file is YAML output. -/
def File.isDocuments (f : File) (m : Marks) : Bool := f.isForOutput m && f.kind = .yaml

/-- Whether a file is a library file that defines names and is not output. -/
def File.isExporter (f : File) (m : Marks) : Bool :=
  !f.isForOutput m && f.isLibrary && f.kind ≠ .unknown

namespace Library

/-- The accessible files that are output. -/
def outputs (lib : Library) (m : Marks) : List Located :=
  lib.accessible.filter (·.file.isForOutput m)

/-- The accessible library files that define names and are not output. -/
def exporters (lib : Library) (m : Marks) : List Located :=
  lib.accessible.filter (·.file.isExporter m)

end Library

/-- An engine is called for outputs and for library files that define names,
and for no others. -/
theorem File.manner?_cases {f : File} {m : Marks} {k : Manner} (h : f.manner? m = some k) :
    f.isForOutput m = true ∨ f.isExporter m = true := by
  by_cases output : f.isForOutput m = true
  · exact .inl output
  · refine .inr ?_
    have silent : f.isForOutput m = false := by simpa using output
    cases library : f.isLibrary <;> cases kind : f.kind <;>
      simp_all [File.manner?, File.isExporter]

/-! ## Contributions -/

/-- What a file can contribute under some decisions on output. -/
inductive Contributes (m : Marks) (f : Located) : Option Piece → Prop
  | documents (output : f.file.isForOutput m = true) (kind : f.file.kind = .yaml)
      (docs : List Document) : Contributes m f (some (.documents f docs))
  | fragment (output : f.file.isForOutput m = true) (kind : f.file.kind = .text)
      (bytes : List UInt8) : Contributes m f (some (.fragment f ⟨f.path, bytes, .text⟩))
  | symbols (exporter : f.file.isExporter m = true) (names : Symbols) :
      Contributes m f (some (.symbols ⟨f.path, names⟩))
  | nothing (silent : f.file.isForOutput m = false) (other : f.file.isExporter m = false) :
      Contributes m f none

/-- A visit without failure is a contribution. -/
theorem Visit.contributes {v : Scene σ} {f : Located} {w w' : σ} {piece : Option Piece}
    {consumed : List DataValues} (h : Visit v f w (.ok (piece, consumed)) w') :
    Contributes v.marks f piece := by
  cases h with
  | documents output kind => exact .documents output kind _
  | fragment output kind => exact .fragment output kind _
  | symbols silent library call =>
      rcases File.manner?_cases call with output | exporter
      · rw [output] at silent
        cases silent
      · exact .symbols exporter _
  | skipped silent other =>
      refine .nothing silent ?_
      rcases other with hl | hk
      · simp [File.isExporter, hl]
      · simp [File.isExporter, hk]

/-- **The contributions of a pass**: one for each file, and the pieces are
those that there are. -/
theorem Pass.contributes {v : Scene σ} {files visited : List Located} {w w' : σ}
    {r : Except Failure (List Piece × List DataValues)} (h : Pass v files w r visited w')
    {pieces : List Piece} {consumed : List DataValues} (hr : r = .ok (pieces, consumed)) :
    ∃ parts, List.Forall₂ (Contributes v.marks) files parts ∧
      pieces = parts.flatMap Option.toList := by
  induction h generalizing pieces consumed with
  | nil => cases hr; exact ⟨[], .nil, rfl⟩
  | stop => cases hr
  | @step f fs visited w w₁ w₂ piece consumed r one rest ih =>
      cases r with
      | error x => cases hr
      | ok p =>
          cases hr
          obtain ⟨parts, hparts, hpieces⟩ := ih rfl
          exact ⟨piece :: parts, .cons one.contributes hparts, by rw [hpieces]; rfl⟩

section Reading

variable {m : Marks} {files : List Located} {parts : List (Option Piece)} {α β : Type}

/-- Some sort of pieces, read off the files: it is enough to know for each
file whether its contribution is of that sort. -/
private theorem read_off {sort : Piece → Option α} {view : α → β} {among : Located → Bool}
    {look : Located → β}
    (one : ∀ f part, Contributes m f part →
      (part.bind sort).map view = if among f then some (look f) else none)
    (h : List.Forall₂ (Contributes m) files parts) :
    ((parts.flatMap Option.toList).filterMap sort).map view = (files.filter among).map look := by
  induction h with
  | nil => rfl
  | @cons f part fs parts first _ ih =>
      have hfirst := one f part first
      rw [List.flatMap_cons, List.filterMap_append, List.map_append, ih, List.filter_cons]
      cases part with
      | none =>
          cases hf : among f
          · rfl
          · simp [hf] at hfirst
      | some piece =>
          cases hs : sort piece <;> cases hf : among f <;> simp_all

/-- The files with documents are the YAML outputs. -/
private theorem documents_files (h : List.Forall₂ (Contributes m) files parts) :
    ((parts.flatMap Option.toList).filterMap Piece.documents?).map (·.1) =
      files.filter (·.file.isDocuments m) := by
  refine (read_off ?_ h).trans (List.map_id _)
  intro f part one
  cases one with
  | documents output kind => simp [File.isDocuments, output, kind, Piece.documents?]
  | fragment output kind => simp [File.isDocuments, kind, Piece.documents?]
  | symbols exporter => simp_all [File.isDocuments, File.isExporter, Piece.documents?]
  | nothing silent => simp [File.isDocuments, silent]

/-- The texts are those of the outputs that are not YAML, with the paths and
kinds of their files. -/
private theorem fragments_files (h : List.Forall₂ (Contributes m) files parts) :
    ((parts.flatMap Option.toList).filterMap Piece.fragment?).map
        (fun p => (p.1, p.2.path, p.2.kind)) =
      (files.filter fun f => f.file.isForOutput m && !f.file.isDocuments m).map
        fun f => (f, f.path, f.file.kind) := by
  refine read_off ?_ h
  intro f part one
  cases one with
  | documents output kind => simp [File.isDocuments, output, kind, Piece.fragment?]
  | fragment output kind => simp [File.isDocuments, output, kind, Piece.fragment?]
  | symbols exporter => simp_all [File.isExporter, Piece.fragment?]
  | nothing silent => simp [silent]

/-- The exports are those of the library files that define names. -/
private theorem symbols_files (h : List.Forall₂ (Contributes m) files parts) :
    (exportsOf (parts.flatMap Option.toList)).map (·.path) =
      (files.filter (·.file.isExporter m)).map (·.path) := by
  refine read_off ?_ h
  intro f part one
  cases one with
  | documents output => simp [File.isExporter, output, Piece.symbols?]
  | fragment output => simp [File.isExporter, output, Piece.symbols?]
  | symbols exporter => simp [exporter, Piece.symbols?]
  | nothing silent other => simp [other]

end Reading

/-! ## The result -/

section Result

variable {m : Marks} {files : List Located} {given answered : DocumentSets}
  {fragments : Fragments}

/-- The outputs that are not YAML. -/
def otherOutputs (m : Marks) (files : List Located) : List Located :=
  files.filter fun f => f.file.isForOutput m && !f.file.isDocuments m

/-- The files of texts, if the texts are those of some files. -/
private theorem files_of_texts {pairs : List (Located × OutputFile)} {among : List Located}
    (texts : pairs.map (fun p => (p.1, p.2.path, p.2.kind)) =
      among.map fun f => (f, f.path, f.file.kind)) : pairs.map (·.1) = among := by
  have hfiles := congrArg (List.map (·.1)) texts
  rw [List.map_map, List.map_map] at hfiles
  exact hfiles.trans (List.map_id among)

/-- **The exports of a pass** are those of the library files that define
names. -/
theorem Pass.exports_paths {v : Scene σ} {visited : List Located} {w w' : σ}
    {pieces : List Piece} {consumed : List DataValues}
    (pass : Pass v files w (.ok (pieces, consumed)) visited w') :
    (exportsOf pieces).map (·.path) =
      (files.filter (·.file.isExporter v.marks)).map (·.path) := by
  obtain ⟨parts, hparts, rfl⟩ := pass.contributes rfl
  exact symbols_files hparts

/-- The document sets and the texts of a pass are those among its pieces, if no
file comes twice. -/
theorem Pass.sets {v : Scene σ} {visited : List Located} {w w' : σ} {pieces : List Piece}
    {consumed : List DataValues}
    (pass : Pass v files w (.ok (pieces, consumed)) visited w') (nodup : files.Nodup) :
    documentSets pieces = pieces.filterMap Piece.documents? ∧
      textFragments pieces = pieces.filterMap Piece.fragment? := by
  obtain ⟨parts, hparts, rfl⟩ := pass.contributes rfl
  constructor
  · refine Named.ofList_of_nodup ?_
    rw [documents_files hparts]
    exact nodup.filter _
  · refine Named.ofList_of_nodup ?_
    rw [files_of_texts (fragments_files hparts)]
    exact nodup.filter _

/-- The files of a pass with their contributions in place: documents of the
YAML outputs, and texts of the other outputs. -/
theorem Pass.keys {v : Scene σ} {visited : List Located} {w w' : σ}
    {pieces : List Piece} {consumed : List DataValues}
    (pass : Pass v files w (.ok (pieces, consumed)) visited w') (nodup : files.Nodup) :
    (documentSets pieces).map (·.1) = files.filter (·.file.isDocuments v.marks) ∧
      (textFragments pieces).map (fun p => (p.1, p.2.path, p.2.kind)) =
        (otherOutputs v.marks files).map fun f => (f, f.path, f.file.kind) := by
  obtain ⟨hdocs, htexts⟩ := pass.sets nodup
  rw [hdocs, htexts]
  obtain ⟨parts, hparts, rfl⟩ := pass.contributes rfl
  exact ⟨documents_files hparts, fragments_files hparts⟩

/-- The YAML outputs are outputs. -/
private theorem documents_of_outputs (m : Marks) (files : List Located) :
    files.filter (·.file.isDocuments m) =
      (files.filter (·.file.isForOutput m)).filter (·.file.isDocuments m) := by
  rw [List.filter_filter]
  refine List.filter_congr fun f _ => ?_
  cases h : f.file.isForOutput m <;> simp [File.isDocuments, h]

/-- The files of an evaluation in order are its outputs. -/
private theorem orderedFiles_perm
    (keys : (answered.map (·.1)).Perm (files.filter (·.file.isDocuments m)))
    (texts : fragments.map (·.1) = otherOutputs m files) :
    (orderedFiles answered fragments).Perm (files.filter (·.file.isForOutput m)) := by
  have htexts : otherOutputs m files =
      (files.filter (·.file.isForOutput m)).filter (!·.file.isDocuments m) := by
    rw [List.filter_filter]
    exact List.filter_congr fun f _ => Bool.and_comm _ _
  refine (List.mergeSort_perm _ _).trans ?_
  rw [texts, htexts]
  rw [documents_of_outputs] at keys
  exact (keys.append_right _).trans (List.filter_append_perm _ _)

/-- A file is rendered under its own path and kind. -/
theorem Renders.path_kind {f : Located} {output : OutputFile}
    (h : Renders answered fragments f output)
    (texts : fragments.map (fun p => (p.1, p.2.path, p.2.kind)) =
      (otherOutputs m files).map fun f => (f, f.path, f.file.kind)) :
    output.path = f.path ∧ output.kind = f.file.kind := by
  cases h with
  | documents => exact ⟨rfl, rfl⟩
  | fragment _ found =>
      have hmem := List.mem_map_of_mem (f := fun p => (p.1, p.2.path, p.2.kind))
        (Named.mem_of_lookup_eq_some found)
      rw [texts] at hmem
      obtain ⟨g, -, hg⟩ := List.mem_map.mp hmem
      simp only [Prod.mk.injEq] at hg
      obtain ⟨rfl, hpath, hkind⟩ := hg
      exact ⟨hpath.symm, hkind.symm⟩

/-- Files are rendered under their own paths and kinds. -/
private theorem rendered_paths {order : List Located} {outputs : List OutputFile}
    (rendered : List.Forall₂ (Renders answered fragments) order outputs)
    (texts : fragments.map (fun p => (p.1, p.2.path, p.2.kind)) =
      (otherOutputs m files).map fun f => (f, f.path, f.file.kind)) :
    outputs.map (fun o => (o.path, o.kind)) = order.map fun f => (f.path, f.file.kind) := by
  induction rendered with
  | nil => rfl
  | cons one _ ih =>
      obtain ⟨hpath, hkind⟩ := one.path_kind texts
      rw [List.map_cons, List.map_cons, ih, hpath, hkind]

/-- Only YAML outputs have documents. -/
private theorem documentsOf_filter
    (keys : (answered.map (·.1)).Perm (files.filter (·.file.isDocuments m)))
    (order : List Located) :
    documentsOf answered order = documentsOf answered (order.filter (·.file.isDocuments m)) := by
  have hnone : ∀ f : Located, f.file.isDocuments m = false → answered.lookup f = none := by
    intro f hf
    rw [List.lookup_eq_none_iff]
    intro p hp
    have hdocs := (List.mem_filter.mp (keys.subset (List.mem_map_of_mem hp))).2
    rw [bne_iff_ne]
    rintro rfl
    rw [hf] at hdocs
    cases hdocs
  induction order with
  | nil => rfl
  | cons f order ih =>
      simp only [documentsOf, List.flatMap_cons, List.filter_cons] at ih ⊢
      cases hf : f.file.isDocuments m
      · rw [hnone f hf, ih]
        rfl
      · rw [if_pos rfl, List.flatMap_cons, ih]

end Result

/-- No engine is called on a file of the tree that is neither an output nor an
exporter. -/
private theorem evaluated_ne {tree lib root : Library} {m : Marks} {g : Located}
    (within : lib.Within tree) (once : (tree.all.map (·.file.id)).Nodup) (mem : g ∈ tree.all)
    (silent : g ∉ lib.outputs m) (other : g ∉ lib.exporters m) :
    ∀ call ∈ engineCalls root m lib.accessible, call.evaluated? ≠ some g.file := by
  intro call hcall hfile
  obtain ⟨f, hf, k, hk, rfl⟩ := Outcome.evaluated_of_mem_engineCalls hcall
  have hsame : f.file = g.file := Option.some.inj hfile
  have hfg : f = g := List.inj_on_of_nodup_map once (within.accessible_sublist.subset hf) mem
    (congrArg File.id hsame)
  subst hfg
  rcases File.manner?_cases hk with h | h
  · exact silent (List.mem_filter.mpr ⟨hf, h⟩)
  · exact other (List.mem_filter.mpr ⟨hf, h⟩)

/-- What the post-processor of an evaluation is given and answers, if it is
reached and does not fail. -/
def Loader.PostProcessed (l : Loader σ) (values : DataValues) (libraryValues : List DataValues)
    (librarySchemas : List DocumentSchema) (s : Session σ) (given answered : DocumentSets) :
    Prop :=
  ∃ e w pieces consumed w₁ w₂,
    Action.apply (l.collaborators.newEngine ⟨values, libraryValues, librarySchemas⟩) s.world =
      (.ok e, w) ∧
    Pass ⟨e, l.context.root, s.marks, libraryValues⟩ l.library.accessible w
      (.ok (pieces, consumed)) l.library.accessible w₁ ∧
    given = documentSets pieces ∧
    Action.apply (l.collaborators.postProcess given) w₁ = (.ok answered, w₂)

/-- **The contents of a result.** In a tree in which no file occurs twice, a
successful evaluation calls engines on the outputs and the exporters of its
library and on no other file of the tree, private ones included. It has one
export for each exporter, in the order of the accessible files; the
post-processor is given the YAML outputs, and if it answers with the same
files, there is one rendered file for each output, under its path and of its
kind, and the documents are those of the YAML outputs in the same order. -/
theorem eval_contents (tree : Library) (l : Loader σ) (values : DataValues)
    (libraryValues : List DataValues) (librarySchemas : List DocumentSchema) (s : Session σ)
    (earlier : List Call) (r : EvalResult)
    (within : l.library.Within tree) (once : (tree.all.map (·.file.id)).Nodup)
    (ok : (l.eval values libraryValues librarySchemas).outcome s = .ok (.ok r)) :
    let outputs := l.library.outputs s.marks
    let exporters := l.library.exporters s.marks
    let recorded := (l.recorded.eval values libraryValues librarySchemas).apply
      (s.recorded earlier)
    (outputs.Nodup ∧ exporters.Nodup ∧ ∀ f ∈ outputs, f ∉ exporters) ∧
    (∃ given answered,
      l.PostProcessed values libraryValues librarySchemas s given answered ∧
      given.map (·.1) = outputs.filter (·.file.kind = .yaml) ∧
      ((answered.map (·.1)).Perm (given.map (·.1)) →
        ∃ order : List Located, order.Perm outputs ∧
          r.files.map (fun o => (o.path, o.kind)) = order.map (fun f => (f.path, f.file.kind)) ∧
          r.docs = (order.filter (·.file.kind = .yaml)).flatMap
            fun f => (answered.lookup f).getD [])) ∧
    r.exports.map (·.path) = exporters.map (·.path) ∧
    ∃ calls, recorded.2.world.calls = earlier ++ calls ∧
      ∀ g ∈ tree.all, g ∉ outputs → g ∉ exporters →
        ∀ call ∈ calls, call.evaluated? ≠ some g.file := by
  intro outputs exporters recorded
  have nodup : l.library.accessible.Nodup := within.accessible_nodup once
  rcases engine : Action.apply (l.collaborators.newEngine
    ⟨values, libraryValues, librarySchemas⟩) s.world with ⟨x | e, w⟩
  · obtain ⟨herror, -⟩ := Loader.eval_noEngine earlier engine
    cases Run.attempted_eq_ok (herror.symm.trans ok)
  obtain ⟨a, calls, w', h, houtcome, hcalls⟩ := Loader.eval_engine earlier engine
  obtain rfl := Run.attempted_eq_ok (houtcome.symm.trans ok)
  have hdocuments : ∀ order : List Located,
      (∀ f ∈ order, f.file.isForOutput s.marks = true) →
        order.filter (·.file.isDocuments s.marks) = order.filter (·.file.kind = .yaml) := by
    intro order horder
    refine List.filter_congr fun f hf => ?_
    simp [File.isDocuments, horder f hf]
  refine ⟨⟨nodup.filter _, nodup.filter _, ?_⟩, ?_⟩
  · intro f houtput hexporter
    have h₁ := (List.mem_filter.mp houtput).2
    have h₂ := (List.mem_filter.mp hexporter).2
    simp [File.isExporter, h₁] at h₂
  cases h with
  | @complete pieces consumed _ answered _ _ _ files w₁ _ pass used together processed order
      rendered =>
      obtain ⟨rfl, rfl, rfl⟩ := together.eq
      obtain rfl := inOrder_iff_ordered.mp order
      obtain ⟨parts, hparts, rfl⟩ := pass.contributes rfl
      obtain ⟨hgiven, htexts⟩ := pass.keys nodup
      refine ⟨⟨_, answered, ⟨e, w, _, consumed, w₁, _, engine, pass, rfl, processed⟩, ?_, ?_⟩,
        pass.exports_paths, _, hcalls, ?_⟩
      · rw [hgiven, ← hdocuments outputs fun f hf => (List.mem_filter.mp hf).2]
        exact documents_of_outputs _ _
      · intro keys
        rw [hgiven] at keys
        have hperm := orderedFiles_perm keys (files_of_texts htexts)
        refine ⟨_, hperm, rendered_paths rendered htexts, ?_⟩
        have hall : ∀ f ∈ orderedFiles answered _, f.file.isForOutput s.marks = true :=
          fun f hf => (List.mem_filter.mp (hperm.subset hf)).2
        rw [← hdocuments _ hall]
        exact documentsOf_filter keys _
      · intro g hg hsilent hother call hcall
        rcases List.mem_cons.mp hcall with rfl | hcall
        · exact nofun
        rcases List.mem_append.mp hcall with hcall | hcall
        · exact evaluated_ne within once hg hsilent hother call hcall
        · rw [List.mem_singleton.mp hcall]
          exact nofun

/-- The contents of a result with one output and one exporter, next to a
private library. -/
theorem eval_contents_private :
    let hidden : Library := ⟨"_lib", "_lib", [⟨2, "c", [], .text, true, some false, none⟩], []⟩
    let tree : Library := ⟨[], [],
      [⟨0, "a", [], .yaml, true, some false, none⟩, ⟨1, "b", [], .script, true, some true, none⟩],
      [hidden]⟩
    let l : Loader Unit := ⟨.ofRoot tree, {}, .plain fun _ => []⟩
    let s : Session Unit := ⟨[], .initial, ()⟩
    ∃ r, l.library.Within tree ∧ (tree.all.map (·.file.id)).Nodup ∧
      (l.eval .empty [] []).outcome s = .ok (.ok r) ∧
      r.exports.map (·.path) = (l.library.exporters s.marks).map (·.path) := by
  intro hidden tree l s
  have within : l.library.Within tree := .here
  have once : (tree.all.map (·.file.id)).Nodup := by decide
  have success : (l.eval .empty [] []).succeeds s = true := by decide +kernel
  obtain ⟨r, ok⟩ := Run.succeeds_iff.mp success
  obtain ⟨-, -, exports, -⟩ := eval_contents tree l .empty [] [] s [] r within once ok
  exact ⟨r, within, once, ok, exports⟩

end Stencil
