import Stencil.Proofs.Evaluation.ByFile
import Stencil.Proofs.Evaluation.InContext
import Stencil.Proofs.Library.Exposed
import Stencil.Proofs.Library.Sorting

/-!
# Evaluating a nested library

Evaluating a library takes in the files of the libraries that it exposes. If the
collaborators treat every file on its own, then evaluating one of those libraries
by itself gives the same for its files, and nothing else: the rendered files, the
exports and the documents are those of the evaluation of the library above that
belong to it, in the same order.

Everything that happens on the way goes along with picking out the files of the
nested library: the pass over the files, the post-processing, the sorting, and
putting the result together. Sorting is where files from elsewhere could get
between two files that compare the same; so a post-processor may return document
sets in another order, but must not exchange the sets of two such files.

## Main definitions

* `FileOverlay` — what overlays make of the documents of a file.
* `Collaborators.PerFile` — collaborators that treat every file on its own.
* `EvalResult.PickedFrom` — what a result says of some of its files.

## Main results

* `Collaborators.plain_perFile` — there are such collaborators.
* `Collaborators.PerFile.pick` — post-processing some of the files.
* `orderedFiles_pick`, `lookup_pick` — putting some of the files together.
* `Outcome.pick` — evaluating some of the files.
* `eval_nested` — the result of a nested library.
-/

namespace Stencil

variable {σ : Type}

/-- What overlays make of the documents of a file. -/
abbrev FileOverlay := Located → List Document → Except Failure (List Document)

/-- Whether document sets are others with an overlay applied to each. -/
def FileOverlay.Applied (o : FileOverlay) (sets done : DocumentSets) : Prop :=
  List.Forall₂ (fun p q => q.1 = p.1 ∧ o p.1 p.2 = .ok q.2) sets done

/-- Whether collaborators treat every file on its own. An engine can always be
made, and answers by file and context, or never; the post-processor, given one
document set for each of some files, applies an overlay to every one and fails
if that fails for one of them. It may return the sets in another order, if those
of files that compare the same keep theirs. -/
structure Collaborators.PerFile (c : Collaborators σ) (seed : Seed) (a : ContextAnswers)
    (o : FileOverlay) : Prop where
  newEngine :
    (∀ w, ∃ e w', Action.apply (c.newEngine seed) w = (.ok e, w') ∧ e.AnswersIn a) ∨
      ∀ w, ∃ x w', Action.apply (c.newEngine seed) w = (.error x, w')
  applied : ∀ sets done w, (sets.map (·.1)).Nodup → o.Applied sets done →
    ∃ answered w', Action.apply (c.postProcess sets) w = (.ok answered, w') ∧
      Located.sortBy (·.1) answered = Located.sortBy (·.1) done
  broken : ∀ sets w, (sets.map (·.1)).Nodup → (¬ ∃ done, o.Applied sets done) →
    ∃ x w', Action.apply (c.postProcess sets) w = (.error x, w')

/-- Answers by file that are the same in every context of a library with the same
path. -/
def Answers.inContext (a : Answers) : ContextAnswers :=
  fun k context f => a k context.current.path f

/-- Collaborators without expressions treat every file on its own, and leave
documents as they are. -/
theorem Collaborators.plain_perFile (documents : File → List Document) (seed : Seed) :
    (plain documents : Collaborators σ).PerFile seed (Answers.plain documents).inContext
      fun _ docs => .ok docs where
  newEngine := (plain_byFile documents seed).newEngine
  applied sets done w nodup h := by
    have hsame : done = sets := by
      clear nodup
      induction h with
      | nil => rfl
      | cons one _ ih => rw [ih, Prod.ext one.1 (Except.ok.inj one.2).symm]
    exact ⟨sets, w, rfl, by rw [hsame]⟩
  broken sets w _ h := by
    refine absurd ⟨sets, ?_⟩ h
    exact List.forall₂_same.mpr fun p _ => ⟨rfl, rfl⟩

/-! ## Post-processing some of the files -/

/-- The files stay the same. -/
private theorem FileOverlay.Applied.files {o : FileOverlay} {sets done : DocumentSets}
    (h : o.Applied sets done) : done.map (·.1) = sets.map (·.1) := by
  induction h with
  | nil => rfl
  | cons one _ ih => rw [List.map_cons, List.map_cons, one.1, ih]

/-- An overlay that was applied can be applied to some of the sets. -/
private theorem FileOverlay.Applied.pick {o : FileOverlay} {sets done : DocumentSets}
    (h : o.Applied sets done) (p : Text → Bool) :
    o.Applied (sets.filter fun d => p d.1.path) (done.filter fun d => p d.1.path) := by
  refine List.rel_filter (fun d d' one => ?_) h
  show p d.1.path = true ↔ p d'.1.path = true
  rw [one.1]

/-- **Post-processing some of the files** gives what post-processing all of them
gave for these. -/
theorem Collaborators.PerFile.pick {c : Collaborators σ} {seed : Seed} {a : ContextAnswers}
    {o : FileOverlay} (perFile : c.PerFile seed a o) {sets answered : DocumentSets} {w w₁ : σ}
    (nodup : (sets.map (·.1)).Nodup)
    (run : Action.apply (c.postProcess sets) w = (.ok answered, w₁)) (p : Text → Bool) (w' : σ) :
    (answered.map (·.1)).Perm (sets.map (·.1)) ∧
      ∃ answered' w₁', Action.apply (c.postProcess (sets.filter fun d => p d.1.path)) w' =
          (.ok answered', w₁') ∧
        Located.sortBy (·.1) answered' =
          (Located.sortBy (·.1) answered).filter fun d => p d.1.path := by
  by_cases happlied : ∃ done, o.Applied sets done
  · obtain ⟨done, hdone⟩ := happlied
    obtain ⟨answered₁, w₂, hrun, hsorted⟩ := perFile.applied _ done w nodup hdone
    rw [run] at hrun
    cases hrun
    have hperm : answered.Perm done := by
      refine (Located.sortBy_perm (·.1) answered).symm.trans ?_
      rw [hsorted]
      exact Located.sortBy_perm (·.1) done
    have hnodup : ((sets.filter fun d => p d.1.path).map (·.1)).Nodup :=
      nodup.sublist (List.filter_sublist.map _)
    obtain ⟨answered', w₁', hrun', hsorted'⟩ := perFile.applied _ _ w' hnodup (hdone.pick p)
    refine ⟨hdone.files ▸ hperm.map _, answered', w₁', hrun', ?_⟩
    rw [hsorted', hsorted, Located.sortBy_filter]
  · obtain ⟨x, w₂, hrun⟩ := perFile.broken _ w nodup happlied
    rw [run] at hrun
    cases hrun

/-! ## Putting some of the files together -/

/-- The document sets of some files, in the order of the files. -/
def documentSetsOf (sets : DocumentSets) (files : List Located) : DocumentSets :=
  Named.table (fun f => sets.lookup f) files

section Together

variable {p : Text → Bool} {answered answered' : DocumentSets} {fragments : Fragments}
  (picked : Located.sortBy (·.1) answered' =
    (Located.sortBy (·.1) answered).filter fun d => p d.1.path)

include picked

/-- **Some of the files in order** are picked out of all files in order. -/
theorem orderedFiles_pick :
    orderedFiles answered' (fragments.filter fun d => p d.1.path) =
      (orderedFiles answered fragments).filter fun f => p f.path := by
  let sorted := Located.sortBy (·.1) answered
  calc orderedFiles answered' (fragments.filter fun d => p d.1.path)
      = Located.sort ((Located.sortBy (·.1) answered').map (·.1) ++
          (fragments.filter fun d => p d.1.path).map (·.1)) :=
        (Located.sort_append_sortBy _ _ _).symm
    _ = Located.sort ((sorted.map (·.1) ++ fragments.map (·.1)).filter fun f => p f.path) := by
        rw [picked, List.filter_append, List.filter_map, List.filter_map]
        rfl
    _ = (Located.sort (sorted.map (·.1) ++ fragments.map (·.1))).filter fun f => p f.path :=
        Located.sortBy_filter _ _
    _ = (orderedFiles answered fragments).filter fun f => p f.path :=
        congrArg (List.filter _) (Located.sort_append_sortBy _ _ _)

/-- **What is found for one of the files** is what was found among all. -/
theorem lookup_pick (nodup : (answered.map (·.1)).Nodup) {f : Located} (hf : p f.path = true) :
    answered'.lookup f = answered.lookup f := by
  let sorted := Located.sortBy (·.1) answered
  let sorted' := Located.sortBy (·.1) answered'
  have hperm : sorted.Perm answered := Located.sortBy_perm (·.1) answered
  have hperm' : sorted'.Perm answered' := Located.sortBy_perm (·.1) answered'
  have hsorted : (sorted.map (·.1)).Nodup := (hperm.map _).nodup_iff.mpr nodup
  have hsorted' : (sorted'.map (·.1)).Nodup := by
    show ((Located.sortBy (·.1) answered').map (·.1)).Nodup
    rw [picked]
    exact hsorted.sublist (List.filter_sublist.map _)
  calc answered'.lookup f
      = sorted'.lookup f := (Named.lookup_of_perm hperm' hsorted' f).symm
    _ = (sorted.filter fun d => p d.1.path).lookup f := congrArg (List.lookup f) picked
    _ = sorted.lookup f := Named.lookup_filter (p := fun g : Located => p g.path) hf sorted
    _ = answered.lookup f := Named.lookup_of_perm hperm hsorted f

/-- One of the files is rendered to the same. -/
private theorem Renders.pick (nodup : (answered.map (·.1)).Nodup) {f : Located}
    {output : OutputFile} (hf : p f.path = true) (h : Renders answered fragments f output) :
    Renders answered' (fragments.filter fun d => p d.1.path) f output := by
  have hlookup := lookup_pick picked nodup hf
  cases h with
  | documents found written => exact .documents (hlookup.trans found) written
  | fragment none found =>
      refine .fragment (hlookup.trans none) ?_
      exact (Named.lookup_filter (p := fun g : Located => p g.path) hf fragments).trans found

/-- **Some of the files are rendered** to those of the rendered files that have
their paths. -/
theorem rendered_pick (nodup : (answered.map (·.1)).Nodup) {files : List Located}
    {outputs : List OutputFile}
    (paths : ∀ f output, Renders answered fragments f output → output.path = f.path)
    (h : List.Forall₂ (Renders answered fragments) files outputs) :
    List.Forall₂ (Renders answered' (fragments.filter fun d => p d.1.path))
      (files.filter fun f => p f.path) (outputs.filter fun output => p output.path) := by
  induction h with
  | nil => exact .nil
  | @cons f output files outputs one _ ih =>
      have hpath := paths f output one
      simp only [List.filter_cons, hpath]
      by_cases hf : p f.path = true
      · rw [if_pos hf, if_pos hf]
        exact .cons (one.pick picked nodup hf) ih
      · rw [if_neg hf, if_neg hf]
        exact ih

/-- The document sets of some of the files are picked out of those of all. -/
theorem documentSetsOf_pick (nodup : (answered.map (·.1)).Nodup) (files : List Located) :
    documentSetsOf answered' (files.filter fun f => p f.path) =
      (documentSetsOf answered files).filter fun d => p d.1.path := by
  rw [documentSetsOf, documentSetsOf, Named.table, Named.table, List.filterMap_filter,
    List.filter_filterMap]
  refine List.filterMap_congr fun f _ => ?_
  by_cases hf : p f.path = true
  · rw [if_pos hf, lookup_pick picked nodup hf]
    cases answered.lookup f <;> simp [Option.filter, hf]
  · rw [if_neg hf]
    cases answered.lookup f <;> simp [Option.filter, hf]

end Together

/-- The documents of some files, one after another, are those of their document
sets. -/
private theorem documentsOf_eq (sets : DocumentSets) (files : List Located) :
    documentsOf sets files = (documentSetsOf sets files).flatMap (·.2) := by
  induction files with
  | nil => rfl
  | cons f files ih =>
      rw [documentsOf, List.flatMap_cons, ← documentsOf, ih, documentSetsOf, documentSetsOf,
        Named.table, Named.table, List.filterMap_cons]
      cases sets.lookup f <;> rfl

/-- The rendered YAML files are the document sets, written. -/
private theorem rendered_documents {answered : DocumentSets} {fragments : Fragments}
    {files : List Located} {outputs : List OutputFile}
    (yaml : ∀ d ∈ answered, d.1.file.kind = .yaml) (other : ∀ d ∈ fragments, d.2.kind ≠ .yaml)
    (h : List.Forall₂ (Renders answered fragments) files outputs) :
    List.Forall₂ (fun d output => output.path = d.1.path ∧
        Documents.serialize d.2 = .ok output.data)
      (documentSetsOf answered files) (outputs.filter (·.kind = .yaml)) := by
  induction h with
  | nil => exact .nil
  | @cons f output files outputs one _ ih =>
      rw [documentSetsOf, Named.table, List.filterMap_cons]
      cases one with
      | documents found written =>
          have hkind := yaml _ (Named.mem_of_lookup_eq_some found)
          rw [found, List.filter_cons_of_pos (by simpa using hkind)]
          exact .cons ⟨rfl, written⟩ ih
      | fragment none found =>
          have hkind := other _ (Named.mem_of_lookup_eq_some found)
          rw [none, List.filter_cons_of_neg (by simpa using hkind)]
          exact ih

/-! ## The result -/

/-- Whether a result is what another one says of the files with certain paths.
The rendered files and the exports tell their paths; the documents are those of
files, which are written in the rendered YAML files of the other result. -/
structure EvalResult.PickedFrom (r' r : EvalResult) (p : Text → Bool)
    (accessible : List Located) : Prop where
  files : r'.files = r.files.filter fun output => p output.path
  exports : r'.exports = r.exports.filter fun names => p names.path
  docs : ∃ documents : DocumentSets, (∀ d ∈ documents, d.1 ∈ accessible) ∧
    List.Forall₂ (fun d output => output.path = d.1.path ∧
      Documents.serialize d.2 = .ok output.data) documents (r.files.filter (·.kind = .yaml)) ∧
    r.docs = documents.flatMap (·.2) ∧
    r'.docs = (documents.filter fun d => p d.1.path).flatMap (·.2)

/-- The documents of a pass are those of YAML files among its files, and its texts
are of other kinds. -/
private theorem Pass.kinds {v : Scene σ} {files visited : List Located} {w w' : σ}
    {pieces : List Piece} {consumed : List DataValues}
    (pass : Pass v files w (.ok (pieces, consumed)) visited w') (nodup : files.Nodup) :
    (∀ f ∈ (documentSets pieces).map (·.1), f ∈ files ∧ f.file.kind = .yaml) ∧
      ∀ d ∈ textFragments pieces, d.2.kind ≠ .yaml := by
  obtain ⟨hkeys, hkinds⟩ := pass.keys nodup
  constructor
  · intro f hf
    rw [hkeys] at hf
    obtain ⟨hfile, hdocuments⟩ := List.mem_filter.mp hf
    simp only [File.isDocuments, Bool.and_eq_true, decide_eq_true_eq] at hdocuments
    exact ⟨hfile, hdocuments.2⟩
  · intro d hd
    have hmem := List.mem_map_of_mem (f := fun d => (d.1, d.2.path, d.2.kind)) hd
    rw [hkinds] at hmem
    obtain ⟨f, hf, heq⟩ := List.mem_map.mp hmem
    have hkind : f.file.kind = d.2.kind := congrArg (·.2.2) heq
    have hother := (List.mem_filter.mp hf).2
    rw [← hkind]
    intro hyaml
    simp [File.isDocuments, hyaml] at hother

/-- **Evaluating some of the files.** An evaluation that is complete is complete
for some of its files as well, and its result and its calls are picked out of
those for all files. -/
theorem Outcome.pick {c : Collaborators σ} {seed : Seed} {a : ContextAnswers} {o : FileOverlay}
    {e e' : Engine σ} {root : Library} {m : Marks} {files : List Located} {r : EvalResult}
    {calls : List Call} {w w₁ : σ} (perFile : c.PerFile seed a o) (answers : e.AnswersIn a)
    (answers' : e'.AnswersIn a) (nodup : files.Nodup)
    (h : Outcome c ⟨e, root, m, []⟩ files w (.ok r) calls w₁) (p : Text → Bool) (w' : σ) :
    ∃ r' calls' w₁',
      Outcome c ⟨e', root, m, []⟩ (files.filter fun f => p f.path) w' (.ok r') calls' w₁' ∧
      r'.PickedFrom r p files ∧
      calls'.filter (·.located?.isSome) =
        calls.filter fun call => call.located?.any fun f => p f.path := by
  cases h with
  | @complete pieces consumed _ answered _ _ _ outputs w₁ _ pass used together run order rendered =>
      obtain ⟨rfl, rfl, rfl⟩ := together.eq
      obtain rfl := inOrder_iff_ordered.mp order
      obtain ⟨consumed', w₂, pass'⟩ := pass.pick answers answers' p rfl w'
      obtain ⟨hsets, htexts⟩ := pass.sets nodup
      obtain ⟨hsets', htexts'⟩ := pass'.sets (nodup.filter _)
      obtain ⟨hdocuments, hfragments, hexports⟩ := pieces_pick p pieces
      rw [hdocuments, ← hsets] at hsets'
      rw [hfragments, ← htexts] at htexts'
      obtain ⟨hkeys, hkinds⟩ := pass.keys nodup
      have hgiven : ((documentSets pieces).map (·.1)).Nodup := by
        rw [hkeys]
        exact nodup.filter _
      obtain ⟨hperm, answered', w₃, run', picked⟩ := perFile.pick hgiven run p w₂
      have hanswered : (answered.map (·.1)).Nodup := hperm.nodup_iff.mpr hgiven
      obtain ⟨hyaml, hother⟩ := pass.kinds nodup
      have hmem : ∀ d ∈ answered, d.1 ∈ files ∧ d.1.file.kind = .yaml := fun d hd =>
        hyaml _ (hperm.subset (List.mem_map_of_mem hd))
      have hpaths : ∀ f output, Renders answered (textFragments pieces) f output →
          output.path = f.path := fun f output one => (one.path_kind hkinds).1
      have hrendered := rendered_pick picked hanswered hpaths rendered
      rw [← orderedFiles_pick picked, ← htexts'] at hrendered
      rw [← hsets'] at run'
      refine ⟨_, _, w₃,
        .complete pass' rfl (gathered _) run' (inOrder_iff_ordered.mpr rfl) hrendered,
        ⟨rfl, hexports, ?_⟩, ?_⟩
      · refine ⟨documentSetsOf answered (orderedFiles answered (textFragments pieces)), ?_,
          rendered_documents (fun d hd => (hmem d hd).2) hother rendered, documentsOf_eq _ _, ?_⟩
        · intro d hd
          obtain ⟨-, hlookup⟩ := Named.mem_table.mp hd
          exact (hmem d (Named.mem_of_lookup_eq_some hlookup)).1
        · rw [← documentSetsOf_pick picked hanswered, ← orderedFiles_pick picked, ← htexts']
          exact documentsOf_eq _ _
      · rw [List.filter_append, List.filter_append, engineCalls_located, engineCalls_pick]
        rfl

/-- **The result of a nested library.** Let a library be part of a tree that is
grown from different relative paths, and let it be evaluated without library
values, by collaborators that treat every file on its own. If that succeeds, so
does evaluating any library that it exposes, with the same values and decisions
on output. The rendered files, the exports and the documents are those that have
paths of the nested library; they have the same paths from the root and the same
contents, and are in the same order. The engine is called on the files of the
nested library as it was before, in the same contexts, and on no others. -/
theorem eval_nested (files : List File) (l : Loader σ) (nested : Library) (values : DataValues)
    (librarySchemas : List DocumentSchema) (a : ContextAnswers) (o : FileOverlay)
    (s s' : Session σ) (r : EvalResult) (relative : ∀ f ∈ files, Path.Relative f.path)
    (distinct : (files.map (·.path)).Nodup) (within : l.library.Within (.ofFiles files))
    (exposed : nested.Exposed l.library)
    (perFile : l.collaborators.PerFile ⟨values, [], librarySchemas⟩ a o)
    (same : s'.marks = s.marks)
    (ok : (l.eval values [] librarySchemas).outcome s = .ok (.ok r)) :
    let inner := l.forLibrary nested
    let below (path : Text) : Bool := path ∈ nested.paths
    let outerCalls := ((l.recorded.eval values [] librarySchemas).apply
      (s.recorded [])).2.world.calls
    let innerCalls := ((inner.recorded.eval values [] librarySchemas).apply
      (s'.recorded [])).2.world.calls
    ∃ r', (inner.eval values [] librarySchemas).outcome s' = .ok (.ok r') ∧
      r'.PickedFrom r below l.library.accessible ∧
      innerCalls.filter (·.located?.isSome) =
        outerCalls.filter fun call => call.located?.any fun f => below f.path := by
  intro inner below outerCalls innerCalls
  have paths : l.library.paths.Nodup := Library.ofFiles_paths_nodup relative distinct within
  have nodup : l.library.accessible.Nodup :=
    (paths.sublist ((Library.accessible_sublist_all _).map _)).of_map
  rcases perFile.newEngine with some | none
  · obtain ⟨e, w, engine, answers⟩ := some s.world
    obtain ⟨e', w', engine', answers'⟩ := some s'.world
    obtain ⟨answer, calls, w₁, h, houtcome, hcalls⟩ := Loader.eval_engine [] engine
    obtain rfl := Run.attempted_eq_ok (houtcome.symm.trans ok)
    obtain ⟨r', calls', w₁', h', picked, hpicked⟩ :=
      h.pick perFile answers answers' nodup below w'
    rw [exposed.accessible_filter paths, ← same] at h'
    obtain ⟨houtcome', hcalls'⟩ := Loader.eval_of_outcome (l := inner) [] engine' h'
    refine ⟨r', houtcome', picked, ?_⟩
    rw [show innerCalls = _ from hcalls', show outerCalls = _ from hcalls]
    exact hpicked
  · obtain ⟨x, w, engine⟩ := none s.world
    obtain ⟨herror, -⟩ := Loader.eval_noEngine [] engine
    cases Run.attempted_eq_ok (herror.symm.trans ok)

/-- The result of a nested library beside an exporter. -/
theorem eval_nested_exporter :
    let tool : File := ⟨0, "tool", [], .script, true, some true, none⟩
    let note : File := ⟨1, "note", [], .yaml, true, some false, none⟩
    let files := [tool, { note with path := "sub/note" }]
    let nested : Library := ⟨"sub", "sub", [note], []⟩
    let l : Loader Unit := ⟨.ofRoot (.ofFiles files), {}, .plain fun _ => []⟩
    let s : Session Unit := ⟨[], .initial, ()⟩
    (∀ f ∈ files, Path.Relative f.path) ∧ (files.map (·.path)).Nodup ∧
      l.library.Within (.ofFiles files) ∧ nested.Exposed l.library ∧
      ∃ r r', (l.eval .empty [] []).outcome s = .ok (.ok r) ∧
        ((l.forLibrary nested).eval .empty [] []).outcome s = .ok (.ok r') ∧
        r'.files = r.files.filter fun output => decide (output.path ∈ nested.paths) := by
  intro tool note files nested l s
  have relative : ∀ f ∈ files, Path.Relative f.path := by decide
  have distinct : (files.map (·.path)).Nodup := by decide
  have within : l.library.Within (.ofFiles files) := .here
  have tree : l.library = ⟨[], [], [tool], [nested]⟩ := by decide +kernel
  have exposed : nested.Exposed l.library := by
    rw [tree]
    exact .inside (List.mem_singleton_self nested) (by decide +kernel) .here
  have success : (l.eval .empty [] []).succeeds s = true := by decide +kernel
  obtain ⟨r, ok⟩ := Run.succeeds_iff.mp success
  obtain ⟨r', ok', picked, -⟩ := eval_nested files l nested .empty [] _ _ s s r relative distinct
    within exposed (Collaborators.plain_perFile (fun _ => []) _) rfl ok
  exact ⟨relative, distinct, within, exposed, r, r', ok, ok', picked.files⟩

end Stencil
