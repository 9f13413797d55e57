import Stencil.Proofs.Evaluation.Answers
import Stencil.Proofs.Evaluation.Outcome
import Stencil.Proofs.Failure
import Stencil.Proofs.Text.Named

/-!
# Evaluation by file

If what an engine answers for a file depends on that file alone, and the
post-processor treats the documents of every file on their own, then so does
an evaluation. Whether it succeeds is a property of the addresses of the
accessible files, whatever their order: `Succeeds` says which. If it does,
what is looked up for a file is a function of its address.

## Main definitions

* `Overlay`, `Collaborators.ByFile` — collaborators that answer by file.
* `Succeeds` — when an evaluation succeeds, from addresses.

## Main results

* `Collaborators.plain_byFile` — there are such collaborators.
* `Outcome.ok_iff_succeeds` — an evaluation succeeds exactly then.
* `Outcome.unused_of_clean` — what fails it if only values are left over.
* `Outcome.complete_byFile` — what a complete result is made of.
-/

namespace Stencil

variable {σ : Type}

/-- What overlays make of the documents of the file at an address. -/
abbrev Overlay := Text × File → List Document → Except Failure (List Document)

/-- Whether document sets are others with an overlay applied to each. -/
def Overlay.Applied (o : Overlay) (sets done : DocumentSets) : Prop :=
  List.Forall₂ (fun p q => q.1 = p.1 ∧ o p.1.address p.2 = .ok q.2) sets done

/-- Whether collaborators answer by file. An engine can always be made, and
answers by file, or never; the post-processor, given one document set for
each of some files, treats every one on its own and fails if that fails for
one of them. It may return the sets in another order. -/
structure Collaborators.ByFile (c : Collaborators σ) (seed : Seed) (a : Answers) (o : Overlay) :
    Prop where
  newEngine :
    (∀ w, ∃ e w', Action.apply (c.newEngine seed) w = (.ok e, w') ∧ e.AnswersBy a) ∨
      ∀ w, ∃ x w', Action.apply (c.newEngine seed) w = (.error x, w')
  applied : ∀ sets done w, (sets.map (·.1)).Nodup → o.Applied sets done →
    ∃ answered w', Action.apply (c.postProcess sets) w = (.ok answered, w') ∧ answered.Perm done
  broken : ∀ sets w, (sets.map (·.1)).Nodup → (¬ ∃ done, o.Applied sets done) →
    ∃ x w', Action.apply (c.postProcess sets) w = (.error x, w')

namespace Overlay

variable {o : Overlay} {sets done : DocumentSets}

/-- An overlay that fails for no file can be applied. -/
private theorem exists_applied (h : ∀ p ∈ sets, ∃ docs, o p.1.address p.2 = .ok docs) :
    ∃ done, o.Applied sets done := by
  induction sets with
  | nil => exact ⟨[], .nil⟩
  | cons p sets ih =>
      obtain ⟨docs, hdocs⟩ := h p (List.mem_cons_self ..)
      obtain ⟨done, hdone⟩ := ih fun q hq => h q (List.mem_cons_of_mem _ hq)
      exact ⟨(p.1, docs) :: done, .cons ⟨rfl, hdocs⟩ hdone⟩

/-- An overlay that was applied failed for no file. -/
private theorem Applied.ok (h : o.Applied sets done) :
    ∀ p ∈ sets, ∃ docs, o p.1.address p.2 = .ok docs := by
  intro p hp
  obtain ⟨q, -, hdocs⟩ := exists_of_forall₂ h p hp
  exact ⟨q.2, hdocs⟩

/-- The sets with an overlay applied, file by file. -/
private theorem Applied.eq_filterMap (h : o.Applied sets done) :
    done = sets.filterMap fun p => (o p.1.address p.2).toOption.map (p.1, ·) := by
  induction h with
  | nil => rfl
  | @cons p q sets done one _ ih =>
      rw [List.filterMap_cons, one.2, ← ih]
      exact congrArg (· :: done) (Prod.ext one.1 rfl)

/-- The files stay the same. -/
private theorem Applied.files (h : o.Applied sets done) :
    done.map (·.1) = sets.map (·.1) := by
  induction h with
  | nil => rfl
  | cons one _ ih => rw [List.map_cons, List.map_cons, one.1, ih]

end Overlay

namespace Answers

variable (a : Answers) (m : Marks) (tracked : List DataValues)

/-- The documents of the file at an address with an overlay applied. -/
def overlaid? (o : Overlay) (x : Text × File) : Option (List Document) :=
  (a.documents? m tracked x).bind fun docs => (o x docs).toOption

end Answers

/-- When an evaluation succeeds, from the addresses of the accessible files:
every file is clean, all values are consumed, and the documents of every file
can be overlaid and written. -/
structure Succeeds (a : Answers) (o : Overlay) (m : Marks) (tracked : List DataValues)
    (addresses : List (Text × File)) : Prop where
  clean : ∀ x ∈ addresses, a.Clean m tracked x
  used : unconsumed tracked (addresses.flatMap (a.consumed m tracked)) = []
  written : ∀ x ∈ addresses, ∀ docs, a.documents? m tracked x = some docs →
    ∃ done bytes, o x docs = .ok done ∧ Documents.serialize done = .ok bytes

/-- The unconsumed values depend only on which values were used. -/
theorem unconsumed_perm (tracked : List DataValues) {used used' : List DataValues}
    (h : used.Perm used') : unconsumed tracked used = unconsumed tracked used' := by
  refine List.filter_congr fun v _ => ?_
  rw [h.any_eq]

/-- Success does not depend on the order of addresses. -/
theorem Succeeds.of_perm {a : Answers} {o : Overlay} {m : Marks} {tracked : List DataValues}
    {addresses addresses' : List (Text × File)} (perm : addresses.Perm addresses')
    (h : Succeeds a o m tracked addresses) : Succeeds a o m tracked addresses' where
  clean x hx := h.clean x (perm.symm.subset hx)
  used := by
    rw [← unconsumed_perm tracked (perm.flatMap_right _)]
    exact h.used
  written x hx := h.written x (perm.symm.subset hx)

/-- The answers of an engine without expressions. -/
def Answers.plain (documents : File → List Document) : Answers
  | .yaml, _, f => .ok ⟨[], [], .documents (documents f)⟩
  | .text, _, f => .ok ⟨[], [], .text f.path⟩
  | .script, _, _ => .ok ⟨[], [], .nothing⟩

/-- Collaborators without expressions answer by file, and leave documents as
they are. -/
theorem Collaborators.plain_byFile (documents : File → List Document) (seed : Seed) :
    (plain documents : Collaborators σ).ByFile seed (.plain documents) fun _ docs => .ok docs where
  newEngine := by
    refine .inl fun w => ⟨.plain documents, w, rfl, ?_⟩
    intro k context f w'
    cases k <;> rfl
  applied sets done w nodup h := by
    refine ⟨sets, w, rfl, .of_eq ?_⟩
    clear nodup
    induction h with
    | nil => rfl
    | cons one _ ih => rw [ih, Prod.ext one.1 (Except.ok.inj one.2).symm]
  broken sets w _ h := by
    refine absurd ⟨sets, ?_⟩ h
    exact List.forall₂_same.mpr fun p _ => ⟨rfl, rfl⟩

/-! ## One evaluation -/

section One

variable {c : Collaborators σ} {seed : Seed} {a : Answers} {o : Overlay} {e : Engine σ}
  {root : Library} {m : Marks} {tracked : List DataValues} {files : List Located}
  {pieces : List Piece} {consumed : List DataValues} {w w₁ w₂ : σ}

/-- The values consumed in a pass are those of the addresses. -/
private theorem consumed_addresses (answersBy : e.AnswersBy a)
    (pass : Pass ⟨e, root, m, tracked⟩ files w (.ok (pieces, consumed)) files w₁) :
    consumed = (files.map Located.address).flatMap (a.consumed m tracked) := by
  rw [(pass.clean answersBy rfl).2.2, List.flatMap_map]

/-- The document sets of a pass are those of its files. -/
private theorem documentSets_pass (answersBy : e.AnswersBy a) (nodup : files.Nodup)
    (pass : Pass ⟨e, root, m, tracked⟩ files w (.ok (pieces, consumed)) files w₁) :
    documentSets pieces = Named.table (fun f => a.documents? m tracked f.address) files := by
  rw [(pass.clean answersBy rfl).2.1, Answers.documentSets_pieces nodup]

/-- No file has two document sets. -/
private theorem documentSets_nodup (answersBy : e.AnswersBy a) (nodup : files.Nodup)
    (pass : Pass ⟨e, root, m, tracked⟩ files w (.ok (pieces, consumed)) files w₁) :
    ((documentSets pieces).map (·.1)).Nodup := by
  rw [documentSets_pass answersBy nodup pass, Named.table_names]
  exact nodup.filter _

private theorem textFragments_pass (answersBy : e.AnswersBy a) (nodup : files.Nodup)
    (pass : Pass ⟨e, root, m, tracked⟩ files w (.ok (pieces, consumed)) files w₁) :
    textFragments pieces = Named.table (fun f => a.fragment? m tracked f.address) files := by
  rw [(pass.clean answersBy rfl).2.1, Answers.textFragments_pieces nodup]

variable {answered : DocumentSets}

/-- What the post-processor answers, looked up file by file. -/
private theorem answered_byFile (byFile : c.ByFile seed a o) (answersBy : e.AnswersBy a)
    (nodup : files.Nodup)
    (pass : Pass ⟨e, root, m, tracked⟩ files w (.ok (pieces, consumed)) files w₁)
    (run : Action.apply (c.postProcess (documentSets pieces)) w₁ = (.ok answered, w₂)) :
    (∀ p ∈ documentSets pieces, ∃ docs, o p.1.address p.2 = .ok docs) ∧
      (∀ f ∈ files, answered.lookup f = a.overlaid? m tracked o f.address) ∧
      (answered.map (·.1)).Perm
        (files.filter fun f => (a.documents? m tracked f.address).isSome) := by
  have hgiven := documentSets_nodup answersBy nodup pass
  by_cases happlied : ∃ done, o.Applied (documentSets pieces) done
  · obtain ⟨done, hdone⟩ := happlied
    obtain ⟨answered', w', hrun, hperm⟩ := byFile.applied _ done w₁ hgiven hdone
    rw [run] at hrun
    cases hrun
    have hsets := documentSets_pass answersBy nodup pass
    have hfiles : done.map (·.1) =
        files.filter fun f => (a.documents? m tracked f.address).isSome := by
      rw [hdone.files, hsets, Named.table_names]
    have hkeys : (done.map (·.1)).Nodup := hfiles ▸ nodup.filter _
    refine ⟨hdone.ok, ?_, hfiles ▸ hperm.map _⟩
    intro f hf
    rw [← Named.lookup_of_perm hperm.symm hkeys, hdone.eq_filterMap, hsets,
      Named.filterMap_table (fun (f : Located) docs => (o f.address docs).toOption),
      Named.lookup_table hf]
    rfl
  · obtain ⟨x, w', hrun⟩ := byFile.broken _ w₁ hgiven happlied
    rw [run] at hrun
    cases hrun

/-- The files of an evaluation in order are those that have documents, and
those that have a text. -/
private theorem ordered_addresses {fragments : Fragments}
    (keys : (answered.map (·.1)).Perm
      (files.filter fun f => (a.documents? m tracked f.address).isSome))
    (texts : fragments = Named.table (fun f => a.fragment? m tracked f.address) files) :
    ((answered.map (·.1) ++ fragments.map (·.1)).map Located.address).Perm
      ((files.map Located.address).filter (fun x => (a.documents? m tracked x).isSome) ++
        (files.map Located.address).filter fun x => (a.fragment? m tracked x).isSome) := by
  rw [texts, Named.table_names, List.map_append, List.filter_map, List.filter_map]
  exact (keys.map _).append_right _

/-- The files of an evaluation in order are among its files. -/
private theorem mem_of_mem_ordered {fragments : Fragments}
    (keys : (answered.map (·.1)).Perm
      (files.filter fun f => (a.documents? m tracked f.address).isSome))
    (texts : fragments = Named.table (fun f => a.fragment? m tracked f.address) files) :
    ∀ f ∈ orderedFiles answered fragments, f ∈ files := by
  intro f hf
  have hmem : f ∈ answered.map (·.1) ++ fragments.map (·.1) :=
    (List.mergeSort_perm _ _).subset hf
  rcases List.mem_append.mp hmem with hmem | hmem
  · exact (List.mem_filter.mp (keys.subset hmem)).1
  · rw [texts, Named.table_names] at hmem
    exact (List.mem_filter.mp hmem).1

/-- A file with documents has them overlaid in the answer of the
post-processor. -/
private theorem lookup_of_documents {f : Located} {docs done : List Document}
    (found : ∀ g ∈ files, answered.lookup g = a.overlaid? m tracked o g.address)
    (mem : f ∈ files) (hdocs : a.documents? m tracked f.address = some docs)
    (hdone : o f.address docs = .ok done) : answered.lookup f = some done := by
  rw [found f mem, Answers.overlaid?, hdocs, Option.bind_some, hdone]
  rfl

/-- Documents in the answer of the post-processor are those of a file,
overlaid. -/
private theorem documents_of_lookup {f : Located} {done : List Document}
    (found : ∀ g ∈ files, answered.lookup g = a.overlaid? m tracked o g.address)
    (mem : f ∈ files) (h : answered.lookup f = some done) :
    ∃ docs, a.documents? m tracked f.address = some docs ∧ o f.address docs = .ok done := by
  rw [found f mem] at h
  obtain ⟨docs, hdocs, hdone⟩ := Option.bind_eq_some_iff.mp h
  refine ⟨docs, hdocs, ?_⟩
  cases ho : o f.address docs with
  | error x => rw [ho] at hdone; cases hdone
  | ok d => rw [ho] at hdone; cases hdone; rfl

/-- A complete evaluation succeeds by its addresses. -/
private theorem Outcome.succeeds {r : EvalResult} {calls : List Call} {w' : σ}
    (byFile : c.ByFile seed a o) (answersBy : e.AnswersBy a) (nodup : files.Nodup)
    (h : Outcome c ⟨e, root, m, tracked⟩ files w (.ok r) calls w') :
    Succeeds a o m tracked (files.map Located.address) := by
  cases h with
  | @complete pieces consumed _ answered _ _ _ outputs w₁ _ pass used together run order rendered =>
      obtain ⟨rfl, rfl, rfl⟩ := together.eq
      obtain rfl := inOrder_iff_ordered.mp order
      obtain ⟨hclean, -, -⟩ := pass.clean answersBy rfl
      obtain ⟨hoverlay, hfound, hkeys⟩ := answered_byFile byFile answersBy nodup pass run
      have hsets := documentSets_pass answersBy nodup pass
      refine ⟨?_, ?_, ?_⟩
      · intro x hx
        obtain ⟨f, hf, rfl⟩ := List.mem_map.mp hx
        exact hclean f hf
      · rw [← consumed_addresses answersBy pass]
        exact used
      · intro x hx docs hdocs
        obtain ⟨f, hf, rfl⟩ := List.mem_map.mp hx
        obtain ⟨done, hdone⟩ := hoverlay (f, docs) (hsets ▸ Named.mem_table.mpr ⟨hf, hdocs⟩)
        have hlookup := lookup_of_documents hfound hf hdocs hdone
        have hmem : f ∈ orderedFiles answered (textFragments pieces) := by
          refine (List.mergeSort_perm _ _).symm.subset (List.mem_append_left _ ?_)
          exact hkeys.symm.subset (List.mem_filter.mpr ⟨hf, by rw [hdocs]; rfl⟩)
        obtain ⟨output, one⟩ := exists_of_forall₂ rendered f hmem
        cases one with
        | documents found written =>
            rw [hlookup] at found
            cases found
            exact ⟨done, _, hdone, written⟩
        | fragment none =>
            rw [hlookup] at none
            cases none

/-- An evaluation that succeeds by its addresses is complete. -/
private theorem Outcome.ok_of_succeeds {answer : Except Failure EvalResult} {calls : List Call}
    {w' : σ} (byFile : c.ByFile seed a o) (answersBy : e.AnswersBy a) (nodup : files.Nodup)
    (h : Outcome c ⟨e, root, m, tracked⟩ files w answer calls w')
    (success : Succeeds a o m tracked (files.map Located.address)) : ∃ r, answer = .ok r := by
  cases h with
  | file pass =>
      obtain ⟨p, hp⟩ := pass.ok_of_clean answersBy fun f hf =>
        success.clean _ (List.mem_map_of_mem hf)
      cases hp
  | unused pass left =>
      rw [consumed_addresses answersBy pass] at left
      exact absurd success.used left
  | @postProcessing pieces consumed _ _ _ x _ w₁ _ pass used together run =>
      obtain ⟨rfl, rfl, rfl⟩ := together.eq
      have happlied : ∃ done, o.Applied (documentSets pieces) done := by
        refine Overlay.exists_applied fun p hp => ?_
        rw [documentSets_pass answersBy nodup pass] at hp
        obtain ⟨hf, hdocs⟩ := Named.mem_table.mp hp
        obtain ⟨done, -, hdone, -⟩ := success.written _ (List.mem_map_of_mem hf) _ hdocs
        exact ⟨done, hdone⟩
      obtain ⟨done, hdone⟩ := happlied
      obtain ⟨answered, w'', hrun, -⟩ := byFile.applied _ done w₁
        (documentSets_nodup answersBy nodup pass) hdone
      rw [run] at hrun
      cases hrun
  | @unserialisable pieces consumed _ answered _ _ before after f docs x w₁ _ pass used together
      run order rendered found broken =>
      obtain ⟨rfl, rfl, rfl⟩ := together.eq
      have order : orderedFiles answered _ = _ := (inOrder_iff_ordered.mp order).symm
      obtain ⟨-, hfound, hkeys⟩ := answered_byFile byFile answersBy nodup pass run
      have hmem : f ∈ files := by
        refine mem_of_mem_ordered hkeys (textFragments_pass answersBy nodup pass) f ?_
        rw [order]
        exact List.mem_append_right _ (List.mem_cons_self ..)
      obtain ⟨before, hdocs, hdone⟩ := documents_of_lookup hfound hmem found
      obtain ⟨done, bytes, hdone', written⟩ :=
        success.written _ (List.mem_map_of_mem hmem) _ hdocs
      rw [hdone] at hdone'
      cases hdone'
      rw [broken] at written
      cases written
  | complete => exact ⟨_, rfl⟩

/-- **An evaluation succeeds** exactly if the addresses of its files say so. -/
theorem Outcome.ok_iff_succeeds {answer : Except Failure EvalResult} {calls : List Call} {w' : σ}
    (byFile : c.ByFile seed a o) (answersBy : e.AnswersBy a) (nodup : files.Nodup)
    (h : Outcome c ⟨e, root, m, tracked⟩ files w answer calls w') :
    (∃ r, answer = .ok r) ↔ Succeeds a o m tracked (files.map Located.address) := by
  constructor
  · rintro ⟨r, rfl⟩
    exact h.succeeds byFile answersBy nodup
  · exact h.ok_of_succeeds byFile answersBy nodup

/-- If all files are clean but some values stay unconsumed, that is the
failure. -/
theorem Outcome.unused_of_clean {answer : Except Failure EvalResult} {calls : List Call}
    {w' : σ} (answersBy : e.AnswersBy a)
    (h : Outcome c ⟨e, root, m, tracked⟩ files w answer calls w')
    (clean : ∀ x ∈ files.map Located.address, a.Clean m tracked x)
    (left : unconsumed tracked
      ((files.map Located.address).flatMap (a.consumed m tracked)) ≠ []) :
    answer = .error (.error (.unusedValues ((unconsumed tracked
      ((files.map Located.address).flatMap (a.consumed m tracked))).map (·.desc))) none) := by
  cases h with
  | file pass =>
      obtain ⟨p, hp⟩ := pass.ok_of_clean answersBy fun f hf => clean _ (List.mem_map_of_mem hf)
      cases hp
  | unused pass =>
      rw [consumed_addresses answersBy pass]
  | postProcessing pass used =>
      rw [consumed_addresses answersBy pass] at used
      exact absurd used left
  | unserialisable pass used =>
      rw [consumed_addresses answersBy pass] at used
      exact absurd used left
  | complete pass used =>
      rw [consumed_addresses answersBy pass] at used
      exact absurd used left

/-- **What a complete result is made of**: what is looked up for a file is a
function of its address, and so are the exports. -/
theorem Outcome.complete_byFile {r : EvalResult} {calls : List Call} {w' : σ}
    (byFile : c.ByFile seed a o) (answersBy : e.AnswersBy a) (nodup : files.Nodup)
    (h : Outcome c ⟨e, root, m, tracked⟩ files w (.ok r) calls w') :
    ∃ answered fragments,
      (∀ f ∈ orderedFiles answered fragments,
        answered.lookup f = a.overlaid? m tracked o f.address ∧
        fragments.lookup f = a.fragment? m tracked f.address) ∧
      ((answered.map (·.1) ++ fragments.map (·.1)).map Located.address).Perm
        ((files.map Located.address).filter (fun x => (a.documents? m tracked x).isSome) ++
          (files.map Located.address).filter fun x => (a.fragment? m tracked x).isSome) ∧
      List.Forall₂ (Renders answered fragments) (orderedFiles answered fragments) r.files ∧
      r.docs = documentsOf answered (orderedFiles answered fragments) ∧
      r.exports = (files.map Located.address).filterMap (a.names? m tracked) := by
  cases h with
  | @complete pieces consumed _ answered _ _ _ outputs w₁ _ pass used together run order rendered =>
      obtain ⟨rfl, rfl, rfl⟩ := together.eq
      obtain rfl := inOrder_iff_ordered.mp order
      obtain ⟨-, hfound, hkeys⟩ := answered_byFile byFile answersBy nodup pass run
      have htexts := textFragments_pass answersBy nodup pass
      have hmem := mem_of_mem_ordered hkeys htexts
      refine ⟨answered, textFragments pieces, ?_, ordered_addresses hkeys htexts, rendered, rfl,
        ?_⟩
      · intro f hf
        exact ⟨hfound f (hmem f hf), by rw [htexts, Named.lookup_table (hmem f hf)]⟩
      · rw [(pass.clean answersBy rfl).2.1]
        exact Answers.exportsOf_pieces

end One

end Stencil
