import Stencil.Proofs.Evaluation.ByFile
import Stencil.Proofs.Evaluation.Operations
import Stencil.Proofs.Library.Sorting

/-!
# The order in which files are given

The same files given in another order make another tree: its libraries and
their files come in another order, and so do the visits of an evaluation,
the values it consumes, and the documents and texts it collects. If the
collaborators answer by file, none of this shows in the result.

The proof goes by addresses. Whether an evaluation succeeds is a property of
the addresses of the accessible files, and so is what is looked up for each
of them. The addresses are the same for both trees, and in the order of files
they are also in the same order.

## Main results

* `Outcome.complete_perm` — complete evaluations of the same addresses.
* `eval_perm` — evaluations of the same files in two orders.
-/

namespace Stencil

variable {σ : Type}

/-! ## Rendering by address -/

section Two

variable {answered answered' : DocumentSets} {fragments fragments' : Fragments}
  {order order' : List Located} {outputs outputs' : List OutputFile}
  {documents : Text × File → Option (List Document)} {texts : Text × File → Option OutputFile}

/-- Files with one address have one path and one kind. -/
private theorem Located.path_of_address {f g : Located} (h : f.address = g.address) :
    f.path = g.path ∧ f.file.kind = g.file.kind := by
  obtain ⟨hpath, hfile⟩ := Prod.mk.inj h
  have hlib : f.library.path = g.library.path := hpath
  have hfg : f.file = g.file := hfile
  simp [path, hlib, hfg]

/-- Files with one address are rendered alike, if the same is looked up for
them. -/
private theorem Renders.unique {f g : Located} {output output' : OutputFile}
    (same : f.address = g.address) (hdocs : answered.lookup f = answered'.lookup g)
    (htext : fragments.lookup f = fragments'.lookup g) (h : Renders answered fragments f output)
    (h' : Renders answered' fragments' g output') : output = output' := by
  obtain ⟨hpath, hkind⟩ := Located.path_of_address same
  cases h with
  | documents found written =>
      cases h' with
      | documents found' written' =>
          rw [← hdocs, found] at found'
          cases found'
          rw [written] at written'
          cases written'
          rw [hpath, hkind]
      | fragment none' =>
          rw [← hdocs, found] at none'
          cases none'
  | fragment none found =>
      cases h' with
      | documents found' =>
          rw [← hdocs, none] at found'
          cases found'
      | fragment _ found' =>
          rw [← htext, found] at found'
          cases found'
          rfl

/-- Files with the same addresses are rendered alike, if what is looked up
for them is a function of the address. -/
private theorem rendered_unique
    (same : order.map Located.address = order'.map Located.address)
    (found : ∀ f ∈ order, answered.lookup f = documents f.address ∧
      fragments.lookup f = texts f.address)
    (found' : ∀ f ∈ order', answered'.lookup f = documents f.address ∧
      fragments'.lookup f = texts f.address)
    (h : List.Forall₂ (Renders answered fragments) order outputs)
    (h' : List.Forall₂ (Renders answered' fragments') order' outputs') : outputs = outputs' := by
  induction h generalizing order' outputs' with
  | nil =>
      obtain rfl := List.map_eq_nil_iff.mp same.symm
      cases h'
      rfl
  | @cons f output order outputs one _ ih =>
      cases h' with
      | nil => cases same
      | @cons g output' order' outputs' one' rest' =>
          obtain ⟨hsame, hrest⟩ := List.cons.inj same
          obtain ⟨hdocs, htext⟩ := found f (List.mem_cons_self ..)
          obtain ⟨hdocs', htext'⟩ := found' g (List.mem_cons_self ..)
          rw [hsame, ← hdocs'] at hdocs
          rw [hsame, ← htext'] at htext
          rw [one.unique hsame hdocs htext one',
            ih hrest (fun x hx => found x (List.mem_cons_of_mem _ hx))
              (fun x hx => found' x (List.mem_cons_of_mem _ hx)) rest']

/-- Documents are a function of the addresses, if what is looked up is. -/
private theorem documentsOf_addresses
    (found : ∀ f ∈ order, answered.lookup f = documents f.address ∧
      fragments.lookup f = texts f.address) :
    documentsOf answered order =
      (order.map Located.address).flatMap fun x => (documents x).getD [] := by
  rw [List.flatMap_map, documentsOf]
  exact List.flatMap_congr fun f hf => by rw [(found f hf).1]

end Two

/-! ## Two evaluations -/

/-- A file with documents has no text. -/
private theorem fragment?_of_documents? {a : Answers} {m : Marks} {tracked : List DataValues}
    {x : Text × File} (h : (a.documents? m tracked x).isSome = true) :
    (a.fragment? m tracked x).isSome = false := by
  rw [Answers.documents?] at h
  rw [Answers.fragment?]
  cases hpart : a.part? m tracked x with
  | none => rfl
  | some p => cases p <;> simp [hpart, Part.documents?, Part.fragment?] at h ⊢

/-- Addresses picked for two reasons that exclude one another are told apart
as before. -/
private theorem nodup_filter_append {α β : Type} {key : α → β} {l : List α} {p q : α → Bool}
    (h : (l.map key).Nodup) (excluded : ∀ x, p x = true → q x = false) :
    ((l.filter p ++ l.filter q).map key).Nodup := by
  have hp : l.filter p = (l.filter fun x => p x || q x).filter p := by
    rw [List.filter_filter]
    refine List.filter_congr fun x _ => ?_
    cases p x <;> simp
  have hq : l.filter q = (l.filter fun x => p x || q x).filter (!p ·) := by
    rw [List.filter_filter]
    refine List.filter_congr fun x _ => ?_
    cases hpx : p x
    · simp
    · simp [excluded x hpx]
  have hperm : (l.filter p ++ l.filter q).Perm (l.filter fun x => p x || q x) := by
    rw [hp, hq]
    exact List.filter_append_perm _ _
  rw [(hperm.map key).nodup_iff]
  exact h.sublist (List.filter_sublist.map key)

/-- **Two complete evaluations** of files with the same addresses, which the
order of files tells apart, give the same files and the same documents, and
exports that differ only in their order. -/
theorem Outcome.complete_perm {c : Collaborators σ} {seed : Seed} {a : Answers} {o : Overlay}
    {e e' : Engine σ} {root root' : Library} {m : Marks} {tracked : List DataValues}
    {files files' : List Located} {w w' w₁ w₁' : σ} {r r' : EvalResult} {calls calls' : List Call}
    (byFile : c.ByFile seed a o) (answersBy : e.AnswersBy a) (answersBy' : e'.AnswersBy a)
    (perm : (files.map Located.address).Perm (files'.map Located.address))
    (keys : ((files.map Located.address).map sortKey).Nodup)
    (h : Outcome c ⟨e, root, m, tracked⟩ files w (.ok r) calls w₁)
    (h' : Outcome c ⟨e', root', m, tracked⟩ files' w' (.ok r') calls' w₁') :
    r.files = r'.files ∧ r.docs = r'.docs ∧ r.exports.Perm r'.exports := by
  have keys' : ((files'.map Located.address).map sortKey).Nodup :=
    (perm.map sortKey).nodup_iff.mp keys
  have hnodup : files.Nodup := keys.of_map.of_map
  have hnodup' : files'.Nodup := keys'.of_map.of_map
  obtain ⟨answered, fragments, found, hperm, rendered, docs, exports⟩ :=
    h.complete_byFile byFile answersBy hnodup
  obtain ⟨answered', fragments', found', hperm', rendered', docs', exports'⟩ :=
    h'.complete_byFile byFile answersBy' hnodup'
  have same : (orderedFiles answered fragments).map Located.address =
      (orderedFiles answered' fragments').map Located.address := by
    refine Located.sort_addresses (hperm.trans (.trans ?_ hperm'.symm)) ?_
    · exact (perm.filter _).append (perm.filter _)
    · rw [(hperm.map sortKey).nodup_iff]
      exact nodup_filter_append keys fun _ => fragment?_of_documents?
  refine ⟨rendered_unique same found found' rendered rendered', ?_, ?_⟩
  · rw [docs, docs', documentsOf_addresses found, documentsOf_addresses found', same]
  · rw [exports, exports']
    exact perm.filterMap _

/-- **The order in which files are given** does not show in the result. If
their paths are plain and all different and the collaborators answer by file,
evaluations of the same files in two orders, under the same decisions on
output, both succeed or both fail. If they succeed, the rendered files and
the documents are the same, and the exports differ only in their order. If
all files are clean but some value stays unconsumed, both fail and name the
same unused values. -/
theorem eval_perm (files files' : List File) (config : LoaderConfig) (c : Collaborators σ)
    (a : Answers) (o : Overlay) (values : DataValues) (libraryValues : List DataValues)
    (librarySchemas : List DocumentSchema) (s s' : Session σ) (perm : files.Perm files')
    (plain : ∀ f ∈ files, Path.Plain f.path) (distinct : (files.map (·.path)).Nodup)
    (byFile : c.ByFile ⟨values, libraryValues, librarySchemas⟩ a o)
    (marks : s'.marks = s.marks) :
    let addresses := (Library.ofFiles files).addresses
    let l : Loader σ := ⟨.ofRoot (.ofFiles files), config, c⟩
    let l' : Loader σ := ⟨.ofRoot (.ofFiles files'), config, c⟩
    let run := (l.eval values libraryValues librarySchemas).outcome s
    let run' := (l'.eval values libraryValues librarySchemas).outcome s'
    ((∃ r r', run = .ok (.ok r) ∧ run' = .ok (.ok r') ∧
        r.files = r'.files ∧ r.docs = r'.docs ∧ r.exports.Perm r'.exports) ∨
      (∀ r, run ≠ .ok (.ok r)) ∧ ∀ r, run' ≠ .ok (.ok r)) ∧
    ((∃ e w, Action.apply (c.newEngine ⟨values, libraryValues, librarySchemas⟩) s.world =
        (.ok e, w)) →
      (∀ x ∈ addresses, a.Clean s.marks libraryValues x) →
      (∃ v ∈ libraryValues, ∀ x ∈ addresses,
        ∀ u ∈ a.consumed s.marks libraryValues x, u.id ≠ v.id) →
      ∃ names, names ≠ [] ∧ run = .ok (.error (.unusedValues names)) ∧
        run' = .ok (.error (.unusedValues names))) := by
  intro addresses l l' run run'
  have hperm : addresses.Perm (Library.ofFiles files').addresses :=
    Library.ofFiles_addresses_perm distinct.of_map perm
  have hkeys : (addresses.map sortKey).Nodup := Library.ofFiles_keys_nodup plain distinct
  have hkeys' := (hperm.map sortKey).nodup_iff.mp hkeys
  have hnodup : (Library.ofFiles files).accessible.Nodup := hkeys.of_map.of_map
  have hnodup' : (Library.ofFiles files').accessible.Nodup := hkeys'.of_map.of_map
  rcases byFile.newEngine with make | none
  · obtain ⟨e, w, engine, answersBy⟩ := make s.world
    obtain ⟨e', w', engine', answersBy'⟩ := make s'.world
    obtain ⟨answer, calls, w₁, h, hrun, -⟩ := Loader.eval_engine (l := l) [] engine
    obtain ⟨answer', calls', w₁', h', hrun', -⟩ := Loader.eval_engine (l := l') [] engine'
    rw [marks] at h'
    constructor
    · by_cases success : Succeeds a o s.marks libraryValues addresses
      · obtain ⟨r, rfl⟩ := (h.ok_iff_succeeds byFile answersBy hnodup).mpr success
        obtain ⟨r', rfl⟩ := (h'.ok_iff_succeeds byFile answersBy' hnodup').mpr
          (success.of_perm hperm)
        exact .inl ⟨r, r', hrun, hrun',
          h.complete_perm byFile answersBy answersBy' hperm hkeys h'⟩
      · refine .inr ⟨fun r hr => ?_, fun r hr => ?_⟩
        · obtain rfl := Run.attempted_eq_ok (hrun.symm.trans hr)
          exact success ((h.ok_iff_succeeds byFile answersBy hnodup).mp ⟨r, rfl⟩)
        · obtain rfl := Run.attempted_eq_ok (hrun'.symm.trans hr)
          have success' := (h'.ok_iff_succeeds byFile answersBy' hnodup').mp ⟨r, rfl⟩
          exact success (success'.of_perm hperm.symm)
    · rintro - clean ⟨v, hv, unused⟩
      let left := unconsumed libraryValues (addresses.flatMap (a.consumed s.marks libraryValues))
      have hleft : v ∈ left := by
        refine List.mem_filter.mpr ⟨hv, ?_⟩
        simpa using fun path file hx u hu => unused (path, file) hx u hu
      have hne : left ≠ [] := List.ne_nil_of_mem hleft
      have hsame := unconsumed_perm libraryValues
        (hperm.flatMap_right (a.consumed s.marks libraryValues))
      refine ⟨left.map (·.desc), mt List.map_eq_nil_iff.mp hne, ?_, ?_⟩
      · exact hrun.trans (congrArg Run.attempted (h.unused_of_clean answersBy clean hne))
      · simp only [left, hsame] at hne ⊢
        exact hrun'.trans (congrArg Run.attempted (h'.unused_of_clean answersBy'
          (fun x hx => clean x (hperm.symm.subset hx)) hne))
  · obtain ⟨x, w, engine⟩ := none s.world
    obtain ⟨x', w', engine'⟩ := none s'.world
    obtain ⟨hrun, -⟩ := Loader.eval_noEngine (l := l) [] engine
    obtain ⟨hrun', -⟩ := Loader.eval_noEngine (l := l') [] engine'
    constructor
    · refine .inr ⟨fun r hr => ?_, fun r hr => ?_⟩
      · cases Run.attempted_eq_ok (hrun.symm.trans hr)
      · cases Run.attempted_eq_ok (hrun'.symm.trans hr)
    · rintro ⟨e, w'', made⟩
      rw [engine] at made
      cases made

/-- Two files in either order, one of them in a directory: the results agree,
and values that neither file consumes are named by the same failure. -/
theorem eval_perm_swap :
    let f : File := ⟨0, "b/x", [], .text, true, some false, none⟩
    let g : File := ⟨1, "a", [], .yaml, true, some false, none⟩
    let v : DataValues := ⟨1, none, "overlay", some "b"⟩
    let c : Collaborators Unit := .plain fun _ => []
    let s : Session Unit := ⟨[], .initial, ()⟩
    let run (files : List File) (libraryValues : List DataValues) :=
      (Loader.eval ⟨.ofRoot (.ofFiles files), {}, c⟩ .empty libraryValues []).outcome s
    [f, g].Perm [g, f] ∧ (∀ h ∈ [f, g], Path.Plain h.path) ∧ ([f, g].map (·.path)).Nodup ∧
      (∀ seed, c.ByFile seed (.plain fun _ => []) (fun _ docs => .ok docs)) ∧
      ((∃ r r', run [f, g] [] = .ok (.ok r) ∧ run [g, f] [] = .ok (.ok r') ∧
          r.files = r'.files ∧ r.docs = r'.docs ∧ r.exports.Perm r'.exports) ∨
        (∀ r, run [f, g] [] ≠ .ok (.ok r)) ∧ ∀ r, run [g, f] [] ≠ .ok (.ok r)) ∧
      ∃ names, names ≠ [] ∧ run [f, g] [v] = .ok (.error (.unusedValues names)) ∧
        run [g, f] [v] = .ok (.error (.unusedValues names)) := by
  intro f g v c s run
  let a : Answers := .plain fun _ => []
  let x₁ : Text × File := ⟨"b", { f with path := "x" }⟩
  let x₂ : Text × File := ⟨[], g⟩
  have perm : [f, g].Perm [g, f] := .swap g f []
  have plain : ∀ h ∈ [f, g], Path.Plain h.path := by
    unfold Path.Plain
    decide
  have distinct : ([f, g].map (·.path)).Nodup := by decide
  have byFile : ∀ seed, c.ByFile seed a (fun _ docs => .ok docs) :=
    Collaborators.plain_byFile fun _ => []
  have addresses : ∀ x ∈ (Library.ofFiles [f, g]).addresses, x = x₁ ∨ x = x₂ := by
    intro x hx
    have hmem := (Library.ofFiles_addresses [f, g]).subset hx
    have hhomes : (Library.apart [f, g]).filterMap Library.home? = [x₁, x₂] := by decide
    rw [hhomes] at hmem
    simpa using hmem
  have clean : ∀ x ∈ (Library.ofFiles [f, g]).addresses, a.Clean s.marks [v] x := by
    intro x hx
    rcases addresses x hx with rfl | rfl
    · exact ⟨_, rfl⟩
    · exact ⟨_, rfl⟩
  have unused : ∀ x ∈ (Library.ofFiles [f, g]).addresses,
      ∀ u ∈ a.consumed s.marks [v] x, u.id ≠ v.id := by
    intro x hx u hu
    rcases addresses x hx with rfl | rfl <;> cases hu
  refine ⟨perm, plain, distinct, byFile, ?_, ?_⟩
  · exact (eval_perm [f, g] [g, f] {} c a (fun _ docs => .ok docs) .empty [] [] s s perm plain
      distinct (byFile _) rfl).1
  · exact (eval_perm [f, g] [g, f] {} c a (fun _ docs => .ok docs) .empty [v] [] s s perm plain
      distinct (byFile _) rfl).2 ⟨_, _, rfl⟩ clean ⟨v, List.mem_singleton.mpr rfl, unused⟩

end Stencil
