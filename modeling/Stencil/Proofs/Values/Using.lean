import Stencil.Proofs.Values.Ledger

/-!
# A ledger in use

A ledger is used in any order and any number of times: values are marked,
tracked ones and others, and questions are asked in between. What it has
entered in the end is a matter of which values were marked. A mark that is
refused leaves no trace, a second mark of a value adds nothing, and no use
takes an entry away.

A list of tracked values may hold one value several times. Its occurrences
are told apart in the report by their places, and are all used or all unused.

## Main definitions

* `Ledger.Act`, `Ledger.act`, `Ledger.acts` — using a ledger, once and several
  times.
* `Ledger.Marked` — values that some uses have marked.
* `Ledger.Entered` — the entries of a ledger are those of some uses.
* `Parted` — a list whose members are put on two sides.

## Main results

* `Ledger.Entered.act`, `Ledger.Entered.acts` — one use keeps the entries those
  of the uses so far, and so do several.
* `Ledger.report_accounts` — what a ledger reports after any uses.
-/

namespace Stencil

/-! ## Lists whose members are put on two sides -/

/-- A list whose members are put on two sides, each in its order: on the first
if they have a property, and on the second if they do not. -/
inductive Parted {α : Type} (P : α → Prop) : List α → List α → List α → Prop
  | nil : Parted P [] [] []
  | first {a : α} {as ps ns : List α} (holds : P a) (rest : Parted P as ps ns) :
      Parted P (a :: as) (a :: ps) ns
  | second {a : α} {as ps ns : List α} (fails : ¬ P a) (rest : Parted P as ps ns) :
      Parted P (a :: as) ps (a :: ns)

namespace Parted

variable {α : Type} {P : α → Prop} {as ps ns : List α}

/-- Both sides together have every member once. -/
theorem perm (h : Parted P as ps ns) : (ps ++ ns).Perm as := by
  induction h with
  | nil => exact .nil
  | first _ _ ih => exact ih.cons _
  | second _ _ ih => exact List.perm_middle.trans (ih.cons _)

/-- Nothing is on the second side exactly if all members have the property. -/
theorem second_eq_nil (h : Parted P as ps ns) : ns = [] ↔ ∀ a ∈ as, P a := by
  induction h with
  | nil => exact ⟨fun _ => nofun, fun _ => rfl⟩
  | first holds _ ih => rw [ih, List.forall_mem_cons, and_iff_right holds]
  | second fails _ _ => exact ⟨nofun, fun h => absurd (h _ (List.mem_cons_self ..)) fails⟩

/-- A test for the property puts the members on their sides. -/
theorem filter {p : α → Bool} (h : ∀ a ∈ as, p a = true ↔ P a) :
    Parted P as (as.filter p) (as.filter fun a => !p a) := by
  induction as with
  | nil => exact .nil
  | cons a as ih =>
      obtain ⟨ha, has⟩ := List.forall_mem_cons.mp h
      cases hp : p a with
      | true =>
          rw [List.filter_cons_of_pos hp, List.filter_cons_of_neg (by simp [hp])]
          exact .first (ha.mp hp) (ih has)
      | false =>
          rw [List.filter_cons_of_neg (by simp [hp]), List.filter_cons_of_pos (by simp [hp])]
          exact .second (fun holds => by simp [ha.mpr holds] at hp) (ih has)

end Parted

namespace Ledger

/-! ## Using a ledger -/

/-- A use of a ledger: entering a value, or asking for something. -/
inductive Act where
  | mark (v : DataValues)
  | isUsed (v : DataValues)
  | forLibrary (ref : Option Text)
  | report

/-- What a use is answered with. -/
inductive Reply where
  | marked (result : Except Failure Unit)
  | isUsed (answer : Bool)
  | forLibrary (vs : List DataValues)
  | report (r : UsageReport)

/-- The ledger after one use, and the answer. A mark that is refused leaves
the ledger as it is. -/
def act (l : Ledger) : Act → Ledger × Reply
  | .mark v =>
    match l.markUsed v with
    | .ok marked => (marked, .marked (.ok ()))
    | .error x => (l, .marked (.error x))
  | .isUsed v => (l, .isUsed (l.isUsed v))
  | .forLibrary ref => (l, .forLibrary (l.forLibrary ref))
  | .report => (l, .report l.report)

/-- The ledger after several uses. -/
def acts (l : Ledger) (as : List Act) : Ledger := as.foldl (fun l a => (l.act a).1) l

/-- Whether a value is among those that some uses have marked. -/
def Marked (as : List Act) (v : DataValues) : Prop := ∃ w, .mark w ∈ as ∧ w.id = v.id

theorem marked_concat {as : List Act} {a : Act} {v : DataValues} :
    Marked (as ++ [a]) v ↔ Marked as v ∨ ∃ w, a = .mark w ∧ w.id = v.id := by
  simp only [Marked, List.mem_append, List.mem_singleton, or_and_right, exists_or]
  constructor <;> rintro (h | ⟨w, hw, hid⟩)
  · exact .inl h
  · exact .inr ⟨w, hw.symm, hid⟩
  · exact .inl h
  · exact .inr ⟨w, hw.symm, hid⟩

theorem tracks_iff {l : Ledger} {v : DataValues} :
    l.tracks v = true ↔ ∃ w ∈ l.tracked, w.id = v.id := by
  simp [tracks]

/-- A mark of a value that is not tracked is refused. -/
theorem act_untracked {l : Ledger} {v : DataValues} (h : l.tracks v = false) :
    l.act (.mark v) = (l, .marked (Fault.throw (.untracked v.desc))) := by
  simp [act, markUsed, h, Fault.throw]

/-- A mark of a tracked value is entered. -/
theorem act_tracked {l : Ledger} {v : DataValues} (h : l.tracks v = true) :
    l.act (.mark v) = ({ l with used := v.id :: l.used }, .marked (.ok ())) := by
  simp [act, markUsed, h]

/-! ## What has been entered -/

/-- Whether a ledger of some tracked values has entered those of them that
some uses have marked, and nothing else. -/
structure Entered (tracked : List DataValues) (as : List Act) (l : Ledger) : Prop where
  tracked : l.tracked = tracked
  used : ∀ v, l.isUsed v = true ↔ l.tracks v = true ∧ Marked as v

/-- **One use** keeps the entries of a ledger those of the uses so far. -/
theorem Entered.act {tracked : List DataValues} {as : List Act} {l : Ledger}
    (h : Entered tracked as l) (a : Act) : Entered tracked (as ++ [a]) (l.act a).1 := by
  have of_question : (∀ w, a ≠ .mark w) → Entered tracked (as ++ [a]) l := by
    intro question
    refine ⟨h.tracked, fun v => ?_⟩
    rw [h.used, marked_concat, or_iff_left]
    rintro ⟨w, hw, -⟩
    exact question w hw
  cases a with
  | mark w =>
      cases hw : l.tracks w with
      | false =>
          rw [act_untracked hw]
          refine ⟨h.tracked, fun v => ?_⟩
          rw [h.used, marked_concat]
          constructor
          · rintro ⟨tracks, marked⟩
            exact ⟨tracks, .inl marked⟩
          · rintro ⟨tracks, marked | ⟨_, ⟨⟩, same⟩⟩
            · exact ⟨tracks, marked⟩
            · rw [tracks_iff, ← same, ← tracks_iff, hw] at tracks
              cases tracks
      | true =>
          rw [act_tracked hw]
          refine ⟨h.tracked, fun v => ?_⟩
          have entered : Ledger.isUsed { l with used := w.id :: l.used } v = true ↔
              w.id = v.id ∨ l.isUsed v = true := by
            rw [isUsed, isUsed, List.contains_cons, Bool.or_eq_true, beq_iff_eq, eq_comm]
          rw [entered, h.used, marked_concat]
          constructor
          · rintro (same | ⟨tracks, marked⟩)
            · refine ⟨?_, .inr ⟨w, rfl, same⟩⟩
              rw [tracks_iff] at hw ⊢
              rwa [same] at hw
            · exact ⟨tracks, .inl marked⟩
          · rintro ⟨tracks, marked | ⟨_, ⟨⟩, same⟩⟩
            · exact .inr ⟨tracks, marked⟩
            · exact .inl same
  | isUsed v => exact of_question (by simp)
  | forLibrary ref => exact of_question (by simp)
  | report => exact of_question (by simp)

namespace Entered

variable {tracked : List DataValues} {as : List Act} {l : Ledger}

/-- **Several uses** keep the entries of a ledger those of all uses. -/
theorem acts (h : Entered tracked as l) (after : List Act) :
    Entered tracked (as ++ after) (l.acts after) := by
  induction after generalizing as l with
  | nil => rwa [List.append_nil]
  | cons a after ih =>
      have rest : Entered tracked (as ++ [a] ++ after) ((l.act a).1.acts after) := ih (h.act a)
      rwa [List.append_assoc] at rest

theorem used_iff (h : Entered tracked as l) {v : DataValues} :
    l.isUsed v = true ↔ (∃ w ∈ tracked, w.id = v.id) ∧ Marked as v := by
  rw [h.used, tracks_iff, h.tracked]

/-- A tracked value is used exactly if it has been marked. -/
theorem used_of_mem (h : Entered tracked as l) {v : DataValues} (mem : v ∈ tracked) :
    l.isUsed v = true ↔ Marked as v :=
  h.used_iff.trans (and_iff_right ⟨v, mem, rfl⟩)

/-- The tracked values are put on the two sides of the report. -/
theorem parted (h : Entered tracked as l) :
    Parted (Marked as) tracked (tracked.filter l.isUsed)
      (tracked.filter fun v => !l.isUsed v) :=
  .filter fun _ mem => h.used_of_mem mem

end Entered

theorem ofList_entered (tracked : List DataValues) : Entered tracked [] (ofList tracked) :=
  ⟨rfl, fun v => by simp [ofList, isUsed, Marked]⟩

/-! ## Reports -/

/-- **What a ledger reports**, after whatever uses in whatever order. The
tracked values are put on two sides, every occurrence in its place: those that
have been marked are used and the others are not. A value that is used stays
used; a mark is refused exactly if the value is not tracked, and then nothing
changes; and uses that have marked the same tracked values lead to the same
report. -/
theorem report_accounts (tracked : List DataValues) (before : List Act) :
    let l := (ofList tracked).acts before
    (∃ used unused, Parted (Marked before) tracked used unused ∧ (used ++ unused).Perm tracked ∧
        l.report = ⟨used.map (·.desc), unused.map (·.desc)⟩) ∧
      (l.report.allUsed = true ↔ ∀ v ∈ tracked, Marked before v) ∧
      (∀ v, l.isUsed v = true ↔ (∃ w ∈ tracked, w.id = v.id) ∧ Marked before v) ∧
      (∀ after v, l.isUsed v = true → (l.acts after).isUsed v = true) ∧
      (∀ v, (l.act (.mark v)).2 = .marked (.ok ()) ↔ ∃ w ∈ tracked, w.id = v.id) ∧
      (∀ v, (¬ ∃ w ∈ tracked, w.id = v.id) →
        l.act (.mark v) = (l, .marked (Fault.throw (.untracked v.desc)))) ∧
      ∀ others, (∀ v ∈ tracked, Marked before v ↔ Marked others v) →
        ((ofList tracked).acts others).report = l.report := by
  intro l
  have entered : Entered tracked before l := (ofList_entered tracked).acts before
  have reported : l.report =
      ⟨(tracked.filter l.isUsed).map (·.desc), (tracked.filter fun v => !l.isUsed v).map (·.desc)⟩ := by
    rw [report, entered.tracked]
  have untracked : ∀ v, (¬ ∃ w ∈ tracked, w.id = v.id) →
      l.act (.mark v) = (l, .marked (Fault.throw (.untracked v.desc))) := by
    intro v untracked
    rw [← entered.tracked, ← tracks_iff, Bool.not_eq_true] at untracked
    exact act_untracked untracked
  refine ⟨⟨_, _, entered.parted, entered.parted.perm, reported⟩, ?_, fun _ => entered.used_iff,
    ?_, ?_, untracked, ?_⟩
  · rw [reported, UsageReport.allUsed, List.isEmpty_iff, List.map_eq_nil_iff,
      entered.parted.second_eq_nil]
  · intro after v used
    obtain ⟨mem, w, marked, same⟩ := entered.used_iff.mp used
    exact (entered.acts after).used_iff.mpr ⟨mem, w, List.mem_append_left _ marked, same⟩
  · intro v
    by_cases mem : ∃ w ∈ tracked, w.id = v.id
    · rw [iff_true_right mem]
      rw [← entered.tracked, ← tracks_iff] at mem
      rw [act_tracked mem]
    · rw [iff_false_right mem, untracked v mem]
      intro h
      cases h
  · intro others same
    have others_entered : Entered tracked others ((ofList tracked).acts others) :=
      (ofList_entered tracked).acts others
    have used_eq : ∀ v ∈ tracked, ((ofList tracked).acts others).isUsed v = l.isUsed v := by
      intro v mem
      rw [Bool.eq_iff_iff, entered.used_of_mem mem, others_entered.used_of_mem mem, same v mem]
    rw [reported, report, others_entered.tracked, List.filter_congr used_eq,
      List.filter_congr fun v mem => congrArg (!·) (used_eq v mem)]

/-- A ledger that tracks one value twice, after a mark that is refused, a mark
and a question. -/
theorem report_accounts_repeated :
    let a : DataValues := ⟨1, none, "values", some "lib"⟩
    let b : DataValues := ⟨2, none, "values", some "lib"⟩
    let stranger : DataValues := ⟨3, none, "values", some "lib"⟩
    let l := (ofList [a, b, a]).acts [.mark stranger, .mark a, .isUsed b]
    l.isUsed a = true ∧ (l.acts [.mark stranger, .report]).isUsed a = true ∧
      (¬ ∃ w ∈ [a, b, a], w.id = stranger.id) ∧
      l.act (.mark stranger) = (l, .marked (Fault.throw (.untracked stranger.desc))) ∧
      (∀ v ∈ [a, b, a], Marked [.mark stranger, .mark a, .isUsed b] v ↔ Marked [.mark a, .mark a] v) ∧
      ((ofList [a, b, a]).acts [.mark a, .mark a]).report = l.report := by
  intro a b stranger l
  obtain ⟨-, -, -, stays, -, refused, same⟩ :=
    report_accounts [a, b, a] [.mark stranger, .mark a, .isUsed b]
  have used : l.isUsed a = true := rfl
  have untracked : ¬ ∃ w ∈ [a, b, a], w.id = stranger.id := by simp [a, b, stranger]
  have marks : ∀ v ∈ [a, b, a],
      Marked [.mark stranger, .mark a, .isUsed b] v ↔ Marked [.mark a, .mark a] v := by
    simp [Marked, a, b, stranger]
  exact ⟨used, stays _ _ used, untracked, refused _ untracked, marks, same _ marks⟩

end Ledger

end Stencil
