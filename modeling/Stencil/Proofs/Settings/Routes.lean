import Mathlib.Data.List.Basic
import Stencil.Proofs.Library.Paths
import Stencil.Proofs.Text.Obstacles
import Stencil.Settings.FileTree

/-!
# Paths and the places they lead to

A path is shown by a text that writes it, and there is no other path that is shown
so. It can be handed to the system exactly if each of its names can.

When all steps up of a path are taken, each name has been looked up under the text
of what leads to it. The first name that cannot be looked up ends this, and tells
why; nothing else does.

## Main definitions

* `Place.Moves`, `Place.Reaches` — where one name leads from a place, and several.
* `Route.Stops` — a name that cannot be looked up, with what leads to it.

## Main results

* `Route.ofText_text` — a path is the one that its text writes.
* `Route.obstacle?_text_eq_none` — paths that can be handed to the system.
* `Route.resolveFrom_eq_ok`, `Route.resolveFrom_eq_error` — what becomes of a path
  when all steps up are taken.
-/

namespace Stencil

/-! ## Names that are taken -/

namespace Place

variable {here next p : Place} {name : Text} {names : List Text}

/-- Where a name leads from a place: down, or back up; from the top there is no way
up. -/
inductive Moves : Place → Text → Place → Prop
  | down (here : Place) {name : Text} (other : name ≠ parentName) : Moves here name (here ++ [name])
  | up (here : Place) (name : Text) : Moves (here ++ [name]) parentName here
  | stay : Moves [] parentName []

/-- Where some names lead from a place. -/
inductive Reaches : Place → List Text → Place → Prop
  | here (p : Place) : Reaches p [] p
  | step {here next p : Place} {name : Text} {names : List Text} (moves : here.Moves name next)
      (rest : Reaches next names p) : Reaches here (name :: names) p

theorem moves_iff : here.Moves name next ↔ here.step name = next := by
  constructor
  · intro h
    cases h with
    | down here other => exact if_neg other
    | up here name => rw [step, if_pos rfl, List.dropLast_concat]
    | stay => rfl
  · rintro rfl
    unfold step
    split
    · next up =>
      rw [up]
      rcases List.eq_nil_or_concat here with rfl | ⟨here, last, rfl⟩
      · exact .stay
      · rw [List.concat_eq_append, List.dropLast_concat]
        exact .up here last
    · next other => exact .down here other

/-- A name leads from a place to one other. -/
theorem moves_step (here : Place) (name : Text) : here.Moves name (here.step name) :=
  moves_iff.mpr rfl

theorem reaches_cons : here.Reaches (name :: names) p ↔ (here.step name).Reaches names p := by
  constructor
  · rintro (_ | ⟨moves, rest⟩)
    rwa [moves_iff.mp moves]
  · exact .step (moves_step here name)

theorem reaches_iff : here.Reaches names p ↔ names.foldl step here = p := by
  induction names generalizing here with
  | nil =>
      constructor
      · rintro ⟨⟩
        rfl
      · rintro rfl
        exact .here _
  | cons name names ih => rw [reaches_cons, ih, List.foldl_cons]

/-- Names without steps up reach the place below. -/
theorem reaches_level (level : parentName ∉ names) : here.Reaches names (here ++ names) := by
  induction names generalizing here with
  | nil =>
      rw [List.append_nil]
      exact .here here
  | cons name names ih =>
      rw [List.mem_cons, not_or] at level
      have rest : (here ++ [name]).Reaches names (here ++ [name] ++ names) := ih level.2
      rw [List.append_assoc] at rest
      exact .step (.down here (Ne.symm level.1)) rest

/-- Where a name leads there are no new names but that one, if it leads down. -/
theorem Moves.forall_mem {P : Text → Prop} (moves : here.Moves name next) (hhere : ∀ n ∈ here, P n)
    (hname : name ≠ parentName → P name) : ∀ n ∈ next, P n := by
  cases moves with
  | down _ other =>
      exact List.forall_mem_append.mpr ⟨hhere, List.forall_mem_singleton.mpr (hname other)⟩
  | up => exact fun n hn => hhere n (List.mem_append_left _ hn)
  | stay => exact hhere

/-- The names of the place that is reached were there or have been taken, and none of
those is a step up. -/
theorem Reaches.forall_mem {P : Text → Prop} (reaches : here.Reaches names p)
    (hhere : ∀ n ∈ here, P n) (hnames : ∀ n ∈ names, n ≠ parentName → P n) : ∀ n ∈ p, P n := by
  induction reaches with
  | here => exact hhere
  | step moves rest ih =>
      obtain ⟨hname, hrest⟩ := List.forall_mem_cons.mp hnames
      exact ih (moves.forall_mem hhere hname) hrest

end Place

namespace Route

variable {r before : Route} {name : Text} {names : List Text}

/-! ## Paths as they are shown -/

/-- A name with others behind it. -/
theorem joinWith_cons (name : Text) {names : List Text} (given : names ≠ []) :
    Text.joinWith "/" (name :: names) = name ++ Path.separator :: Text.joinWith "/" names := by
  cases names with
  | nil => exact absurd rfl given
  | cons next names => exact List.append_assoc ..

/-- The parts of a text between separators that count. -/
theorem filter_splitOn_cons (t : Text) :
    (Text.splitOn Path.separator (Path.separator :: t)).filter Path.isPart =
      (Text.splitOn Path.separator t).filter Path.isPart := by
  rw [Text.splitOn, if_pos rfl, List.filter_cons_of_neg (by decide)]

/-- Names are what counts between the separators that join them. -/
theorem filter_splitOn_joinWith (components : ∀ name ∈ names, Path.IsComponent name) :
    (Text.splitOn Path.separator (Text.joinWith "/" names)).filter Path.isPart = names := by
  induction names with
  | nil => rfl
  | cons name names ih =>
      obtain ⟨hname, hnames⟩ := List.forall_mem_cons.mp components
      cases names with
      | nil =>
          show (Text.splitOn Path.separator name).filter Path.isPart = [name]
          rw [Text.splitOn_of_notMem hname.1, List.filter_cons_of_pos hname.2, List.filter_nil]
      | cons next names =>
          rw [joinWith_cons name (List.cons_ne_nil next names), Text.splitOn_append,
            Text.splitOn_of_notMem hname.1, List.filter_append,
            List.filter_cons_of_pos hname.2, List.filter_nil, ih hnames]
          rfl

/-- Joined names do not start with a separator. -/
theorem takeWhile_joinWith (components : ∀ name ∈ names, Path.IsComponent name) :
    (Text.joinWith "/" names).takeWhile (· = Path.separator) = [] := by
  have first {c : CodePoint} {name rest : Text} (component : Path.IsComponent (c :: name)) :
      (c :: rest).takeWhile (· = Path.separator) = [] := by
    have other : c ≠ Path.separator := (List.ne_of_not_mem_cons component.1).symm
    exact List.takeWhile_cons_of_neg (by simpa using other)
  cases names with
  | nil => rfl
  | cons name names =>
      have hname := components name (List.mem_cons_self ..)
      cases name with
      | nil => cases hname.2
      | cons c name =>
          cases names with
          | nil => exact first hname
          | cons next names => exact first hname

/-- **A path is the one that its text writes.** -/
theorem ofText_text (components : ∀ name ∈ r.names, Path.IsComponent name) :
    ofText r.text = r := by
  obtain ⟨anchor, names⟩ := r
  have components : ∀ name ∈ names, Path.IsComponent name := components
  have parts := filter_splitOn_joinWith components
  have start := takeWhile_joinWith components
  cases anchor with
  | relative =>
      cases names with
      | nil => rfl
      | cons name names =>
          have written : text ⟨.relative, name :: names⟩ = Text.joinWith "/" (name :: names) := by
            refine if_neg fun empty => ?_
            have nothing : Text.joinWith "/" (name :: names) = [] := List.isEmpty_iff.mp empty
            rw [nothing] at parts
            cases parts
          rw [written, ofText, parts, Anchor.ofText, start]
          rfl
  | top =>
      have written : text ⟨.top, names⟩ = Path.separator :: Text.joinWith "/" names := rfl
      rw [written, ofText, filter_splitOn_cons, parts, Anchor.ofText,
        List.takeWhile_cons_of_pos (by decide), start]
      rfl
  | doubled =>
      have written : text ⟨.doubled, names⟩ =
          Path.separator :: Path.separator :: Text.joinWith "/" names := rfl
      rw [written, ofText, filter_splitOn_cons, filter_splitOn_cons, parts, Anchor.ofText,
        List.takeWhile_cons_of_pos (by decide), List.takeWhile_cons_of_pos (by decide), start]
      rfl

/-! ## Paths that can be handed to the system -/

theorem forall_mem_joinWith {P : CodePoint → Prop} (separator : P Path.separator) :
    (∀ c ∈ Text.joinWith "/" names, P c) ↔ ∀ name ∈ names, ∀ c ∈ name, P c := by
  induction names with
  | nil => simp [Text.joinWith]
  | cons name names ih =>
      cases names with
      | nil => simp [Text.joinWith]
      | cons next names =>
          rw [joinWith_cons name (List.cons_ne_nil next names), List.forall_mem_append,
            List.forall_mem_cons, ih, List.forall_mem_cons (l := next :: names)]
          exact and_congr_right fun _ => and_iff_right separator

/-- A path is shown by its names, separators and dots. -/
theorem forall_mem_text {P : CodePoint → Prop} (separator : P Path.separator) (dot : P '.') :
    (∀ c ∈ r.text, P c) ↔ ∀ name ∈ r.names, ∀ c ∈ name, P c := by
  have anchored : ∀ c ∈ r.anchor.text, P c := by
    cases r.anchor with
    | relative => exact List.forall_mem_nil _
    | top => exact List.forall_mem_singleton.mpr separator
    | doubled => exact List.forall_mem_cons.mpr ⟨separator, List.forall_mem_singleton.mpr separator⟩
  rw [← forall_mem_joinWith separator, text]
  cases empty : (r.anchor.text ++ Text.joinWith "/" r.names).isEmpty with
  | true =>
      have nothing := (List.append_eq_nil_iff.mp (List.isEmpty_iff.mp empty)).2
      rw [nothing]
      exact iff_of_true (List.forall_mem_singleton.mpr dot) (List.forall_mem_nil _)
  | false => exact List.forall_mem_append.trans (and_iff_right anchored)

/-- **A path can be handed to the system** if each of its names can. -/
theorem obstacle?_text_eq_none :
    Native.obstacle? r.text = none ↔ ∀ name ∈ r.names, Native.Clean name :=
  Native.obstacle?_eq_none_iff.trans (forall_mem_text (by decide) (by decide))

/-! ## Steps up -/

theorem mem_step {n : Text} (h : n ∈ (before.step name).names) : n ∈ before.names ∨ n = name := by
  simp only [step] at h
  split at h
  · exact .inl (List.dropLast_subset _ h)
  · simpa using h

theorem clean_parentName : Native.Clean Place.parentName := by decide

/-- What is looked up for a name has an obstacle exactly if the name has one. -/
theorem obstacle?_step (clean : ∀ n ∈ before.names, Native.Clean n) :
    (if name = Place.parentName then none else Native.obstacle? (before.step name).text) = none ↔
      Native.Clean name := by
  split
  · next up => exact iff_of_true rfl (up ▸ clean_parentName)
  · next other =>
    have names : (before.step name).names = before.names ++ [name] := by simp [step, other]
    rw [obstacle?_text_eq_none, names, List.forall_mem_append, List.forall_mem_singleton]
    exact and_iff_right clean

theorem clean_step (clean : ∀ n ∈ before.names, Native.Clean n) (hname : Native.Clean name) :
    ∀ n ∈ (before.step name).names, Native.Clean n := by
  intro n hn
  rcases mem_step hn with hn | rfl
  · exact clean n hn
  · exact hname

/-- **A path resolves** if all of its names can be looked up, to the place that they
reach. -/
theorem resolveFrom_eq_ok (clean : ∀ n ∈ before.names, Native.Clean n)
    {here p : Place} :
    resolveFrom before here names = .ok p ↔
      (∀ n ∈ names, Native.Clean n) ∧ here.Reaches names p := by
  induction names generalizing before here with
  | nil =>
      constructor
      · rintro ⟨⟩
        exact ⟨List.forall_mem_nil _, .here _⟩
      · rintro ⟨-, ⟨⟩⟩
        rfl
  | cons name names ih =>
      rw [resolveFrom, List.forall_mem_cons, Place.reaches_cons, ← obstacle?_step clean]
      cases looked : if name = Place.parentName then none
          else Native.obstacle? (before.step name).text with
      | some obstacle => exact iff_of_false nofun nofun
      | none =>
          rw [ih (clean_step clean ((obstacle?_step clean).mp looked))]
          simp

/-- A name that cannot be looked up behind others that can, with what leads to it from a
path. -/
def Stops (before : Route) (names : List Text) (obstacle : Native.Obstacle) : Prop :=
  ∃ front name back, names = front ++ name :: back ∧ (∀ n ∈ front, Native.Clean n) ∧
    Native.obstacle? ((front ++ [name]).foldl step before).text = some obstacle

/-- **A path does not resolve** if it stops at a name that cannot be looked up. -/
theorem resolveFrom_eq_error (clean : ∀ n ∈ before.names, Native.Clean n)
    {here : Place} {obstacle : Native.Obstacle} :
    resolveFrom before here names = .error obstacle ↔ before.Stops names obstacle := by
  induction names generalizing before here with
  | nil =>
      refine iff_of_false nofun ?_
      rintro ⟨front, name, back, h, -⟩
      cases front <;> cases h
  | cons name names ih =>
      have known : (if name = Place.parentName then none
          else Native.obstacle? (before.step name).text) = none ↔ Native.Clean name :=
        obstacle?_step clean
      rw [resolveFrom]
      cases looked : if name = Place.parentName then none
          else Native.obstacle? (before.step name).text with
      | some other =>
          have found : Native.obstacle? (before.step name).text = some other := by
            split at looked
            · cases looked
            · exact looked
          constructor
          · rintro ⟨⟩
            exact ⟨[], name, names, rfl, List.forall_mem_nil _, found⟩
          · rintro ⟨front, last, back, h, free, stopped⟩
            cases front with
            | nil =>
                cases h
                exact congrArg _ (Option.some_inj.mp (found.symm.trans stopped))
            | cons first front =>
                obtain ⟨rfl, -⟩ := List.cons.inj h
                cases looked.symm.trans (known.mpr (free name (List.mem_cons_self ..)))
      | none =>
          have hname := known.mp looked
          have behind := clean_step clean hname
          refine (ih behind).trans ⟨?_, ?_⟩
          · rintro ⟨front, last, back, rfl, free, stopped⟩
            exact ⟨name :: front, last, back, rfl, List.forall_mem_cons.mpr ⟨hname, free⟩, stopped⟩
          · rintro ⟨front, last, back, h, free, stopped⟩
            cases front with
            | nil =>
                cases h
                cases (obstacle?_text_eq_none.mpr behind).symm.trans stopped
            | cons first front =>
                obtain ⟨rfl, rfl⟩ := List.cons.inj h
                exact ⟨front, last, back, rfl, (List.forall_mem_cons.mp free).2, stopped⟩

end Route

end Stencil
