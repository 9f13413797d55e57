import Stencil.Proofs.Trace.Likeness

/-!
# What is written into a trace

Spans are opened, annotated and closed one at a time, each time at a path. What
comes of it is said here as one change to the span that is current: a span that
is opened and closed again is one more child of it, with whatever was written
into it in between. Nothing else of the trace changes, and the same span is
current before and after.

That takes a trace whose current span is there. It is so at first, and stays so
while spans are opened and closed.

## Main definitions

* `Span.adopt` — a span with others after those inside it.
* `Span.Remark` — changes to the annotations of a span only.
* `Trace.change` — a trace with a change to the current span.
* `Trace.Sound` — traces whose current span is there.

## Main results

* `Span.changeAt_append`, `Span.changeAt_changeAt` — how changes compose.
* `Trace.leave_enter` — a span that is opened, changed and closed is one more
  child.
* `Trace.change_start` — what is written into a new tree.
-/

namespace Stencil

variable {α : Type}

/-- A change to the last element of a list. -/
private theorem modify_concat {β : Type} (f : β → β) (b : β) (l : List β) :
    (l ++ [b]).modify l.length f = l ++ [f b] := by
  induction l with
  | nil => rfl
  | cons a l ih => simp [ih]

/-- Changes that do the same to the element at a position are the same there. -/
private theorem modify_congr {β : Type} {f g : β → β} {l : List β} {i : Nat} {b : β}
    (found : l[i]? = some b) (same : f b = g b) : l.modify i f = l.modify i g := by
  apply List.ext_getElem?
  intro j
  simp only [List.getElem?_modify]
  by_cases hij : i = j
  · subst hij
    simp [found, same]
  · simp [hij]

namespace Span

/-- A span with some others after those inside it. -/
def adopt (spans : List (Span α)) (s : Span α) : Span α :=
  { s with children := s.children ++ spans }

/-- Whether a change to a span is one to its annotations only. -/
structure Remark (f : Span α → Span α) : Prop where
  name (s : Span α) : (f s).name = s.name
  ended (s : Span α) : (f s).ended = s.ended
  children (s : Span α) : (f s).children = s.children

theorem Remark.id : Remark (fun s : Span α => s) := ⟨fun _ => rfl, fun _ => rfl, fun _ => rfl⟩

theorem Remark.annotate (key : Text) (a : α) : Remark (Span.annotate key a) :=
  ⟨fun _ => rfl, fun _ => rfl, fun _ => rfl⟩

theorem Remark.comp {f g : Span α → Span α} (hf : Remark f) (hg : Remark g) :
    Remark fun s => g (f s) where
  name s := (hg.name _).trans (hf.name s)
  ended s := (hg.ended _).trans (hf.ended s)
  children s := (hg.children _).trans (hf.children s)

@[simp] theorem adopt_nil : adopt [] = fun s : Span α => s := by
  funext ⟨name, annotations, ended, children⟩
  rw [adopt, List.append_nil]

theorem adopt_adopt (xs ys : List (Span α)) (s : Span α) :
    adopt ys (adopt xs s) = adopt (xs ++ ys) s := by
  simp only [adopt, List.append_assoc]

/-! ## Changes at a path -/

theorem changeAt_id (path : List Nat) (s : Span α) : changeAt (fun s => s) path s = s := by
  induction path generalizing s with
  | nil => rfl
  | cons i path ih =>
      obtain ⟨name, annotations, ended, children⟩ := s
      have hid : changeAt (fun s : Span α => s) path = id := funext ih
      rw [changeAt, hid, List.modify_id]

/-- Two changes at one path are one. -/
theorem changeAt_changeAt (f g : Span α → Span α) (path : List Nat) (s : Span α) :
    changeAt g path (changeAt f path s) = changeAt (fun s => g (f s)) path s := by
  induction path generalizing s with
  | nil => rfl
  | cons i path ih =>
      have hcomp : changeAt g path ∘ changeAt f path = changeAt (fun s => g (f s)) path := funext ih
      simp only [changeAt, List.modify_modify_eq, hcomp]

/-- A change further down is a change to the span above. -/
theorem changeAt_append (f : Span α → Span α) (path below : List Nat) (s : Span α) :
    changeAt f (path ++ below) s = changeAt (changeAt f below) path s := by
  induction path generalizing s with
  | nil => rfl
  | cons i path ih =>
      have hbelow : changeAt f (path ++ below) = changeAt (changeAt f below) path := funext ih
      simp only [List.cons_append, changeAt, hbelow]

/-- The span at a path, after a change to it. -/
theorem at?_changeAt (f : Span α → Span α) (path : List Nat) (s : Span α) :
    at? path (changeAt f path s) = (at? path s).map f := by
  induction path generalizing s with
  | nil => rfl
  | cons i path ih =>
      simp only [changeAt, at?, List.getElem?_modify_eq]
      cases s.children[i]? with
      | none => rfl
      | some child => exact ih child

/-- Changes that do the same to the span at a path are the same there. -/
theorem changeAt_congr {f g : Span α → Span α} {path : List Nat} {s u : Span α}
    (found : at? path s = some u) (same : f u = g u) : changeAt f path s = changeAt g path s := by
  induction path generalizing s with
  | nil =>
      cases found
      exact same
  | cons i path ih =>
      obtain ⟨child, hchild, hfound⟩ := Option.bind_eq_some_iff.mp found
      simp only [changeAt, modify_congr hchild (ih hfound)]

/-- A span that is opened as the last one inside another, and then changed. -/
theorem changeAt_addChild (g : Span α → Span α) (name : Text) (s : Span α) :
    changeAt g [s.children.length] (addChild name s) = adopt [g (opened name)] s := by
  have hlast : (s.children ++ [opened name]).modify s.children.length (changeAt g []) =
      s.children ++ [g (opened name)] := modify_concat (changeAt g []) _ _
  exact congrArg (fun children => (⟨s.name, s.annotations, s.ended, children⟩ : Span α)) hlast

end Span

namespace Trace

/-- A trace with a change to the current span, if there is one. -/
def change (f : Span α → Span α) (t : Trace α) : Trace α :=
  match t.active? with
  | none => t
  | some path => t.changeAt f path

/-- Whether the current span of a trace is there. -/
def Sound (t : Trace α) : Prop := ∀ path, t.active? = some path → ∃ span, t.at? path = some span

theorem active_eq_some {t : Trace α} {path : List Nat} :
    t.active? = some path ↔ t.enabled = true ∧ t.current = some path := by
  cases enabled : t.enabled <;> simp [active?, enabled]

/-! ## Changes to the current span -/

theorem change_of_active {t : Trace α} {path : List Nat} (active : t.active? = some path)
    (f : Span α → Span α) : t.change f = t.changeAt f path := by
  rw [change, active]

theorem change_of_not_active {t : Trace α} (active : t.active? = none) (f : Span α → Span α) :
    t.change f = t := by
  rw [change, active]

@[simp] theorem change_enabled (f : Span α → Span α) (t : Trace α) :
    (t.change f).enabled = t.enabled := by
  unfold change
  split
  · rfl
  · exact changeAt_enabled ..

@[simp] theorem change_current (f : Span α → Span α) (t : Trace α) :
    (t.change f).current = t.current := by
  unfold change
  split
  · rfl
  · exact changeAt_current ..

@[simp] theorem change_active (f : Span α → Span α) (t : Trace α) :
    (t.change f).active? = t.active? := by
  simp [active?]

@[simp] theorem change_passes (f : Span α → Span α) (t : Trace α) :
    (t.change f).passes = t.passes := by
  simp [passes]

theorem change_id (t : Trace α) : t.change (fun s => s) = t := by
  unfold change
  split
  · rfl
  · rename_i path _
    cases path with
    | nil => rfl
    | cons i path =>
        have hid : Span.changeAt (fun s : Span α => s) path = id :=
          funext (Span.changeAt_id path)
        simp only [changeAt, hid, List.modify_id]

theorem changeAt_changeAt (f g : Span α → Span α) (path : List Nat) (t : Trace α) :
    (t.changeAt f path).changeAt g path = t.changeAt (fun s => g (f s)) path := by
  cases path with
  | nil => rfl
  | cons i path =>
      have hcomp : Span.changeAt g path ∘ Span.changeAt f path =
          Span.changeAt (fun s => g (f s)) path := funext (Span.changeAt_changeAt f g path)
      simp only [changeAt, List.modify_modify_eq, hcomp]

/-- Two changes to the current span are one. -/
theorem change_change (f g : Span α → Span α) (t : Trace α) :
    (t.change f).change g = t.change fun s => g (f s) := by
  cases active : t.active? with
  | none => simp only [change_of_not_active active]
  | some path =>
      have active' : (t.change f).active? = some path := by rw [change_active, active]
      rw [change_of_active active', change_of_active active, change_of_active active,
        changeAt_changeAt]

theorem at?_changeAt (f : Span α → Span α) (path : List Nat) (t : Trace α) :
    (t.changeAt f path).at? path = (t.at? path).map f := by
  cases path with
  | nil => rfl
  | cons i path =>
      simp only [changeAt, at?, List.getElem?_modify_eq]
      cases t.roots[i]? with
      | none => rfl
      | some root => exact Span.at?_changeAt f path root

theorem changeAt_append (f : Span α → Span α) {path : List Nat} (nonempty : path ≠ [])
    (below : List Nat) (t : Trace α) :
    t.changeAt f (path ++ below) = t.changeAt (Span.changeAt f below) path := by
  cases path with
  | nil => exact absurd rfl nonempty
  | cons i path =>
      have hbelow : Span.changeAt f (path ++ below) = Span.changeAt (Span.changeAt f below) path :=
        funext (Span.changeAt_append f path below)
      simp only [List.cons_append, changeAt, hbelow]

theorem changeAt_congr {f g : Span α → Span α} {path : List Nat} {t : Trace α} {u : Span α}
    (found : t.at? path = some u) (same : f u = g u) : t.changeAt f path = t.changeAt g path := by
  cases path with
  | nil => rfl
  | cons i path =>
      obtain ⟨root, hroot, hfound⟩ := Option.bind_eq_some_iff.mp found
      simp only [changeAt, modify_congr hroot (Span.changeAt_congr hfound same)]

/-- Which span is current does not matter to a change at a path. -/
theorem changeAt_moved (f : Span α → Span α) (path : List Nat) (t : Trace α)
    (current : Option (List Nat)) :
    ({ t with current := current } : Trace α).changeAt f path =
      { t.changeAt f path with current := current } := by
  cases path <;> rfl

/-- A change to the current span keeps it there. -/
theorem Sound.change {t : Trace α} (sound : t.Sound) (f : Span α → Span α) :
    (t.change f).Sound := by
  intro path active
  rw [change_active] at active
  obtain ⟨span, hspan⟩ := sound path active
  rw [change_of_active active, at?_changeAt, hspan]
  exact ⟨f span, rfl⟩

/-- **A span that is opened, changed and closed** is one more child of the
span that is current before and after. -/
theorem leave_enter {t : Trace α} (sound : t.Sound) (name : Text) (f : Span α → Span α) :
    ((t.enter name).2.change f).leave (t.enter name).1 =
      t.change (Span.adopt [(f (.opened name)).finish]) := by
  cases active : t.active? with
  | none =>
      have henter : t.enter name = (none, t) := by rw [enter, active]
      rw [henter]
      show t.change f = t.change _
      rw [change_of_not_active active, change_of_not_active active]
  | some path =>
      obtain ⟨parent, hparent⟩ := sound path active
      obtain ⟨henabled, hcurrent⟩ := active_eq_some.mp active
      have hnonempty : path ≠ [] := by
        rintro rfl
        cases hparent
      let inner := path ++ [parent.children.length]
      have henter : t.enter name =
          (some inner, { t.changeAt (Span.addChild name) path with current := some inner }) := by
        simp only [enter, active, hparent, Option.map_some, Option.getD_some, inner]
      have hinner : (t.enter name).2.active? = some inner := by
        rw [henter, active_eq_some]
        exact ⟨by simpa using henabled, rfl⟩
      have hdropped : inner.dropLast = path := List.dropLast_concat
      have hbody : (t.enter name).2.change f =
          { (t.changeAt (Span.addChild name) path).changeAt f inner with
            current := some inner } := by
        rw [change_of_active hinner, henter]
        exact changeAt_moved f inner _ _
      have hwritten :
          ((t.changeAt (Span.addChild name) path).changeAt f inner).changeAt Span.finish inner =
            t.changeAt (Span.adopt [(f (.opened name)).finish]) path := by
        rw [changeAt_changeAt, changeAt_append _ hnonempty, changeAt_changeAt]
        exact changeAt_congr hparent (Span.changeAt_addChild (fun s => (f s).finish) name parent)
      rw [hbody, henter, change_of_active active, ← hwritten]
      show ({ Trace.changeAt Span.finish inner _ with
        current := some inner.dropLast } : Trace α) = _
      rw [changeAt_moved, hdropped, ← hcurrent, hwritten, ← changeAt_current _ path t]

/-! ## A new tree -/

theorem start_sound (name : Text) (t : Trace α) : (t.start name).Sound := by
  intro path active
  have hpath : (t.start name).current = some path := (active_eq_some.mp active).2
  cases hpath
  exact ⟨.opened name, by simp [at?, Span.at?, start]⟩

theorem start_passes (name : Text) (t : Trace α) : (t.start name).passes = true := by
  simp [passes, start]

/-- What is written into a new tree is written into its root. -/
theorem change_start {t : Trace α} (enabled : t.enabled = true) (name : Text)
    (f : Span α → Span α) :
    (t.start name).change f =
      ⟨true, t.roots ++ [f (.opened name)], some [t.roots.length]⟩ := by
  have active : (t.start name).active? = some [t.roots.length] := active_eq_some.mpr ⟨enabled, rfl⟩
  rw [change_of_active active]
  have hlast : (t.roots ++ [Span.opened name]).modify t.roots.length (Span.changeAt f []) =
      t.roots ++ [f (.opened name)] := modify_concat (Span.changeAt f []) _ _
  rw [← hlast, ← enabled]
  rfl

end Trace

end Stencil
