import Stencil.Trace.Span

/-!
# Traces that stay alike

Two runs of one operation write the same spans, each into its own trace. What
that comes to depends on the traces. If an operation is under way in both, or
nothing is traced, then it stays so, whatever the traces hold. If the traces
are equal, and each run writes into one new tree, then they stay equal, and
the trees that were there before stay as they are. `Likeness` says what the
two have in common: it holds of a relation that opening, annotating and
closing a span in both traces preserve.

## Main definitions

* `Trace.passes` — whether an operation that starts now has no tree of its own.
* `Trace.InTree` — whether spans are written into a tree after some others.
* `Trace.Likeness` — relations that are kept while spans are written.
* `Trace.Restored` — how a trace compares to one after an operation.

## Main results

* `Trace.bothPass`, `Trace.sameTree` — the two relations.
* `Trace.start_inTree` — the tree of an operation comes after all others.
-/

namespace Stencil.Trace

variable {α : Type}

/-- Whether an operation that starts now has no tree of its own: one is under
way already, or nothing is traced. -/
def passes (t : Trace α) : Bool := !t.enabled || t.current.isSome

theorem enabled_of_not_passes {t : Trace α} (h : t.passes = false) : t.enabled = true := by
  cases enabled : t.enabled with
  | true => rfl
  | false => simp [passes, enabled] at h

/-- Whether tracing is at a span in the tree that comes after some others. -/
structure InTree (base : List (Span α)) (t : Trace α) : Prop where
  enabled : t.enabled = true
  current : ∃ path, t.current = some (base.length :: path)
  roots : t.roots.take base.length = base

/-- A relation between the traces of two runs that is kept while both open,
annotate and close spans, none of which starts a tree. -/
structure Likeness (T : Trace α → Trace α → Prop) : Prop where
  passes {t t' : Trace α} (h : T t t') : t.passes = true ∧ t'.passes = true
  annotate {t t' : Trace α} (h : T t t') (key : Text) (a : α) :
    T (t.annotate key a) (t'.annotate key a)
  enter {t t' : Trace α} (h : T t t') (name : Text) : T (t.enter name).2 (t'.enter name).2
  leave {t t' u u' : Trace α} (h : T t t') (name : Text) (inner : T u u') :
    T (u.leave (t.enter name).1) (u'.leave (t'.enter name).1)

/-! ## Changing one tree -/

@[simp] theorem changeAt_enabled (change : Span α → Span α) (path : List Nat) (t : Trace α) :
    (t.changeAt change path).enabled = t.enabled := by
  cases path <;> rfl

@[simp] theorem changeAt_current (change : Span α → Span α) (path : List Nat) (t : Trace α) :
    (t.changeAt change path).current = t.current := by
  cases path <;> rfl

/-- A change to one tree leaves the trees before it. -/
theorem take_changeAt (change : Span α → Span α) (n : Nat) (path : List Nat) (t : Trace α) :
    (t.changeAt change (n :: path)).roots.take n = t.roots.take n := by
  show (t.roots.modify n (Span.changeAt change path)).take n = t.roots.take n
  have hlength : (t.roots.take n).length ≤ n := by
    rw [List.length_take]
    omega
  rw [List.take_modify, List.modify_eq_self hlength]

/-! ## Both runs within an operation, or untraced -/

theorem passes_annotate {t : Trace α} (h : t.passes = true) (key : Text) (a : α) :
    (t.annotate key a).passes = true := by
  unfold annotate
  split
  · exact h
  · simpa [passes] using h

theorem passes_enter {t : Trace α} (h : t.passes = true) (name : Text) :
    (t.enter name).2.passes = true := by
  unfold enter
  split
  · exact h
  · simp [passes]

theorem passes_leave {t : Trace α} (h : t.passes = true) (entered : Option (List Nat)) :
    (t.leave entered).passes = true := by
  cases entered with
  | none => exact h
  | some path => simp [leave, passes]

/-- **Within an operation**, or untraced, both runs stay so. -/
theorem bothPass :
    Likeness (fun t t' : Trace α => t.passes = true ∧ t'.passes = true) where
  passes h := h
  annotate h key a := ⟨passes_annotate h.1 key a, passes_annotate h.2 key a⟩
  enter h name := ⟨passes_enter h.1 name, passes_enter h.2 name⟩
  leave _ _ inner := ⟨passes_leave inner.1 _, passes_leave inner.2 _⟩

/-! ## Both runs in a tree of their own -/

namespace InTree

variable {base : List (Span α)} {t u : Trace α}

theorem passes (h : InTree base t) : t.passes = true := by
  obtain ⟨path, hpath⟩ := h.current
  simp [Trace.passes, hpath]

theorem active? (h : InTree base t) : ∃ path, t.active? = some (base.length :: path) := by
  obtain ⟨path, hpath⟩ := h.current
  exact ⟨path, by rw [Trace.active?, if_pos h.enabled, hpath]⟩

theorem annotate (h : InTree base t) (key : Text) (a : α) : InTree base (t.annotate key a) := by
  obtain ⟨path, hpath⟩ := h.active?
  unfold Trace.annotate
  rw [hpath]
  refine ⟨by simpa using h.enabled, by simpa using h.current, ?_⟩
  rw [take_changeAt]
  exact h.roots

/-- A span is opened below the current one. -/
theorem enter_eq (h : InTree base t) (name : Text) :
    ∃ path i, (t.enter name).1 = some (base.length :: path ++ [i]) ∧ InTree base (t.enter name).2 := by
  obtain ⟨path, hpath⟩ := h.active?
  unfold Trace.enter
  rw [hpath]
  refine ⟨path, _, rfl, ⟨by simpa using h.enabled, ⟨_, rfl⟩, ?_⟩⟩
  show (t.changeAt _ (base.length :: path)).roots.take base.length = base
  rw [take_changeAt]
  exact h.roots

/-- Closing a span leads back to the one around it. -/
theorem leave (h : InTree base t) (name : Text) (inner : InTree base u) :
    InTree base (u.leave (t.enter name).1) := by
  obtain ⟨path, i, hentered, -⟩ := h.enter_eq name
  rw [hentered]
  refine ⟨by simpa [Trace.leave] using inner.enabled, ⟨path, ?_⟩, ?_⟩
  · show some ((base.length :: path ++ [i]).dropLast) = _
    rw [List.dropLast_concat]
  · show (u.changeAt _ (base.length :: (path ++ [i]))).roots.take base.length = base
    rw [take_changeAt]
    exact inner.roots

end InTree

/-- **In a new tree**, equal traces stay equal, and the trees before it stay as
they are. -/
theorem sameTree (base : List (Span α)) :
    Likeness (fun t t' : Trace α => t = t' ∧ InTree base t) where
  passes := by
    rintro t _ ⟨rfl, h⟩
    exact ⟨h.passes, h.passes⟩
  annotate := by
    rintro t _ ⟨rfl, h⟩ key a
    exact ⟨rfl, h.annotate key a⟩
  enter := by
    rintro t _ ⟨rfl, h⟩ name
    obtain ⟨path, i, -, hinner⟩ := h.enter_eq name
    exact ⟨rfl, hinner⟩
  leave := by
    rintro t _ u _ ⟨rfl, h⟩ name ⟨rfl, inner⟩
    exact ⟨rfl, h.leave name inner⟩

/-- The tree of an operation comes after all others. -/
theorem start_inTree {t : Trace α} (enabled : t.enabled = true) (name : Text) :
    InTree t.roots (t.start name) :=
  ⟨enabled, ⟨[], rfl⟩, by simp [start]⟩

/-- A trace after an operation, compared to the one before: if the operation
had a tree of its own, it is the same, and otherwise the next operation has
none either. -/
def Restored (t t' : Trace α) : Prop := t = t' ∨ t.passes = true ∧ t'.passes = true

theorem Restored.trans {t t' t'' : Trace α} (h : Restored t t') (k : Restored t' t'') :
    Restored t t'' := by
  rcases h with rfl | ⟨passes, passes'⟩
  · exact k
  · rcases k with rfl | ⟨-, passes''⟩
    · exact .inr ⟨passes, passes'⟩
    · exact .inr ⟨passes, passes''⟩

end Stencil.Trace
