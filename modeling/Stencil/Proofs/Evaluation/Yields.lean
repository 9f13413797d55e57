import Stencil.Evaluation.Service

/-!
# What a run answers

A run reads and writes three things: the decisions on output, the trace of
phases, and the world of the collaborators. The trace is written everywhere
and read almost nowhere, so what a run answers is stated here without it:
`Run.Yields` holds of a run, the marks and world it starts from, its answer,
and the marks and world it leaves, whatever is traced meanwhile.

Every way of building a run has one rule. A statement about an operation of
a loader is put together from these rules along its definition, and the
definition of `Run` is never unfolded again.

## Main definitions

* `Action.apply` — the answer of a collaborator and the world it leaves.
* `Run.Yields` — the answer of a run, whatever is traced.

## Main results

* `Run.Yields.bind`, `Run.Yields.wrap`, `Run.Yields.inSpan` and the other
  rules of composition.
* `Run.Yields.unique` — a run has one answer.
* `Run.Yields.traced` — an operation of its own leaves the same marks and
  the same world as its body.
-/

namespace Stencil

variable {σ α β : Type}

/-- The answer of a collaborator in a world, and the world it leaves. -/
def Action.apply (a : Action σ α) (w : σ) : Except Failure α × σ := a.run.run w

theorem Action.apply_bind (a : Action σ α) (f : α → Action σ β) (w : σ) :
    Action.apply (a >>= f) w =
      match Action.apply a w with
      | (.ok x, w') => Action.apply (f x) w'
      | (.error x, w') => (.error x, w') := by
  simp only [Action.apply, ExceptT.run_bind, StateT.run_bind]
  cases h : a.run.run w with
  | mk r w' => cases r <;> rfl

@[simp] theorem Action.apply_pure (x : α) (w : σ) :
    Action.apply (pure x : Action σ α) w = (.ok x, w) := rfl

@[simp] theorem Action.apply_throw (x : Failure) (w : σ) :
    Action.apply (throw x : Action σ α) w = (.error x, w) := rfl

namespace Session

/-- The session in which the body of an operation runs: the operation starts
a tree of spans unless it is part of one, or nothing is traced. -/
def entered (s : Session σ) (name : Text) : Session σ :=
  if !s.trace.enabled || s.trace.current.isSome then s
  else Run.withTrace (s.trace.start name) s

@[simp] theorem entered_marks (s : Session σ) (name : Text) :
    (s.entered name).marks = s.marks := by
  unfold entered
  split <;> rfl

@[simp] theorem entered_world (s : Session σ) (name : Text) :
    (s.entered name).world = s.world := by
  unfold entered
  split <;> rfl

end Session

namespace Run

/-- A run starts from some marks in some world, answers, and leaves other
marks and another world; it does so whatever has been traced. -/
def Yields (r : Run σ α) (m : Marks) (w : σ) (a : Except Failure α) (m' : Marks)
    (w' : σ) : Prop :=
  ∀ t, ∃ t', r.apply ⟨m, t, w⟩ = (a, ⟨m', t', w'⟩)

/-- A run followed by another stops where the first one fails. -/
theorem apply_bind (r : Run σ α) (f : α → Run σ β) (s : Session σ) :
    (r >>= f).apply s =
      match r.apply s with
      | (.ok a, s') => (f a).apply s'
      | (.error x, s') => (.error x, s') := by
  simp only [apply, ExceptT.run_bind, StateT.run_bind]
  cases h : r.run.run s with
  | mk a s' => cases a <;> rfl

/-- **An operation of its own** answers what its body answers, or that with
spans attached, and leaves the marks and the world of its body. -/
theorem traced_entered (name : Text) (attach : Span Nat → α → α) (r : Run σ α) (s : Session σ) :
    let inner := r.apply (s.entered name)
    let outer := (traced name attach r).apply s
    outer.2.marks = inner.2.marks ∧ outer.2.world = inner.2.world ∧
      (outer.1 = inner.1 ∨ ∃ span, outer.1 = Except.map (attach span) inner.1) := by
  intro inner outer
  have houter : outer =
      tracing Session.trace withTrace name (fun span => Except.map (attach span)) r.apply s := rfl
  by_cases hc : (!s.trace.enabled || s.trace.current.isSome) = true
  · have hinner : inner = r.apply s := by simp only [inner, Session.entered, hc, if_true]
    have hsame : outer = r.apply s := by
      rw [houter, tracing]
      simp only [hc, if_true]
    rw [hsame, hinner]
    exact ⟨rfl, rfl, .inl rfl⟩
  · have hinner : inner = r.apply (withTrace (s.trace.start name) s) := by
      simp only [inner, Session.entered, hc, Bool.false_eq_true, if_false]
    rw [houter, tracing]
    simp only [hc, Bool.false_eq_true, if_false, ← hinner]
    refine ⟨rfl, rfl, ?_⟩
    cases inner.2.trace.roots[s.trace.roots.length]? with
    | none => exact .inl rfl
    | some root => exact .inr ⟨root.finish, rfl⟩

/-- An answer in which a failure that is an error stands as a value. -/
def attempted : Except Failure α → Except Failure (Except Error α)
  | .ok a => .ok (.ok a)
  | .error (.error e _) => .ok (.error e)
  | .error (.fault f) => .error (.fault f)

theorem ofFunction_apply (f : Session σ → Except Failure α × Session σ) (s : Session σ) :
    (ofFunction f).apply s = f s := rfl

/-- A collaborator touches nothing but its world. -/
theorem perform_apply (a : Action σ α) (s : Session σ) :
    (Run.perform a).apply s =
      ((Action.apply a s.world).1, { s with world := (Action.apply a s.world).2 }) := rfl

theorem wrap_apply (describe : Text → Error) (r : Run σ α) (s : Session σ) :
    (Run.wrap describe r).apply s = (wrapFault describe (r.apply s).1, (r.apply s).2) := rfl

/-- A failure that is an error becomes a value; any other is left. -/
theorem attempt_apply (r : Run σ α) (s : Session σ) :
    (Run.attempt r).apply s = (attempted (r.apply s).1, (r.apply s).2) := by
  rw [Run.attempt, ofFunction_apply]
  rcases r.apply s with ⟨(_ | _) | _, s'⟩ <;> rfl

namespace Yields

variable {r : Run σ α} {f : α → Run σ β} {m m' m'' : Marks} {w w' w'' : σ}

/-- A run has one answer, and leaves the same marks and world each time. -/
theorem unique {a b : Except Failure α} (h : r.Yields m w a m' w')
    (k : r.Yields m w b m'' w'') : a = b ∧ m' = m'' ∧ w' = w'' := by
  obtain ⟨t, ht⟩ := h .initial
  obtain ⟨u, hu⟩ := k .initial
  rw [ht] at hu
  cases hu
  exact ⟨rfl, rfl, rfl⟩

/-- The answer of a run from a session, and what it leaves of it. -/
theorem apply_eq {a : Except Failure α} {s : Session σ} (h : r.Yields s.marks s.world a m' w') :
    (r.apply s).1 = a ∧ (r.apply s).2.marks = m' ∧ (r.apply s).2.world = w' := by
  obtain ⟨t', ht⟩ := h s.trace
  have hs : r.apply s = (a, ⟨m', t', w'⟩) := ht
  rw [hs]
  exact ⟨rfl, rfl, rfl⟩

protected theorem pure (a : α) : (pure a : Run σ α).Yields m w (.ok a) m w :=
  fun t => ⟨t, rfl⟩

protected theorem bind {a : α} {b : Except Failure β} (h : r.Yields m w (.ok a) m' w')
    (k : (f a).Yields m' w' b m'' w'') : (r >>= f).Yields m w b m'' w'' := by
  intro t
  obtain ⟨t₁, h₁⟩ := h t
  obtain ⟨t₂, h₂⟩ := k t₁
  exact ⟨t₂, by rw [apply_bind, h₁]; exact h₂⟩

theorem bind_error {x : Failure} (h : r.Yields m w (.error x) m' w') :
    (r >>= f).Yields m w (.error x) m' w' := by
  intro t
  obtain ⟨t₁, h₁⟩ := h t
  exact ⟨t₁, by rw [apply_bind, h₁]⟩

theorem ofExcept (e : Except Failure α) : (Run.ofExcept e : Run σ α).Yields m w e m w :=
  fun t => ⟨t, rfl⟩

theorem perform {a : Action σ α} {e : Except Failure α} (h : Action.apply a w = (e, w')) :
    (Run.perform a).Yields m w e m w' := by
  intro t
  exact ⟨t, by rw [perform_apply, h]⟩

theorem wrap {a : Except Failure α} (describe : Text → Error) (h : r.Yields m w a m' w') :
    (Run.wrap describe r).Yields m w (wrapFault describe a) m' w' := by
  intro t
  obtain ⟨t', ht⟩ := h t
  exact ⟨t', by rw [wrap_apply, ht]⟩

theorem attempt {a : Except Failure α} (h : r.Yields m w a m' w') :
    (Run.attempt r).Yields m w (attempted a) m' w' := by
  intro t
  obtain ⟨t', ht⟩ := h t
  exact ⟨t', by rw [attempt_apply, ht]⟩

theorem marks : (Run.marks : Run σ Marks).Yields m w (.ok m) m w :=
  fun t => ⟨t, rfl⟩

theorem claim (file : File) :
    (Run.claim file : Run σ Unit).Yields m w (.ok ()) (m.set file (some false)) w :=
  fun t => ⟨t, rfl⟩

theorem annotate (key : Text) (n : Nat) :
    (Run.annotate key n : Run σ Unit).Yields m w (.ok ()) m w :=
  fun t => ⟨t.annotate key n, rfl⟩

/-- A span around a run is written into the trace and changes nothing
else. -/
theorem inSpan {a : Except Failure α} (name : Text) (h : r.Yields m w a m' w') :
    (Run.inSpan name r).Yields m w a m' w' := by
  intro t
  obtain ⟨t', ht⟩ := h (t.enter name).2
  refine ⟨t'.leave (t.enter name).1, ?_⟩
  show (let p := r.apply ⟨m, (t.enter name).2, w⟩;
    (p.1, Run.withTrace (p.2.trace.leave (t.enter name).1) p.2)) = _
  rw [ht]
  rfl

/-- An operation of its own answers what its body answers, or that with
spans attached, and leaves the marks and the world of its body. -/
theorem traced {a : Except Failure α} (name : Text) (attach : Span Nat → α → α)
    (h : r.Yields m w a m' w') (t : Trace Nat) :
    ∃ b t', (Run.traced name attach r).apply ⟨m, t, w⟩ = (b, ⟨m', t', w'⟩) ∧
      (b = a ∨ ∃ span, b = Except.map (attach span) a) := by
  obtain ⟨hmarks, hworld, hanswer⟩ := traced_entered name attach r ⟨m, t, w⟩
  have hbody : r.Yields (Session.entered ⟨m, t, w⟩ name).marks
      (Session.entered ⟨m, t, w⟩ name).world a m' w' := by
    rw [Session.entered_marks, Session.entered_world]
    exact h
  obtain ⟨ha, hm, hw⟩ := hbody.apply_eq
  rw [ha] at hanswer
  refine ⟨_, ((Run.traced name attach r).apply ⟨m, t, w⟩).2.trace, ?_, hanswer⟩
  rw [← hm, ← hw, ← hmarks, ← hworld]

end Yields

end Run

end Stencil
