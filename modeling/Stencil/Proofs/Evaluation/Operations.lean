import Stencil.Proofs.Evaluation.Outcome

/-!
# The outcomes of operations

An operation answers what its body answers, with two differences: an error
of the library is a value in the answer, so that only a fault ends the
operation itself; and the answer may carry spans. Neither matters for what
comes out of it: `Run.outcome` is the outcome of an operation, with an error
as a value and a fault as a failure.

## Main definitions

* `Run.outcome` — what comes out of an operation.
* `Run.succeeds` — whether it succeeds.

## Main results

* `Loader.eval_outcome` — the outcome of evaluating files.
* `Loader.eval_noEngine`, `Loader.eval_engine` — how it ends, and with which
  calls.
-/

namespace Stencil

variable {σ α : Type}

namespace Run

/-- What comes out of an operation: a value, an error, or a fault. -/
def outcome (r : Run σ (ServiceResult α)) (s : Session σ) : Except Failure (Except Error α) :=
  (r.apply s).1.map (·.outcome)

/-- Whether an operation succeeds. -/
def succeeds (r : Run σ (ServiceResult α)) (s : Session σ) : Bool :=
  match r.outcome s with
  | .ok (.ok _) => true
  | _ => false

theorem succeeds_iff {r : Run σ (ServiceResult α)} {s : Session σ} :
    r.succeeds s = true ↔ ∃ a, r.outcome s = .ok (.ok a) := by
  unfold succeeds
  rcases r.outcome s with _ | (_ | _) <;> simp

/-- An answer that is a value comes from one. -/
theorem attempted_eq_ok {a : Except Failure α} {x : α} (h : attempted a = .ok (.ok x)) :
    a = .ok x := by
  rcases a with (_ | _) | _ <;> cases h
  rfl

end Run

/-- **The outcome of evaluating files** is what the evaluation answers; the
operation leaves the same decisions on output and the same world. -/
theorem Loader.eval_outcome {l : Loader σ} {values : DataValues} {libraryValues : List DataValues}
    {librarySchemas : List DocumentSchema} {s : Session σ} {a : Except Failure EvalResult}
    {m' : Marks} {w' : σ}
    (h : (l.evaluateLibrary values libraryValues librarySchemas).Yields s.marks s.world a m' w') :
    let run := l.eval values libraryValues librarySchemas
    run.outcome s = Run.attempted a ∧ (run.apply s).2.marks = m' ∧
      (run.apply s).2.world = w' := by
  intro run
  have hbody : (do
      return .of "eval" (← Run.attempt (l.evaluateLibrary values libraryValues librarySchemas)) []
        : Run σ (ServiceResult EvalResult)).Yields s.marks s.world
      ((Run.attempted a).map fun outcome => .of "eval" outcome []) m' w' := by
    cases ha : Run.attempted a with
    | error x => exact Run.Yields.bind_error (ha ▸ Run.Yields.attempt h)
    | ok outcome => exact Run.Yields.bind (ha ▸ Run.Yields.attempt h) (Run.Yields.pure _)
  obtain ⟨b, t', hrun, hb⟩ :=
    Run.Yields.traced "LibraryLoader.eval" ServiceResult.attach hbody s.trace
  have hrun' : run.apply s = (b, ⟨m', t', w'⟩) := hrun
  rw [Run.outcome, hrun']
  refine ⟨?_, rfl, rfl⟩
  rcases hb with rfl | ⟨span, rfl⟩ <;> cases Run.attempted a <;> rfl

section Engine

variable {l : Loader σ} {values : DataValues} {libraryValues : List DataValues}
  {librarySchemas : List DocumentSchema} {s : Session σ} {w : σ}

/-- If no engine can be made, evaluating files fails as the making does, and
nothing else is called. -/
theorem Loader.eval_noEngine {x : Failure} (earlier : List Call)
    (engine : Action.apply (l.collaborators.newEngine ⟨values, libraryValues, librarySchemas⟩)
      s.world = (.error x, w)) :
    (l.eval values libraryValues librarySchemas).outcome s = Run.attempted (.error x) ∧
      ((l.recorded.eval values libraryValues librarySchemas).apply
        (s.recorded earlier)).2.world.calls =
          earlier ++ [.newEngine ⟨values, libraryValues, librarySchemas⟩] := by
  have engine' : Action.apply (l.recorded.collaborators.newEngine
      ⟨values, libraryValues, librarySchemas⟩) ⟨s.world, earlier⟩ =
      (.error x, ⟨w, earlier ++ [.newEngine ⟨values, libraryValues, librarySchemas⟩]⟩) := by
    simp only [Loader.recorded, Collaborators.recorded, Action.recorded_apply,
      Action.apply_bind, engine]
  obtain ⟨houtcome, -, -⟩ := Loader.eval_outcome (Loader.evaluateLibrary_noEngine engine)
  obtain ⟨-, -, hworld⟩ := Loader.eval_outcome (s := s.recorded earlier)
    (Loader.evaluateLibrary_noEngine engine')
  exact ⟨houtcome, congrArg Recorded.calls hworld⟩

/-- Evaluating files comes to an outcome that it has, with the calls that go
with it. -/
theorem Loader.eval_of_outcome {e : Engine σ} {answer : Except Failure EvalResult}
    {calls : List Call} {w' : σ} (earlier : List Call)
    (engine : Action.apply (l.collaborators.newEngine ⟨values, libraryValues, librarySchemas⟩)
      s.world = (.ok e, w))
    (h : Outcome l.collaborators ⟨e, l.context.root, s.marks, libraryValues⟩ l.library.accessible w
      answer calls w') :
    (l.eval values libraryValues librarySchemas).outcome s = Run.attempted answer ∧
      ((l.recorded.eval values libraryValues librarySchemas).apply
        (s.recorded earlier)).2.world.calls =
          earlier ++ .newEngine ⟨values, libraryValues, librarySchemas⟩ :: calls := by
  let v : Scene σ := ⟨e, l.context.root, s.marks, libraryValues⟩
  have hrun := Outcome.yields (v := v) engine rfl h
  have hrecorded := Outcome.recorded_yields (v := v) engine rfl h earlier
  obtain ⟨houtcome, -, -⟩ := Loader.eval_outcome hrun
  obtain ⟨-, -, hworld⟩ := Loader.eval_outcome (s := s.recorded earlier) hrecorded
  exact ⟨houtcome, congrArg Recorded.calls hworld⟩

/-- **How evaluating files ends**, if an engine can be made: the evaluation
has an outcome, which the operation comes to with the calls that go with
it. -/
theorem Loader.eval_engine {e : Engine σ} (earlier : List Call)
    (engine : Action.apply (l.collaborators.newEngine ⟨values, libraryValues, librarySchemas⟩)
      s.world = (.ok e, w)) :
    ∃ answer calls w',
      Outcome l.collaborators ⟨e, l.context.root, s.marks, libraryValues⟩ l.library.accessible w
        answer calls w' ∧
      (l.eval values libraryValues librarySchemas).outcome s = Run.attempted answer ∧
      ((l.recorded.eval values libraryValues librarySchemas).apply
        (s.recorded earlier)).2.world.calls =
          earlier ++ .newEngine ⟨values, libraryValues, librarySchemas⟩ :: calls := by
  obtain ⟨answer, calls, w', h⟩ := Outcome.total l.collaborators
    ⟨e, l.context.root, s.marks, libraryValues⟩ l.library.accessible w
  obtain ⟨houtcome, hcalls⟩ := Loader.eval_of_outcome earlier engine h
  exact ⟨answer, calls, w', h, houtcome, hcalls⟩

end Engine

end Stencil
