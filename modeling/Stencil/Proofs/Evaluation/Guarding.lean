import Stencil.Proofs.Failure
import Stencil.Proofs.Evaluation.Yields

/-!
# Failures behind wrappers

A wrapper makes errors of faults and lets errors pass. Wrappers stand around each other
when a library is evaluated within another one, and then an outer wrapper meets a failure
that an inner one has already dealt with. It must not deal with it again: the error would
name the wrong file, or the fault would no longer be its cause.

To make an error of a fault may be an action itself, which counts how often it is taken,
say. So a wrapper is given here by what it does with a fault in the world at hand; the
wrappers of runs, which only describe a fault, are those that leave the world alone. What
fails is any action, one that has wrappers inside as well, and so it does not matter
between which of the wrappers a failure arises.

## Main definitions

* `Action.guarded` — a wrapper around an action.
* `Action.guardedBy` — a stack of them.
* `Described` — what becomes of an answer behind a wrapper that only describes a fault.
* `describing` — what such a wrapper does with a fault.

## Main results

* `Action.guarded_guarded` — a wrapper around a wrapper has nothing to do.
* `Run.wrap_eq_guarded` — the wrappers of runs.
* `described_wrapFault` — what they do with an answer.
* `guarded_once` — what becomes of a failure behind a stack of wrappers.
-/

namespace Stencil

variable {σ α : Type}

namespace Action

/-! ## Wrappers -/

/-- What a wrapper does with an answer and the world it leaves. An error passes with its
cause; of a fault another action makes an error, and the fault is its cause. -/
def dealWith (make : Fault → StateM σ Error) : Except Failure α × σ → Except Failure α × σ
  | (.ok x, w) => (.ok x, w)
  | (.error (.error e cause), w) => (.error (.error e cause), w)
  | (.error (.fault f), w) =>
    let (e, w') := (make f).run w
    (.error (.error e (some f)), w')

/-- An action with a wrapper around it. -/
def guarded (make : Fault → StateM σ Error) (a : Action σ α) : Action σ α :=
  ExceptT.mk fun w => dealWith make (apply a w)

/-- An action under a stack of wrappers, the innermost first. -/
def guardedBy (makes : List (Fault → StateM σ Error)) (a : Action σ α) : Action σ α :=
  makes.foldl (fun a make => guarded make a) a

variable {make : Fault → StateM σ Error} {makes : List (Fault → StateM σ Error)} {a : Action σ α}
  {w w' : σ}

/-- Two actions are the same if they do the same in every world. -/
theorem eq_of_apply {a b : Action σ α} (h : ∀ w, apply a w = apply b w) : a = b := funext h

theorem guarded_apply (make : Fault → StateM σ Error) (a : Action σ α) (w : σ) :
    apply (guarded make a) w = dealWith make (apply a w) := rfl

theorem guarded_ok {x : α} (h : apply a w = (.ok x, w')) :
    apply (guarded make a) w = (.ok x, w') := by
  rw [guarded_apply, h]
  rfl

theorem guarded_error {e : Error} {cause : Option Fault}
    (h : apply a w = (.error (.error e cause), w')) :
    apply (guarded make a) w = (.error (.error e cause), w') := by
  rw [guarded_apply, h]
  rfl

theorem guarded_fault {f : Fault} (h : apply a w = (.error (.fault f), w')) :
    apply (guarded make a) w =
      (.error (.error ((make f).run w').1 (some f)), ((make f).run w').2) := by
  rw [guarded_apply, h]
  rfl

/-- **A wrapper around a wrapper** has nothing to do: no fault gets out of the inner one. -/
theorem guarded_guarded (outer make : Fault → StateM σ Error) (a : Action σ α) :
    guarded outer (guarded make a) = guarded make a := by
  refine eq_of_apply fun w => ?_
  rcases h : apply a w with ⟨(⟨e, cause⟩ | f) | x, w'⟩
  · rw [guarded_error (guarded_error h), guarded_error h]
  · rw [guarded_error (guarded_fault h), guarded_fault h]
  · rw [guarded_ok (guarded_ok h), guarded_ok h]

/-- A stack of wrappers does what the innermost of them does alone. -/
theorem guardedBy_cons (make : Fault → StateM σ Error) (makes : List (Fault → StateM σ Error))
    (a : Action σ α) : guardedBy (make :: makes) a = guarded make a := by
  induction makes with
  | nil => rfl
  | cons outer makes ih => rwa [guardedBy, List.foldl_cons, List.foldl_cons, guarded_guarded]

/-- A stack of wrappers changes no answer. -/
theorem guardedBy_ok {x : α} (h : apply a w = (.ok x, w')) :
    apply (guardedBy makes a) w = (.ok x, w') := by
  cases makes with
  | nil => exact h
  | cons make makes => rw [guardedBy_cons, guarded_ok h]

/-- A stack of wrappers changes no error. -/
theorem guardedBy_error {e : Error} {cause : Option Fault}
    (h : apply a w = (.error (.error e cause), w')) :
    apply (guardedBy makes a) w = (.error (.error e cause), w') := by
  cases makes with
  | nil => exact h
  | cons make makes => rw [guardedBy_cons, guarded_error h]

end Action

/-! ## Wrappers that describe a fault -/

/-- What becomes of an answer behind a wrapper that describes a fault. A value stays, and so
does an error with its cause. A fault becomes the error that describes its message, and is
the cause of it. -/
inductive Described (describe : Text → Error) : Except Failure α → Except Failure α → Prop
  | value (x : α) : Described describe (.ok x) (.ok x)
  | failure {x y : Failure} (wrapped : x.Becomes describe y) :
    Described describe (.error x) (.error y)

/-- To describe a fault by its message, in any world. -/
def describing (describe : Text → Error) (f : Fault) : StateM σ Error :=
  return describe f.message

/-- The wrapper of a run describes a fault. -/
theorem Run.wrap_eq_guarded (describe : Text → Error) (r : Run σ α) :
    Run.wrap describe r = Action.guarded (describing describe) r := by
  refine Action.eq_of_apply fun s => ?_
  have wrapped : Action.apply (Run.wrap describe r) s =
      (wrapFault describe (Action.apply r s).1, (Action.apply r s).2) := Run.wrap_apply describe r s
  rw [wrapped]
  rcases h : Action.apply r s with ⟨(⟨e, cause⟩ | f) | x, s'⟩
  · rw [Action.guarded_error h]
    rfl
  · rw [Action.guarded_fault h]
    rfl
  · rw [Action.guarded_ok h]
    rfl

/-- A wrapper that describes a fault leaves an answer as it is that is not a fault. -/
theorem described_wrapFault (describe : Text → Error) (r : Except Failure α) :
    Described describe r (wrapFault describe r) := by
  cases r with
  | ok x => exact .value x
  | error x => exact .failure (x.becomes_wrap describe)

/-! ## What becomes of a failure -/

/-- **A failure behind a stack of wrappers** is dealt with once. Without a failure nothing
changes, and an error gets out of any stack as it is, with its cause. Of a fault the
innermost wrapper makes an error whose cause is the fault, in the world that the fault has
left, and no other wrapper does anything in the world. So the stack does what that wrapper
does alone, whatever stands around it. The same goes for wrappers that describe a fault,
around a run and around an answer: alone they describe it, a run in the state that it
leaves, and a stack of them does what the innermost does. -/
theorem guarded_once (make : Fault → StateM σ Error) (makes : List (Fault → StateM σ Error))
    (a : Action σ α) (w w' : σ) :
    (∀ x, Action.apply a w = (.ok x, w') →
      ∀ makes, Action.apply (Action.guardedBy makes a) w = (.ok x, w')) ∧
    (∀ e cause, Action.apply a w = (.error (.error e cause), w') →
      ∀ makes, Action.apply (Action.guardedBy makes a) w = (.error (.error e cause), w')) ∧
    (∀ f, Action.apply a w = (.error (.fault f), w') →
      Action.apply (Action.guardedBy (make :: makes) a) w =
        (.error (.error ((make f).run w').1 (some f)), ((make f).run w').2)) ∧
    Action.guardedBy (make :: makes) a = Action.guarded make a ∧
    (∀ (describe : Text → Error) (describes : List (Text → Error)) (r : Run σ α),
      (∀ s, Described describe (r.apply s).1 ((Run.wrap describe r).apply s).1 ∧
        ((Run.wrap describe r).apply s).2 = (r.apply s).2) ∧
      describes.foldl (fun r outer => Run.wrap outer r) (Run.wrap describe r) =
        Run.wrap describe r) ∧
    ∀ (describe : Text → Error) (describes : List (Text → Error)) (r : Except Failure α),
      Described describe r (wrapFault describe r) ∧
      wrapFaults (describe :: describes) r = wrapFault describe r := by
  refine ⟨fun x h makes => Action.guardedBy_ok h, fun e cause h makes => Action.guardedBy_error h,
    fun f h => ?_, Action.guardedBy_cons make makes a,
    fun describe describes r => ⟨fun s => ?_, ?_⟩,
    fun describe describes r => ⟨described_wrapFault describe r, ?_⟩⟩
  · rw [Action.guardedBy_cons, Action.guarded_fault h]
  · rw [Run.wrap_apply]
    exact ⟨described_wrapFault describe _, rfl⟩
  · have stack := Action.guardedBy_cons (describing describe) (describes.map describing) r
    rw [Action.guardedBy, List.foldl_cons, List.foldl_map] at stack
    simp only [Run.wrap_eq_guarded]
    exact stack
  · rcases r with (⟨e, cause⟩ | f) | x
    · exact wrapFaults_error _ e cause
    · exact wrapFaults_fault describe describes f
    · exact wrapFaults_ok _ x

/-- Three wrappers that keep a record of their faults: the innermost one has one, and an error
that is there already is in no record. -/
theorem guarded_once_recorded :
    let recording (name : Text) (f : Fault) : StateM (List (Text × Text)) Error := do
      modify (· ++ [(name, f.message)])
      return .evaluation name f.message
    let stack := [recording "file.yml", recording "library", recording "root"]
    let fault : Fault := .raised "KeyError" "spec"
    let named : Failure := .error (.evaluation "file.yml" "spec") (some fault)
    let unused : Failure := .error (.unusedValues ["x"]) (some fault)
    let broken : Action (List (Text × Text)) Unit := throw (.fault fault)
    let failed : Action (List (Text × Text)) Unit := throw unused
    let faults : List (Text × Text) := [("file.yml", "spec")]
    Action.apply (Action.guardedBy stack broken) [] = (Except.error named, faults) ∧
      Action.apply (Action.guardedBy stack failed) [] = (Except.error unused, []) := by
  intro recording stack fault named unused broken failed faults
  have once (a : Action (List (Text × Text)) Unit) :=
    guarded_once (recording "file.yml") [recording "library", recording "root"] a [] []
  exact ⟨(once broken).2.2.1 fault rfl, (once failed).2.1 _ _ rfl stack⟩

end Stencil
