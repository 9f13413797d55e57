import Stencil.Proofs.Evaluation.Yields
import Stencil.Proofs.Values.Ledger

/-!
# Calls of collaborators

To say which collaborators an operation calls, and with what, the calls are
recorded: `Collaborators.recorded` does what the given collaborators do, and
besides writes every call at the end of a list that it keeps beside their
world. What an operation does with recorded collaborators tells its calls
for any collaborators whatever.

The three functions of an engine are put into one here, `Engine.evaluate`,
so that a call of an engine is its manner, its context and its file.

## Main definitions

* `Action.settled` — an answer, if the values it consumed are tracked.
* `Manner`, `Content`, `Engine.evaluate` — an engine as one function.
* `Engine.answer` — its answer, if the values it consumed are tracked.
* `Call`, `Recorded` — calls, and a world with the calls made so far.
* `Collaborators.recorded`, `Loader.recorded` — collaborators and loaders
  whose calls are recorded.
* `Collaborators.plain` — the simplest collaborators, for examples.

## Main results

* `Engine.recorded_answer` — a recorded engine answers as the engine does,
  and adds one call.
-/

namespace Stencil

variable {σ α : Type}

/-! ## Engines as one function -/

/-- The manners in which an engine evaluates a file. -/
inductive Manner where
  | yaml | text | script
  deriving DecidableEq, Repr

/-- What a file renders to. -/
inductive Content where
  | documents (docs : List Document)
  | text (t : Text)
  | nothing
  deriving Repr

/-- An answer with other content. -/
def Evaluated.mapContent {β : Type} (f : α → β) (a : Evaluated α) : Evaluated β :=
  ⟨a.symbols, a.consumed, f a.content⟩

/-- An engine's answer, if the values it consumed are tracked. An engine that
consumes a value which is not fails with the fault of the ledger. -/
def Action.settled (tracked : List DataValues) (a : Action σ (Evaluated α)) :
    Action σ (Evaluated α) := do
  let x ← a
  match firstUntracked tracked x.consumed with
  | none => return x
  | some v => throw (.fault (.untracked v.desc))

theorem Action.settled_apply (tracked : List DataValues) (a : Action σ (Evaluated α)) (w : σ) :
    Action.apply (Action.settled tracked a) w =
      match Action.apply a w with
      | (.ok x, w') =>
        match firstUntracked tracked x.consumed with
        | none => (.ok x, w')
        | some v => (Fault.throw (.untracked v.desc), w')
      | (.error x, w') => (.error x, w') := by
  rw [Action.settled, Action.apply_bind]
  rcases Action.apply a w with ⟨x | x, w'⟩
  · rfl
  · cases h : firstUntracked tracked x.consumed <;> simp only [h] <;> rfl

/-- What an answer is made into does not change what it consumed. -/
theorem Action.settled_mapContent {β : Type} (tracked : List DataValues) (g : α → β)
    (a : Action σ (Evaluated α)) (w : σ) :
    Action.apply (Action.settled tracked do return (← a).mapContent g) w =
      ((Action.apply (Action.settled tracked a) w).1.map (Evaluated.mapContent g),
        (Action.apply (Action.settled tracked a) w).2) := by
  simp only [Action.settled_apply, Action.apply_bind]
  rcases Action.apply a w with ⟨x | x, w'⟩
  · rfl
  · cases h : firstUntracked tracked x.consumed <;>
      simp [Evaluated.mapContent, h, Except.map, Fault.throw]

namespace Engine

/-- The answer of an engine for a file in one of the three manners. -/
def evaluate (e : Engine σ) : Manner → Context → File → Action σ (Evaluated Content)
  | .yaml, c, f => do return (← e.yaml c f).mapContent .documents
  | .text, c, f => do return (← e.text c f).mapContent .text
  | .script, c, f => do return (← e.script c f).mapContent fun _ => .nothing

/-- The answer of an engine for a file, if what it consumed is tracked. -/
def answer (e : Engine σ) (tracked : List DataValues) (k : Manner) (c : Context) (f : File) :
    Action σ (Evaluated Content) := Action.settled tracked (e.evaluate k c f)

end Engine

/-! ## Recorded calls -/

/-- A call of a collaborator, with what it is given. -/
inductive Call where
  | parse (file : File)
  | newEngine (seed : Seed)
  | evaluate (manner : Manner) (context : Context) (file : File)
  | merge (base patch : Document)
  | resolveValues (files : List Located) (overlays : List DataValues) (schema : Schema)
      (policy : ValuesPolicy)
  | postProcess (sets : DocumentSets)

/-- The file that an engine is called on. -/
def Call.evaluated? : Call → Option File
  | .evaluate _ _ f => some f
  | _ => none

/-- A world, and the calls that were made so far. -/
structure Recorded (σ : Type) where
  world : σ
  calls : List Call

/-- What a collaborator does, with the call written down. -/
def Action.recorded (call : Call) (a : Action σ α) : Action (Recorded σ) α :=
  ExceptT.mk fun v =>
    ((Action.apply a v.world).1, ⟨(Action.apply a v.world).2, v.calls ++ [call]⟩)

theorem Action.recorded_apply (call : Call) (a : Action σ α) (v : Recorded σ) :
    Action.apply (Action.recorded call a) v =
      ((Action.apply a v.world).1, ⟨(Action.apply a v.world).2, v.calls ++ [call]⟩) := rfl

/-- An engine whose calls are recorded. -/
def Engine.recorded (e : Engine σ) : Engine (Recorded σ) where
  yaml c f := Action.recorded (.evaluate .yaml c f) (e.yaml c f)
  text c f := Action.recorded (.evaluate .text c f) (e.text c f)
  script c f := Action.recorded (.evaluate .script c f) (e.script c f)

/-- Collaborators whose calls are recorded. -/
def Collaborators.recorded (c : Collaborators σ) : Collaborators (Recorded σ) where
  parse f := Action.recorded (.parse f) (c.parse f)
  newEngine seed := Action.recorded (.newEngine seed) do return (← c.newEngine seed).recorded
  merge base patch := Action.recorded (.merge base patch) (c.merge base patch)
  resolveValues files overlays schema policy :=
    Action.recorded (.resolveValues files overlays schema policy)
      (c.resolveValues files overlays schema policy)
  postProcess sets := Action.recorded (.postProcess sets) (c.postProcess sets)

/-- A loader whose collaborators are recorded. -/
def Loader.recorded (l : Loader σ) : Loader (Recorded σ) :=
  ⟨l.context, l.config, l.collaborators.recorded⟩

/-- A session in which some calls have been recorded. -/
def Session.recorded (s : Session σ) (calls : List Call) : Session (Recorded σ) :=
  ⟨s.marks, s.trace, ⟨s.world, calls⟩⟩

/-- An engine without expressions: a YAML file renders to its documents, a
text file to its path, and no file defines names. -/
def Engine.plain (documents : File → List Document) : Engine σ where
  yaml _ f := pure ⟨[], [], documents f⟩
  text _ f := pure ⟨[], [], f.path⟩
  script _ _ := pure ⟨[], [], ()⟩

/-- Collaborators around an engine without expressions. They merge nothing
and leave documents as they are. -/
def Collaborators.plain (documents : File → List Document) : Collaborators σ where
  parse f := pure (documents f)
  newEngine _ := pure (.plain documents)
  merge base _ := pure base
  resolveValues _ overlays _ _ := pure (.empty, overlays)
  postProcess sets := pure sets

namespace Engine

/-- Recording takes nothing from an engine's answer and adds one call. -/
private theorem recorded_evaluate (e : Engine σ) (k : Manner) (c : Context) (f : File)
    (v : Recorded σ) :
    Action.apply (e.recorded.evaluate k c f) v =
      ((Action.apply (e.evaluate k c f) v.world).1,
        ⟨(Action.apply (e.evaluate k c f) v.world).2, v.calls ++ [.evaluate k c f]⟩) := by
  cases k with
  | yaml =>
      simp only [evaluate, recorded, Action.apply_bind, Action.recorded_apply]
      rcases Action.apply (e.yaml c f) v.world with ⟨_ | _, _⟩ <;> rfl
  | text =>
      simp only [evaluate, recorded, Action.apply_bind, Action.recorded_apply]
      rcases Action.apply (e.text c f) v.world with ⟨_ | _, _⟩ <;> rfl
  | script =>
      simp only [evaluate, recorded, Action.apply_bind, Action.recorded_apply]
      rcases Action.apply (e.script c f) v.world with ⟨_ | _, _⟩ <;> rfl

/-- **A recorded engine.** It answers what the engine answers, and the call
is the only one that is added, whether or not it succeeds. -/
theorem recorded_answer (e : Engine σ) (tracked : List DataValues) (k : Manner) (c : Context)
    (f : File) (v : Recorded σ) :
    Action.apply (e.recorded.answer tracked k c f) v =
      ((Action.apply (e.answer tracked k c f) v.world).1,
        ⟨(Action.apply (e.answer tracked k c f) v.world).2, v.calls ++ [.evaluate k c f]⟩) := by
  simp only [answer, Action.settled_apply, recorded_evaluate]
  rcases Action.apply (e.evaluate k c f) v.world with ⟨x | a, w'⟩
  · rfl
  · cases h : firstUntracked tracked a.consumed <;> simp only [h]

end Engine

end Stencil
