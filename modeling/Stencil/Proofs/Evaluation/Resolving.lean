import Stencil.Evaluation.Values
import Stencil.Proofs.Evaluation.Discovering

/-!
# How data values are collected

Collecting data values discovers files and hands them, with the overlays and
the schema, to the pipeline for values. Either of the two can fail, and a
failure ends the collection. `Resolution` has one rule for each of the ways in
which it ends, with the calls of collaborators that go with it.

## Main definitions

* `valuesError` — values that cannot be resolved as an error of the library.
* `Resolution` — the ways in which collecting values ends.

## Main results

* `Resolution.total`, `Resolution.yields`, `Resolution.recorded` — there is
  one, it is what happens, and its calls are the ones that are made.
-/

namespace Stencil

variable {σ : Type}

/-- Values that cannot be resolved as an error of the library. -/
def valuesError (m : Text) : Error :=
  .reported .valuesResolution ("Resolving data values: " ++ m) []

/-- What collecting values ends with: its answer, the files that discovery
finds, the calls of collaborators, and the world it leaves. -/
inductive Resolution (l : Loader σ) (overlays : List DataValues) (schema : Schema) (w : σ) :
    Except Failure CollectedValues → List Located → List Call → σ → Prop
  /-- Discovery fails. -/
  | undiscovered {x : Failure} {found parsed : List Located} {w₁ : σ}
      (discovery : Discovery l.collaborators AnnotationName.dataValues l.library.accessible w
        (.error x) found parsed w₁) :
      Resolution l overlays schema w (.error x) found (parseCalls parsed) w₁
  /-- The values cannot be resolved. -/
  | unresolved {x y : Failure} {found parsed : List Located} {w₁ w₂ : σ}
      (discovery : Discovery l.collaborators AnnotationName.dataValues l.library.accessible w
        (.ok ()) found parsed w₁)
      (resolve : Action.apply (l.collaborators.resolveValues found overlays schema
        l.config.valuesPolicy) w₁ = (.error x, w₂)) (wrapped : x.Becomes valuesError y) :
      Resolution l overlays schema w (.error y) found
        (parseCalls parsed ++ [.resolveValues found overlays schema l.config.valuesPolicy]) w₂
  /-- The values are resolved. -/
  | resolved {values : DataValues} {libraryValues : List DataValues} {found parsed : List Located}
      {w₁ w₂ : σ}
      (discovery : Discovery l.collaborators AnnotationName.dataValues l.library.accessible w
        (.ok ()) found parsed w₁)
      (resolve : Action.apply (l.collaborators.resolveValues found overlays schema
        l.config.valuesPolicy) w₁ = (.ok (values, libraryValues), w₂)) :
      Resolution l overlays schema w (.ok ⟨values, libraryValues⟩) found
        (parseCalls parsed ++ [.resolveValues found overlays schema l.config.valuesPolicy]) w₂

namespace Resolution

variable {l : Loader σ} {overlays : List DataValues} {schema : Schema} {w w' : σ}
  {found : List Located} {calls : List Call} {answer : Except Failure CollectedValues}

/-- **Collecting values ends** in one of these ways. -/
theorem total (l : Loader σ) (overlays : List DataValues) (schema : Schema) (w : σ) :
    ∃ answer found calls w', Resolution l overlays schema w answer found calls w' := by
  obtain ⟨r, found, parsed, w₁, discovery⟩ :=
    Discovery.total l.collaborators AnnotationName.dataValues l.library.accessible w
  cases r with
  | error x => exact ⟨_, _, _, _, .undiscovered discovery⟩
  | ok u =>
      rcases resolve : Action.apply (l.collaborators.resolveValues found overlays schema
        l.config.valuesPolicy) w₁ with ⟨x | ⟨values, libraryValues⟩, w₂⟩
      · exact ⟨_, _, _, _, .unresolved discovery resolve (x.becomes_wrap _)⟩
      · exact ⟨_, _, _, _, .resolved discovery resolve⟩

/-- **Collecting values follows the rules**, and takes the files that are
found out of the output. -/
theorem yields (h : Resolution l overlays schema w answer found calls w') (m : Marks) :
    (l.collectValues overlays schema).Yields m w answer (m.claimAll found) w' := by
  cases h with
  | undiscovered discovery => exact Run.Yields.bind_error (discovery.phase_yields m)
  | unresolved discovery resolve wrapped =>
      obtain rfl := wrapped.eq_wrap
      refine Run.Yields.bind (discovery.phase_yields m) ?_
      refine Run.Yields.inSpan _ (Run.Yields.wrap (a := .error _) _ ?_)
      exact Run.Yields.bind_error (Run.Yields.perform resolve)
  | resolved discovery resolve =>
      refine Run.Yields.bind (discovery.phase_yields m) ?_
      refine Run.Yields.inSpan _ (Run.Yields.wrap (a := .ok _) _ ?_)
      exact Run.Yields.bind (Run.Yields.perform resolve) (Run.Yields.pure _)

/-- **The calls of collecting values** are the ones that a recorder writes
down. -/
theorem recorded (h : Resolution l overlays schema w answer found calls w')
    (earlier : List Call) :
    Resolution l.recorded overlays schema ⟨w, earlier⟩ answer found calls
      ⟨w', earlier ++ calls⟩ := by
  have call : ∀ {found : List Located} {r : Except Failure (DataValues × List DataValues)}
      {v v' : σ} (before : List Call), Action.apply (l.collaborators.resolveValues found overlays
        schema l.config.valuesPolicy) v = (r, v') →
      Action.apply (l.recorded.collaborators.resolveValues found overlays schema
        l.recorded.config.valuesPolicy) ⟨v, before⟩ =
        (r, ⟨v', before ++ [.resolveValues found overlays schema l.config.valuesPolicy]⟩) := by
    intro found r v v' before resolve
    simp only [Loader.recorded, Collaborators.recorded, Action.recorded_apply, resolve]
  cases h with
  | undiscovered discovery => exact .undiscovered (discovery.recorded earlier)
  | unresolved discovery resolve wrapped =>
      rw [← List.append_assoc]
      exact .unresolved (discovery.recorded earlier) (call _ resolve) wrapped
  | resolved discovery resolve =>
      rw [← List.append_assoc]
      exact .resolved (discovery.recorded earlier) (call _ resolve)

end Resolution

end Stencil
