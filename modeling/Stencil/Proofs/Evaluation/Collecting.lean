import Stencil.Proofs.Evaluation.Discovering
import Stencil.Proofs.Evaluation.Merging
import Stencil.Proofs.Failure

/-!
# How schemas are collected

Collecting schemas discovers files, evaluates them, builds the schemas that
their documents declare, and merges those that are addressed to the library
at hand. Each of these can fail, and a failure ends the collection.
`Collection` has one rule for each of the ways in which it ends, with the
calls of collaborators that go with it, and is shown to be what happens.

The rules are about any collaborators. What is declared and what is merged is
then read off them: the sources are the schema documents of the evaluated
files, in order, and after them the overlays.

## Main definitions

* `schemaDocuments` — the documents among some that declare a schema.
* `SchemaPass` — evaluating schema files, one after another.
* `Declared` — collecting up to the schemas that files declare.
* `Collection` — the ways in which collecting schemas ends.

## Main results

* `Collection.total`, `Collection.yields`, `Collection.recorded` — there is
  one, it is what happens, and its calls are the ones that are made.
* `SchemaPass.sources` — the declared schemas are those of the schema
  documents of the evaluated files.
* `collectSchemas_outcome` — what is collected, and with which calls.
-/

namespace Stencil

variable {σ : Type}

/-- The documents among some that declare a schema. -/
def schemaDocuments (docs : List Document) : List Document :=
  docs.filter (·.mark.carries AnnotationName.schemaMatch)

/-- The schemas that an evaluated file declares: none if the annotation stands
further down than on a document. -/
theorem declaredSchemas_eq (docs : List Document) :
    Loader.declaredSchemas docs =
      match Documents.firstMisplaced AnnotationName.schemaMatch docs with
      | some n => Error.throw (.annotationSyntax (Documents.misplaced AnnotationName.schemaMatch n))
      | none => (schemaDocuments docs).mapM DocumentSchema.ofDocument := by
  unfold Loader.declaredSchemas
  rw [Documents.split_eq]
  cases Documents.firstMisplaced AnnotationName.schemaMatch docs <;> rfl

/-! ## Evaluating schema files -/

/-- The engine's answer for a schema file, which is evaluated apart from the
root and without library values. -/
def Engine.schemaAnswer (e : Engine σ) (f : Located) : Action σ (Evaluated (List Document)) :=
  Action.settled [] (e.yaml ⟨f.library, .empty [] []⟩ f.file)

/-- The call of an engine for a schema file. -/
def Located.schemaCall (f : Located) : Call := .evaluate .yaml ⟨f.library, .empty [] []⟩ f.file

/-- A recorded engine answers for a schema file what the engine answers. -/
theorem Engine.recorded_schemaAnswer {e : Engine σ} {f : Located} {w w' : σ}
    {r : Except Failure (Evaluated (List Document))}
    (h : Action.apply (e.schemaAnswer f) w = (r, w')) (earlier : List Call) :
    Action.apply (e.recorded.schemaAnswer f) ⟨w, earlier⟩ =
      (r, ⟨w', earlier ++ [f.schemaCall]⟩) := by
  rw [Engine.schemaAnswer, Action.settled_apply] at h ⊢
  rw [Engine.recorded, Action.recorded_apply]
  rcases ha : Action.apply (e.yaml ⟨f.library, .empty [] []⟩ f.file) w with ⟨x | a, w₁⟩ <;>
    rw [ha] at h
  · cases h
    rfl
  · cases hfirst : firstUntracked [] a.consumed <;> simp only [hfirst] at h ⊢ <;> cases h <;> rfl

/-- What comes of evaluating schema files one after another with an engine:
the document set of each file with the schemas that all of them declare, or a
failure; the files that are evaluated; and the world it leaves. -/
inductive SchemaPass (e : Engine σ) :
    List Located → σ → Except Failure (List (List Document) × List DocumentSchema) →
      List Located → σ → Prop
  | nil {w : σ} : SchemaPass e [] w (.ok ([], [])) [] w
  /-- The engine fails. -/
  | failed {f : Located} {fs : List Located} {x y : Failure} {w w' : σ}
      (answer : Action.apply (e.schemaAnswer f) w = (.error x, w'))
      (wrapped : x.Becomes (.evaluation f.path) y) :
      SchemaPass e (f :: fs) w (.error y) [f] w'
  /-- The annotation stands further down than on a document. -/
  | misplaced {f : Located} {fs : List Located} {a : Evaluated (List Document)} {n : Node}
      {w w' : σ} (answer : Action.apply (e.schemaAnswer f) w = (.ok a, w'))
      (nested : Documents.firstMisplaced AnnotationName.schemaMatch a.content = some n) :
      SchemaPass e (f :: fs) w
        (.error (.error
          (.annotationSyntax (Documents.misplaced AnnotationName.schemaMatch n)) none)) [f] w'
  /-- One of the documents declares no schema. -/
  | untyped {f : Located} {fs : List Located} {a : Evaluated (List Document)} {x : Failure}
      {w w' : σ} (answer : Action.apply (e.schemaAnswer f) w = (.ok a, w'))
      (above : Documents.firstMisplaced AnnotationName.schemaMatch a.content = none)
      (types : (schemaDocuments a.content).mapM DocumentSchema.ofDocument = .error x) :
      SchemaPass e (f :: fs) w (.error x) [f] w'
  /-- The file declares some schemas. -/
  | step {f : Located} {fs visited : List Located} {a : Evaluated (List Document)}
      {schemas : List DocumentSchema}
      {r : Except Failure (List (List Document) × List DocumentSchema)} {w w₁ w₂ : σ}
      (answer : Action.apply (e.schemaAnswer f) w = (.ok a, w₁))
      (above : Documents.firstMisplaced AnnotationName.schemaMatch a.content = none)
      (types : (schemaDocuments a.content).mapM DocumentSchema.ofDocument = .ok schemas)
      (rest : SchemaPass e fs w₁ r visited w₂) :
      SchemaPass e (f :: fs) w (r.map fun p => (a.content :: p.1, schemas ++ p.2))
        (f :: visited) w₂

/-- An answer for a schema file is taken if it is a settled one, and its
failure names the file. -/
private theorem schemaAnswer_yields {e : Engine σ} {f : Located} {m : Marks} {w w' : σ}
    {r : Except Failure (Evaluated (List Document))}
    (h : Action.apply (e.schemaAnswer f) w = (r, w')) :
    (Run.wrap (.evaluation f.path) do
      let a ← Run.perform (e.yaml ⟨f.library, .empty [] []⟩ f.file)
      let _ ← Run.ofExcept ((Ledger.ofList []).markAll a.consumed)
      return a.content : Run σ (List Document)).Yields m w
      (wrapFault (.evaluation f.path) (r.map Evaluated.content)) m w' := by
  refine Run.Yields.wrap _ ?_
  rw [Engine.schemaAnswer, Action.settled_apply] at h
  rcases ha : Action.apply (e.yaml ⟨f.library, .empty [] []⟩ f.file) w with ⟨x | a, w₁⟩ <;>
    rw [ha] at h
  · cases h
    exact Run.Yields.bind_error (Run.Yields.perform ha)
  · refine Run.Yields.bind (Run.Yields.perform ha) ?_
    rw [← Ledger.after_nil, Ledger.markAll_after]
    cases hfirst : firstUntracked [] a.consumed <;> simp only [hfirst] at h ⊢ <;> cases h
    · exact Run.Yields.bind (Run.Yields.ofExcept _) (Run.Yields.pure _)
    · exact Run.Yields.bind_error (Run.Yields.ofExcept _)

namespace SchemaPass

variable {e : Engine σ} {files visited : List Located} {w w' : σ}
  {r : Except Failure (List (List Document) × List DocumentSchema)}

theorem total (e : Engine σ) (files : List Located) (w : σ) :
    ∃ r visited w', SchemaPass e files w r visited w' := by
  induction files generalizing w with
  | nil => exact ⟨_, _, _, .nil⟩
  | cons f fs ih =>
      rcases answer : Action.apply (e.schemaAnswer f) w with ⟨x | a, w₁⟩
      · exact ⟨_, _, _, .failed answer (x.becomes_wrap _)⟩
      · cases above : Documents.firstMisplaced AnnotationName.schemaMatch a.content with
        | some n => exact ⟨_, _, _, .misplaced answer above⟩
        | none =>
            cases types : (schemaDocuments a.content).mapM DocumentSchema.ofDocument with
            | error x => exact ⟨_, _, _, .untyped answer above types⟩
            | ok schemas =>
                obtain ⟨r, visited, w₂, rest⟩ := ih w₁
                exact ⟨_, _, _, .step answer above types rest⟩

theorem yields (h : SchemaPass e files w r visited w') (m : Marks) :
    (Loader.evaluateSchemas e files).Yields m w (r.map (·.2)) m w' := by
  induction h with
  | nil => exact Run.Yields.pure _
  | failed answer wrapped =>
      obtain rfl := wrapped.eq_wrap
      exact Run.Yields.bind_error (schemaAnswer_yields answer)
  | misplaced answer nested =>
      refine Run.Yields.bind (schemaAnswer_yields answer) ?_
      rw [declaredSchemas_eq, nested]
      exact Run.Yields.bind_error (Run.Yields.ofExcept _)
  | untyped answer above types =>
      refine Run.Yields.bind (schemaAnswer_yields answer) ?_
      rw [declaredSchemas_eq, above, types]
      exact Run.Yields.bind_error (Run.Yields.ofExcept _)
  | @step f fs visited a schemas r w w₁ w₂ answer above types rest ih =>
      refine Run.Yields.bind (schemaAnswer_yields answer) ?_
      rw [declaredSchemas_eq, above, types]
      refine Run.Yields.bind (Run.Yields.ofExcept _) ?_
      cases r with
      | error x => exact Run.Yields.bind_error ih
      | ok p => exact Run.Yields.bind ih (Run.Yields.pure _)

theorem recorded (h : SchemaPass e files w r visited w') (earlier : List Call) :
    SchemaPass e.recorded files ⟨w, earlier⟩ r visited
      ⟨w', earlier ++ visited.map Located.schemaCall⟩ := by
  induction h generalizing earlier with
  | nil => simpa using SchemaPass.nil
  | failed answer wrapped => exact .failed (Engine.recorded_schemaAnswer answer earlier) wrapped
  | misplaced answer nested => exact .misplaced (Engine.recorded_schemaAnswer answer earlier) nested
  | untyped answer above types =>
      exact .untyped (Engine.recorded_schemaAnswer answer earlier) above types
  | @step f fs visited a schemas r w w₁ w₂ answer above types rest ih =>
      have hrest := ih (earlier ++ [f.schemaCall])
      rw [List.append_assoc] at hrest
      exact .step (Engine.recorded_schemaAnswer answer earlier) above types hrest

/-- If no file fails, all of them are evaluated. -/
theorem visited_all (h : SchemaPass e files w r visited w')
    {p : List (List Document) × List DocumentSchema} (hr : r = .ok p) : visited = files := by
  induction h generalizing p with
  | nil => rfl
  | failed => cases hr
  | misplaced => cases hr
  | untyped => cases hr
  | @step f fs visited a schemas r w w₁ w₂ _ _ _ rest ih =>
      cases r with
      | error x => cases hr
      | ok q => rw [ih rfl]

/-- **The declared schemas** are those of the schema documents of the
evaluated files, in the order of the files and of the documents in them. -/
theorem sources (h : SchemaPass e files w r visited w') {sets : List (List Document)}
    {declared : List DocumentSchema} (hr : r = .ok (sets, declared)) :
    sets.length = files.length ∧
      List.Forall₂ (fun d s => DocumentSchema.ofDocument d = .ok s)
        (sets.flatMap schemaDocuments) declared := by
  induction h generalizing sets declared with
  | nil =>
      cases hr
      exact ⟨rfl, .nil⟩
  | failed => cases hr
  | misplaced => cases hr
  | untyped => cases hr
  | @step f fs visited a schemas r w w₁ w₂ _ _ types rest ih =>
      cases r with
      | error x => cases hr
      | ok q =>
          cases hr
          obtain ⟨hlength, htypes⟩ := ih rfl
          refine ⟨by simp [hlength], ?_⟩
          rw [List.flatMap_cons]
          exact List.rel_append (mapM_eq_ok types) htypes

end SchemaPass

/-! ## The whole collection -/

/-- What an engine is made with that evaluates schema files. -/
def schemaSeed : Seed := ⟨.empty, [], []⟩

/-- What comes of the schema files of a library, if nothing fails: the files
that are found, the document set that each of them is evaluated to, the
schemas that these declare, the calls that are made, and the world that is
left. -/
inductive Declared (l : Loader σ) (w : σ) :
    List Located → List (List Document) → List DocumentSchema → List Call → σ → Prop
  | intro {found parsed : List Located} {e : Engine σ} {sets : List (List Document)}
      {declared : List DocumentSchema} {w₁ w₂ w₃ : σ}
      (discovery : Discovery l.collaborators AnnotationName.schemaMatch l.library.accessible w
        (.ok ()) found parsed w₁)
      (engine : Action.apply (l.collaborators.newEngine schemaSeed) w₁ = (.ok e, w₂))
      (pass : SchemaPass e found w₂ (.ok (sets, declared)) found w₃) :
      Declared l w found sets declared
        (parseCalls parsed ++ .newEngine schemaSeed :: found.map Located.schemaCall) w₃

/-- The schemas among some that are addressed to nested libraries. -/
def addressedSchemas (schemas : List DocumentSchema) : List DocumentSchema :=
  schemas.filter (·.source.mark.carries AnnotationName.libraryRef)

/-- The sources of the schemas among some that are addressed to the library at
hand. -/
def ownSources (schemas : List DocumentSchema) : List Document :=
  (schemas.filter fun s => !s.source.mark.carries AnnotationName.libraryRef).map (·.source)

/-- What collecting schemas ends with: its answer, the files that discovery
finds, the calls of collaborators, and the world it leaves. -/
inductive Collection (l : Loader σ) (overlays : List DocumentSchema) (w : σ) :
    Except Failure CollectedSchemas → List Located → List Call → σ → Prop
  /-- Discovery fails. -/
  | undiscovered {x : Failure} {found parsed : List Located} {w₁ : σ}
      (discovery : Discovery l.collaborators AnnotationName.schemaMatch l.library.accessible w
        (.error x) found parsed w₁) :
      Collection l overlays w (.error x) found (parseCalls parsed) w₁
  /-- Schemas are switched off. -/
  | disabled {found parsed : List Located} {w₁ : σ} (off : l.config.schemaEnabled = false)
      (discovery : Discovery l.collaborators AnnotationName.schemaMatch l.library.accessible w
        (.ok ()) found parsed w₁) :
      Collection l overlays w
        (.ok ⟨.permissive, [], (found.head?.map fun f =>
          ("Schema document was detected (" : Text) ++ f.path ++
            "), but schema processing is disabled").toList⟩) found
        (parseCalls parsed) w₁
  /-- No engine can be made. -/
  | noEngine {x : Failure} {found parsed : List Located} {w₁ w₂ : σ}
      (on : l.config.schemaEnabled = true)
      (discovery : Discovery l.collaborators AnnotationName.schemaMatch l.library.accessible w
        (.ok ()) found parsed w₁)
      (engine : Action.apply (l.collaborators.newEngine schemaSeed) w₁ = (.error x, w₂)) :
      Collection l overlays w (.error x) found (parseCalls parsed ++ [.newEngine schemaSeed]) w₂
  /-- A schema file fails. -/
  | undeclared {x : Failure} {found parsed visited : List Located} {e : Engine σ} {w₁ w₂ w₃ : σ}
      (on : l.config.schemaEnabled = true)
      (discovery : Discovery l.collaborators AnnotationName.schemaMatch l.library.accessible w
        (.ok ()) found parsed w₁)
      (engine : Action.apply (l.collaborators.newEngine schemaSeed) w₁ = (.ok e, w₂))
      (pass : SchemaPass e found w₂ (.error x) visited w₃) :
      Collection l overlays w (.error x) found
        (parseCalls parsed ++ .newEngine schemaSeed :: visited.map Located.schemaCall) w₃
  /-- The declared schemas and the overlays are merged. -/
  | merging {found : List Located} {sets : List (List Document)} {declared : List DocumentSchema}
      {calls : List Call} {r : Except Failure Schema} {pairs : List (Document × Document)}
      {w₁ w₂ : σ} (on : l.config.schemaEnabled = true)
      (files : Declared l w found sets declared calls w₁)
      (merge : Merging l.collaborators (ownSources (declared ++ overlays)) w₁ r pairs w₂) :
      Collection l overlays w
        (r.map fun schema => ⟨schema, addressedSchemas (declared ++ overlays), []⟩) found
        (calls ++ mergeCalls pairs) w₂

namespace Collection

variable {l : Loader σ} {overlays : List DocumentSchema} {w w' : σ} {found : List Located}
  {calls : List Call} {answer : Except Failure CollectedSchemas}

/-- **Collecting schemas ends** in one of these ways. -/
theorem total (l : Loader σ) (overlays : List DocumentSchema) (w : σ) :
    ∃ answer found calls w', Collection l overlays w answer found calls w' := by
  obtain ⟨r, found, parsed, w₁, discovery⟩ :=
    Discovery.total l.collaborators AnnotationName.schemaMatch l.library.accessible w
  cases r with
  | error x => exact ⟨_, _, _, _, .undiscovered discovery⟩
  | ok u =>
      cases on : l.config.schemaEnabled with
      | false => exact ⟨_, _, _, _, .disabled on discovery⟩
      | true =>
          rcases engine : Action.apply (l.collaborators.newEngine schemaSeed) w₁ with ⟨x | e, w₂⟩
          · exact ⟨_, _, _, _, .noEngine on discovery engine⟩
          · obtain ⟨r, visited, w₃, pass⟩ := SchemaPass.total e found w₂
            cases r with
            | error x => exact ⟨_, _, _, _, .undeclared on discovery engine pass⟩
            | ok p =>
                obtain rfl := pass.visited_all rfl
                obtain ⟨r, pairs, w₄, merge⟩ :=
                  Merging.total l.collaborators (ownSources (p.2 ++ overlays)) w₃
                exact ⟨_, _, _, _, .merging on ⟨discovery, engine, pass⟩ merge⟩

/-- The schema files are evaluated in a span, with an engine of their own. -/
theorem schemaDocuments_yields {e : Engine σ} {visited : List Located}
    {r : Except Failure (List (List Document) × List DocumentSchema)} {w₁ w₂ : σ}
    (engine : Action.apply (l.collaborators.newEngine schemaSeed) w = (.ok e, w₁))
    (pass : SchemaPass e found w₁ r visited w₂) (m : Marks) :
    (l.schemaDocuments found).Yields m w (r.map (·.2)) m w₂ := by
  refine Run.Yields.inSpan _ ?_
  exact Run.Yields.bind (Run.Yields.perform engine) (pass.yields m)

/-- **Collecting schemas follows the rules**, in any way in which it ends, and
takes the files that are found out of the output. -/
theorem yields (h : Collection l overlays w answer found calls w') (m : Marks) :
    (l.collectSchemas overlays).Yields m w answer (m.claimAll found) w' := by
  cases h with
  | undiscovered discovery => exact Run.Yields.bind_error (discovery.phase_yields m)
  | disabled off discovery =>
      refine Run.Yields.bind (discovery.phase_yields m) ?_
      rw [if_neg (by rw [off]; exact Bool.false_ne_true)]
      exact Run.Yields.pure _
  | noEngine on discovery engine =>
      refine Run.Yields.bind (discovery.phase_yields m) ?_
      rw [if_pos on]
      refine Run.Yields.bind_error (Run.Yields.inSpan _ ?_)
      exact Run.Yields.bind_error (Run.Yields.perform engine)
  | undeclared on discovery engine pass =>
      refine Run.Yields.bind (discovery.phase_yields m) ?_
      rw [if_pos on]
      exact Run.Yields.bind_error (schemaDocuments_yields engine pass _)
  | @merging _ _ _ _ r _ _ _ on files merge =>
      obtain ⟨discovery, engine, pass⟩ := files
      refine Run.Yields.bind (discovery.phase_yields m) ?_
      rw [if_pos on]
      refine Run.Yields.bind (schemaDocuments_yields engine pass _) ?_
      simp only [List.partition_eq_filter_filter]
      have hmerge := merge.yields (m.claimAll found)
      cases r with
      | error x => exact Run.Yields.bind_error hmerge
      | ok schema => exact Run.Yields.bind hmerge (Run.Yields.pure _)

/-- The making of an engine is recorded, and so are the calls of the engine
that is made. -/
private theorem recorded_newEngine {r : Except Failure (Engine σ)} {w₁ : σ}
    (engine : Action.apply (l.collaborators.newEngine schemaSeed) w = (r, w₁))
    (earlier : List Call) :
    Action.apply (l.recorded.collaborators.newEngine schemaSeed) ⟨w, earlier⟩ =
      (r.map Engine.recorded, ⟨w₁, earlier ++ [.newEngine schemaSeed]⟩) := by
  cases r <;> simp only [Loader.recorded, Collaborators.recorded, Action.recorded_apply,
    Action.apply_bind, engine, Action.apply_pure] <;> rfl

/-- An engine is made and evaluates schema files, both of which is recorded. -/
private theorem recorded_pass {e : Engine σ} {visited : List Located}
    {r : Except Failure (List (List Document) × List DocumentSchema)} {w₁ w₂ : σ}
    (engine : Action.apply (l.collaborators.newEngine schemaSeed) w = (.ok e, w₁))
    (pass : SchemaPass e found w₁ r visited w₂) (earlier : List Call) :
    ∃ v, Action.apply (l.recorded.collaborators.newEngine schemaSeed) ⟨w, earlier⟩ =
        (.ok e.recorded, v) ∧
      SchemaPass e.recorded found v r visited
        ⟨w₂, earlier ++ .newEngine schemaSeed :: visited.map Located.schemaCall⟩ := by
  have hpass := pass.recorded (earlier ++ [.newEngine schemaSeed])
  rw [List.append_assoc] at hpass
  exact ⟨_, recorded_newEngine engine earlier, hpass⟩

/-- What files declare is recorded with the calls that lead to it. -/
private theorem recorded_declared {sets : List (List Document)} {declared : List DocumentSchema}
    (h : Declared l w found sets declared calls w') (earlier : List Call) :
    Declared l.recorded ⟨w, earlier⟩ found sets declared calls ⟨w', earlier ++ calls⟩ := by
  cases h with
  | @intro parsed _ _ _ _ _ _ discovery engine pass =>
      obtain ⟨v, hengine, hpass⟩ := recorded_pass engine pass (earlier ++ parseCalls parsed)
      rw [List.append_assoc] at hpass
      exact ⟨discovery.recorded earlier, hengine, hpass⟩

/-- **The calls of a collection** are the ones that a recorder writes down. -/
theorem recorded (h : Collection l overlays w answer found calls w') (earlier : List Call) :
    Collection l.recorded overlays ⟨w, earlier⟩ answer found calls ⟨w', earlier ++ calls⟩ := by
  cases h with
  | undiscovered discovery => exact .undiscovered (discovery.recorded earlier)
  | disabled off discovery => exact .disabled off (discovery.recorded earlier)
  | @noEngine _ _ parsed _ _ on discovery engine =>
      have hengine := recorded_newEngine engine (earlier ++ parseCalls parsed)
      rw [List.append_assoc] at hengine
      exact .noEngine on (discovery.recorded earlier) hengine
  | @undeclared _ _ parsed _ _ _ _ _ on discovery engine pass =>
      obtain ⟨v, hengine, hpass⟩ := recorded_pass engine pass (earlier ++ parseCalls parsed)
      rw [List.append_assoc] at hpass
      exact .undeclared on (discovery.recorded earlier) hengine hpass
  | @merging _ _ _ calls _ _ _ _ on files merge =>
      have hmerge := merge.recorded (earlier ++ calls)
      rw [List.append_assoc] at hmerge
      exact .merging on (recorded_declared files earlier) hmerge

/-- A collection while schemas are switched off calls the parser only, and
declares nothing. -/
private theorem of_disabled (h : Collection l overlays w answer found calls w')
    (off : l.config.schemaEnabled = false) :
    (∃ parsed, calls = parseCalls parsed) ∧ ∀ collected, answer = .ok collected →
      collected = ⟨.permissive, [],
        (found.head?.map fun f => ("Schema document was detected (" : Text) ++ f.path ++
          "), but schema processing is disabled").toList⟩ := by
  cases h with
  | undiscovered => exact ⟨⟨_, rfl⟩, nofun⟩
  | disabled =>
      refine ⟨⟨_, rfl⟩, ?_⟩
      intro collected ok
      cases ok
      rfl
  | noEngine on => rw [off] at on; cases on
  | undeclared on => rw [off] at on; cases on
  | merging on => rw [off] at on; cases on

/-- A collection that succeeds while schemas are switched on evaluates all
files that are found. -/
private theorem exists_declared (h : Collection l overlays w answer found calls w')
    (on : l.config.schemaEnabled = true) {collected : CollectedSchemas}
    (ok : answer = .ok collected) :
    ∃ sets declared before w₁, Declared l w found sets declared before w₁ := by
  cases h with
  | undiscovered => cases ok
  | disabled off => rw [on] at off; cases off
  | noEngine => cases ok
  | undeclared => cases ok
  | merging _ files => exact ⟨_, _, _, _, files⟩

end Collection

/-- The declared schemas are those of the schema documents of the evaluated
files. -/
theorem Declared.sources {l : Loader σ} {w w' : σ} {found : List Located}
    {sets : List (List Document)} {declared : List DocumentSchema} {calls : List Call}
    (h : Declared l w found sets declared calls w') :
    List.Forall₂ (fun d s => DocumentSchema.ofDocument d = .ok s)
      (sets.flatMap schemaDocuments) declared := by
  cases h with
  | intro _ _ pass => exact (pass.sources rfl).2

/-- No schema document that is merged is addressed to a nested library. -/
theorem carries_of_mem_ownSources {schemas : List DocumentSchema} {d : Document}
    (h : d ∈ ownSources schemas) : d.mark.carries AnnotationName.libraryRef = false := by
  obtain ⟨s, hs, rfl⟩ := List.mem_map.mp h
  simpa using (List.mem_filter.mp hs).2

/-- **What collecting schemas comes to**, for any library, options, overlays
and collaborators, from any session. It ends in exactly one of the ways of
`Collection`, with the calls that go with it, and takes the files that are
found out of the output.

If schemas are switched off, only the parser is called; and if it does not
fail, the schema is permissive, no schema is addressed to a nested library, and
there is a warning about the first file that is found, if there is one.

If schemas are switched on and nothing fails up to the schemas that the files
declare, these are the schemas of the schema documents of the evaluated files
in order. They are followed by the overlays. Those that are addressed to
nested libraries are kept apart, in order, and none of them is merged; the
sources of the others are merged from the left. -/
theorem collectSchemas_outcome (l : Loader σ) (overlays : List DocumentSchema) (s : Session σ)
    (earlier : List Call) :
    let run := (l.collectSchemas overlays).apply s
    let recorded := (l.recorded.collectSchemas overlays).apply (s.recorded earlier)
    ∃ answer found calls w', Collection l overlays s.world answer found calls w' ∧
      (∀ answer' found' calls' w'', Collection l overlays s.world answer' found' calls' w'' →
        answer' = answer ∧ calls' = calls ∧ w'' = w') ∧
      (run.1 = answer ∧ run.2.marks = s.marks.claimAll found ∧ run.2.world = w') ∧
      (recorded.1 = answer ∧ recorded.2.world = ⟨w', earlier ++ calls⟩) ∧
      (l.config.schemaEnabled = false →
        (∃ parsed, calls = parseCalls parsed) ∧ ∀ collected, answer = .ok collected →
          collected = ⟨.permissive, [],
            (found.head?.map fun f => ("Schema document was detected (" : Text) ++ f.path ++
              "), but schema processing is disabled").toList⟩) ∧
      (l.config.schemaEnabled = true → ∀ collected, answer = .ok collected →
        ∃ sets declared before w₁, Declared l s.world found sets declared before w₁) ∧
      (l.config.schemaEnabled = true → ∀ found sets declared before w₁,
        Declared l s.world found sets declared before w₁ →
        let sources := declared ++ overlays
        List.Forall₂ (fun d s => DocumentSchema.ofDocument d = .ok s)
            (sets.flatMap schemaDocuments) declared ∧
          (∀ d ∈ ownSources sources, d.mark.carries AnnotationName.libraryRef = false) ∧
          ∃ r pairs, MergedFromLeft l.collaborators (ownSources sources) w₁ r pairs ∧
            calls = before ++ mergeCalls pairs ∧
            answer = r.map fun schema => ⟨schema, addressedSchemas sources, []⟩) := by
  intro run recorded
  obtain ⟨answer, found, calls, w', h⟩ := Collection.total l overlays s.world
  have hrecorded := (h.recorded earlier).yields s.marks
  have hunique : ∀ answer' found' calls' w'',
      Collection l overlays s.world answer' found' calls' w'' →
      answer' = answer ∧ calls' = calls ∧ w'' = w' := by
    intro answer' found' calls' w'' h'
    obtain ⟨ha, -, hw⟩ := ((h'.recorded earlier).yields s.marks).unique hrecorded
    rw [Recorded.mk.injEq, List.append_cancel_left_eq] at hw
    exact ⟨ha, hw.2, hw.1⟩
  refine ⟨answer, found, calls, w', h, hunique, (h.yields s.marks).apply_eq, ?_,
    h.of_disabled, fun on _ ok => h.exists_declared on ok, ?_⟩
  · obtain ⟨ha, -, hw⟩ := hrecorded.apply_eq (s := s.recorded earlier)
    exact ⟨ha, hw⟩
  · intro on found sets declared before w₁ files sources
    refine ⟨files.sources, fun d hd => carries_of_mem_ownSources hd, ?_⟩
    obtain ⟨r, pairs, w₂, merge⟩ := Merging.total l.collaborators (ownSources sources) w₁
    obtain ⟨ha, hcalls, -⟩ := hunique _ _ _ _ (.merging on files merge)
    exact ⟨r, pairs, merge.fromLeft, hcalls.symm, ha.symm⟩

end Stencil
