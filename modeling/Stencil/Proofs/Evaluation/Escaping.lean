import Stencil.Proofs.Evaluation.Claiming
import Stencil.Proofs.Evaluation.Collecting
import Stencil.Proofs.Schema.Faults

/-!
# Faults that escape

An operation answers with a result in which an error of the library stands as
a value. A fault that nothing turns into an error ends the operation instead.
Nearly all that can fault does so under a wrapper: parsing, evaluating a file,
merging, resolving values, applying overlays and writing documents. Two things
do not: the making of an engine, and the building of a schema from a document,
which faults at keys that cannot be keys. `Unguarded` says where these are
reached; a fault escapes an operation exactly if it is unguarded in one of its
phases, and in all other cases the operation answers, with an error if
anything fails.

## Main definitions

* `PhaseRun.work` — what the work of a phase comes to.
* `PhaseRun.Unguarded` — a fault that no wrapper of a phase catches.
* `Operation.ending` — how an operation ends.

## Main results

* `Outcome.no_fault`, `Discovery.no_fault` — evaluating files and discovering
  them fail with errors only.
* `PhaseRun.work_fault` — the faults of a phase are the unguarded ones.
* `Operation.phases_end` — an operation ends as the last of its phases.
* `operation_ending` — how operations end.
-/

namespace Stencil

variable {σ α : Type}

/-! ## What fails with errors only -/

/-- Discovery fails with errors only. -/
theorem Discovery.no_fault {c : Collaborators σ} {name : Text} {files found parsed : List Located}
    {r : Except Failure Unit} {w w' : σ} (h : Discovery c name files w r found parsed w')
    (f : Fault) : r ≠ .error (.fault f) := by
  induction h with
  | nil => nofun
  | skipped _ _ ih => exact ih
  | unparsed _ _ wrapped => exact fun h => wrapped.not_fault f (Except.error.inj h)
  | misplaced => nofun
  | passed _ _ _ _ _ ih => exact ih
  | found _ _ _ _ _ ih => exact ih

/-- A file fails with an error only. -/
theorem Visit.no_fault {v : Scene σ} {g : Located} {w w' : σ}
    {r : Except Failure (Option Piece × List DataValues)} (h : Visit v g w r w') (f : Fault) :
    r ≠ .error (.fault f) := by
  cases h with
  | failed _ _ wrapped => exact fun h => wrapped.not_fault f (Except.error.inj h)
  | _ => nofun

/-- A pass fails with an error only. -/
theorem Pass.no_fault {v : Scene σ} {files visited : List Located} {w w' : σ}
    {r : Except Failure (List Piece × List DataValues)} (h : Pass v files w r visited w')
    (f : Fault) : r ≠ .error (.fault f) := by
  induction h with
  | nil => nofun
  | stop fail =>
      intro h
      exact fail.no_fault f (congrArg Except.error (Except.error.inj h))
  | @step _ _ _ _ _ _ _ _ r _ _ ih =>
      cases r with
      | ok => nofun
      | error x => exact fun h => ih (congrArg Except.error (Except.error.inj h))

/-- **Evaluating files** with an engine fails with errors only. -/
theorem Outcome.no_fault {c : Collaborators σ} {v : Scene σ} {files : List Located} {w w' : σ}
    {answer : Except Failure EvalResult} {calls : List Call}
    (h : Outcome c v files w answer calls w') (f : Fault) : answer ≠ .error (.fault f) := by
  cases h with
  | file pass =>
      intro h
      exact pass.no_fault f (congrArg Except.error (Except.error.inj h))
  | postProcessing _ _ _ _ wrapped => exact fun h => wrapped.not_fault f (Except.error.inj h)
  | _ => nofun

/-- Merging fails with errors only, and building the schema of the merged
document as it may. -/
theorem Merging.fault {c : Collaborators σ} {docs : List Document} {w w' : σ}
    {r : Except Failure Schema} {pairs : List (Document × Document)}
    (h : Merging c docs w r pairs w') {f : Fault} (hr : r = .error (.fault f)) :
    ∃ base patches merged, docs = base :: patches ∧
      Merges c base patches w (.ok merged) pairs w' ∧
      DocumentSchema.ofDocument merged = .error (.fault f) := by
  cases h with
  | none => cases hr
  | failed merges =>
      obtain ⟨y, wrapped, -⟩ := merges.stopped
      exact absurd (Except.error.inj hr) (wrapped.not_fault f)
  | untyped merges type =>
      cases hr
      exact ⟨_, _, _, rfl, merges, type⟩
  | merged => cases hr

/-- Schema files that do not fail, and others after them that do. -/
theorem SchemaPass.append {e : Engine σ} {files rest visited visited' : List Located}
    {r : Except Failure (List (List Document) × List DocumentSchema)} {x : Failure} {w w₁ w₂ : σ}
    (h : SchemaPass e files w r visited w₁) {p : List (List Document) × List DocumentSchema}
    (hr : r = .ok p) (fail : SchemaPass e rest w₁ (.error x) visited' w₂) :
    ∃ visited, SchemaPass e (files ++ rest) w (.error x) visited w₂ := by
  induction h generalizing p with
  | nil => exact ⟨_, fail⟩
  | failed => cases hr
  | misplaced => cases hr
  | untyped => cases hr
  | @step g fs visited a schemas r w w₁ w₂ answer above types _ ih =>
      cases r with
      | error y => cases hr
      | ok q =>
          obtain ⟨visited, h⟩ := ih rfl fail
          exact ⟨_, .step answer above types h⟩

/-- **Evaluating schema files** faults only where a document that declares a
schema cannot be given a type: files before it do not fail, the engine answers
for its file, and the annotation is where it may be. -/
theorem SchemaPass.fault_iff {e : Engine σ} {files : List Located} {w : σ} {f : Fault} :
    (∃ visited w', SchemaPass e files w (.error (.fault f)) visited w') ↔
      ∃ before g after p w₁ a w₂, files = before ++ g :: after ∧
        SchemaPass e before w (.ok p) before w₁ ∧
        Action.apply (e.schemaAnswer g) w₁ = (.ok a, w₂) ∧
        Documents.firstMisplaced AnnotationName.schemaMatch a.content = none ∧
        (schemaDocuments a.content).mapM DocumentSchema.ofDocument = .error (.fault f) := by
  constructor
  · rintro ⟨visited, w', h⟩
    generalize hr : (.error (.fault f) :
      Except Failure (List (List Document) × List DocumentSchema)) = r at h
    induction h with
    | nil => cases hr
    | failed _ wrapped => exact absurd (Except.error.inj hr).symm (wrapped.not_fault f)
    | misplaced => cases hr
    | @untyped g fs a x w w' answer above types =>
        cases hr
        exact ⟨[], g, fs, _, w, a, w', rfl, .nil, answer, above, types⟩
    | @step g fs visited a schemas r w w₁ w₂ answer above types rest ih =>
        cases r with
        | ok => cases hr
        | error x =>
            obtain ⟨before, g', after, p, v, a', v', rfl, pass, hanswer, habove, htypes⟩ := ih hr
            exact ⟨g :: before, g', after, _, v, a', v', rfl, .step answer above types pass, hanswer,
              habove, htypes⟩
  · rintro ⟨before, g, after, p, w₁, a, w₂, rfl, pass, answer, above, types⟩
    have fails : SchemaPass e (g :: after) w₁ (.error (.fault f)) [g] w₂ :=
      .untyped answer above types
    obtain ⟨visited, h⟩ := pass.append rfl fails
    exact ⟨visited, w₂, h⟩

/-! ## The work of a phase -/

namespace PhaseRun

/-- What the work of a phase comes to: nothing, or a failure. -/
def work (p : PhaseRun σ) : Except Failure Unit :=
  match p.phase with
  | .schemas overlays => ((p.loader.collectSchemas overlays).apply p.session).1.map fun _ => ()
  | .values overlays schema =>
    ((p.loader.collectValues overlays schema).apply p.session).1.map fun _ => ()
  | .eval values libraryValues librarySchemas =>
    ((p.loader.evaluateLibrary values libraryValues librarySchemas).apply p.session).1.map
      fun _ => ()

/-- Whether a fault is met in a phase where nothing turns it into an error. -/
inductive Unguarded (f : Fault) : PhaseRun σ → Prop
  /-- No engine can be made for evaluating files. -/
  | engine {l : Loader σ} {values : DataValues} {libraryValues : List DataValues}
      {librarySchemas : List DocumentSchema} {s : Session σ} {w : σ}
      (make : Action.apply (l.collaborators.newEngine ⟨values, libraryValues, librarySchemas⟩)
        s.world = (.error (.fault f), w)) :
      Unguarded f ⟨l, .eval values libraryValues librarySchemas, s⟩
  /-- No engine can be made for evaluating schema files. -/
  | schemaEngine {l : Loader σ} {overlays : List DocumentSchema} {s : Session σ}
      {found parsed : List Located} {w₁ w₂ : σ} (on : l.config.schemaEnabled = true)
      (discovery : Discovery l.collaborators AnnotationName.schemaMatch l.library.accessible
        s.world (.ok ()) found parsed w₁)
      (make : Action.apply (l.collaborators.newEngine schemaSeed) w₁ = (.error (.fault f), w₂)) :
      Unguarded f ⟨l, .schemas overlays, s⟩
  /-- A document of an evaluated schema file cannot be given a type. -/
  | declaredType {l : Loader σ} {overlays : List DocumentSchema} {s : Session σ}
      {before after parsed : List Located} {g : Located} {e : Engine σ}
      {p : List (List Document) × List DocumentSchema} {a : Evaluated (List Document)}
      {w₁ w₂ w₃ w₄ : σ} (on : l.config.schemaEnabled = true)
      (discovery : Discovery l.collaborators AnnotationName.schemaMatch l.library.accessible
        s.world (.ok ()) (before ++ g :: after) parsed w₁)
      (make : Action.apply (l.collaborators.newEngine schemaSeed) w₁ = (.ok e, w₂))
      (pass : SchemaPass e before w₂ (.ok p) before w₃)
      (answer : Action.apply (e.schemaAnswer g) w₃ = (.ok a, w₄))
      (above : Documents.firstMisplaced AnnotationName.schemaMatch a.content = none)
      (types : (schemaDocuments a.content).mapM DocumentSchema.ofDocument = .error (.fault f)) :
      Unguarded f ⟨l, .schemas overlays, s⟩
  /-- The merged document cannot be given a type. -/
  | mergedType {l : Loader σ} {overlays : List DocumentSchema} {s : Session σ}
      {found : List Located} {sets : List (List Document)} {declared : List DocumentSchema}
      {calls : List Call} {base merged : Document} {patches : List Document}
      {pairs : List (Document × Document)} {w₁ w₂ : σ} (on : l.config.schemaEnabled = true)
      (files : Declared l s.world found sets declared calls w₁)
      (own : ownSources (declared ++ overlays) = base :: patches)
      (merges : Merges l.collaborators base patches w₁ (.ok merged) pairs w₂)
      (type : DocumentSchema.ofDocument merged = .error (.fault f)) :
      Unguarded f ⟨l, .schemas overlays, s⟩

variable {l : Loader σ} {s : Session σ}

/-- Collecting schemas answers something, and its faults are the unguarded
ones. -/
private theorem schemas_yields (overlays : List DocumentSchema) :
    ∃ answer m' w', (l.collectSchemas overlays).Yields s.marks s.world answer m' w' ∧
      (PhaseRun.mk l (.schemas overlays) s).work = answer.map (fun _ => ()) ∧
      ∀ f, answer = .error (.fault f) ↔ Unguarded f ⟨l, .schemas overlays, s⟩ := by
  obtain ⟨answer, found, calls, w', h⟩ := Collection.total l overlays s.world
  have only : ∀ {answer' found' calls' w''},
      Collection l overlays s.world answer' found' calls' w'' → answer = answer' :=
    fun h' => ((h.yields s.marks).unique (h'.yields s.marks)).1
  refine ⟨answer, _, w', h.yields s.marks,
    congrArg (Except.map fun _ => ()) (h.yields s.marks).apply_eq.1, fun f => ⟨?_, ?_⟩⟩
  · intro hf
    cases h with
    | undiscovered discovery =>
        exact absurd (congrArg Except.error (Except.error.inj hf)) (discovery.no_fault f)
    | disabled => cases hf
    | noEngine on discovery make =>
        cases hf
        exact .schemaEngine on discovery make
    | undeclared on discovery make pass =>
        cases hf
        obtain ⟨before, g, after, p, w₁, a, w₂, rfl, hpass, answer, above, types⟩ :=
          SchemaPass.fault_iff.mp ⟨_, _, pass⟩
        exact .declaredType on discovery make hpass answer above types
    | @merging _ _ _ _ r _ _ _ on files merge =>
        cases r with
        | ok => cases hf
        | error x =>
            cases hf
            obtain ⟨base, patches, merged, own, merges, type⟩ := merge.fault rfl
            exact .mergedType on files own merges type
  · intro hf
    cases hf with
    | schemaEngine on discovery make => exact only (.noEngine on discovery make)
    | declaredType on discovery make pass answer above types =>
        obtain ⟨visited, w', hpass⟩ := SchemaPass.fault_iff.mpr
          ⟨_, _, _, _, _, _, _, rfl, pass, answer, above, types⟩
        exact only (.undeclared on discovery make hpass)
    | mergedType on files own merges type =>
        exact only (.merging on files (by rw [own]; exact .untyped merges type))

/-- Collecting values answers something, and fails with errors only. -/
private theorem values_yields (overlays : List DataValues) (schema : Schema) :
    ∃ answer m' w', (l.collectValues overlays schema).Yields s.marks s.world answer m' w' ∧
      (PhaseRun.mk l (.values overlays schema) s).work = answer.map (fun _ => ()) ∧
      ∀ f, answer ≠ .error (.fault f) := by
  suffices hends : ∃ answer m' w',
      (l.collectValues overlays schema).Yields s.marks s.world answer m' w' ∧
        ∀ f, answer ≠ .error (.fault f) by
    obtain ⟨answer, m', w', h, hfault⟩ := hends
    exact ⟨answer, m', w', h, congrArg (Except.map fun _ => ()) h.apply_eq.1, hfault⟩
  obtain ⟨r, found, parsed, w₁, discovery⟩ :=
    Discovery.total l.collaborators AnnotationName.dataValues l.library.accessible s.world
  have hfound := discovery.phase_yields s.marks
  cases r with
  | error x =>
      refine ⟨_, _, _, Run.Yields.bind_error hfound, fun f hf => ?_⟩
      exact discovery.no_fault f (congrArg Except.error (Except.error.inj hf))
  | ok u =>
      rcases resolve : Action.apply (l.collaborators.resolveValues found overlays schema
        l.config.valuesPolicy) w₁ with ⟨x | ⟨values, libraryValues⟩, w₂⟩
      · refine ⟨_, _, _, Run.Yields.bind hfound (Run.Yields.inSpan _ (Run.Yields.wrap _
          (Run.Yields.bind_error (Run.Yields.perform resolve)))), fun f hf => ?_⟩
        exact (x.becomes_wrap _).not_fault f (Except.error.inj hf)
      · refine ⟨_, _, _, Run.Yields.bind hfound (Run.Yields.inSpan _ (Run.Yields.wrap _
          (Run.Yields.bind (Run.Yields.perform resolve) (Run.Yields.pure _)))), ?_⟩
        nofun

/-- Evaluating files answers something, and its only fault is that of the
making of the engine. -/
private theorem eval_yields (values : DataValues) (libraryValues : List DataValues)
    (librarySchemas : List DocumentSchema) :
    ∃ answer m' w', (l.evaluateLibrary values libraryValues librarySchemas).Yields s.marks s.world
        answer m' w' ∧
      (PhaseRun.mk l (.eval values libraryValues librarySchemas) s).work =
        answer.map (fun _ => ()) ∧
      ∀ f, answer = .error (.fault f) ↔
        Unguarded f ⟨l, .eval values libraryValues librarySchemas, s⟩ := by
  rcases make : Action.apply (l.collaborators.newEngine
    ⟨values, libraryValues, librarySchemas⟩) s.world with ⟨x | e, w⟩
  · have h := Loader.evaluateLibrary_noEngine (m := s.marks) make
    refine ⟨_, _, _, h, congrArg (Except.map fun _ => ()) h.apply_eq.1, fun f => ⟨?_, ?_⟩⟩
    · intro hf
      cases hf
      exact .engine make
    · intro hf
      cases hf with
      | engine make' =>
          cases make.symm.trans make'
          rfl
  · let v : Scene σ := ⟨e, l.context.root, s.marks, libraryValues⟩
    obtain ⟨answer, calls, w', outcome⟩ := Outcome.total l.collaborators v l.library.accessible w
    have h := Outcome.yields (v := v) make rfl outcome
    refine ⟨_, _, _, h, congrArg (Except.map fun _ => ()) h.apply_eq.1, fun f => ⟨?_, ?_⟩⟩
    · exact fun hf => absurd hf (outcome.no_fault f)
    · intro hf
      cases hf with
      | engine make' => cases make.symm.trans make'

/-- An unguarded fault was raised by the maker of engines, or is that of a key
in a document that cannot be one. -/
theorem Unguarded.cause {p : PhaseRun σ} {f : Fault} (h : p.Unguarded f) :
    (∃ seed w w', Action.apply (p.loader.collaborators.newEngine seed) w =
        (.error (.fault f), w')) ∨
      ∃ d, DocumentSchema.ofDocument d = .error (.fault f) ∧
        UnhashableKey (Node.heldNodes d) f := by
  cases h with
  | engine make => exact .inl ⟨_, _, _, make⟩
  | schemaEngine _ _ make => exact .inl ⟨_, _, _, make⟩
  | declaredType _ _ _ _ _ _ types =>
      obtain ⟨d, -, hd⟩ := mapM_eq_error types
      exact .inr ⟨d, hd, DocumentSchema.ofDocument_fault hd⟩
  | mergedType _ _ _ _ type => exact .inr ⟨_, type, DocumentSchema.ofDocument_fault type⟩

/-- **The faults of a phase** are those that are unguarded in it. -/
theorem work_fault (p : PhaseRun σ) (f : Fault) :
    p.work = .error (.fault f) ↔ p.Unguarded f := by
  have ends : ∀ {α : Type} {answer : Except Failure α},
      answer.map (fun _ => ()) = .error (.fault f) ↔ answer = .error (.fault f) := by
    intro α answer
    cases answer with
    | ok a => exact ⟨nofun, nofun⟩
    | error x =>
        exact ⟨fun h => congrArg Except.error (Except.error.inj h), fun h => by rw [h]; rfl⟩
  obtain ⟨l, phase, s⟩ := p
  cases phase with
  | schemas overlays =>
      obtain ⟨answer, -, -, -, hwork, hfault⟩ := schemas_yields overlays
      rw [hwork, ends, hfault]
  | values overlays schema =>
      obtain ⟨answer, -, -, -, hwork, hfault⟩ := values_yields overlays schema
      rw [hwork, ends]
      exact ⟨fun hf => absurd hf (hfault f), nofun⟩
  | eval values libraryValues librarySchemas =>
      obtain ⟨answer, -, -, -, hwork, hfault⟩ :=
        eval_yields values libraryValues librarySchemas
      rw [hwork, ends, hfault]

end PhaseRun

/-! ## How operations end -/

/-- How an operation ends: it succeeds, or it answers with an error, or a
fault escapes it. -/
def Run.ending (r : Run σ (ServiceResult α)) (s : Session σ) : Except Failure (Except Error Unit) :=
  (r.outcome s).map (Except.map fun _ => ())

namespace Run

/-- The spans in an answer are no part of how an operation ends. -/
theorem ending_traced (name : Text) (r : Run σ (ServiceResult α)) (s : Session σ) :
    (Run.traced name ServiceResult.attach r).ending s = r.ending (s.entered name) := by
  obtain ⟨-, -, h⟩ := traced_entered name ServiceResult.attach r s
  simp only [ending, outcome]
  rcases h with h | ⟨span, h⟩ <;> rw [h]
  cases (r.apply (s.entered name)).1 <;> rfl

/-- How an operation ends, from its answer. -/
theorem ending_of_apply {r : Run σ (ServiceResult α)} {s s' : Session σ}
    {answer : Except Failure (ServiceResult α)} (h : r.apply s = (answer, s')) :
    r.ending s = answer.map fun result => result.outcome.map fun _ => () := by
  rw [ending, outcome, h]
  cases answer <;> rfl

/-- An operation that attempts some work ends as the work does. -/
theorem ending_attempt {β : Type} {r : Run σ β} {a : Except Failure β} {m' : Marks} {w' : σ}
    {k : Except Error β → Run σ (ServiceResult α)} {s : Session σ} (name : Text)
    (h : r.Yields s.marks s.world a m' w')
    (answers : ∀ e, ∃ result, k e = pure result ∧
      result.outcome.map (fun _ => ()) = e.map fun _ => ()) :
    (Run.traced name ServiceResult.attach (Run.attempt r >>= k)).ending s =
      attempted (a.map fun _ => ()) := by
  have hentered : r.Yields (s.entered name).marks (s.entered name).world a m' w' := by
    rw [Session.entered_marks, Session.entered_world]
    exact h
  obtain ⟨ha, -, -⟩ := hentered.apply_eq
  rw [ending_traced, ending, outcome, apply_bind, attempt_apply, ha]
  rcases a with (⟨e, cause⟩ | f) | b
  · obtain ⟨result, hk, hresult⟩ := answers (.error e)
    simp only [attempted, hk]
    exact congrArg Except.ok hresult
  · rfl
  · obtain ⟨result, hk, hresult⟩ := answers (.ok b)
    simp only [attempted, hk]
    exact congrArg Except.ok hresult

end Run

namespace PhaseRun

/-- How a phase ends as an operation of its own. -/
def ending (p : PhaseRun σ) : Except Failure (Except Error Unit) :=
  match p.phase with
  | .schemas overlays => (p.loader.schemas overlays).ending p.session
  | .values overlays schema => (p.loader.values overlays schema).ending p.session
  | .eval values libraryValues librarySchemas =>
    (p.loader.eval values libraryValues librarySchemas).ending p.session

/-- **A phase ends as its work does**, with errors as values. -/
theorem ending_eq (p : PhaseRun σ) : p.ending = Run.attempted p.work := by
  obtain ⟨l, phase, s⟩ := p
  cases phase with
  | schemas overlays =>
      obtain ⟨answer, m', w', h, hwork, -⟩ := schemas_yields overlays
      rw [hwork]
      refine Run.ending_attempt _ h fun e => ?_
      cases e <;> exact ⟨_, rfl, rfl⟩
  | values overlays schema =>
      obtain ⟨answer, m', w', h, hwork, -⟩ := values_yields overlays schema
      rw [hwork]
      exact Run.ending_attempt _ h fun e => ⟨_, rfl, rfl⟩
  | eval values libraryValues librarySchemas =>
      obtain ⟨answer, m', w', h, hwork, -⟩ :=
        eval_yields values libraryValues librarySchemas
      rw [hwork]
      exact Run.ending_attempt _ h fun e => ⟨_, rfl, rfl⟩

/-- A phase that ends well has done its work. -/
theorem work_of_ending {p : PhaseRun σ} (h : p.ending = .ok (.ok ())) : p.work = .ok () :=
  Run.attempted_eq_ok (p.ending_eq.symm.trans h)

end PhaseRun

/-- Whether phases go on up to the last one, each of the others doing its
work, and come to an end as the last one does. -/
def EndAsLast (phases : List (PhaseRun σ)) (ending : Except Failure (Except Error Unit)) : Prop :=
  ∃ before last, phases = before ++ [last] ∧ (∀ p ∈ before, p.work = .ok ()) ∧ ending = last.ending

namespace EndAsLast

variable {p : PhaseRun σ} {phases : List (PhaseRun σ)} {ending : Except Failure (Except Error Unit)}

theorem single (h : ending = p.ending) : EndAsLast [p] ending :=
  ⟨[], p, rfl, List.forall_mem_nil _, h⟩

theorem cons (work : p.work = .ok ()) (h : EndAsLast phases ending) :
    EndAsLast (p :: phases) ending := by
  obtain ⟨before, last, rfl, hbefore, hlast⟩ := h
  exact ⟨p :: before, last, rfl, List.forall_mem_cons.mpr ⟨work, hbefore⟩, hlast⟩

end EndAsLast

/-- After its schemas, a complete evaluation ends as the last of the other
phases that it goes through. -/
private theorem laterPhases_end (l : Loader σ) (valuesOverlays : List DataValues)
    (collected : CollectedSchemas) (stop : Error → ServiceResult Evaluation)
    (finish : CollectedValues → EvalResult → ServiceResult Evaluation) (s : Session σ)
    (stopped : ∀ e, (stop e).outcome = .error e)
    (finished : ∀ found result, ∃ x, (finish found result).outcome = .ok x) :
    EndAsLast (l.laterPhases valuesOverlays collected s)
      ((l.afterSchemas valuesOverlays collected stop finish).ending s) := by
  rcases hvalues : (l.values valuesOverlays collected.schema).apply s with ⟨answer, s₁⟩
  have hfirst : (PhaseRun.mk l (.values valuesOverlays collected.schema) s).ending =
      answer.map fun result => result.outcome.map fun _ => () := Run.ending_of_apply hvalues
  simp only [Loader.laterPhases, Loader.afterSchemas, Run.ending, Run.outcome, Run.apply_bind,
    hvalues]
  rcases answer with x | ⟨op, e | found, warnings, spans⟩
  · exact .single hfirst.symm
  · refine .single ?_
    rw [hfirst]
    exact congrArg (fun outcome => Except.ok (Except.map (fun _ => ()) outcome)) (stopped e)
  · refine .cons (PhaseRun.work_of_ending hfirst) ?_
    rcases heval : (l.eval found.values found.libraryValues collected.librarySchemas).apply s₁ with
      ⟨answer, s₂⟩
    have hsecond : (PhaseRun.mk l (.eval found.values found.libraryValues
        collected.librarySchemas) s₁).ending =
        answer.map fun result => result.outcome.map fun _ => () := Run.ending_of_apply heval
    simp only [Except.map, Run.apply_bind, heval]
    rcases answer with x | ⟨op, e | result, warnings, spans⟩
    · exact .single hsecond.symm
    · refine .single ?_
      rw [hsecond]
      exact congrArg (fun outcome => Except.ok (Except.map (fun _ => ()) outcome)) (stopped e)
    · refine .single ?_
      rw [hsecond]
      obtain ⟨x, hx⟩ := finished found result
      exact congrArg (fun outcome => Except.ok (Except.map (fun _ => ()) outcome)) hx

/-- **A complete evaluation** ends as the last of its phases. -/
theorem evaluatePhases_end (l : Loader σ) (schemaOverlays : List DocumentSchema)
    (valuesOverlays : List DataValues) (s : Session σ) :
    EndAsLast (l.evaluatePhases schemaOverlays valuesOverlays s)
      ((l.evaluate schemaOverlays valuesOverlays).ending s) := by
  rw [Loader.evaluate, Run.ending_traced]
  unfold Loader.evaluatePhases
  generalize s.entered "LibraryLoader.evaluate" = s₀
  rcases hschemas : (l.schemas schemaOverlays).apply s₀ with ⟨answer, s₁⟩
  have hfirst : (PhaseRun.mk l (.schemas schemaOverlays) s₀).ending =
      answer.map fun result => result.outcome.map fun _ => () := Run.ending_of_apply hschemas
  simp only [Run.ending, Run.outcome, Loader.phases, Run.apply_bind, hschemas]
  rcases answer with x | ⟨op, e | collected, warnings, spans⟩
  · exact .single hfirst.symm
  · exact .single hfirst.symm
  · refine .cons (PhaseRun.work_of_ending hfirst) ?_
    exact laterPhases_end l valuesOverlays collected _ _ s₁ (fun _ => rfl) fun _ _ => ⟨_, rfl⟩

namespace Operation

/-- How an operation ends: it succeeds, or it answers with an error, or a
fault escapes it. -/
def ending (l : Loader σ) (s : Session σ) : Operation → Except Failure (Except Error Unit)
  | .phase p => (PhaseRun.mk l p s).ending
  | .evaluate schemaOverlays valuesOverlays => (l.evaluate schemaOverlays valuesOverlays).ending s

/-- The phases of an operation are those of its loader. -/
theorem loader_of_mem_phases {l : Loader σ} {s : Session σ} {op : Operation} {p : PhaseRun σ}
    (h : p ∈ op.phases l s) : p.loader = l := by
  cases op with
  | phase =>
      obtain rfl := List.mem_singleton.mp h
      rfl
  | evaluate schemaOverlays valuesOverlays =>
      simp only [phases, Loader.evaluatePhases] at h
      rcases List.mem_cons.mp h with rfl | h
      · rfl
      · split at h
        · rcases List.mem_cons.mp h with rfl | h
          · rfl
          · split at h
            · obtain rfl := List.mem_singleton.mp h
              rfl
            · cases h
        · cases h

/-- **An operation ends as the last of its phases.** -/
theorem phases_end (l : Loader σ) (s : Session σ) (op : Operation) :
    EndAsLast (op.phases l s) (op.ending l s) := by
  cases op with
  | phase => exact .single rfl
  | evaluate schemaOverlays valuesOverlays => exact evaluatePhases_end l _ _ s

end Operation

/-- **How operations end**, for any loader, from any session, and whatever the
collaborators do. An operation answers with an error exactly if the work of
one of its phases fails with one, and succeeds exactly if all of its phases do
their work. What escapes it is a fault that is unguarded in one of its phases,
and nothing else. Such a fault was raised by the maker of engines, or it is
that of a key in a document that cannot be one. -/
theorem operation_ending (l : Loader σ) (op : Operation) (s : Session σ) :
    (∀ x, op.ending l s = .error x ↔
      ∃ f, x = .fault f ∧ ∃ p ∈ op.phases l s, p.Unguarded f) ∧
    (∀ e, op.ending l s = .ok (.error e) ↔
      ∃ p ∈ op.phases l s, ∃ cause, p.work = .error (.error e cause)) ∧
    (op.ending l s = .ok (.ok ()) ↔ ∀ p ∈ op.phases l s, p.work = .ok ()) ∧
    ∀ p ∈ op.phases l s, ∀ f, p.Unguarded f →
      (∃ seed w w', Action.apply (l.collaborators.newEngine seed) w = (.error (.fault f), w')) ∨
        ∃ d, DocumentSchema.ofDocument d = .error (.fault f) ∧
          UnhashableKey (Node.heldNodes d) f := by
  obtain ⟨before, last, hphases, hbefore, hlast⟩ := op.phases_end l s
  have hfails : ∀ x, (∃ p ∈ op.phases l s, p.work = .error x) ↔ last.work = .error x := by
    intro x
    rw [hphases]
    constructor
    · rintro ⟨p, hp, hx⟩
      rcases List.mem_append.mp hp with hp | hp
      · cases (hbefore p hp).symm.trans hx
      · exact List.mem_singleton.mp hp ▸ hx
    · exact fun hx => ⟨last, List.mem_append_right _ (List.mem_singleton_self last), hx⟩
  have hends : op.ending l s = Run.attempted last.work := hlast.trans last.ending_eq
  refine ⟨fun x => ?_, fun e => ?_, ?_, ?_⟩
  · simp only [← PhaseRun.work_fault, hfails, hends]
    rcases last.work with (_ | f) | _ <;> simp [Run.attempted, eq_comm]
  · rw [hends]
    constructor
    · intro h
      rcases hwork : last.work with (⟨e', cause⟩ | f) | u <;> rw [hwork] at h <;> cases h
      obtain ⟨p, hp, hx⟩ := (hfails _).mpr hwork
      exact ⟨p, hp, cause, hx⟩
    · rintro ⟨p, hp, cause, hx⟩
      rw [(hfails _).mp ⟨p, hp, hx⟩]
      rfl
  · rw [hends, hphases]
    constructor
    · intro h p hp
      rcases List.mem_append.mp hp with hp | hp
      · exact hbefore p hp
      · obtain rfl := List.mem_singleton.mp hp
        exact Run.attempted_eq_ok h
    · intro h
      rw [h last (List.mem_append_right _ (List.mem_singleton_self last))]
      rfl
  · intro p hp f hf
    have hcause := hf.cause
    rw [Operation.loader_of_mem_phases hp] at hcause
    exact hcause

/-- The fault of a maker of engines escapes. -/
example :
    let f : Fault := .raised "RuntimeError" "no engine"
    let c : Collaborators Unit :=
      { Collaborators.plain fun _ => [] with newEngine := fun _ => throw (.fault f) }
    (Operation.phase (.eval .empty [] [])).ending ⟨.ofRoot (.empty [] []), {}, c⟩
      ⟨[], .initial, ()⟩ = .error (.fault f) := rfl

/-- The fault of a list that stands as a key in a schema document escapes. -/
example :
    let unknown : Mark := .ofPosition .unknown
    let schema : Document := ⟨⟨.unknown, [(AnnotationName.schemaMatch, ⟨[], []⟩)]⟩,
      .map unknown [⟨unknown, .list [.str "a"], .plain (.int 1)⟩]⟩
    let tree : Library := ⟨[], [], [.ofPath 0 "schema.yml" [] true], []⟩
    (Operation.phase (.schemas [])).ending
      ⟨.ofRoot tree, {}, (.plain fun _ => [schema] : Collaborators Unit)⟩ ⟨[], .initial, ()⟩ =
        .error (.fault (.unhashable .array)) := by cbv

end Stencil
