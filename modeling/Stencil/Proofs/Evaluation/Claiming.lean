import Stencil.Proofs.Evaluation.Absent
import Stencil.Proofs.Evaluation.Contents
import Stencil.Proofs.Evaluation.Discovering
import Stencil.Proofs.Evaluation.Marking

/-!
# Files claimed by discovery

Discovery claims a template YAML file if one of its documents carries the
annotation that is looked for. All that is recorded of it is that the file is
not output. A history of operations, on any libraries and in any order, is
taken apart into its phases here, and no phase after a claim, whether it
succeeds or fails, makes the file output again.

That is not the same as leaving the file alone. Whether a file is a library
file does not depend on the decision, and the files that are not output but
library files are evaluated for the names they define. So a claimed file takes
no part in later evaluations exactly if it is not a library file.

## Main definitions

* `Claims` — discovery gets to a file and finds the annotation.
* `Phase`, `PhaseRun` — schemas, values and files, and one of them from a
  session.
* `Operation`, `history` — operations, and the phases that several lead to.

## Main results

* `discover_claims` — a claimed file is out of the output.
* `history_claims` — and stays so in every later phase.
* `claimed_file` — what later evaluations do with it.
-/

namespace Stencil

variable {σ : Type}

/-! ## Claims -/

/-- Whether discovery passes a file in a world without failing, and the world
it leaves: the file is not looked into, or it is parsed and its documents can
be told apart. -/
inductive Passes (c : Collaborators σ) (name : Text) (g : Located) (w : σ) : σ → Prop
  | skipped (other : ¬ g.file.IsYamlTemplate) : Passes c name g w w
  | parsed {docs matched rest : List Document} {w' : σ} (candidate : g.file.IsYamlTemplate)
      (parse : Action.apply (c.parse g.file) w = (.ok docs, w'))
      (split : Documents.split name docs = .ok (matched, rest)) : Passes c name g w w'

/-- Whether discovery among some files gets to a file in a world and claims
it: the file is a template YAML file, and one of its documents carries the
annotation. Whether discovery fails at a file after it does not matter. -/
inductive Claims (c : Collaborators σ) (name : Text) : List Located → σ → File → Prop
  | here {g : Located} {gs : List Located} {docs matched rest : List Document} {w w' : σ}
      (candidate : g.file.IsYamlTemplate)
      (parse : Action.apply (c.parse g.file) w = (.ok docs, w'))
      (split : Documents.split name docs = .ok (matched, rest)) (carries : matched ≠ []) :
      Claims c name (g :: gs) w g.file
  | later {g : Located} {gs : List Located} {f : File} {w w' : σ} (pass : Passes c name g w w')
      (rest : Claims c name gs w' f) : Claims c name (g :: gs) w f

/-- Only template YAML files are claimed. -/
theorem Claims.candidate {c : Collaborators σ} {name : Text} {files : List Located} {w : σ}
    {f : File} (h : Claims c name files w f) : f.IsYamlTemplate := by
  induction h with
  | here candidate => exact candidate
  | later _ _ ih => exact ih

/-- Telling whether a file that is parsed declares an annotation. -/
private theorem declares_yields {c : Collaborators σ} {name : Text} {g : Located}
    {docs matched rest : List Document} {m : Marks} {w w' : σ}
    (parse : Action.apply (c.parse g.file) w = (.ok docs, w'))
    (split : Documents.split name docs = .ok (matched, rest)) :
    (declares c name g).Yields m w (.ok !matched.isEmpty) m w' := by
  refine Run.Yields.bind (Run.Yields.wrap _ (Run.Yields.perform parse)) ?_
  have hsplit : (Run.ofExcept (Documents.split name docs)).Yields m w' (.ok (matched, rest)) m
      w' := by
    rw [split]
    exact Run.Yields.ofExcept _
  exact Run.Yields.bind hsplit (Run.Yields.pure _)

/-- What a run leaves after another that answers something. -/
private theorem leaves_bind {α β : Type} {r : Run σ α} {f : α → Run σ β} {w w' : σ} {a : α}
    {P : Marks → Prop} (first : ∀ m, r.Yields m w (.ok a) m w')
    (rest : (f a).Leaves (fun _ v => v = w') P) : (r >>= f).Leaves (fun _ v => v = w) P := by
  rintro ⟨m, t, w⟩ rfl
  obtain ⟨t', ht⟩ := first m t
  rw [Run.apply_bind, ht]
  exact rest ⟨m, t', w'⟩ rfl

/-- **A claimed file** is out of the output after discovery. -/
theorem discover_claims {c : Collaborators σ} {name : Text} {files : List Located} {w : σ}
    {f : File} (h : Claims c name files w f) :
    (discover c name files).Leaves (fun _ v => v = w) (·.Off f) := by
  induction h with
  | @here g gs docs matched rest w w' candidate parse split carries =>
      rw [discover, if_pos (isCandidate_iff.mpr candidate)]
      refine leaves_bind (fun m => declares_yields parse split) ?_
      have hfound : (!matched.isEmpty) = true := by simpa using carries
      rw [hfound, if_pos rfl]
      refine Run.Leaves.bind (fun s _ => Marks.off_set_self s.marks g.file) fun _ => ?_
      exact Run.Leaves.bind (discover_keeps g.file c name gs) fun _ => .pure _
  | @later g gs f w w' pass claims ih =>
      rw [discover]
      cases pass with
      | skipped other =>
          rw [if_neg (mt isCandidate_iff.mp other)]
          exact ih
      | @parsed docs matched rest _ candidate parse split =>
          rw [if_pos (isCandidate_iff.mpr candidate)]
          refine leaves_bind (fun m => declares_yields parse split) ?_
          cases !matched.isEmpty
          · exact ih
          · rintro s rfl
            rw [if_pos rfl, Run.apply_bind]
            exact Run.Leaves.bind ih (fun _ => .pure _)
              ⟨s.marks.set g.file (some false), s.trace, s.world⟩ rfl

/-! ## Histories -/

/-- The phases of an evaluation, each an operation of its own. -/
inductive Phase where
  | schemas (overlays : List DocumentSchema)
  | values (overlays : List DataValues) (schema : Schema)
  | eval (values : DataValues) (libraryValues : List DataValues)
      (librarySchemas : List DocumentSchema)

/-- A phase of a loader, from a session. -/
structure PhaseRun (σ : Type) where
  loader : Loader σ
  phase : Phase
  session : Session σ

namespace PhaseRun

/-- The session that a phase leaves. -/
def after (p : PhaseRun σ) : Session σ :=
  match p.phase with
  | .schemas overlays => ((p.loader.schemas overlays).apply p.session).2
  | .values overlays schema => ((p.loader.values overlays schema).apply p.session).2
  | .eval values libraryValues librarySchemas =>
    ((p.loader.eval values libraryValues librarySchemas).apply p.session).2

/-- Whether the discovery of a phase claims a file. -/
def Claims (p : PhaseRun σ) (f : File) : Prop :=
  match p.phase with
  | .schemas _ =>
    Stencil.Claims p.loader.collaborators AnnotationName.schemaMatch
      p.loader.library.accessible p.session.world f
  | .values _ _ =>
    Stencil.Claims p.loader.collaborators AnnotationName.dataValues
      p.loader.library.accessible p.session.world f
  | .eval _ _ _ => False

/-- A phase keeps files out of the output. -/
theorem off_after (p : PhaseRun σ) {f : File} (h : p.session.marks.Off f) :
    p.after.marks.Off f := by
  unfold after
  cases p.phase with
  | schemas overlays => exact p.loader.schemas_keeps f overlays _ h
  | values overlays schema => exact p.loader.values_keeps f overlays schema _ h
  | eval values libraryValues librarySchemas =>
      exact p.loader.eval_keeps values libraryValues librarySchemas (P := (·.Off f)) _ h

/-- **A file that a phase claims** is out of the output after it, even if the
phase fails. -/
theorem off_after_claims (p : PhaseRun σ) {f : File} (h : p.Claims f) : p.after.marks.Off f := by
  unfold after
  unfold Claims at h
  cases hp : p.phase <;> simp only [hp] at h ⊢
  · exact p.loader.schemas_leaves _ (p.loader.discoverFiles_leaves _ (discover_claims h))
      p.session rfl
  · exact p.loader.values_leaves _ _ (p.loader.discoverFiles_leaves _ (discover_claims h))
      p.session rfl

/-- Only template YAML files are claimed. -/
theorem Claims.candidate {p : PhaseRun σ} {f : File} (h : p.Claims f) : f.IsYamlTemplate := by
  unfold PhaseRun.Claims at h
  cases hp : p.phase <;> simp only [hp] at h
  · exact Stencil.Claims.candidate h
  · exact Stencil.Claims.candidate h

end PhaseRun

/-- The operations of a loader: one of the phases, or all three. -/
inductive Operation where
  | phase (p : Phase)
  | evaluate (schemaOverlays : List DocumentSchema) (valuesOverlays : List DataValues)

namespace Loader

/-- What a complete evaluation does after its schemas were collected, whatever
it makes of what comes out of the other phases. -/
def afterSchemas (l : Loader σ) (valuesOverlays : List DataValues) (collected : CollectedSchemas)
    (stop : Error → ServiceResult Evaluation)
    (finish : CollectedValues → EvalResult → ServiceResult Evaluation) :
    Run σ (ServiceResult Evaluation) := do
  let values ← l.values valuesOverlays collected.schema
  match values.outcome with
  | .error e => return stop e
  | .ok found =>
    let evaluated ← l.eval found.values found.libraryValues collected.librarySchemas
    match evaluated.outcome with
    | .error e => return stop e
    | .ok result => return finish found result

/-- The phases that a complete evaluation goes through after its schemas were
collected. -/
def laterPhases (l : Loader σ) (valuesOverlays : List DataValues) (collected : CollectedSchemas)
    (s : Session σ) : List (PhaseRun σ) :=
  let run := l.values valuesOverlays collected.schema
  ⟨l, .values valuesOverlays collected.schema, s⟩ ::
    match run.outcome s with
    | .ok (.ok found) =>
      [⟨l, .eval found.values found.libraryValues collected.librarySchemas, (run.apply s).2⟩]
    | _ => []

/-- The phases that a complete evaluation from a session goes through: each
one feeds the next, and none follows one that does not succeed. -/
def evaluatePhases (l : Loader σ) (schemaOverlays : List DocumentSchema)
    (valuesOverlays : List DataValues) (s : Session σ) : List (PhaseRun σ) :=
  let run := l.schemas schemaOverlays
  let s := s.entered "LibraryLoader.evaluate"
  ⟨l, .schemas schemaOverlays, s⟩ ::
    match run.outcome s with
    | .ok (.ok collected) => l.laterPhases valuesOverlays collected (run.apply s).2
    | _ => []

end Loader

namespace Operation

/-- The phases that an operation goes through. -/
def phases (l : Loader σ) (s : Session σ) : Operation → List (PhaseRun σ)
  | .phase p => [⟨l, p, s⟩]
  | .evaluate schemaOverlays valuesOverlays => l.evaluatePhases schemaOverlays valuesOverlays s

/-- The session that an operation leaves. -/
def after (l : Loader σ) (s : Session σ) : Operation → Session σ
  | .phase p => (PhaseRun.mk l p s).after
  | .evaluate schemaOverlays valuesOverlays =>
    ((l.evaluate schemaOverlays valuesOverlays).apply s).2

end Operation

/-- The phases that some operations of loaders go through, one operation
after another. -/
def history : List (Loader σ × Operation) → Session σ → List (PhaseRun σ)
  | [], _ => []
  | (l, op) :: rest, s => op.phases l s ++ history rest (op.after l s)

/-- Phases one after another: each starts with the decisions and the world
that the one before it leaves, whatever is traced in between. -/
inductive Chain : Session σ → List (PhaseRun σ) → Session σ → Prop
  | nil {s s' : Session σ} (marks : s'.marks = s.marks) (world : s'.world = s.world) :
      Chain s [] s'
  | cons {s s' : Session σ} {p : PhaseRun σ} {ps : List (PhaseRun σ)}
      (marks : p.session.marks = s.marks) (world : p.session.world = s.world)
      (rest : Chain p.after ps s') : Chain s (p :: ps) s'

namespace Chain

variable {s s' s'' : Session σ} {ps qs : List (PhaseRun σ)}

private theorem from_same (h : Chain s' ps s'') (marks : s'.marks = s.marks)
    (world : s'.world = s.world) : Chain s ps s'' := by
  cases h with
  | nil marks' world' => exact .nil (marks'.trans marks) (world'.trans world)
  | cons marks' world' rest => exact .cons (marks'.trans marks) (world'.trans world) rest

private theorem to_same (h : Chain s ps s') (marks : s''.marks = s'.marks)
    (world : s''.world = s'.world) : Chain s ps s'' := by
  induction h with
  | nil marks' world' => exact .nil (marks.trans marks') (world.trans world')
  | cons marks' world' _ ih => exact .cons marks' world' (ih marks world)

private theorem append (h : Chain s ps s') (k : Chain s' qs s'') : Chain s (ps ++ qs) s'' := by
  induction h with
  | nil marks world => exact k.from_same marks world
  | cons marks world _ ih => exact .cons marks world (ih k)

/-- A file that is out of the output stays so in all phases. -/
private theorem off (h : Chain s ps s') {f : File} (hoff : s.marks.Off f) :
    ∀ p ∈ ps, p.session.marks.Off f := by
  induction h with
  | nil => exact fun p hp => absurd hp List.not_mem_nil
  | @cons s s' p ps marks _ rest ih =>
      have hp : p.session.marks.Off f := by
        rw [marks]
        exact hoff
      intro q hq
      rcases List.mem_cons.mp hq with rfl | hq
      · exact hp
      · exact ih (p.off_after hp) q hq

/-- A file that one phase claims is out of the output in all phases after
it. -/
private theorem claims {claiming : PhaseRun σ} {f : File}
    (h : Chain s (ps ++ claiming :: qs) s') (hclaims : claiming.Claims f) :
    ∀ p ∈ qs, p.session.marks.Off f := by
  induction ps generalizing s with
  | nil =>
      cases h with
      | cons _ _ rest => exact rest.off (claiming.off_after_claims hclaims)
  | cons p ps ih =>
      cases h with
      | cons _ _ rest => exact ih rest

end Chain

/-- The outcome of an operation, from its answer. -/
private theorem outcome_of_apply {α : Type} {r : Run σ (ServiceResult α)} {s s' : Session σ}
    {answer : Except Failure (ServiceResult α)} (h : r.apply s = (answer, s')) :
    r.outcome s = answer.map (·.outcome) := by
  rw [Run.outcome, h]

/-- A phase, and what follows it. -/
private theorem Chain.first {p : PhaseRun σ} {ps : List (PhaseRun σ)} {s₁ s' : Session σ}
    (after : p.after = s₁) (rest : Chain s₁ ps s') : Chain p.session (p :: ps) s' :=
  .cons rfl rfl (after ▸ rest)

private theorem Chain.refl (s : Session σ) : Chain s [] s := .nil rfl rfl

/-- After its schemas, a complete evaluation goes through the other phases one
after another. -/
private theorem laterPhases_chain (l : Loader σ) (valuesOverlays : List DataValues)
    (collected : CollectedSchemas) (stop : Error → ServiceResult Evaluation)
    (finish : CollectedValues → EvalResult → ServiceResult Evaluation) (s : Session σ) :
    Chain s (l.laterPhases valuesOverlays collected s)
      ((l.afterSchemas valuesOverlays collected stop finish).apply s).2 := by
  rcases hvalues : (l.values valuesOverlays collected.schema).apply s with ⟨answer, s₁⟩
  have hafter : (PhaseRun.mk l (.values valuesOverlays collected.schema) s).after = s₁ :=
    congrArg Prod.snd hvalues
  simp only [Loader.laterPhases, outcome_of_apply hvalues]
  rw [Loader.afterSchemas, Run.apply_bind, hvalues]
  rcases answer with x | ⟨op, x | found, warnings, spans⟩
  · exact Chain.first hafter (.refl s₁)
  · exact Chain.first hafter (.refl s₁)
  · refine Chain.first hafter ?_
    rcases heval : (l.eval found.values found.libraryValues collected.librarySchemas).apply s₁ with
      ⟨answer, s₂⟩
    have hafter' : (PhaseRun.mk l (.eval found.values found.libraryValues
        collected.librarySchemas) s₁).after = s₂ := congrArg Prod.snd heval
    simp only [Run.apply_bind, heval]
    rcases answer with x | ⟨op, x | result, warnings, spans⟩ <;>
      exact Chain.first hafter' (.refl s₂)

/-- **A complete evaluation** goes through its phases one after another. -/
theorem evaluatePhases_chain (l : Loader σ) (schemaOverlays : List DocumentSchema)
    (valuesOverlays : List DataValues) (s : Session σ) :
    Chain s (l.evaluatePhases schemaOverlays valuesOverlays s)
      ((l.evaluate schemaOverlays valuesOverlays).apply s).2 := by
  obtain ⟨hmarks, hworld, -⟩ := Run.traced_entered "LibraryLoader.evaluate" ServiceResult.attach
    (l.phases schemaOverlays valuesOverlays) s
  refine Chain.to_same ?_ hmarks hworld
  refine Chain.from_same ?_ (s.entered_marks "LibraryLoader.evaluate")
    (s.entered_world "LibraryLoader.evaluate")
  unfold Loader.evaluatePhases
  generalize s.entered "LibraryLoader.evaluate" = s₀
  rcases hschemas : (l.schemas schemaOverlays).apply s₀ with ⟨answer, s₁⟩
  have hafter : (PhaseRun.mk l (.schemas schemaOverlays) s₀).after = s₁ :=
    congrArg Prod.snd hschemas
  simp only [outcome_of_apply hschemas]
  rw [Loader.phases, Run.apply_bind, hschemas]
  rcases answer with x | ⟨op, x | collected, warnings, spans⟩
  · exact Chain.first hafter (.refl s₁)
  · exact Chain.first hafter (.refl s₁)
  · refine Chain.first hafter ?_
    exact laterPhases_chain l valuesOverlays collected _ _ s₁

/-- The phases of some operations follow one another, up to the session that
the operations leave. -/
theorem history_chain (ops : List (Loader σ × Operation)) (s : Session σ) :
    Chain s (history ops s) (ops.foldl (fun s o => o.2.after o.1 s) s) := by
  induction ops generalizing s with
  | nil => exact .refl s
  | cons first ops ih =>
      obtain ⟨l, op⟩ := first
      refine Chain.append ?_ (ih (op.after l s))
      cases op with
      | phase p => exact Chain.first (p := ⟨l, p, s⟩) rfl (.refl _)
      | evaluate schemaOverlays valuesOverlays => exact evaluatePhases_chain l _ _ s

/-- **A file that is claimed in a history** is out of the output in every
later phase. -/
theorem history_claims {ops : List (Loader σ × Operation)} {s : Session σ}
    {before after : List (PhaseRun σ)} {claiming : PhaseRun σ} {f : File}
    (run : history ops s = before ++ claiming :: after) (claims : claiming.Claims f) :
    ∀ p ∈ after, p.session.marks.Off f := by
  have hchain := history_chain ops s
  rw [run] at hchain
  exact hchain.claims claims

/-! ## Evaluation after a claim -/

/-- In a complete evaluation, every file that is called is among the calls,
and every exporter among the exports. -/
private theorem Outcome.complete_calls {c : Collaborators σ} {v : Scene σ} {files : List Located}
    {w w' : σ} {r : EvalResult} {calls : List Call} {g : Located} {call : Call}
    (h : Outcome c v files w (.ok r) calls w') (mem : g ∈ files)
    (called : g.call? v.root v.marks = some call)
    (exporter : g.file.isExporter v.marks = true) :
    call ∈ calls ∧ g.path ∈ r.exports.map (·.path) := by
  cases h with
  | complete pass used together run order rendered =>
      obtain ⟨-, -, rfl⟩ := together.eq
      constructor
      · exact List.mem_append_left _ (List.mem_filterMap.mpr ⟨g, mem, called⟩)
      · rw [pass.exports_paths]
        exact List.mem_map_of_mem (List.mem_filter.mpr ⟨mem, exporter⟩)

/-- **What evaluation does with a claimed file.** Whatever operations were
run, on any libraries and in any order, and whether or not they succeeded:
once discovery has claimed a file, it is not output for any later evaluation
of files, be it an operation of its own or the last phase of a complete
evaluation. If it is not a library file, no engine is called on it, and the
evaluation comes to the outcome that the other files have. If it is a library
file, it is not left alone: an evaluation that succeeds has called an engine
on it, and exports the names it defines. -/
theorem claimed_file (ops : List (Loader σ × Operation)) (s s₂ : Session σ)
    (before between after : List (PhaseRun σ)) (claiming : PhaseRun σ) (l : Loader σ)
    (values : DataValues) (libraryValues : List DataValues)
    (librarySchemas : List DocumentSchema) (f : File) (g : Located) (earlier : List Call)
    (run : history ops s = before ++ claiming ::
      (between ++ ⟨l, .eval values libraryValues librarySchemas, s₂⟩ :: after))
    (claims : claiming.Claims f) (mem : g ∈ l.library.accessible) (same : g.file = f) :
    let seed : Seed := ⟨values, libraryValues, librarySchemas⟩
    let outcome := (l.eval values libraryValues librarySchemas).outcome s₂
    let recorded := (l.recorded.eval values libraryValues librarySchemas).apply
      (s₂.recorded earlier)
    f.isForOutput s₂.marks = false ∧
    ∃ calls, recorded.2.world.calls = earlier ++ .newEngine seed :: calls ∧
      (f.isLibrary = false →
        (∀ call ∈ calls, call.evaluated? ≠ some f) ∧
        ∀ e w, Action.apply (l.collaborators.newEngine seed) s₂.world = (.ok e, w) →
          ∃ answer w', Outcome l.collaborators ⟨e, l.context.root, s₂.marks, libraryValues⟩
              (l.library.accessible.filter (·.file ≠ f)) w answer calls w' ∧
            outcome = Run.attempted answer) ∧
      (f.isLibrary = true → ∀ r, outcome = .ok (.ok r) →
        .evaluate .yaml ⟨g.library, l.context.root⟩ f ∈ calls ∧
          g.path ∈ r.exports.map (·.path)) := by
  intro seed outcome recorded
  subst same
  have off : s₂.marks.Off g.file :=
    history_claims run claims ⟨l, .eval values libraryValues librarySchemas, s₂⟩
      (List.mem_append_right _ (List.mem_cons_self ..))
  have silent : g.file.isForOutput s₂.marks = false := off.isForOutput
  have kind : g.file.kind = .yaml := claims.candidate.1
  refine ⟨silent, ?_⟩
  rcases engine : Action.apply (l.collaborators.newEngine seed) s₂.world with ⟨x | e, w⟩
  · obtain ⟨houtcome, hcalls⟩ := Loader.eval_noEngine earlier engine
    refine ⟨[], hcalls, fun _ => ⟨List.forall_mem_nil _, ?_⟩, ?_⟩
    · intro e w' made
      cases made
    · intro _ r hr
      cases Run.attempted_eq_ok (houtcome.symm.trans hr)
  · obtain ⟨answer, calls, w', h, houtcome, hcalls⟩ := Loader.eval_engine earlier engine
    refine ⟨calls, hcalls, ?_, ?_⟩
    · intro library
      have absent : ∀ x ∈ l.library.accessible, decide (x.file ≠ g.file) = false →
          x.Absent s₂.marks := by
        intro x _ hx
        have hfile : x.file = g.file := by simpa using hx
        exact ⟨hfile ▸ silent, .inl (hfile ▸ library)⟩
      have hwithout := h.without absent
      refine ⟨?_, ?_⟩
      · intro call hcall hfile
        rcases hwithout.mem_calls hcall with ⟨sets, rfl⟩ | ⟨x, hx, k, -, rfl⟩
        · cases hfile
        · have hne := (List.mem_filter.mp hx).2
          simp [Option.some.inj hfile] at hne
      · intro e' w'' made
        cases made
        exact ⟨answer, w', hwithout, houtcome⟩
    · intro library r hr
      obtain rfl := Run.attempted_eq_ok (houtcome.symm.trans hr)
      refine h.complete_calls mem ?_ ?_
      · simp [Located.call?, File.manner?, silent, library, kind]
      · simp [File.isExporter, silent, library, kind]

/-- Two files that declare data values, of which the second is a library
file. Discovery claims both, and only the first is left alone afterwards. -/
theorem claimed_file_library :
    let settings : File := ⟨0, "values.yml", [], .yaml, true, some false, none⟩
    let helpers : File := ⟨1, "values.lib.yml", [], .yaml, true, some true, none⟩
    let tree : Library := ⟨[], [], [settings, helpers], []⟩
    let declaration : Document :=
      ⟨⟨.unknown, [(AnnotationName.dataValues, ⟨[], []⟩)]⟩, .map (.ofPosition .unknown) []⟩
    let l : Loader Unit := ⟨.ofRoot tree, {}, .plain fun _ => [declaration]⟩
    let s : Session Unit := ⟨[], .initial, ()⟩
    let claiming : PhaseRun Unit := ⟨l, .values [] .null, s⟩
    let s₂ := claiming.after
    let recorded := (l.recorded.eval .empty [] []).apply (s₂.recorded [])
    claiming.Claims settings ∧ claiming.Claims helpers ∧
    ∃ r, (l.eval .empty [] []).outcome s₂ = .ok (.ok r) ∧
      (∀ call ∈ recorded.2.world.calls, call.evaluated? ≠ some settings) ∧
      .evaluate .yaml ⟨tree, tree⟩ helpers ∈ recorded.2.world.calls ∧
      ("values.lib.yml" : Text) ∈ r.exports.map (·.path) := by
  intro settings helpers tree declaration l s claiming s₂ recorded
  have first : claiming.Claims settings := .here ⟨rfl, rfl⟩ rfl rfl nofun
  have second : claiming.Claims helpers :=
    .later (.parsed ⟨rfl, rfl⟩ rfl rfl) (.here ⟨rfl, rfl⟩ rfl rfl nofun)
  have success : (l.eval .empty [] []).succeeds s₂ = true := by decide +kernel
  obtain ⟨r, ok⟩ := Run.succeeds_iff.mp success
  have later : history [(l, .phase (.values [] .null)), (l, .phase (.eval .empty [] []))] s =
      [] ++ claiming :: ([] ++ ⟨l, .eval .empty [] [], s₂⟩ :: []) := rfl
  obtain ⟨-, calls, hcalls, alone, -⟩ := claimed_file _ s s₂ [] [] [] claiming l .empty [] []
    settings ⟨settings, tree⟩ [] later first (.head _) rfl
  obtain ⟨-, calls', hcalls', -, evaluated⟩ := claimed_file _ s s₂ [] [] [] claiming l .empty [] []
    helpers ⟨helpers, tree⟩ [] later second (.tail _ (.head _)) rfl
  obtain ⟨called, exported⟩ := evaluated rfl r ok
  refine ⟨first, second, r, ok, ?_, ?_, exported⟩
  · rw [hcalls]
    intro call hcall
    rcases List.mem_cons.mp hcall with rfl | hcall
    · exact nofun
    · exact (alone rfl).1 call hcall
  · rw [hcalls']
    exact List.mem_cons_of_mem _ called

end Stencil
