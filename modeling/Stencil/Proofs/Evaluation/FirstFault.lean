import Stencil.Proofs.Evaluation.Escaping
import Stencil.Proofs.Evaluation.Reports
import Stencil.Proofs.Library.Grouping

/-!
# The first fault of an operation

Something can go wrong in the parser, in an engine, in the merger, in the
pipeline for values and in the post-processor, and in the first two for any
file. `Site` lists the places. `PhaseRun.FirstFault` says that a failure is
met at one of them and that nothing failed before: the work up to there is
described by the same relations as that of a phase that does not fail.

A failure that is met first decides how the operation ends. If it is an error
of the library, that is what the operation answers with; if it is a fault, the
operation answers with the error that belongs to the place, which names the
file that was at hand.

## Main definitions

* `Site` — where something can go wrong.
* `Site.code`, `Site.message`, `Site.detail` — the error that a fault becomes.
* `PhaseRun.FirstFault` — what goes wrong first in a phase.

## Main results

* `Discovery.append`, `Merges.append`, `Pass.append` — work that goes well,
  and the rest of it.
* `PhaseRun.FirstFault.work` — a phase fails as its first fault says.
* `first_fault` — what an operation answers with.
-/

namespace Stencil

variable {σ : Type}

/-! ## Places -/

/-- Where something can go wrong in an operation. -/
inductive Site where
  /-- In the parser, on a file. -/
  | parse (g : Located)
  /-- In the engine that evaluates schema files, on a file. -/
  | schemaFile (g : Located)
  /-- In the engine that evaluates all files, on a file. -/
  | file (g : Located)
  /-- In the merger. -/
  | merge
  /-- In the pipeline for values. -/
  | values
  /-- In the post-processor. -/
  | postProcess

namespace Site

/-- The file that is at hand in a place. -/
def file? : Site → Option Located
  | .parse g | .schemaFile g | .file g => some g
  | .merge | .values | .postProcess => none

/-- The code of the error that a fault in a place becomes. -/
def code : Site → Text
  | .parse _ | .schemaFile _ | .file _ => "EVALUATION_FAILED"
  | .merge => "SCHEMA_MERGE_FAILED"
  | .values => "VALUES_RESOLUTION_FAILED"
  | .postProcess => "POST_PROCESSING_FAILED"

/-- Its message, which has the words of the fault at its end. -/
def message (words : Text) : Site → Text
  | .parse g => "Evaluating " ++ g.path ++ ": parsing: " ++ words
  | .schemaFile g | .file g => "Evaluating " ++ g.path ++ ": " ++ words
  | .merge => "Merging schema documents: " ++ words
  | .values => "Resolving data values: " ++ words
  | .postProcess => "Applying overlays: " ++ words

/-- Its details: the path of the file at hand, if there is one. -/
def detail (site : Site) : List (Text × Value) :=
  (site.file?.map fun g => (("path" : Text), Value.str g.path)).toList

/-- The error that a fault in a place becomes. -/
def error (words : Text) : Site → Error
  | .parse g => .evaluation g.path ("parsing: " ++ words)
  | .schemaFile g | .file g => .evaluation g.path words
  | .merge => mergeError words
  | .values => valuesError words
  | .postProcess => .reported .postProcessing ("Applying overlays: " ++ words) []

theorem error_code (site : Site) (words : Text) : (site.error words).code = site.code := by
  cases site <;> rfl

theorem error_message (site : Site) (words : Text) :
    (site.error words).message = site.message words := by
  cases site with
  | parse g =>
      have hwords : (": parsing: " : Text) = ": " ++ "parsing: " := rfl
      simp only [error, message, Error.message, hwords, List.append_assoc]
  | _ => rfl

theorem error_detail (site : Site) (words : Text) : (site.error words).detail = site.detail := by
  cases site <;> rfl

end Site

/-! ## What goes wrong first -/

/-- A failure that is met in a place of a phase before anything else fails. -/
inductive PhaseRun.FirstFault : PhaseRun σ → Site → Failure → Prop
  /-- A file cannot be parsed while schema files are discovered. -/
  | parseSchemas {l : Loader σ} {overlays : List DocumentSchema} {s : Session σ}
      {before after found parsed : List Located} {g : Located} {x : Failure} {w₁ w₂ : σ}
      (files : l.library.accessible = before ++ g :: after)
      (sofar : Discovery l.collaborators AnnotationName.schemaMatch before s.world (.ok ()) found
        parsed w₁)
      (candidate : g.file.IsYamlTemplate)
      (fails : Action.apply (l.collaborators.parse g.file) w₁ = (.error x, w₂)) :
      FirstFault ⟨l, .schemas overlays, s⟩ (.parse g) x
  /-- A file cannot be parsed while values files are discovered. -/
  | parseValues {l : Loader σ} {overlays : List DataValues} {schema : Schema} {s : Session σ}
      {before after found parsed : List Located} {g : Located} {x : Failure} {w₁ w₂ : σ}
      (files : l.library.accessible = before ++ g :: after)
      (sofar : Discovery l.collaborators AnnotationName.dataValues before s.world (.ok ()) found
        parsed w₁)
      (candidate : g.file.IsYamlTemplate)
      (fails : Action.apply (l.collaborators.parse g.file) w₁ = (.error x, w₂)) :
      FirstFault ⟨l, .values overlays schema, s⟩ (.parse g) x
  /-- A schema file cannot be evaluated. -/
  | schemaFile {l : Loader σ} {overlays : List DocumentSchema} {s : Session σ}
      {before after parsed : List Located} {g : Located} {e : Engine σ}
      {p : List (List Document) × List DocumentSchema} {x : Failure} {w₁ w₂ w₃ w₄ : σ}
      (on : l.config.schemaEnabled = true)
      (discovery : Discovery l.collaborators AnnotationName.schemaMatch l.library.accessible
        s.world (.ok ()) (before ++ g :: after) parsed w₁)
      (engine : Action.apply (l.collaborators.newEngine schemaSeed) w₁ = (.ok e, w₂))
      (sofar : SchemaPass e before w₂ (.ok p) before w₃)
      (fails : Action.apply (e.schemaAnswer g) w₃ = (.error x, w₄)) :
      FirstFault ⟨l, .schemas overlays, s⟩ (.schemaFile g) x
  /-- A schema document cannot be merged. -/
  | merge {l : Loader σ} {overlays : List DocumentSchema} {s : Session σ} {found : List Located}
      {sets : List (List Document)} {declared : List DocumentSchema} {calls : List Call}
      {base patch below : Document} {before after : List Document}
      {pairs : List (Document × Document)} {x : Failure} {w₁ w₂ w₃ : σ}
      (on : l.config.schemaEnabled = true) (files : Declared l s.world found sets declared calls w₁)
      (own : ownSources (declared ++ overlays) = base :: before ++ patch :: after)
      (sofar : Merges l.collaborators base before w₁ (.ok below) pairs w₂)
      (fails : Action.apply (l.collaborators.merge below patch) w₂ = (.error x, w₃)) :
      FirstFault ⟨l, .schemas overlays, s⟩ .merge x
  /-- The values cannot be resolved. -/
  | values {l : Loader σ} {overlays : List DataValues} {schema : Schema} {s : Session σ}
      {found parsed : List Located} {x : Failure} {w₁ w₂ : σ}
      (discovery : Discovery l.collaborators AnnotationName.dataValues l.library.accessible
        s.world (.ok ()) found parsed w₁)
      (fails : Action.apply (l.collaborators.resolveValues found overlays schema
        l.config.valuesPolicy) w₁ = (.error x, w₂)) :
      FirstFault ⟨l, .values overlays schema, s⟩ .values x
  /-- A file cannot be evaluated. -/
  | file {l : Loader σ} {values : DataValues} {libraryValues : List DataValues}
      {librarySchemas : List DocumentSchema} {s : Session σ} {before after : List Located}
      {g : Located} {e : Engine σ} {p : List Piece × List DataValues} {k : Manner} {x : Failure}
      {w₁ w₂ w₃ : σ}
      (files : l.library.accessible = before ++ g :: after)
      (engine : Action.apply (l.collaborators.newEngine ⟨values, libraryValues, librarySchemas⟩)
        s.world = (.ok e, w₁))
      (sofar : Pass ⟨e, l.context.root, s.marks, libraryValues⟩ before w₁ (.ok p) before w₂)
      (call : g.file.manner? s.marks = some k)
      (fails : Action.apply (e.answer libraryValues k ⟨g.library, l.context.root⟩ g.file) w₂ =
        (.error x, w₃)) :
      FirstFault ⟨l, .eval values libraryValues librarySchemas, s⟩ (.file g) x
  /-- Overlays cannot be applied. -/
  | postProcess {l : Loader σ} {values : DataValues} {libraryValues : List DataValues}
      {librarySchemas : List DocumentSchema} {s : Session σ} {e : Engine σ} {pieces : List Piece}
      {consumed : List DataValues} {x : Failure} {w₁ w₂ w₃ : σ}
      (engine : Action.apply (l.collaborators.newEngine ⟨values, libraryValues, librarySchemas⟩)
        s.world = (.ok e, w₁))
      (pass : Pass ⟨e, l.context.root, s.marks, libraryValues⟩ l.library.accessible w₁
        (.ok (pieces, consumed)) l.library.accessible w₂)
      (used : unconsumed libraryValues consumed = [])
      (fails : Action.apply (l.collaborators.postProcess (documentSets pieces)) w₂ =
        (.error x, w₃)) :
      FirstFault ⟨l, .eval values libraryValues librarySchemas, s⟩ .postProcess x

/-! ## Work that goes well, and the rest of it -/

/-- Discovery goes on after files that it had no trouble with. -/
theorem Discovery.append {c : Collaborators σ} {name : Text}
    {files rest found found' parsed parsed' : List Located} {r r' : Except Failure Unit}
    {w w₁ w₂ : σ} (h : Discovery c name files w r found parsed w₁) (ok : r = .ok ())
    (k : Discovery c name rest w₁ r' found' parsed' w₂) :
    Discovery c name (files ++ rest) w r' (found ++ found') (parsed ++ parsed') w₂ := by
  induction h with
  | nil => exact k
  | skipped other _ ih => exact .skipped other (ih ok k)
  | unparsed => cases ok
  | misplaced => cases ok
  | passed candidate parse above absent _ ih => exact .passed candidate parse above absent (ih ok k)
  | found candidate parse above present _ ih =>
      exact .found candidate parse above present (ih ok k)

/-- Merging goes on after patches that were merged. -/
theorem Merges.append {c : Collaborators σ} {base below : Document} {patches rest : List Document}
    {r r' : Except Failure Document} {pairs pairs' : List (Document × Document)} {w w₁ w₂ : σ}
    (h : Merges c base patches w r pairs w₁) (ok : r = .ok below)
    (k : Merges c below rest w₁ r' pairs' w₂) :
    Merges c base (patches ++ rest) w r' (pairs ++ pairs') w₂ := by
  induction h with
  | done =>
      cases ok
      exact k
  | failed => cases ok
  | step merge _ ih => exact .step merge (ih ok k)

/-- A pass fails after files that it had no trouble with. -/
theorem Pass.append {v : Scene σ} {files rest visited visited' : List Located}
    {r : Except Failure (List Piece × List DataValues)} {x : Failure} {w w₁ w₂ : σ}
    (h : Pass v files w r visited w₁) {p : List Piece × List DataValues} (ok : r = .ok p)
    (fail : Pass v rest w₁ (.error x) visited' w₂) :
    Pass v (files ++ rest) w (.error x) (visited ++ visited') w₂ := by
  induction h generalizing p with
  | nil => exact fail
  | stop => cases ok
  | @step f fs visited w w₁ w₂ piece consumed r one _ ih =>
      cases r with
      | error y => cases ok
      | ok q => exact .step one (ih rfl fail)

namespace PhaseRun

/-- The work of a phase, from what it yields. -/
private theorem schemas_work {l : Loader σ} {overlays : List DocumentSchema} {s : Session σ}
    {x : Failure} {found : List Located} {calls : List Call} {w : σ}
    (h : Collection l overlays s.world (.error x) found calls w) :
    (PhaseRun.mk l (.schemas overlays) s).work = .error x :=
  congrArg (Except.map fun _ => ()) (h.yields s.marks).apply_eq.1

private theorem values_work {l : Loader σ} {overlays : List DataValues} {schema : Schema}
    {s : Session σ} {x : Failure} {found : List Located} {calls : List Call} {w : σ}
    (h : Resolution l overlays schema s.world (.error x) found calls w) :
    (PhaseRun.mk l (.values overlays schema) s).work = .error x :=
  congrArg (Except.map fun _ => ()) (h.yields s.marks).apply_eq.1

private theorem eval_work {l : Loader σ} {values : DataValues} {libraryValues : List DataValues}
    {librarySchemas : List DocumentSchema} {s : Session σ} {x : Failure} {e : Engine σ}
    {calls : List Call} {w w' : σ}
    (engine : Action.apply (l.collaborators.newEngine ⟨values, libraryValues, librarySchemas⟩)
      s.world = (.ok e, w))
    (h : Outcome l.collaborators ⟨e, l.context.root, s.marks, libraryValues⟩ l.library.accessible w
      (.error x) calls w') :
    (PhaseRun.mk l (.eval values libraryValues librarySchemas) s).work = .error x := by
  let v : Scene σ := ⟨e, l.context.root, s.marks, libraryValues⟩
  exact congrArg (Except.map fun _ => ()) (h.yields (v := v) engine rfl).apply_eq.1

/-- **A phase fails as its first fault says**: an error is left as it is, and a
fault becomes the error that belongs to the place. -/
theorem FirstFault.work {p : PhaseRun σ} {site : Site} {x : Failure} (h : p.FirstFault site x) :
    p.work = .error (x.wrap fun words => site.error words) := by
  cases h with
  | @parseSchemas _ _ _ _ after _ _ _ _ _ _ files sofar candidate fails =>
      have hrest : Discovery _ AnnotationName.schemaMatch (_ :: after) _ _ _ _ _ :=
        .unparsed candidate fails (x.becomes_wrap _)
      have hdiscovery := sofar.append rfl hrest
      rw [← files] at hdiscovery
      exact schemas_work (.undiscovered hdiscovery)
  | @parseValues _ _ _ _ _ after _ _ _ _ _ _ files sofar candidate fails =>
      have hrest : Discovery _ AnnotationName.dataValues (_ :: after) _ _ _ _ _ :=
        .unparsed candidate fails (x.becomes_wrap _)
      have hdiscovery := sofar.append rfl hrest
      rw [← files] at hdiscovery
      exact values_work (.undiscovered hdiscovery)
  | schemaFile on discovery engine sofar fails =>
      obtain ⟨visited, hpass⟩ := sofar.append rfl (.failed fails (x.becomes_wrap _))
      exact schemas_work (.undeclared on discovery engine hpass)
  | @merge _ _ _ _ _ _ _ _ _ _ _ after _ _ _ _ _ on files own sofar fails =>
      have hrest : Merges _ _ (_ :: after) _ _ _ _ := .failed fails (x.becomes_wrap _)
      have hmerging : Merging _ _ _ _ _ _ := .failed (sofar.append rfl hrest)
      rw [← List.cons_append, ← own] at hmerging
      exact schemas_work (.merging on files hmerging)
  | values discovery fails => exact values_work (.unresolved discovery fails (x.becomes_wrap _))
  | @file l _ tracked _ s _ after g e _ _ _ _ _ _ files engine sofar call fails =>
      let v : Scene σ := ⟨e, l.context.root, s.marks, tracked⟩
      have hrest : Pass v (g :: after) _ _ _ _ := .stop (.failed call fails (x.becomes_wrap _))
      have hpass := sofar.append rfl hrest
      rw [← files] at hpass
      exact eval_work engine (.file hpass)
  | postProcess engine pass used fails =>
      exact eval_work engine (.postProcessing pass used (gathered _) fails (x.becomes_wrap _))

/-- The file at hand where something goes wrong is one of the library. -/
theorem FirstFault.mem_accessible {p : PhaseRun σ} {site : Site} {x : Failure} {g : Located}
    (h : p.FirstFault site x) (hg : site.file? = some g) : g ∈ p.loader.library.accessible := by
  have middle : ∀ before after : List Located, g ∈ before ++ g :: after := fun before after =>
    List.mem_append_right before (List.mem_cons_self ..)
  cases h with
  | parseSchemas files =>
      cases hg
      exact files ▸ middle _ _
  | parseValues files =>
      cases hg
      exact files ▸ middle _ _
  | schemaFile _ discovery =>
      cases hg
      exact discovery.found_sublist.subset (middle _ _)
  | file files =>
      cases hg
      exact files ▸ middle _ _
  | merge => cases hg
  | values => cases hg
  | postProcess => cases hg

end PhaseRun

/-- An operation ends as the phase does that fails. -/
theorem Operation.ending_of_work {l : Loader σ} {s : Session σ} {op : Operation} {p : PhaseRun σ}
    {x : Failure} (mem : p ∈ op.phases l s) (work : p.work = .error x) :
    op.ending l s = Run.attempted (.error x) := by
  obtain ⟨before, last, hphases, hbefore, hlast⟩ := op.phases_end l s
  rw [hphases] at mem
  rcases List.mem_append.mp mem with mem | mem
  · cases (hbefore p mem).symm.trans work
  · obtain rfl := List.mem_singleton.mp mem
    rw [hlast, PhaseRun.ending_eq, work]

/-- An operation that ends with an error answers, and its result has the
error. -/
theorem Operation.run_of_ending {l : Loader σ} {s : Session σ} {op : Operation} {e : Error}
    (h : op.ending l s = .ok (.error e)) :
    ∃ r, ((op.run l).apply s).1 = .ok r ∧ r.outcome = .error e := by
  have hending : op.ending l s = (op.run l).ending s := by
    rcases op with (_ | _ | _) | _ <;> rfl
  rw [hending, Run.ending, Run.outcome] at h
  cases hrun : ((op.run l).apply s).1 with
  | error x =>
      rw [hrun] at h
      cases h
  | ok r =>
      rw [hrun] at h
      refine ⟨r, rfl, ?_⟩
      cases houtcome : r.outcome with
      | ok a => simp [Except.map, houtcome] at h
      | error e' => simpa [Except.map, houtcome] using h

/-- **What an operation answers with when something goes wrong.** Let a failure
be met in some place in one of the phases of an operation, and let nothing fail
before. Then the operation answers, and its result has an error.

If the failure is an error of the library, that is the error of the result; no
number of wrappers around it makes another one of it. If it is a fault, the
code, the message and the details of the error are those of the place, with the
words of the fault at the end of the message; of several wrappers, only the
innermost one has a say.

The file at hand, if there is one, is the one on which the parser or the engine
failed. It is a file of the library; and if that is part of a tree that is grown
from some files, then the path in the error is the one from the root, which the
file was given with. -/
theorem first_fault (l : Loader σ) (op : Operation) (s : Session σ) (p : PhaseRun σ) (site : Site)
    (x : Failure) (mem : p ∈ op.phases l s) (first : p.FirstFault site x) :
    ∃ r e, ((op.run l).apply s).1 = .ok r ∧ r.outcome = .error e ∧
      (∀ own cause, x = .error own cause → e = own ∧
        ∀ describes, wrapFaults describes (.error x : Except Failure Unit) = .error x) ∧
      (∀ f, x = .fault f →
        e.code = site.code ∧ e.message = site.message f.message ∧ e.detail = site.detail ∧
        ∀ describes, wrapFaults (site.error :: describes) (.error x : Except Failure Unit) =
          .error (.error e (some f))) ∧
      ∀ g, site.file? = some g → g ∈ l.library.accessible ∧
        ∀ files : List File, (∀ f ∈ files, Path.Relative f.path) →
          l.library.Within (.ofFiles files) → ∃ f ∈ files, f.Alike g.whole ∧
            (files.Nodup → f = g.whole) := by
  have hends := Operation.ending_of_work mem first.work
  have located : ∀ g, site.file? = some g → g ∈ l.library.accessible ∧
      ∀ files : List File, (∀ f ∈ files, Path.Relative f.path) →
        l.library.Within (.ofFiles files) → ∃ f ∈ files, f.Alike g.whole ∧
          (files.Nodup → f = g.whole) := by
    intro g hg
    have hmem : g ∈ l.library.accessible := by
      rw [← Operation.loader_of_mem_phases mem]
      exact first.mem_accessible hg
    refine ⟨hmem, fun files relative within => ?_⟩
    have hall : g ∈ (Library.ofFiles files).all := within.accessible_sublist.subset hmem
    exact Library.exists_alike
      ((Library.whole_perm_of_relative relative).subset (List.mem_map_of_mem hall))
  cases x with
  | error own cause =>
      obtain ⟨r, hrun, houtcome⟩ := Operation.run_of_ending hends
      refine ⟨r, own, hrun, houtcome, ?_, nofun, located⟩
      rintro _ _ ⟨⟩
      exact ⟨rfl, fun describes => wrapFaults_error describes own cause⟩
  | fault f =>
      obtain ⟨r, hrun, houtcome⟩ := Operation.run_of_ending hends
      refine ⟨r, site.error f.message, hrun, houtcome, nofun, ?_, located⟩
      rintro _ ⟨⟩
      exact ⟨site.error_code _, site.error_message _, site.error_detail _,
        fun describes => wrapFaults_fault _ describes f⟩

/-- A file in a directory that cannot be parsed, after one that can: the error
has its path from the root. -/
theorem first_fault_nested :
    let f : File := .ofPath 0 "a.yml" [] true
    let g : File := .ofPath 1 "sub/b.yml" [] true
    let below : Library := ⟨"sub", "sub", [.ofPath 1 "b.yml" [] true], []⟩
    let broken : Failure := .fault (.raised "YAMLError" "bad indent")
    let parse (file : File) : Action Unit (List Document) :=
      if file.id = 1 then throw broken else pure []
    let c : Collaborators Unit := { Collaborators.plain fun _ => [] with parse }
    let l : Loader Unit := ⟨.ofRoot (.ofFiles [f, g]), {}, c⟩
    let s : Session Unit := ⟨[], .initial, ()⟩
    let p : PhaseRun Unit := ⟨l, .schemas [], s⟩
    let site : Site := .parse ⟨.ofPath 1 "b.yml" [] true, below⟩
    p ∈ (Operation.evaluate [] []).phases l s ∧ p.FirstFault site broken ∧
      ∃ r e, (((Operation.evaluate [] []).run l).apply s).1 = .ok r ∧ r.outcome = .error e ∧
        e.code = "EVALUATION_FAILED" ∧ e.message = "Evaluating sub/b.yml: parsing: bad indent" ∧
        e.detail = [(("path" : Text), Value.str "sub/b.yml")] := by
  intro f g below broken parse c l s p site
  let first : Located := ⟨f, l.library⟩
  let second : Located := ⟨.ofPath 1 "b.yml" [] true, below⟩
  have mem : p ∈ (Operation.evaluate [] []).phases l s := List.mem_cons_self ..
  have fails : p.FirstFault site broken := by
    have files : l.library.accessible = [first] ++ second :: [] := by decide +kernel
    have sofar : Discovery c AnnotationName.schemaMatch [first] () (.ok ()) [] [first] () :=
      .passed (by decide +kernel) rfl rfl rfl .nil
    exact .parseSchemas files sofar (by decide +kernel) rfl
  obtain ⟨r, e, answers, failed, -, described, -⟩ :=
    first_fault l (.evaluate [] []) s p site broken mem fails
  obtain ⟨code, message, detail, -⟩ := described _ rfl
  have path : second.path = "sub/b.yml" := by decide +kernel
  refine ⟨mem, fails, r, e, answers, failed, code, message.trans (by decide +kernel), ?_⟩
  rw [detail, ← path]
  rfl

end Stencil
