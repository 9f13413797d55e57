import Stencil.Proofs.Evaluation.Pass
import Stencil.Proofs.Evaluation.Rendering
import Stencil.Proofs.Library.Sorting

/-!
# The outcome of an evaluation

An evaluation can end in five ways, and they are tried in this order: a file
fails, library values stay unconsumed, overlays cannot be applied, documents
cannot be written, or the result is complete. `Outcome` has one rule for
each, with the calls of collaborators that go with it.

The rules are about any engine and any post-processor, and say themselves what the
pieces of the files come to and in which order files are put. Evaluation is shown
to follow them, once for the answer and once, with recorded collaborators, for
the calls.

## Main definitions

* `Outcome` — the five ways in which an evaluation ends.
* `Loader.reached` — the loaders that a workspace leads to.

## Main results

* `Outcome.total`, `Outcome.yields` — there is an outcome, and evaluation
  has it.
* `Outcome.recorded`, `Outcome.recorded_yields` — its calls are the ones that
  are made.
* `Outcome.mem_calls` — what can be among them.
* `evaluateLibrary_outcome` — an evaluation from any session, at any library
  of a workspace.
-/

namespace Stencil

variable {σ : Type}

/-- What an evaluation ends with: its answer, the calls of collaborators that
it made, and the world it leaves. -/
inductive Outcome (c : Collaborators σ) (v : Scene σ) (files : List Located) (w : σ) :
    Except Failure EvalResult → List Call → σ → Prop
  /-- A file fails. -/
  | file {x : Failure} {visited : List Located} {w₁ : σ}
      (pass : Pass v files w (.error x) visited w₁) :
      Outcome c v files w (.error x) (engineCalls v.root v.marks visited) w₁
  /-- No file fails, but some library values were never consumed. -/
  | unused {pieces : List Piece} {consumed : List DataValues} {w₁ : σ}
      (pass : Pass v files w (.ok (pieces, consumed)) files w₁)
      (left : unconsumed v.tracked consumed ≠ []) :
      Outcome c v files w
        (.error (.error (.unusedValues ((unconsumed v.tracked consumed).map (·.desc))) none))
        (engineCalls v.root v.marks files) w₁
  /-- All values were consumed, but the post-processor fails. -/
  | postProcessing {pieces : List Piece} {consumed : List DataValues} {sets : DocumentSets}
      {texts : Fragments} {exports : List Export} {x y : Failure} {w₁ w₂ : σ}
      (pass : Pass v files w (.ok (pieces, consumed)) files w₁)
      (used : unconsumed v.tracked consumed = []) (together : Gathered pieces sets texts exports)
      (run : Action.apply (c.postProcess sets) w₁ = (.error x, w₂))
      (wrapped : x.Becomes
        (fun m => .reported .postProcessing ("Applying overlays: " ++ m) []) y) :
      Outcome c v files w (.error y) (engineCalls v.root v.marks files ++ [.postProcess sets]) w₂
  /-- The post-processor answers, but some documents cannot be written. The first file in
  order that has such documents is named. -/
  | unserialisable {pieces : List Piece} {consumed : List DataValues} {sets answered : DocumentSets}
      {texts : Fragments} {exports : List Export} {before after : List Located} {f : Located}
      {docs : List Document} {x : Fault} {w₁ w₂ : σ}
      (pass : Pass v files w (.ok (pieces, consumed)) files w₁)
      (used : unconsumed v.tracked consumed = []) (together : Gathered pieces sets texts exports)
      (run : Action.apply (c.postProcess sets) w₁ = (.ok answered, w₂))
      (order : Located.InOrder (answered.map (·.1) ++ texts.map (·.1)) (before ++ f :: after))
      (rendered : ∀ g ∈ before, ∃ output, Renders answered texts g output)
      (found : answered.lookup f = some docs)
      (broken : Documents.serialize docs = .error (.fault x)) :
      Outcome c v files w (.error (marshalFailure f x))
        (engineCalls v.root v.marks files ++ [.postProcess sets]) w₂
  /-- Everything is rendered, in order. -/
  | complete {pieces : List Piece} {consumed : List DataValues} {sets answered : DocumentSets}
      {texts : Fragments} {exports : List Export} {ordered : List Located}
      {outputs : List OutputFile} {w₁ w₂ : σ}
      (pass : Pass v files w (.ok (pieces, consumed)) files w₁)
      (used : unconsumed v.tracked consumed = []) (together : Gathered pieces sets texts exports)
      (run : Action.apply (c.postProcess sets) w₁ = (.ok answered, w₂))
      (order : Located.InOrder (answered.map (·.1) ++ texts.map (·.1)) ordered)
      (rendered : List.Forall₂ (Renders answered texts) ordered outputs) :
      Outcome c v files w (.ok ⟨outputs, documentsOf answered ordered, exports⟩)
        (engineCalls v.root v.marks files ++ [.postProcess sets]) w₂

/-- The files of an evaluation are put in order in one way. -/
theorem inOrder_iff_ordered {sets : DocumentSets} {texts : Fragments} {order : List Located} :
    Located.InOrder (sets.map (·.1) ++ texts.map (·.1)) order ↔ order = orderedFiles sets texts :=
  Located.inOrder_iff

namespace Outcome

/-- The post-processor is called if no file fails and all values were
consumed, whatever comes of it. -/
private theorem exists_postProcess (c : Collaborators σ) {v : Scene σ} {files : List Located}
    {w w₁ : σ} {pieces : List Piece} {consumed : List DataValues}
    (pass : Pass v files w (.ok (pieces, consumed)) files w₁)
    (used : unconsumed v.tracked consumed = []) :
    ∃ answer w', Outcome c v files w answer
      (engineCalls v.root v.marks files ++ [.postProcess (documentSets pieces)]) w' := by
  have together := gathered pieces
  rcases run : Action.apply (c.postProcess (documentSets pieces)) w₁ with ⟨x | sets, w₂⟩
  · exact ⟨_, _, .postProcessing pass used together run (x.becomes_wrap _)⟩
  · have order := inOrder_iff_ordered.mpr (Eq.refl (orderedFiles sets (textFragments pieces)))
    rcases orderedFiles_cases sets (textFragments pieces) with
      ⟨outputs, rendered⟩ | ⟨before, f, after, docs, x, split, rendered, found, broken⟩
    · exact ⟨_, _, .complete pass used together run order rendered⟩
    · rw [split] at order
      exact ⟨_, _, .unserialisable pass used together run order rendered found broken⟩

/-- **Every evaluation has an outcome.** -/
theorem total (c : Collaborators σ) (v : Scene σ) (files : List Located) (w : σ) :
    ∃ answer calls w', Outcome c v files w answer calls w' := by
  obtain ⟨r, visited, w₁, pass⟩ := Pass.total v files w
  cases r with
  | error x => exact ⟨_, _, _, .file pass⟩
  | ok p =>
      obtain rfl := pass.visited_all rfl
      by_cases used : unconsumed v.tracked p.2 = []
      · obtain ⟨answer, w', h⟩ := exists_postProcess c pass used
        exact ⟨_, _, _, h⟩
      · exact ⟨_, _, _, .unused pass used⟩

/-! ## Evaluation follows the rules -/

section Following

variable {l : Loader σ} {v : Scene σ} {values : DataValues} {librarySchemas : List DocumentSchema}
  {w₀ w w₁ w₂ : σ} {pieces : List Piece} {consumed : List DataValues}

/-- The files are visited inside a span, which counts what they contribute. -/
theorem evaluatePieces_yields (hroot : v.root = l.context.root) {visited : List Located}
    {r : Except Failure (List Piece × List DataValues)}
    (pass : Pass v l.library.accessible w r visited w₁) :
    (l.evaluatePieces v.engine (.ofList v.tracked)).Yields v.marks w
      (withLedger v.tracked [] r) v.marks w₁ := by
  refine Run.Yields.inSpan _ ?_
  have hfiles := pass.yields hroot []
  rw [Ledger.after_nil] at hfiles
  cases r with
  | error x => exact Run.Yields.bind_error hfiles
  | ok p =>
      refine Run.Yields.bind hfiles ?_
      refine Run.Yields.bind (Run.Yields.annotate _ _) ?_
      exact Run.Yields.bind (Run.Yields.annotate _ _) (Run.Yields.pure _)

/-- The values that the ledger reports as unused are the unconsumed ones. -/
theorem checkUnused_after (tracked consumed : List DataValues) :
    Loader.checkUnused (.after tracked consumed) =
      if unconsumed tracked consumed = [] then .ok ()
      else Error.throw (.unusedValues ((unconsumed tracked consumed).map (·.desc))) := by
  simp only [Loader.checkUnused, UsageReport.allUsed, Ledger.report_after,
    List.isEmpty_iff, List.map_eq_nil_iff]

/-- What comes after the pass, if no file fails and all values were
consumed. -/
private theorem afterwards_yields {a : Except Failure EvalResult}
    (engine : Action.apply (l.collaborators.newEngine ⟨values, v.tracked, librarySchemas⟩) w₀ =
      (.ok v.engine, w))
    (hroot : v.root = l.context.root)
    (pass : Pass v l.library.accessible w (.ok (pieces, consumed)) l.library.accessible w₁)
    (used : unconsumed v.tracked consumed = [])
    (rest : (do
      let sets ← Run.inSpan "post-process" <|
        Run.wrap (fun m => .reported .postProcessing ("Applying overlays: " ++ m) []) <|
          Run.perform (l.collaborators.postProcess (documentSets pieces))
      Run.inSpan "assemble" <| Run.ofExcept <|
        assemble sets (textFragments pieces) (exportsOf pieces) : Run σ EvalResult).Yields
      v.marks w₁ a v.marks w₂) :
    (l.evaluateLibrary values v.tracked librarySchemas).Yields v.marks w₀ a v.marks w₂ := by
  refine Run.Yields.bind (Run.Yields.perform engine) ?_
  refine Run.Yields.bind (evaluatePieces_yields hroot pass) ?_
  simp only [List.nil_append, checkUnused_after, if_pos used]
  exact Run.Yields.bind (Run.Yields.ofExcept _) rest

end Following

/-- **Evaluation follows the rules**, in any way in which it ends. -/
theorem yields {l : Loader σ} {v : Scene σ} {values : DataValues}
    {librarySchemas : List DocumentSchema} {w₀ w w' : σ}
    (engine : Action.apply (l.collaborators.newEngine ⟨values, v.tracked, librarySchemas⟩) w₀ =
      (.ok v.engine, w))
    (hroot : v.root = l.context.root) {answer : Except Failure EvalResult} {calls : List Call}
    (h : Outcome l.collaborators v l.library.accessible w answer calls w') :
    (l.evaluateLibrary values v.tracked librarySchemas).Yields v.marks w₀ answer v.marks w' := by
  cases h with
  | file pass =>
      refine Run.Yields.bind (Run.Yields.perform engine) ?_
      exact Run.Yields.bind_error (evaluatePieces_yields hroot pass)
  | unused pass left =>
      refine Run.Yields.bind (Run.Yields.perform engine) ?_
      refine Run.Yields.bind (evaluatePieces_yields hroot pass) ?_
      simp only [List.nil_append, checkUnused_after, if_neg left]
      exact Run.Yields.bind_error (Run.Yields.ofExcept _)
  | postProcessing pass used together run wrapped =>
      obtain ⟨rfl, rfl, rfl⟩ := together.eq
      obtain rfl := wrapped.eq_wrap
      refine afterwards_yields engine hroot pass used ?_
      refine Run.Yields.bind_error (Run.Yields.inSpan _ ?_)
      exact Run.Yields.wrap _ (Run.Yields.perform run)
  | unserialisable pass used together run order rendered found broken =>
      obtain ⟨rfl, rfl, rfl⟩ := together.eq
      have order := (inOrder_iff_ordered.mp order).symm
      refine afterwards_yields engine hroot pass used ?_
      refine Run.Yields.bind
        (Run.Yields.inSpan _ (Run.Yields.wrap _ (Run.Yields.perform run))) ?_
      rw [assemble_unserialisable _ order rendered found broken]
      exact Run.Yields.inSpan _ (Run.Yields.ofExcept _)
  | complete pass used together run order rendered =>
      obtain ⟨rfl, rfl, rfl⟩ := together.eq
      obtain rfl := inOrder_iff_ordered.mp order
      refine afterwards_yields engine hroot pass used ?_
      refine Run.Yields.bind
        (Run.Yields.inSpan _ (Run.Yields.wrap _ (Run.Yields.perform run))) ?_
      rw [assemble_complete _ rendered]
      exact Run.Yields.inSpan _ (Run.Yields.ofExcept _)

/-- **The calls of an evaluation** are the ones that a recorder writes
down. -/
theorem recorded {c : Collaborators σ} {v : Scene σ} {files : List Located} {w w' : σ}
    {answer : Except Failure EvalResult} {calls : List Call}
    (h : Outcome c v files w answer calls w') (earlier : List Call) :
    Outcome c.recorded v.recorded files ⟨w, earlier⟩ answer calls ⟨w', earlier ++ calls⟩ := by
  cases h with
  | file pass => exact .file (pass.recorded earlier)
  | unused pass left => exact .unused (pass.recorded earlier) left
  | postProcessing pass used together run wrapped =>
      rw [← List.append_assoc]
      exact .postProcessing (pass.recorded earlier) used together
        (by simp only [Collaborators.recorded, Action.recorded_apply, run]) wrapped
  | unserialisable pass used together run order rendered found broken =>
      rw [← List.append_assoc]
      exact .unserialisable (pass.recorded earlier) used together
        (by simp only [Collaborators.recorded, Action.recorded_apply, run])
        order rendered found broken
  | complete pass used together run order rendered =>
      rw [← List.append_assoc]
      exact .complete (pass.recorded earlier) used together
        (by simp only [Collaborators.recorded, Action.recorded_apply, run]) order rendered

/-- Evaluation with recorded collaborators follows the rules as well, and the
making of the engine is the first call. -/
theorem recorded_yields {l : Loader σ} {v : Scene σ} {values : DataValues}
    {librarySchemas : List DocumentSchema} {w₀ w w' : σ}
    (engine : Action.apply (l.collaborators.newEngine ⟨values, v.tracked, librarySchemas⟩) w₀ =
      (.ok v.engine, w))
    (hroot : v.root = l.context.root) {answer : Except Failure EvalResult} {calls : List Call}
    (h : Outcome l.collaborators v l.library.accessible w answer calls w') (earlier : List Call) :
    (l.recorded.evaluateLibrary values v.tracked librarySchemas).Yields v.marks ⟨w₀, earlier⟩
      answer v.marks
      ⟨w', earlier ++ .newEngine ⟨values, v.tracked, librarySchemas⟩ :: calls⟩ := by
  have engine' : Action.apply (l.recorded.collaborators.newEngine
      ⟨values, v.tracked, librarySchemas⟩) ⟨w₀, earlier⟩ =
      (.ok v.engine.recorded,
        ⟨w, earlier ++ [.newEngine ⟨values, v.tracked, librarySchemas⟩]⟩) := by
    simp only [Loader.recorded, Collaborators.recorded, Action.recorded_apply,
      Action.apply_bind, engine, Action.apply_pure]
  have h' := h.recorded (earlier ++ [.newEngine ⟨values, v.tracked, librarySchemas⟩])
  rw [List.append_assoc] at h'
  exact yields (l := l.recorded) (v := v.recorded) engine' hroot h'

/-- What an engine is called with is recorded as a call of the engine. -/
theorem evaluated_of_mem_engineCalls {root : Library} {m : Marks} {files : List Located}
    {call : Call} (h : call ∈ engineCalls root m files) :
    ∃ f ∈ files, ∃ k, f.file.manner? m = some k ∧
      call = .evaluate k ⟨f.library, root⟩ f.file := by
  obtain ⟨f, hf, hcall⟩ := List.mem_filterMap.mp h
  obtain ⟨k, hk, rfl⟩ := Option.map_eq_some_iff.mp hcall
  exact ⟨f, hf, k, hk, rfl⟩

/-- **Nothing else is called** than an engine on files, each in the manner of
its decision, and the post-processor. -/
theorem mem_calls {c : Collaborators σ} {v : Scene σ} {files : List Located} {w w' : σ}
    {answer : Except Failure EvalResult} {calls : List Call} {call : Call}
    (h : Outcome c v files w answer calls w') (mem : call ∈ calls) :
    (∃ sets, call = .postProcess sets) ∨
      ∃ f ∈ files, ∃ k, f.file.manner? v.marks = some k ∧
        call = .evaluate k ⟨f.library, v.root⟩ f.file := by
  have hpost : ∀ sets : DocumentSets,
      call ∈ engineCalls v.root v.marks files ++ [.postProcess sets] →
      (∃ sets, call = .postProcess sets) ∨
        ∃ f ∈ files, ∃ k, f.file.manner? v.marks = some k ∧
          call = .evaluate k ⟨f.library, v.root⟩ f.file := by
    intro sets hmem
    rcases List.mem_append.mp hmem with hmem | hmem
    · exact .inr (evaluated_of_mem_engineCalls hmem)
    · exact .inl ⟨sets, List.mem_singleton.mp hmem⟩
  cases h with
  | file pass =>
      obtain ⟨f, hf, hcall⟩ := evaluated_of_mem_engineCalls mem
      exact .inr ⟨f, pass.visited_prefix.subset hf, hcall⟩
  | unused => exact .inr (evaluated_of_mem_engineCalls mem)
  | postProcessing => exact hpost _ mem
  | unserialisable => exact hpost _ mem
  | complete => exact hpost _ mem

/-- The calls of an engine are those for the visited files, and all files are
visited unless one fails. -/
private theorem engine_calls {c : Collaborators σ} {v : Scene σ} {files : List Located} {w w' : σ}
    {answer : Except Failure EvalResult} {calls : List Call}
    (h : Outcome c v files w answer calls w') :
    ∃ visited, visited <+: files ∧
      calls.filter (·.evaluated?.isSome) = engineCalls v.root v.marks visited ∧
      (visited = files ∨ ∃ x w₁, Pass v files w (.error x) visited w₁) := by
  have hall : ∀ visited : List Located,
      (engineCalls v.root v.marks visited).filter (·.evaluated?.isSome) =
        engineCalls v.root v.marks visited := by
    intro visited
    rw [List.filter_eq_self]
    intro call hcall
    obtain ⟨f, -, k, -, rfl⟩ := evaluated_of_mem_engineCalls hcall
    rfl
  have hpost : ∀ sets : DocumentSets,
      (engineCalls v.root v.marks files ++ [Call.postProcess sets]).filter
        (·.evaluated?.isSome) = engineCalls v.root v.marks files := by
    intro sets
    rw [List.filter_append, hall]
    exact List.append_nil _
  cases h with
  | file pass => exact ⟨_, pass.visited_prefix, hall _, .inr ⟨_, _, pass⟩⟩
  | unused => exact ⟨files, List.prefix_rfl, hall _, .inl rfl⟩
  | postProcessing => exact ⟨files, List.prefix_rfl, hpost _, .inl rfl⟩
  | unserialisable => exact ⟨files, List.prefix_rfl, hpost _, .inl rfl⟩
  | complete => exact ⟨files, List.prefix_rfl, hpost _, .inl rfl⟩

/-- Nothing that an engine is called with is a call of the post-processor. -/
private theorem postProcess_not_mem {root : Library} {m : Marks} {files : List Located}
    {sets : DocumentSets} : Call.postProcess sets ∉ engineCalls root m files := by
  intro h
  obtain ⟨f, -, k, -, hcall⟩ := evaluated_of_mem_engineCalls h
  cases hcall

end Outcome

/-! ## From any session -/

/-- An evaluation for which no engine can be made fails as the making of the
engine does. -/
theorem Loader.evaluateLibrary_noEngine {l : Loader σ} {values : DataValues}
    {libraryValues : List DataValues} {librarySchemas : List DocumentSchema} {m : Marks}
    {w w' : σ} {x : Failure}
    (h : Action.apply (l.collaborators.newEngine ⟨values, libraryValues, librarySchemas⟩) w =
      (.error x, w')) :
    (l.evaluateLibrary values libraryValues librarySchemas).Yields m w (.error x) m w' :=
  Run.Yields.bind_error (Run.Yields.perform h)

/-- The loader at which one arrives from the root of a workspace by going to
some libraries one after another. -/
def Loader.reached (root : Library) (config : LoaderConfig) (c : Collaborators σ)
    (chain : List Library) : Loader σ :=
  chain.foldl Loader.forLibrary ⟨.ofRoot root, config, c⟩

theorem Loader.reached_collaborators (root : Library) (config : LoaderConfig)
    (c : Collaborators σ) (chain : List Library) :
    (reached root config c chain).collaborators = c := by
  suffices hsuff : ∀ l : Loader σ, (chain.foldl forLibrary l).collaborators = l.collaborators from
    hsuff _
  intro l
  induction chain generalizing l with
  | nil => rfl
  | cons lib chain ih => exact ih (l.forLibrary lib)

/-- However far one goes, the root stays. -/
theorem Loader.reached_root (root : Library) (config : LoaderConfig) (c : Collaborators σ)
    (chain : List Library) : (reached root config c chain).context.root = root := by
  suffices hsuff : ∀ l : Loader σ, (chain.foldl forLibrary l).context.root = l.context.root from
    hsuff _
  intro l
  induction chain generalizing l with
  | nil => rfl
  | cons lib chain ih => exact ih (l.forLibrary lib)

/-- **The outcome of an evaluation.** Whatever the tree, the decisions on
output, the library values and the collaborators are, and however the library
at hand was reached: if an engine can be made, the evaluation has exactly one
outcome, and ends with it. The engine is called on the accessible files in
their order, once for each file that its flags and its kind make output or a
library, up to the first that fails; the post-processor is called exactly if
no file fails and no library value stays unconsumed. -/
theorem evaluateLibrary_outcome (root : Library) (chain : List Library) (config : LoaderConfig)
    (c : Collaborators σ) (values : DataValues) (libraryValues : List DataValues)
    (librarySchemas : List DocumentSchema) (s : Session σ) (earlier : List Call) (e : Engine σ)
    (w : σ)
    (hEngine : Action.apply (c.newEngine ⟨values, libraryValues, librarySchemas⟩) s.world =
      (.ok e, w)) :
    let l := Loader.reached root config c chain
    let files := l.library.accessible
    let v : Scene σ := ⟨e, root, s.marks, libraryValues⟩
    let run := (l.evaluateLibrary values libraryValues librarySchemas).apply s
    let recorded := (l.recorded.evaluateLibrary values libraryValues librarySchemas).apply
      (s.recorded earlier)
    ∃ answer calls w', Outcome c v files w answer calls w' ∧
      (∀ answer' calls' w'', Outcome c v files w answer' calls' w'' →
        answer' = answer ∧ calls' = calls ∧ w'' = w') ∧
      (run.1 = answer ∧ run.2.marks = s.marks ∧ run.2.world = w') ∧
      (recorded.1 = answer ∧ recorded.2.world =
        ⟨w', earlier ++ .newEngine ⟨values, libraryValues, librarySchemas⟩ :: calls⟩) ∧
      (∃ visited, visited <+: files ∧
        calls.filter (·.evaluated?.isSome) = engineCalls root s.marks visited ∧
        (visited = files ∨ ∃ x w₁, Pass v files w (.error x) visited w₁)) ∧
      ((∃ sets, .postProcess sets ∈ calls) ↔
        ∃ pieces consumed w₁, Pass v files w (.ok (pieces, consumed)) files w₁ ∧
          unconsumed libraryValues consumed = []) := by
  intro l files v run recorded
  have hc : l.collaborators = c := Loader.reached_collaborators root config c chain
  have hroot : v.root = l.context.root := (Loader.reached_root root config c chain).symm
  obtain ⟨answer, calls, w', h⟩ := Outcome.total c v files w
  have hrun : ∀ {answer calls w'}, Outcome c v files w answer calls w' →
      (l.evaluateLibrary values libraryValues librarySchemas).Yields s.marks s.world answer
        s.marks w' := by
    intro answer calls w' h
    exact Outcome.yields (v := v) (by rw [hc]; exact hEngine) hroot (by rw [hc]; exact h)
  have hrecorded : ∀ {answer calls w'}, Outcome c v files w answer calls w' →
      (l.recorded.evaluateLibrary values libraryValues librarySchemas).Yields s.marks
        ⟨s.world, earlier⟩ answer s.marks
        ⟨w', earlier ++ .newEngine ⟨values, libraryValues, librarySchemas⟩ :: calls⟩ := by
    intro answer calls w' h
    exact Outcome.recorded_yields (v := v) (by rw [hc]; exact hEngine) hroot
      (by rw [hc]; exact h) earlier
  have hunique : ∀ answer' calls' w'', Outcome c v files w answer' calls' w'' →
      answer' = answer ∧ calls' = calls ∧ w'' = w' := by
    intro answer' calls' w'' h'
    obtain ⟨ha, -, hw⟩ := (hrecorded h').unique (hrecorded h)
    rw [Recorded.mk.injEq, List.append_cancel_left_eq, List.cons.injEq] at hw
    exact ⟨ha, hw.2.2, hw.1⟩
  refine ⟨answer, calls, w', h, hunique, (hrun h).apply_eq, ?_, h.engine_calls, ?_⟩
  · obtain ⟨ha, -, hw⟩ := (hrecorded h).apply_eq (s := s.recorded earlier)
    exact ⟨ha, hw⟩
  · constructor
    · rintro ⟨sets, hsets⟩
      cases h with
      | file => exact absurd hsets Outcome.postProcess_not_mem
      | unused => exact absurd hsets Outcome.postProcess_not_mem
      | postProcessing pass used => exact ⟨_, _, _, pass, used⟩
      | unserialisable pass used => exact ⟨_, _, _, pass, used⟩
      | complete pass used => exact ⟨_, _, _, pass, used⟩
    · rintro ⟨pieces, consumed, w₁, pass, used⟩
      obtain ⟨answer', w'', h'⟩ := Outcome.exists_postProcess c pass used
      obtain ⟨-, hcalls, -⟩ := hunique _ _ _ h'
      exact ⟨documentSets pieces, by rw [← hcalls]; simp⟩

/-- The outcome of a library of two files that was reached from the root
above it. -/
theorem evaluateLibrary_outcome_below :
    let root := Library.ofContents
      [("config.yml", []), ("sub/tool.star", []), ("sub/notes.txt", [])]
    let chain := (root.find "sub").toList
    let e : Engine Unit := .plain fun _ => []
    let c : Collaborators Unit := .plain fun _ => []
    let l := Loader.reached root {} c chain
    Action.apply (c.newEngine ⟨.empty, [], []⟩) () = (.ok e, ()) ∧
      ∃ answer calls w', Outcome c ⟨e, root, [], []⟩ l.library.accessible () answer calls w' ∧
        ((l.evaluateLibrary .empty [] []).apply ⟨[], .initial, ()⟩).1 = answer := by
  intro root chain e c l
  refine ⟨rfl, ?_⟩
  obtain ⟨answer, calls, w', h, -, ⟨hrun, -⟩, -⟩ :=
    evaluateLibrary_outcome root chain {} c .empty [] [] ⟨[], .initial, ()⟩ [] e () rfl
  exact ⟨answer, calls, w', h, hrun⟩

end Stencil
