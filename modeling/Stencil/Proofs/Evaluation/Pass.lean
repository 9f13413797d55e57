import Mathlib.Data.List.Induction
import Stencil.Proofs.Evaluation.Calls
import Stencil.Proofs.Failure
import Stencil.Proofs.Text.Named

/-!
# The pass over the files of a library

The rules of a pass are given here as relations, and evaluation is shown to
follow them. `Visit` says what becomes of one file: which flags and kinds
lead to a call of the engine, what is made of its answer, and the three ways
in which a file can fail. `Pass` says what becomes of several: they are
visited in order up to the first that fails.

Neither relation mentions a ledger, a session or a run. The values that the
engine consumed are collected beside the pieces; `Ledger.after` turns them
into the ledger that evaluation carries along.

## Main definitions

* `File.manner?`, `Located.call?`, `engineCalls` — the calls of an engine.
* `Scene` — what stays the same while files are visited.
* `Visit`, `Pass` — the rules for one file and for several.
* `Gathered` — what the pieces of several files come to.

## Main results

* `Visit.total`, `Visit.yields` — every file has a visit, and evaluating the
  file does what the visit says.
* `Pass.total`, `Pass.yields` — the same of several files.
* `Pass.visited_prefix`, `Pass.visited_all` — the files that are visited.
* `Visit.recorded`, `Pass.recorded` — the calls that are made.
-/

namespace Stencil

variable {σ α : Type}

/-- The manner in which an engine is called for a file, if it is. -/
def File.manner? (f : File) (m : Marks) : Option Manner :=
  if f.isForOutput m then
    match f.kind with
    | .yaml => some .yaml
    | .text => some .text
    | .script | .unknown => none
  else if f.isLibrary then
    match f.kind with
    | .yaml => some .yaml
    | .text => some .text
    | .script => some .script
    | .unknown => none
  else none

/-- An output that has a manner is a YAML file or a text. -/
private theorem File.role_of_output {f : File} {m : Marks} {k : Manner}
    (output : f.isForOutput m = true) (call : f.manner? m = some k) :
    k = .yaml ∧ f.role m = .documents ∨ k = .text ∧ f.role m = .fragment := by
  cases kind : f.kind <;> simp [manner?, output, kind] at call <;> subst call <;>
    simp [role, output, kind]

/-- A file that is not output but has a manner is a library file that defines
names. -/
private theorem File.role_of_silent {f : File} {m : Marks} {k : Manner}
    (silent : f.isForOutput m = false) (call : f.manner? m = some k) : f.role m = .symbols := by
  cases library : f.isLibrary <;> cases kind : f.kind <;> simp_all [manner?, role]

/-- The call of an engine for a file, if there is one: the library at hand
is the one that owns the file. -/
def Located.call? (root : Library) (m : Marks) (f : Located) : Option Call :=
  (f.file.manner? m).map fun k => .evaluate k ⟨f.library, root⟩ f.file

/-- The calls of an engine for some files, one for each that has one. -/
def engineCalls (root : Library) (m : Marks) (files : List Located) : List Call :=
  files.filterMap (Located.call? root m)

/-- What stays the same while files are visited: the engine, the root of the
workspace, the decisions on output, and the values that are tracked. -/
structure Scene (σ : Type) where
  engine : Engine σ
  root : Library
  marks : Marks
  tracked : List DataValues

namespace Scene

/-- The engine's answer for a file. -/
def answer (v : Scene σ) (k : Manner) (f : Located) : Action σ (Evaluated Content) :=
  v.engine.answer v.tracked k ⟨f.library, v.root⟩ f.file

/-- A scene whose engine is recorded. -/
def recorded (v : Scene σ) : Scene (Recorded σ) :=
  ⟨v.engine.recorded, v.root, v.marks, v.tracked⟩

end Scene

/-! ## The rules -/

/-- What becomes of a file in a world: the piece it contributes, if any, with
the values that were consumed, or a failure; and the world it leaves. -/
inductive Visit (v : Scene σ) (f : Located) (w : σ) :
    Except Failure (Option Piece × List DataValues) → σ → Prop
  /-- The engine fails. -/
  | failed {k : Manner} {x y : Failure} {w' : σ}
      (call : f.file.manner? v.marks = some k)
      (answer : Action.apply (v.answer k f) w = (.error x, w'))
      (wrapped : x.Becomes (.evaluation f.path) y) : Visit v f w (.error y) w'
  /-- YAML output renders to documents. -/
  | documents {symbols : Symbols} {consumed : List DataValues} {docs : List Document} {w' : σ}
      (output : f.file.isForOutput v.marks = true) (kind : f.file.kind = .yaml)
      (answer : Action.apply (v.answer .yaml f) w =
        (.ok ⟨symbols, consumed, .documents docs⟩, w')) :
      Visit v f w (.ok (some (.documents f docs), consumed)) w'
  /-- Text output renders to a fragment. -/
  | fragment {symbols : Symbols} {consumed : List DataValues} {t : Text} {bytes : List UInt8}
      {w' : σ} (output : f.file.isForOutput v.marks = true) (kind : f.file.kind = .text)
      (answer : Action.apply (v.answer .text f) w = (.ok ⟨symbols, consumed, .text t⟩, w'))
      (encoded : Utf8.encode t = .ok bytes) :
      Visit v f w (.ok (some (.fragment f ⟨f.path, bytes, .text⟩), consumed)) w'
  /-- The text of a fragment cannot be encoded. -/
  | unencodable {symbols : Symbols} {consumed : List DataValues} {t : Text}
      {o : Utf8.Obstacle} {w' : σ} (output : f.file.isForOutput v.marks = true)
      (kind : f.file.kind = .text)
      (answer : Action.apply (v.answer .text f) w = (.ok ⟨symbols, consumed, .text t⟩, w'))
      (obstacle : Utf8.encode t = .error o) :
      Visit v f w
        (.error (.error (.evaluation f.path ("encoding text result: " ++ o.message))
          (some (.unencodable o)))) w'
  /-- Output of any other kind is refused. -/
  | unsupported (output : f.file.isForOutput v.marks = true)
      (kind : f.file.kind ≠ .yaml ∧ f.file.kind ≠ .text) :
      Visit v f w (.error (.error (.unknownFileType f.path f.file.kind.name) none)) w
  /-- A library file that is not output defines names. -/
  | symbols {k : Manner} {a : Evaluated Content} {w' : σ}
      (silent : f.file.isForOutput v.marks = false) (library : f.file.isLibrary = true)
      (call : f.file.manner? v.marks = some k)
      (answer : Action.apply (v.answer k f) w = (.ok a, w')) :
      Visit v f w (.ok (some (.symbols ⟨f.path, a.symbols⟩), a.consumed)) w'
  /-- Any other file is passed over. -/
  | skipped (silent : f.file.isForOutput v.marks = false)
      (other : f.file.isLibrary = false ∨ f.file.kind = .unknown) :
      Visit v f w (.ok (none, [])) w

/-- What becomes of some files in a world: the pieces they contribute with
the values that were consumed, or the failure of the first that fails; the
files that were visited; and the world they leave. -/
inductive Pass (v : Scene σ) : List Located → σ →
    Except Failure (List Piece × List DataValues) → List Located → σ → Prop
  | nil {w : σ} : Pass v [] w (.ok ([], [])) [] w
  /-- The first file fails, and no other is visited. -/
  | stop {f : Located} {fs : List Located} {w w' : σ} {x : Failure}
      (fail : Visit v f w (.error x) w') : Pass v (f :: fs) w (.error x) [f] w'
  /-- The first file does not fail, and the others are visited after it. -/
  | step {f : Located} {fs visited : List Located} {w w₁ w₂ : σ} {piece : Option Piece}
      {consumed : List DataValues} {r : Except Failure (List Piece × List DataValues)}
      (one : Visit v f w (.ok (piece, consumed)) w₁) (rest : Pass v fs w₁ r visited w₂) :
      Pass v (f :: fs) w (r.map fun p => (piece.toList ++ p.1, consumed ++ p.2))
        (f :: visited) w₂

/-! ## Pieces together -/

/-- What some pieces come to one after another: document sets and texts, each by file, and
exports. What a file contributes again takes the place of what it contributed before. -/
inductive Gathered : List Piece → DocumentSets → Fragments → List Export → Prop
  | nil : Gathered [] [] [] []
  | documents {pieces : List Piece} {sets sets' : DocumentSets} {texts : Fragments}
      {exports : List Export} {f : Located} {docs : List Document}
      (before : Gathered pieces sets texts exports) (put : Named.Puts f docs sets sets') :
      Gathered (pieces ++ [.documents f docs]) sets' texts exports
  | fragment {pieces : List Piece} {sets : DocumentSets} {texts texts' : Fragments}
      {exports : List Export} {f : Located} {output : OutputFile}
      (before : Gathered pieces sets texts exports) (put : Named.Puts f output texts texts') :
      Gathered (pieces ++ [.fragment f output]) sets texts' exports
  | symbols {pieces : List Piece} {sets : DocumentSets} {texts : Fragments}
      {exports : List Export} (names : Export) (before : Gathered pieces sets texts exports) :
      Gathered (pieces ++ [.symbols names]) sets texts (exports ++ [names])

/-- One more piece is written under its file. -/
private theorem ofList_filterMap_snoc {α : Type} {pick : Piece → Option (Located × α)}
    {pieces : List Piece} {piece : Piece} {f : Located} {a : α} (h : pick piece = some (f, a)) :
    Named.ofList ((pieces ++ [piece]).filterMap pick) =
      Named.put f a (Named.ofList (pieces.filterMap pick)) := by
  rw [List.filterMap_append, List.filterMap_cons_some h, List.filterMap_nil, Named.ofList,
    List.foldl_append]
  rfl

/-- Pieces come to one result. -/
theorem Gathered.eq {pieces : List Piece} {sets : DocumentSets} {texts : Fragments}
    {exports : List Export} (h : Gathered pieces sets texts exports) :
    sets = documentSets pieces ∧ texts = textFragments pieces ∧ exports = exportsOf pieces := by
  induction h with
  | nil => exact ⟨rfl, rfl, rfl⟩
  | documents before put ih =>
      obtain ⟨rfl, rfl, rfl⟩ := ih
      refine ⟨?_, ?_, ?_⟩
      · rw [Named.puts_iff.mp put, documentSets, documentSets, ofList_filterMap_snoc rfl]
      · simp [textFragments, List.filterMap_cons, Piece.fragment?]
      · simp [exportsOf, List.filterMap_cons, Piece.symbols?]
  | fragment before put ih =>
      obtain ⟨rfl, rfl, rfl⟩ := ih
      refine ⟨?_, ?_, ?_⟩
      · simp [documentSets, List.filterMap_cons, Piece.documents?]
      · rw [Named.puts_iff.mp put, textFragments, textFragments, ofList_filterMap_snoc rfl]
      · simp [exportsOf, List.filterMap_cons, Piece.symbols?]
  | symbols names before ih =>
      obtain ⟨rfl, rfl, rfl⟩ := ih
      simp [documentSets, textFragments, exportsOf, List.filterMap_cons, Piece.documents?,
        Piece.fragment?, Piece.symbols?]

theorem gathered (pieces : List Piece) :
    Gathered pieces (documentSets pieces) (textFragments pieces) (exportsOf pieces) := by
  suffices hsuff : ∃ sets texts exports, Gathered pieces sets texts exports by
    obtain ⟨sets, texts, exports, h⟩ := hsuff
    obtain ⟨rfl, rfl, rfl⟩ := h.eq
    exact h
  induction pieces using List.reverseRecOn with
  | nil => exact ⟨_, _, _, .nil⟩
  | append_singleton pieces piece ih =>
      obtain ⟨sets, texts, exports, before⟩ := ih
      cases piece with
      | documents f docs => exact ⟨_, _, _, .documents before (Named.puts_iff.mpr rfl)⟩
      | fragment f output => exact ⟨_, _, _, .fragment before (Named.puts_iff.mpr rfl)⟩
      | symbols names => exact ⟨_, _, _, .symbols names before⟩

/-! ## Every file has a visit -/

/-- The content of an answer is of the manner in which the engine was
called. -/
private theorem answer_yaml (v : Scene σ) (f : Located) (w : σ) :
    Action.apply (v.answer .yaml f) w =
      ((Action.apply (Action.settled v.tracked (v.engine.yaml ⟨f.library, v.root⟩ f.file)) w).1.map
          (Evaluated.mapContent .documents),
        (Action.apply (Action.settled v.tracked
          (v.engine.yaml ⟨f.library, v.root⟩ f.file)) w).2) :=
  Action.settled_mapContent _ _ _ _

private theorem answer_text (v : Scene σ) (f : Located) (w : σ) :
    Action.apply (v.answer .text f) w =
      ((Action.apply (Action.settled v.tracked (v.engine.text ⟨f.library, v.root⟩ f.file)) w).1.map
          (Evaluated.mapContent .text),
        (Action.apply (Action.settled v.tracked
          (v.engine.text ⟨f.library, v.root⟩ f.file)) w).2) :=
  Action.settled_mapContent _ _ _ _

private theorem answer_script (v : Scene σ) (f : Located) (w : σ) :
    Action.apply (v.answer .script f) w =
      ((Action.apply (Action.settled v.tracked
          (v.engine.script ⟨f.library, v.root⟩ f.file)) w).1.map
          (Evaluated.mapContent fun _ => .nothing),
        (Action.apply (Action.settled v.tracked
          (v.engine.script ⟨f.library, v.root⟩ f.file)) w).2) :=
  Action.settled_mapContent _ _ _ _

/-- **Every file has a visit**, whatever its flags and its kind are and
whatever the engine answers. -/
theorem Visit.total (v : Scene σ) (f : Located) (w : σ) : ∃ r w', Visit v f w r w' := by
  by_cases output : f.file.isForOutput v.marks = true
  · cases kind : f.file.kind with
    | yaml =>
        have call : f.file.manner? v.marks = some .yaml := by simp [File.manner?, output, kind]
        have ha := answer_yaml v f w
        rcases hs : Action.apply (Action.settled v.tracked
          (v.engine.yaml ⟨f.library, v.root⟩ f.file)) w with ⟨x | a, w'⟩ <;> rw [hs] at ha
        · exact ⟨_, _, .failed call ha (x.becomes_wrap _)⟩
        · exact ⟨_, _, .documents output kind ha⟩
    | text =>
        have call : f.file.manner? v.marks = some .text := by simp [File.manner?, output, kind]
        have ha := answer_text v f w
        rcases hs : Action.apply (Action.settled v.tracked
          (v.engine.text ⟨f.library, v.root⟩ f.file)) w with ⟨x | a, w'⟩ <;> rw [hs] at ha
        · exact ⟨_, _, .failed call ha (x.becomes_wrap _)⟩
        · cases encoded : Utf8.encode a.content with
          | ok bytes => exact ⟨_, _, .fragment output kind ha encoded⟩
          | error o => exact ⟨_, _, .unencodable output kind ha encoded⟩
    | script => exact ⟨_, _, .unsupported output (by simp [kind])⟩
    | unknown => exact ⟨_, _, .unsupported output (by simp [kind])⟩
  · have silent : f.file.isForOutput v.marks = false := by simpa using output
    by_cases library : f.file.isLibrary = true
    · cases call : f.file.manner? v.marks with
      | some k =>
          rcases ha : Action.apply (v.answer k f) w with ⟨x | a, w'⟩
          · exact ⟨_, _, .failed call ha (x.becomes_wrap _)⟩
          · exact ⟨_, _, .symbols silent library call ha⟩
      | none =>
          have kind : f.file.kind = .unknown := by
            cases kind : f.file.kind <;> simp_all [File.manner?]
          exact ⟨_, _, .skipped silent (.inr kind)⟩
    · exact ⟨_, _, .skipped silent (.inl (by simpa using library))⟩

/-- Every list of files has a pass. -/
theorem Pass.total (v : Scene σ) (files : List Located) (w : σ) :
    ∃ r visited w', Pass v files w r visited w' := by
  induction files generalizing w with
  | nil => exact ⟨_, _, _, .nil⟩
  | cons f fs ih =>
      obtain ⟨r, w₁, one⟩ := Visit.total v f w
      cases r with
      | error x => exact ⟨_, _, _, .stop one⟩
      | ok p =>
          obtain ⟨r, visited, w₂, rest⟩ := ih w₁
          exact ⟨_, _, _, .step one rest⟩

/-! ## Evaluation follows the rules -/

section Following

variable {f : Located} {m : Marks} {w w' : σ} {tracked used : List DataValues}

/-- An answer is entered into the ledger if it is a settled one, and its
failure names the file. -/
private theorem evaluated_yields {a : Action σ (Evaluated α)} {r : Except Failure (Evaluated α)}
    (h : Action.apply (Action.settled tracked a) w = (r, w')) :
    (Loader.evaluated f (.after tracked used) a).Yields m w
      (wrapFault (.evaluation f.path)
        (r.map fun y => (y, .after tracked (used ++ y.consumed)))) m w' := by
  refine Run.Yields.wrap _ ?_
  rw [Action.settled_apply] at h
  rcases ha : Action.apply a w with ⟨z | z, w₁⟩ <;> rw [ha] at h
  · cases h
    exact Run.Yields.bind_error (Run.Yields.perform ha)
  · refine Run.Yields.bind (Run.Yields.perform ha) ?_
    rw [Ledger.markAll_after]
    cases hu : firstUntracked tracked z.consumed <;> simp only [hu] at h ⊢ <;> cases h
    · exact Run.Yields.bind (Run.Yields.ofExcept _) (Run.Yields.pure _)
    · exact Run.Yields.bind_error (Run.Yields.ofExcept _)

private theorem mapped_error {β : Type} {p : Except Failure (Evaluated α) × σ} {g : α → β}
    {x : Failure} (h : (p.1.map (Evaluated.mapContent g), p.2) = (.error x, w')) :
    p = (.error x, w') := by
  rcases p with ⟨y | y, w₁⟩
  · cases h; rfl
  · cases h

private theorem mapped_ok {β : Type} {p : Except Failure (Evaluated α) × σ} {g : α → β}
    {b : Evaluated β} (h : (p.1.map (Evaluated.mapContent g), p.2) = (.ok b, w')) :
    ∃ a, p = (.ok a, w') ∧ b = a.mapContent g := by
  rcases p with ⟨y | y, w₁⟩
  · cases h
  · cases h; exact ⟨y, rfl, rfl⟩

/-- The names of an answer do not depend on the content it was made into. -/
private theorem names_yield {a : Action σ (Evaluated α)} {g : α → Content}
    {r : Except Failure (Evaluated Content)}
    (h : ((Action.apply (Action.settled tracked a) w).1.map (Evaluated.mapContent g),
      (Action.apply (Action.settled tracked a) w).2) = (r, w')) :
    (do
      let (e, ledger) ← Loader.evaluated f (.after tracked used) a
      return (e.symbols, ledger) : Run σ (Symbols × Ledger)).Yields m w
      (wrapFault (.evaluation f.path)
        (r.map fun y => (y.symbols, .after tracked (used ++ y.consumed)))) m w' := by
  rcases hs : Action.apply (Action.settled tracked a) w with ⟨x | y, w₁⟩ <;> rw [hs] at h <;>
    cases h
  · exact Run.Yields.bind_error (evaluated_yields hs)
  · exact Run.Yields.bind (evaluated_yields hs) (Run.Yields.pure _)

/-- A library file is given to the engine in the manner of its kind. -/
private theorem librarySymbols_yields {v : Scene σ} {k : Manner}
    {r : Except Failure (Evaluated Content)} (silent : f.file.isForOutput v.marks = false)
    (call : f.file.manner? v.marks = some k)
    (answer : Action.apply (v.answer k f) w = (r, w')) :
    (Loader.librarySymbols v.engine ⟨f.library, v.root⟩ f (.after v.tracked used)).Yields m w
      (wrapFault (.evaluation f.path)
        (r.map fun y => (y.symbols, .after v.tracked (used ++ y.consumed)))) m w' := by
  unfold Loader.librarySymbols
  cases kind : f.file.kind <;> simp [File.manner?, silent, kind] at call <;>
    obtain ⟨-, rfl⟩ := call
  · rw [answer_yaml] at answer
    exact names_yield answer
  · rw [answer_text] at answer
    exact names_yield answer
  · rw [answer_script] at answer
    exact names_yield answer

/-- A text that can be encoded is rendered under its file's path and kind. -/
private theorem renderText_encoded {t : Text} {bytes : List UInt8}
    (encoded : Utf8.encode t = .ok bytes) :
    Loader.renderText f t = .ok ⟨f.path, bytes, f.file.kind⟩ := by
  simp only [Loader.renderText, Documents.encode, encoded]
  rfl

private theorem renderText_unencodable {t : Text} {o : Utf8.Obstacle}
    (obstacle : Utf8.encode t = .error o) :
    Loader.renderText f t = .error (.error
      (.evaluation f.path ("encoding text result: " ++ o.message)) (some (.unencodable o))) := by
  simp only [Loader.renderText, Documents.encode, obstacle]
  rfl

end Following

/-- What a visit answers, as evaluation answers it: with the ledger in which
the consumed values were entered. -/
def withLedger {β : Type} (tracked used : List DataValues)
    (r : Except Failure (β × List DataValues)) : Except Failure (β × Ledger) :=
  r.map fun p => (p.1, .after tracked (used ++ p.2))

/-- **Evaluating a file follows the rules for one file.** -/
theorem Visit.yields {l : Loader σ} {v : Scene σ} (hroot : v.root = l.context.root) {f : Located}
    {w w' : σ} {r : Except Failure (Option Piece × List DataValues)} (h : Visit v f w r w')
    (used : List DataValues) :
    (l.evaluateFile v.engine f (.after v.tracked used)).Yields v.marks w
      (withLedger v.tracked used r) v.marks w' := by
  have hcontext : l.context.withCurrent f.library = ⟨f.library, v.root⟩ := by
    rw [hroot]; rfl
  unfold Loader.evaluateFile
  rw [hcontext]
  refine Run.Yields.bind Run.Yields.marks ?_
  cases h with
  | failed call answer wrapped =>
      obtain rfl := wrapped.eq_wrap
      cases output : f.file.isForOutput v.marks with
      | true =>
          rcases File.role_of_output output call with ⟨rfl, role⟩ | ⟨rfl, role⟩
          · rw [answer_yaml] at answer
            simp only [role]
            exact Run.Yields.bind_error (evaluated_yields (mapped_error answer))
          · rw [answer_text] at answer
            simp only [role]
            exact Run.Yields.bind_error (evaluated_yields (mapped_error answer))
      | false =>
          simp only [File.role_of_silent output call]
          exact Run.Yields.bind_error (librarySymbols_yields output call answer)
  | documents output kind answer =>
      simp only [File.role, output, kind, if_true]
      rw [answer_yaml] at answer
      obtain ⟨b, hb, hc⟩ := mapped_ok answer
      cases hc
      exact Run.Yields.bind (evaluated_yields hb) (Run.Yields.pure _)
  | fragment output kind answer encoded =>
      simp only [File.role, output, kind, if_true]
      rw [answer_text] at answer
      obtain ⟨b, hb, hc⟩ := mapped_ok answer
      cases hc
      refine Run.Yields.bind (evaluated_yields hb) ?_
      simp only [renderText_encoded encoded, kind]
      exact Run.Yields.bind (Run.Yields.ofExcept _) (Run.Yields.pure _)
  | unencodable output kind answer obstacle =>
      simp only [File.role, output, kind, if_true]
      rw [answer_text] at answer
      obtain ⟨b, hb, hc⟩ := mapped_ok answer
      cases hc
      refine Run.Yields.bind (evaluated_yields hb) ?_
      simp only [renderText_unencodable obstacle]
      exact Run.Yields.bind_error (Run.Yields.ofExcept _)
  | unsupported output kind =>
      have hrole : f.file.role v.marks = .unsupported := by
        cases hk : f.file.kind <;> simp_all [File.role]
      rw [hrole]
      exact Run.Yields.ofExcept _
  | symbols silent library call answer =>
      simp only [File.role_of_silent silent call]
      exact Run.Yields.bind (librarySymbols_yields silent call answer) (Run.Yields.pure _)
  | skipped silent other =>
      have hrole : f.file.role v.marks = .skipped := by
        rcases other with hl | hk
        · simp [File.role, silent, hl]
        · simp [File.role, silent, hk]
      rw [hrole]
      simp only [withLedger, Except.map, List.append_nil]
      exact Run.Yields.pure _

/-- **Evaluating files follows the rules for a pass.** The induction is on
the pass; the ledger that is carried along is the one after everything that
was consumed before. -/
theorem Pass.yields {l : Loader σ} {v : Scene σ} (hroot : v.root = l.context.root)
    {files visited : List Located} {w w' : σ}
    {r : Except Failure (List Piece × List DataValues)} (h : Pass v files w r visited w')
    (used : List DataValues) :
    (l.evaluateFiles v.engine files (.after v.tracked used)).Yields v.marks w
      (withLedger v.tracked used r) v.marks w' := by
  induction h generalizing used with
  | nil =>
      simp only [withLedger, Except.map, List.append_nil]
      exact Run.Yields.pure _
  | stop fail => exact Run.Yields.bind_error (fail.yields hroot used)
  | @step f fs visited w w₁ w₂ piece consumed r one rest ih =>
      refine Run.Yields.bind (one.yields hroot used) ?_
      have hrest := ih (used ++ consumed)
      cases r with
      | error x => exact Run.Yields.bind_error hrest
      | ok p =>
          simp only [withLedger, Except.map, ← List.append_assoc]
          exact Run.Yields.bind hrest (Run.Yields.pure _)

/-! ## The files that are visited -/

/-- The visited files are the first of the files. -/
theorem Pass.visited_prefix {v : Scene σ} {files visited : List Located} {w w' : σ}
    {r : Except Failure (List Piece × List DataValues)} (h : Pass v files w r visited w') :
    visited <+: files := by
  induction h with
  | nil => exact List.prefix_rfl
  | stop => exact ⟨_, rfl⟩
  | step _ _ ih => exact (List.prefix_cons_inj _).mpr ih

/-- If no file fails, all are visited. -/
theorem Pass.visited_all {v : Scene σ} {files visited : List Located} {w w' : σ}
    {r : Except Failure (List Piece × List DataValues)} (h : Pass v files w r visited w')
    {p : List Piece × List DataValues} (hr : r = .ok p) : visited = files := by
  induction h generalizing p with
  | nil => rfl
  | stop => cases hr
  | @step f fs visited w w₁ w₂ piece consumed r one rest ih =>
      cases r with
      | error x => cases hr
      | ok q => rw [ih rfl]

/-! ## The calls that are made -/

/-- A recorded engine answers as the engine does and adds one call. -/
theorem Scene.recorded_answer (v : Scene σ) (k : Manner) (f : Located) (w : Recorded σ) :
    Action.apply (v.recorded.answer k f) w =
      ((Action.apply (v.answer k f) w.world).1,
        ⟨(Action.apply (v.answer k f) w.world).2,
          w.calls ++ [.evaluate k ⟨f.library, v.root⟩ f.file]⟩) :=
  Engine.recorded_answer _ _ _ _ _ _

private theorem Located.call?_of_manner? {f : Located} {root : Library} {m : Marks} {k : Manner}
    (h : f.file.manner? m = some k) :
    (f.call? root m).toList = [.evaluate k ⟨f.library, root⟩ f.file] := by
  simp [Located.call?, h]

/-- **The calls of a visit**: one if the flags and the kind of the file lead
to one, and none otherwise. -/
theorem Visit.recorded {v : Scene σ} {f : Located} {w w' : σ}
    {r : Except Failure (Option Piece × List DataValues)} (h : Visit v f w r w')
    (calls : List Call) :
    Visit v.recorded f ⟨w, calls⟩ r ⟨w', calls ++ (f.call? v.root v.marks).toList⟩ := by
  cases h with
  | failed call answer wrapped =>
      rw [Located.call?_of_manner? call]
      exact .failed call (by rw [Scene.recorded_answer, answer]) wrapped
  | documents output kind answer =>
      rw [Located.call?_of_manner? (k := .yaml) (by simp [File.manner?, output, kind])]
      exact .documents output kind (by rw [Scene.recorded_answer, answer])
  | fragment output kind answer encoded =>
      rw [Located.call?_of_manner? (k := .text) (by simp [File.manner?, output, kind])]
      exact .fragment output kind (by rw [Scene.recorded_answer, answer]) encoded
  | unencodable output kind answer obstacle =>
      rw [Located.call?_of_manner? (k := .text) (by simp [File.manner?, output, kind])]
      exact .unencodable output kind (by rw [Scene.recorded_answer, answer]) obstacle
  | unsupported output kind =>
      have hcall : f.call? v.root v.marks = none := by
        cases hk : f.file.kind <;> simp_all [Located.call?, File.manner?]
      rw [hcall, Option.toList_none, List.append_nil]
      exact .unsupported output kind
  | symbols silent library call answer =>
      rw [Located.call?_of_manner? call]
      exact .symbols silent library call (by rw [Scene.recorded_answer, answer])
  | skipped silent other =>
      have hcall : f.call? v.root v.marks = none := by
        rcases other with hl | hk
        · simp [Located.call?, File.manner?, silent, hl]
        · simp [Located.call?, File.manner?, silent, hk]
      rw [hcall, Option.toList_none, List.append_nil]
      exact .skipped silent other

/-- **The calls of a pass**: those of the visited files, in their order. -/
theorem Pass.recorded {v : Scene σ} {files visited : List Located} {w w' : σ}
    {r : Except Failure (List Piece × List DataValues)} (h : Pass v files w r visited w')
    (calls : List Call) :
    Pass v.recorded files ⟨w, calls⟩ r visited
      ⟨w', calls ++ engineCalls v.root v.marks visited⟩ := by
  induction h generalizing calls with
  | nil =>
      rw [engineCalls, List.filterMap_nil, List.append_nil]
      exact .nil
  | @stop f fs w w' x fail =>
      have hcalls : engineCalls v.root v.marks [f] = (f.call? v.root v.marks).toList := by
        cases h : f.call? v.root v.marks <;> simp [engineCalls, h]
      rw [hcalls]
      exact .stop (fail.recorded calls)
  | @step f fs visited w w₁ w₂ piece consumed r one rest ih =>
      have hcalls : engineCalls v.root v.marks (f :: visited) =
          (f.call? v.root v.marks).toList ++ engineCalls v.root v.marks visited := by
        cases h : f.call? v.root v.marks <;> simp [engineCalls, h]
      rw [hcalls, ← List.append_assoc]
      exact .step (one.recorded calls) (ih _)

end Stencil
