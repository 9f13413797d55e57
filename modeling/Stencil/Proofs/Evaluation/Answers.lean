import Stencil.Proofs.Evaluation.Pass
import Stencil.Proofs.Library.Growth
import Stencil.Proofs.Text.Named

/-!
# Engines that answer by file

An engine may look at more than the file it is called on: at the tree around
it, and at its world. Here are those that do not. Their answer for a file
depends on the file and on the path of the library that owns it, and on
nothing else, so that what a file contributes is a function of its address.

A pass with such an engine is described without order: it ends without
failure exactly if every file is clean, and then the pieces and the consumed
values are those of the files one by one.

## Main definitions

* `Answers`, `Engine.AnswersBy` — answers by file, and engines that give them.
* `Part`, `Answers.part` — what a file contributes, from its address.
* `Answers.Clean`, `Answers.consumed`, `Answers.piece?` — whether a file
  fails, and what is made of it if not.

## Main results

* `Answers.documentSets_pieces`, `Answers.textFragments_pieces`,
  `Answers.exportsOf_pieces` — what the pieces of files contain.
* `Visit.part` — a visit contributes what the answers say.
* `Pass.clean`, `Pass.ok_of_clean` — a pass, file by file.
-/

namespace Stencil

variable {σ : Type}

/-- Answers by file: for each manner, from the path of the library that owns
the file, and the file. -/
abbrev Answers := Manner → Text → File → Except Failure (Evaluated Content)

/-- Whether an engine answers by file, in every context and every world. -/
def Engine.AnswersBy (e : Engine σ) (a : Answers) : Prop :=
  ∀ k c f w, (Action.apply (e.evaluate k c f) w).1 = a k c.current.path f

/-- What a file contributes, without the file. -/
inductive Part where
  | documents (docs : List Document)
  | fragment (output : OutputFile)
  | symbols (names : Export)

namespace Part

/-- A contribution of a file as a piece. -/
def located (f : Located) : Part → Piece
  | .documents docs => .documents f docs
  | .fragment output => .fragment f output
  | .symbols names => .symbols names

/-- The documents that a contribution is. -/
def documents? : Part → Option (List Document)
  | .documents docs => some docs
  | _ => none

/-- The rendered text that a contribution is. -/
def fragment? : Part → Option OutputFile
  | .fragment output => some output
  | _ => none

/-- The exported names that a contribution is. -/
def names? : Part → Option Export
  | .symbols names => some names
  | _ => none

@[simp] theorem documents?_located (f : Located) (p : Part) :
    (p.located f).documents? = p.documents?.map (f, ·) := by cases p <;> rfl

@[simp] theorem fragment?_located (f : Located) (p : Part) :
    (p.located f).fragment? = p.fragment?.map (f, ·) := by cases p <;> rfl

@[simp] theorem symbols?_located (f : Located) (p : Part) : (p.located f).symbols? = p.names? := by
  cases p <;> rfl

end Part

/-- An answer, if the values it consumed are tracked. -/
def settledAnswer (tracked : List DataValues) :
    Except Failure (Evaluated Content) → Except Failure (Evaluated Content)
  | .error x => .error x
  | .ok r =>
    match firstUntracked tracked r.consumed with
    | none => .ok r
    | some v => Fault.throw (.untracked v.desc)

namespace Answers

variable (a : Answers) (m : Marks) (tracked : List DataValues)

/-- What is made of an answer for a file. -/
def partOf (path : Text) (output : Bool) (r : Evaluated Content) :
    Except Failure (Option Part) :=
  if output then
    match r.content with
    | .documents docs => .ok (some (.documents docs))
    | .text t =>
      match Utf8.encode t with
      | .ok bytes => .ok (some (.fragment ⟨path, bytes, .text⟩))
      | .error o =>
        .error (.error (.evaluation path ("encoding text result: " ++ o.message))
          (some (.unencodable o)))
    | .nothing => .ok none
  else .ok (some (.symbols ⟨path, r.symbols⟩))

/-- What the file at an address contributes, with the values that were
consumed, or its failure. -/
def part (x : Text × File) : Except Failure (Option Part × List DataValues) :=
  let path := Path.join x.1 x.2.path
  match x.2.manner? m with
  | none =>
    if x.2.isForOutput m then .error (.error (.unknownFileType path x.2.kind.name) none)
    else .ok (none, [])
  | some k =>
    match settledAnswer tracked (a k x.1 x.2) with
    | .error y => .error (y.wrap (.evaluation path))
    | .ok r => (partOf path (x.2.isForOutput m) r).map (·, r.consumed)

/-- Whether the file at an address does not fail. -/
def Clean (x : Text × File) : Prop := ∃ p, a.part m tracked x = .ok p

/-- What the file at an address contributes, if anything. -/
def part? (x : Text × File) : Option Part := (a.part m tracked x).toOption.bind (·.1)

/-- The values that the file at an address consumes. -/
def consumed (x : Text × File) : List DataValues :=
  ((a.part m tracked x).toOption.map (·.2)).getD []

/-- The documents to which the file at an address renders, if it does. -/
def documents? (x : Text × File) : Option (List Document) :=
  (a.part? m tracked x).bind Part.documents?

/-- The text to which the file at an address renders, if it does. -/
def fragment? (x : Text × File) : Option OutputFile :=
  (a.part? m tracked x).bind Part.fragment?

/-- The names that the file at an address defines, if it does. -/
def names? (x : Text × File) : Option Export := (a.part? m tracked x).bind Part.names?

/-- The piece that a file contributes, if any. -/
def piece? (f : Located) : Option Piece := (a.part? m tracked f.address).map (Part.located f)

variable {a m tracked} {files : List Located}

/-- Some sort of pieces, if it is known for each contribution whether it is of
that sort. -/
private theorem filterMap_piece? {α β : Type} {sort : Piece → Option α} {view : Part → Option β}
    {place : Located → β → α} (h : ∀ f p, sort (Part.located f p) = (view p).map (place f)) :
    (files.filterMap (a.piece? m tracked)).filterMap sort =
      files.filterMap fun f => ((a.part? m tracked f.address).bind view).map (place f) := by
  rw [List.filterMap_filterMap]
  congr 1
  funext f
  cases hp : a.part? m tracked f.address with
  | none => simp [piece?, hp]
  | some p => simp [piece?, hp, h]

/-- The document sets of files, if none comes twice. -/
theorem documentSets_pieces (nodup : files.Nodup) :
    documentSets (files.filterMap (a.piece? m tracked)) =
      Named.table (fun f => a.documents? m tracked f.address) files := by
  have htable : (files.filterMap (a.piece? m tracked)).filterMap Piece.documents? =
      Named.table (fun f => a.documents? m tracked f.address) files :=
    filterMap_piece? Part.documents?_located
  rw [documentSets, htable, Named.ofList_table nodup]

/-- The texts of files, if none comes twice. -/
theorem textFragments_pieces (nodup : files.Nodup) :
    textFragments (files.filterMap (a.piece? m tracked)) =
      Named.table (fun f => a.fragment? m tracked f.address) files := by
  have htable : (files.filterMap (a.piece? m tracked)).filterMap Piece.fragment? =
      Named.table (fun f => a.fragment? m tracked f.address) files :=
    filterMap_piece? Part.fragment?_located
  rw [textFragments, htable, Named.ofList_table nodup]

/-- The exports of files. -/
theorem exportsOf_pieces :
    exportsOf (files.filterMap (a.piece? m tracked)) =
      (files.map Located.address).filterMap (a.names? m tracked) := by
  have hnames : (files.filterMap (a.piece? m tracked)).filterMap Piece.symbols? =
      files.filterMap fun f =>
        ((a.part? m tracked f.address).bind Part.names?).map fun names => names :=
    filterMap_piece? fun f p => by simp
  rw [exportsOf, hnames, List.filterMap_map]
  congr 1
  funext f
  simp [names?]

end Answers

variable {a : Answers} {e : Engine σ} {root : Library} {m : Marks} {tracked : List DataValues}

/-- The answer for a file at hand is the engine's, if the values it consumed are
tracked. -/
theorem Scene.answer_fst (v : Scene σ) (k : Manner) (f : Located) (w : σ) :
    (Action.apply (v.answer k f) w).1 =
      settledAnswer v.tracked
        (Action.apply (v.engine.evaluate k ⟨f.library, v.root⟩ f.file) w).1 := by
  simp only [Scene.answer, Engine.answer, Action.settled_apply]
  rcases Action.apply (v.engine.evaluate k ⟨f.library, v.root⟩ f.file) w with ⟨x | r, w'⟩
  · rfl
  · cases hr : firstUntracked v.tracked r.consumed <;> simp only [settledAnswer, hr]

/-- The answer for a file at hand is the one for its address. -/
private theorem Scene.answer_settled (byFile : e.AnswersBy a) (root : Library) (m : Marks)
    (k : Manner) (f : Located) (w : σ) :
    (Action.apply (Scene.answer ⟨e, root, m, tracked⟩ k f) w).1 =
      settledAnswer tracked (a k f.library.path f.file) := by
  rw [Scene.answer_fst, byFile k ⟨f.library, root⟩ f.file w]

/-- **A visit contributes what the answers say**, whatever the tree around the
file and the world are. -/
theorem Visit.part {f : Located} {w w' : σ}
    {r : Except Failure (Option Piece × List DataValues)} (byFile : e.AnswersBy a)
    (h : Visit ⟨e, root, m, tracked⟩ f w r w') :
    r = (a.part m tracked f.address).map fun p => (p.1.map (Part.located f), p.2) := by
  have settled : ∀ {k w' x}, Action.apply (Scene.answer ⟨e, root, m, tracked⟩ k f) w = (x, w') →
      settledAnswer tracked (a k f.library.path f.file) = x := by
    intro k w' x hx
    rw [← Scene.answer_settled byFile root m k f w, hx]
  cases h with
  | failed call answer wrapped =>
      obtain rfl := wrapped.eq_wrap
      simp only [Answers.part, Located.address, call, settled answer]
      rfl
  | documents output kind answer =>
      have call : f.file.manner? m = some .yaml := by simp [File.manner?, output, kind]
      simp only [Answers.part, Located.address, call, settled answer, Answers.partOf, output]
      rfl
  | fragment output kind answer encoded =>
      have call : f.file.manner? m = some .text := by simp [File.manner?, output, kind]
      simp only [Answers.part, Located.address, call, settled answer, Answers.partOf, output,
        encoded]
      rfl
  | unencodable output kind answer obstacle =>
      have call : f.file.manner? m = some .text := by simp [File.manner?, output, kind]
      simp only [Answers.part, Located.address, call, settled answer, Answers.partOf, output,
        obstacle]
      rfl
  | unsupported output kind =>
      have call : f.file.manner? m = none := by
        cases hk : f.file.kind <;> simp_all [File.manner?]
      simp only [Answers.part, Located.address, call, output]
      rfl
  | symbols silent library call answer =>
      simp only [Answers.part, Located.address, call, settled answer, Answers.partOf, silent]
      rfl
  | skipped silent other =>
      have call : f.file.manner? m = none := by
        rcases other with hl | hk
        · simp [File.manner?, silent, hl]
        · simp [File.manner?, silent, hk]
      simp only [Answers.part, Located.address, call, silent]
      rfl

/-- **A pass without failure**: every file is clean, and the pieces and the
consumed values are those of the files. -/
theorem Pass.clean {files visited : List Located} {w w' : σ}
    {r : Except Failure (List Piece × List DataValues)} (byFile : e.AnswersBy a)
    (h : Pass ⟨e, root, m, tracked⟩ files w r visited w') {pieces : List Piece}
    {consumed : List DataValues} (hr : r = .ok (pieces, consumed)) :
    (∀ f ∈ files, a.Clean m tracked f.address) ∧
      pieces = files.filterMap (a.piece? m tracked) ∧
      consumed = files.flatMap fun f => a.consumed m tracked f.address := by
  induction h generalizing pieces consumed with
  | nil => cases hr; exact ⟨nofun, rfl, rfl⟩
  | stop => cases hr
  | @step f fs visited w w₁ w₂ piece used r one rest ih =>
      cases r with
      | error x => cases hr
      | ok p =>
          cases hr
          obtain ⟨hclean, hpieces, hconsumed⟩ := ih rfl
          have hpart := one.part byFile
          cases hp : a.part m tracked f.address with
          | error x => rw [hp] at hpart; cases hpart
          | ok q =>
              rw [hp] at hpart
              cases hpart
              refine ⟨?_, ?_, ?_⟩
              · intro g hg
                rcases List.mem_cons.mp hg with rfl | hg
                · exact ⟨q, hp⟩
                · exact hclean g hg
              · have hpiece : a.piece? m tracked f = q.1.map (Part.located f) := by
                  simp [Answers.piece?, Answers.part?, hp, Except.toOption]
                rw [hpieces, List.filterMap_cons, hpiece]
                cases q.1 <;> rfl
              · rw [hconsumed, List.flatMap_cons]
                simp [Answers.consumed, hp, Except.toOption]

/-- A pass over clean files ends without failure. -/
theorem Pass.ok_of_clean {files visited : List Located} {w w' : σ}
    {r : Except Failure (List Piece × List DataValues)} (byFile : e.AnswersBy a)
    (h : Pass ⟨e, root, m, tracked⟩ files w r visited w')
    (clean : ∀ f ∈ files, a.Clean m tracked f.address) : ∃ p, r = .ok p := by
  induction h with
  | nil => exact ⟨_, rfl⟩
  | stop fail =>
      obtain ⟨p, hp⟩ := clean _ (List.mem_cons_self ..)
      have hpart := fail.part byFile
      rw [hp] at hpart
      cases hpart
  | step one rest ih =>
      obtain ⟨p, rfl⟩ := ih fun g hg => clean g (List.mem_cons_of_mem _ hg)
      exact ⟨_, rfl⟩

end Stencil
