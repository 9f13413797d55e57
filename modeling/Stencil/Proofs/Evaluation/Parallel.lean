import Stencil.Evaluation.Service
import Stencil.Proofs.Evaluation.Agreeing

/-!
# Operations that are run twice

A loader with deterministic collaborators does the same from sessions that are
alike. For discovery, schemas and data values, the decisions on output need
not be alike at all: they are changed there and never read. Files are
evaluated by their roles, so there the decisions must give every accessible
file the same role.

There is one lemma for each part of an operation, by its definition.

## Main definitions

* `Run.Alike` — runs that agree and keep sessions alike in one way.

## Main results

* `Loader.schemas_steady`, `Loader.values_steady`, `Loader.eval_steady` — the
  operations agree with themselves.
-/

namespace Stencil

variable {σ α : Type}

/-- Whether two runs answer the same from sessions that are alike, and leave
them alike in the same way. -/
abbrev Run.Alike (T : Trace Nat → Trace Nat → Prop) (M : Marks → Marks → Prop) (W : σ → σ → Prop)
    (r r' : Run σ α) : Prop :=
  r.Agrees r' (Session.Alike T M W) Eq (Session.Alike T M W) (Session.Alike T M W)

namespace Run.Alike

variable {β : Type} {r r' : Run σ α} {T : Trace Nat → Trace Nat → Prop} {M : Marks → Marks → Prop}
  {W : σ → σ → Prop}

/-- What follows runs that are alike may take their answers to be one. -/
protected theorem bind {f f' : α → Run σ β} (h : r.Alike T M W r')
    (k : ∀ a, (f a).Alike T M W (f' a)) : (r >>= f).Alike T M W (r' >>= f') :=
  Run.Agrees.bind h fun a _ ha => ha ▸ k a

theorem inSpan (like : Trace.Likeness T) (name : Text) (h : r.Alike T M W r') :
    (Run.inSpan name r).Alike T M W (Run.inSpan name r') := Run.Agrees.inSpan like name h

end Run.Alike

/-- Decisions that need not be alike. -/
abbrev Marks.Unrelated (_ _ : Marks) : Prop := True

theorem Session.Alike.unrelated {T : Trace Nat → Trace Nat → Prop} {M : Marks → Marks → Prop}
    {W : σ → σ → Prop} {s s' : Session σ} (h : Session.Alike T M W s s') :
    Session.Alike T Marks.Unrelated W s s' := ⟨h.traces, trivial, h.worlds⟩

section Phases

variable {l : Loader σ} {idle busy : σ → σ → Prop} {T : Trace Nat → Trace Nat → Prop}
  {M : Marks → Marks → Prop}

/-! ## Discovery -/

theorem declares_alike {c : Collaborators σ} (det : c.Deterministic idle busy) (name : Text)
    (f : Located) :
    (declares c name f).Alike T Marks.Unrelated idle (declares c name f) := by
  refine Run.Alike.bind (Run.Agrees.wrap _ (.perform (det.parse f.file))) fun docs => ?_
  exact Run.Alike.bind (.ofExcept id) fun _ => .pure rfl

theorem discover_alike {c : Collaborators σ} (det : c.Deterministic idle busy) (name : Text)
    (files : List Located) :
    (discover c name files).Alike T Marks.Unrelated idle (discover c name files) := by
  induction files with
  | nil => exact .pure rfl
  | cons f files ih =>
      rw [discover]
      split
      · refine Run.Alike.bind (declares_alike det name f) fun found => ?_
        cases found
        · exact ih
        · refine Run.Alike.bind (.claim f.file) fun _ => ?_
          exact Run.Alike.bind ih fun _ => .pure rfl
      · exact ih

namespace Loader

theorem discoverFiles_alike (det : l.collaborators.Deterministic idle busy)
    (like : Trace.Likeness T) (name : Text) :
    (l.discoverFiles name).Alike T Marks.Unrelated idle (l.discoverFiles name) := by
  refine Run.Alike.inSpan like _ ?_
  refine Run.Alike.bind (discover_alike det name _) fun files => ?_
  exact Run.Alike.bind (.annotate like _ _) fun _ => .pure rfl

/-! ## Schemas -/

/-- Schema files are evaluated alike by engines that are alike. -/
theorem evaluateSchemas_alike {e e' : Engine σ} (engines : Engine.Alike busy e e')
    (files : List Located) :
    (evaluateSchemas e files).Alike T M busy (evaluateSchemas e' files) := by
  induction files with
  | nil => exact .pure rfl
  | cons f files ih =>
      refine Run.Alike.bind (Run.Agrees.wrap _ ?_) fun docs => ?_
      · refine Run.Alike.bind (.perform (engines.yaml _ _)) fun a => ?_
        exact Run.Alike.bind (.ofExcept id) fun _ => .pure rfl
      · refine Run.Alike.bind (.ofExcept id) fun schemas => ?_
        exact Run.Alike.bind ih fun _ => .pure rfl

/-- Once the engine is no longer used, sessions are alike as before. -/
private theorem idle_alike (det : l.collaborators.Deterministic idle busy) {s s' : Session σ}
    (h : Session.Alike T M busy s s') : Session.Alike T M idle s s' :=
  ⟨h.traces, h.marks, det.idle_of_busy h.worlds⟩

theorem schemaDocuments_alike (det : l.collaborators.Deterministic idle busy)
    (like : Trace.Likeness T) (files : List Located) :
    (l.schemaDocuments files).Alike T M idle (l.schemaDocuments files) := by
  refine Run.Agrees.inSpan like _ ?_
  refine Run.Agrees.bind (.perform (det.newEngine _)) fun e e' engines => ?_
  exact (evaluateSchemas_alike engines files).mono id (idle_alike det) (idle_alike det)

theorem mergeInto_alike (det : l.collaborators.Deterministic idle busy) (base : Document)
    (patches : List Document) :
    (l.mergeInto base patches).Alike T M idle (l.mergeInto base patches) := by
  induction patches generalizing base with
  | nil => exact .pure rfl
  | cons patch patches ih =>
      refine Run.Alike.bind (Run.Agrees.wrap _ (.perform (det.merge base patch))) ?_
      exact fun merged => ih merged

theorem mergeSchemas_alike (det : l.collaborators.Deterministic idle busy)
    (like : Trace.Likeness T) (docs : List Document) :
    (l.mergeSchemas docs).Alike T M idle (l.mergeSchemas docs) := by
  cases docs with
  | nil => exact .pure rfl
  | cons base patches =>
      refine Run.Alike.bind (Run.Alike.inSpan like _ ?_) fun merged => ?_
      · refine Run.Alike.bind (mergeInto_alike det base patches) fun merged => ?_
        exact Run.Alike.bind (.annotate like _ _) fun _ => .pure rfl
      · exact Run.Alike.bind (.ofExcept id) fun _ => .pure rfl

theorem collectSchemas_alike (det : l.collaborators.Deterministic idle busy)
    (like : Trace.Likeness T) (overlays : List DocumentSchema) :
    (l.collectSchemas overlays).Alike T Marks.Unrelated idle (l.collectSchemas overlays) := by
  refine Run.Alike.bind (discoverFiles_alike det like _) fun files => ?_
  split
  · refine Run.Alike.bind (schemaDocuments_alike det like files) fun declared => ?_
    exact Run.Alike.bind (mergeSchemas_alike det like _) fun _ => .pure rfl
  · exact .pure rfl

/-! ## Data values -/

theorem collectValues_alike (det : l.collaborators.Deterministic idle busy)
    (like : Trace.Likeness T) (overlays : List DataValues) (schema : Schema) :
    (l.collectValues overlays schema).Alike T Marks.Unrelated idle
      (l.collectValues overlays schema) := by
  refine Run.Alike.bind (discoverFiles_alike det like _) fun files => ?_
  refine Run.Alike.inSpan like _ (Run.Agrees.wrap _ ?_)
  exact Run.Alike.bind (.perform (det.resolveValues _ _ _ _)) fun _ => .pure rfl

/-! ## Files -/

theorem evaluated_alike {β : Type} {a a' : Action σ (Evaluated β)}
    (actions : Action.Agrees a a' busy Eq busy busy) (f : Located) (ledger : Ledger) :
    (evaluated f ledger a).Alike T M busy (evaluated f ledger a') := by
  refine Run.Agrees.wrap _ (Run.Alike.bind (.perform actions) fun e => ?_)
  exact Run.Alike.bind (.ofExcept id) fun _ => .pure rfl

theorem librarySymbols_alike {e e' : Engine σ} (engines : Engine.Alike busy e e')
    (context : Context) (f : Located) (ledger : Ledger) :
    (librarySymbols e context f ledger).Alike T M busy (librarySymbols e' context f ledger) := by
  unfold librarySymbols
  cases f.file.kind with
  | yaml => exact Run.Alike.bind (evaluated_alike (engines.yaml _ _) f ledger) fun _ => .pure rfl
  | text => exact Run.Alike.bind (evaluated_alike (engines.text _ _) f ledger) fun _ => .pure rfl
  | script =>
      exact Run.Alike.bind (evaluated_alike (engines.script _ _) f ledger) fun _ => .pure rfl
  | unknown =>
      exact Run.Alike.bind (evaluated_alike (engines.script _ _) f ledger) fun _ => .pure rfl

/-- A file is evaluated alike under decisions that give it the same role. -/
theorem evaluateFile_alike {e e' : Engine σ} (engines : Engine.Alike busy e e') (f : Located)
    (ledger : Ledger) (roles : ∀ m m', M m m' → f.file.role m = f.file.role m') :
    (l.evaluateFile e f ledger).Alike T M busy (l.evaluateFile e' f ledger) := by
  refine Run.Agrees.bind .marks fun m m' hm => ?_
  rw [roles m m' hm]
  cases f.file.role m' with
  | documents =>
      exact Run.Alike.bind (evaluated_alike (engines.yaml _ _) f ledger) fun _ => .pure rfl
  | fragment =>
      refine Run.Alike.bind (evaluated_alike (engines.text _ _) f ledger) fun _ => ?_
      exact Run.Alike.bind (.ofExcept id) fun _ => .pure rfl
  | unsupported => exact .ofExcept id
  | symbols =>
      exact Run.Alike.bind (librarySymbols_alike engines _ f ledger) fun _ => .pure rfl
  | skipped => exact .pure rfl

theorem evaluateFiles_alike {e e' : Engine σ} (engines : Engine.Alike busy e e')
    (files : List Located) (ledger : Ledger)
    (roles : ∀ f ∈ files, ∀ m m', M m m' → f.file.role m = f.file.role m') :
    (l.evaluateFiles e files ledger).Alike T M busy (l.evaluateFiles e' files ledger) := by
  induction files generalizing ledger with
  | nil => exact .pure rfl
  | cons f files ih =>
      obtain ⟨first, others⟩ := List.forall_mem_cons.mp roles
      refine Run.Alike.bind (evaluateFile_alike engines f ledger first) fun one => ?_
      exact Run.Alike.bind (ih one.2 others) fun _ => .pure rfl

theorem evaluatePieces_alike {e e' : Engine σ} (engines : Engine.Alike busy e e')
    (like : Trace.Likeness T) (ledger : Ledger)
    (roles : ∀ f ∈ l.library.accessible, ∀ m m', M m m' → f.file.role m = f.file.role m') :
    (l.evaluatePieces e ledger).Alike T M busy (l.evaluatePieces e' ledger) := by
  refine Run.Alike.inSpan like _ ?_
  refine Run.Alike.bind (evaluateFiles_alike engines _ ledger roles) fun pieces => ?_
  refine Run.Alike.bind (.annotate like _ _) fun _ => ?_
  exact Run.Alike.bind (.annotate like _ _) fun _ => .pure rfl

theorem evaluateLibrary_alike (det : l.collaborators.Deterministic idle busy)
    (like : Trace.Likeness T) (values : DataValues) (libraryValues : List DataValues)
    (librarySchemas : List DocumentSchema)
    (roles : ∀ f ∈ l.library.accessible, ∀ m m', M m m' → f.file.role m = f.file.role m') :
    (l.evaluateLibrary values libraryValues librarySchemas).Alike T M idle
      (l.evaluateLibrary values libraryValues librarySchemas) := by
  refine Run.Agrees.bind (.perform (det.newEngine _)) fun e e' engines => ?_
  have pieces := (evaluatePieces_alike engines like (.ofList libraryValues) roles).mono id
    (idle_alike det) (idle_alike det)
  refine Run.Agrees.bind pieces fun p _ hp => ?_
  subst hp
  refine Run.Alike.bind (.ofExcept id) fun _ => ?_
  refine Run.Alike.bind (Run.Alike.inSpan like _ (Run.Agrees.wrap _ (.perform
    (det.postProcess _)))) fun sets => ?_
  exact Run.Alike.inSpan like _ (.ofExcept id)

/-! ## Operations -/

/-- **Collecting schemas** as an operation. -/
theorem schemas_steady (det : l.collaborators.Deterministic idle busy)
    (overlays : List DocumentSchema) :
    (l.schemas overlays).Steady Marks.Unrelated Marks.Unrelated idle := by
  refine ⟨_, _, _, rfl, fun T like => ?_⟩
  refine Run.Alike.bind (Run.Agrees.attempt (collectSchemas_alike det like overlays)) ?_
  intro outcome
  cases outcome <;> exact .pure rfl

/-- **Collecting values** as an operation. -/
theorem values_steady (det : l.collaborators.Deterministic idle busy) (overlays : List DataValues)
    (schema : Schema) :
    (l.values overlays schema).Steady Marks.Unrelated Marks.Unrelated idle := by
  refine ⟨_, _, _, rfl, fun T like => ?_⟩
  exact Run.Alike.bind (Run.Agrees.attempt (collectValues_alike det like overlays schema))
    fun _ => .pure rfl

/-- **Evaluating files** as an operation. -/
theorem eval_steady (det : l.collaborators.Deterministic idle busy) (values : DataValues)
    (libraryValues : List DataValues) (librarySchemas : List DocumentSchema)
    (roles : ∀ f ∈ l.library.accessible, ∀ m m', M m m' → f.file.role m = f.file.role m') :
    (l.eval values libraryValues librarySchemas).Steady M M idle := by
  refine ⟨_, _, _, rfl, fun T like => ?_⟩
  exact Run.Alike.bind (Run.Agrees.attempt (evaluateLibrary_alike det like _ _ _ roles))
    fun _ => .pure rfl

end Loader

end Phases

end Stencil
