import Stencil.Proofs.Evaluation.Operations
import Stencil.Proofs.Evaluation.Outcome

/-!
# What operations do to the decisions on output

Operations change the decisions on output in one way only: discovery takes
files out of the output. So a file that is out of it stays out, whatever is
run afterwards, and whether or not it succeeds.

`Run.Leaves` is a statement about all runs from some sessions. Its rules
follow the ways of building a run, and every operation has one lemma, by its
definition.

## Main definitions

* `Marks.Off` — a file is decided not to be output.
* `Run.Leaves`, `Run.Keeps` — what holds of the decisions after a run.

## Main results

* `Loader.schemas_keeps`, `Loader.values_keeps`, `Loader.eval_keeps` — files
  that are out of the output stay out.
-/

namespace Stencil

variable {σ α β : Type}

/-- Whether it is decided that a file is not output. -/
def Marks.Off (m : Marks) (f : File) : Prop := m.decision f = some false

namespace Marks

/-- Taking a file out of the output leaves other files out of it. -/
theorem Off.set {m : Marks} {f : File} (h : m.Off f) (g : File) :
    (m.set g (some false)).Off f := by
  unfold Off decision Marks.set at *
  rw [List.lookup_cons]
  by_cases hid : f.id = g.id
  · simp [hid]
  · rw [beq_eq_false_iff_ne.mpr hid]
    exact h

theorem off_set_self (m : Marks) (f : File) : (m.set f (some false)).Off f := by
  unfold Off decision Marks.set
  rw [List.lookup_cons_self]
  rfl

/-- A file that is out of the output is not rendered. -/
theorem Off.isForOutput {m : Marks} {f : File} (h : m.Off f) : f.isForOutput m = false := by
  rw [File.isForOutput, h]
  rfl

end Marks

namespace Run

/-- Whether runs from sessions of some sort leave decisions of some sort. -/
def Leaves (r : Run σ α) (start : Marks → σ → Prop) (post : Marks → Prop) : Prop :=
  ∀ s : Session σ, start s.marks s.world → post (r.apply s).2.marks

/-- Whether runs keep decisions of some sort. -/
def Keeps (r : Run σ α) (P : Marks → Prop) : Prop := r.Leaves (fun m _ => P m) P

namespace Leaves

variable {r : Run σ α} {start : Marks → σ → Prop} {P : Marks → Prop}

/-- What a run leaves, and the one after it keeps, is left by both. -/
protected theorem bind {f : α → Run σ β} (h : r.Leaves start P) (k : ∀ a, (f a).Keeps P) :
    (r >>= f).Leaves start P := by
  intro s hs
  have hr := h s hs
  rw [apply_bind]
  rcases hrun : r.apply s with ⟨_ | a, s'⟩ <;> rw [hrun] at hr
  · exact hr
  · exact k a s' hr

protected theorem wrap (describe : Text → Error) (h : r.Leaves start P) :
    (Run.wrap describe r).Leaves start P := fun s hs => h s hs

protected theorem attempt (h : r.Leaves start P) : (Run.attempt r).Leaves start P := by
  intro s hs
  rw [attempt_apply]
  exact h s hs

protected theorem inSpan (name : Text) (h : r.Leaves start P) :
    (Run.inSpan name r).Leaves start P :=
  fun s hs => h (withTrace (s.trace.enter name).2 s) hs

protected theorem traced (name : Text) (attach : Span Nat → α → α) (h : r.Leaves start P) :
    (Run.traced name attach r).Leaves start P := by
  intro s hs
  obtain ⟨hmarks, -⟩ := traced_entered name attach r s
  rw [hmarks]
  exact h _ (by rw [Session.entered_marks, Session.entered_world]; exact hs)

/-! What does not touch the decisions keeps them. -/

protected theorem pure (a : α) : (pure a : Run σ α).Keeps P := fun _ hs => hs

theorem ofExcept (e : Except Failure α) : (Run.ofExcept e : Run σ α).Keeps P := fun _ hs => hs

theorem perform (a : Action σ α) : (Run.perform a).Keeps P := fun _ hs => hs

theorem annotate (key : Text) (n : Nat) : (Run.annotate key n : Run σ Unit).Keeps P :=
  fun _ hs => hs

theorem claim (f g : File) : (Run.claim g : Run σ Unit).Keeps (·.Off f) :=
  fun _ hs => hs.set g

end Leaves

end Run

/-! ## Operations keep files out of the output -/

section Operations

variable (f : File)

/-- Telling whether a file declares an annotation decides nothing. -/
theorem declares_keeps (c : Collaborators σ) (name : Text) (g : Located) {P : Marks → Prop} :
    (declares c name g).Keeps P := by
  refine Run.Leaves.bind (Run.Leaves.wrap _ (.perform _)) fun _ => ?_
  exact Run.Leaves.bind (.ofExcept _) fun _ => .pure _

/-- Discovery takes files out of the output, and puts none back. -/
theorem discover_keeps (c : Collaborators σ) (name : Text) (files : List Located) :
    (discover c name files).Keeps (·.Off f) := by
  induction files with
  | nil => exact .pure _
  | cons g files ih =>
      rw [discover]
      split
      · refine Run.Leaves.bind (declares_keeps c name g) fun found => ?_
        cases found
        · exact ih
        · refine Run.Leaves.bind (.claim f g.file) fun _ => ?_
          exact Run.Leaves.bind ih fun _ => .pure _
      · exact ih

namespace Loader

variable (l : Loader σ)

private theorem evaluateSchemas_keeps (engine : Engine σ) (files : List Located)
    {P : Marks → Prop} : (evaluateSchemas engine files).Keeps P := by
  induction files with
  | nil => exact .pure _
  | cons g files ih =>
      refine Run.Leaves.bind (Run.Leaves.wrap _ ?_) fun _ => ?_
      · refine Run.Leaves.bind (.perform _) fun _ => ?_
        exact Run.Leaves.bind (.ofExcept _) fun _ => .pure _
      · refine Run.Leaves.bind (.ofExcept _) fun _ => ?_
        exact Run.Leaves.bind ih fun _ => .pure _

private theorem mergeInto_keeps (base : Document) (patches : List Document) {P : Marks → Prop} :
    (l.mergeInto base patches).Keeps P := by
  induction patches generalizing base with
  | nil => exact .pure _
  | cons patch patches ih =>
      exact Run.Leaves.bind (Run.Leaves.wrap _ (.perform _)) fun merged => ih merged

private theorem mergeSchemas_keeps (docs : List Document) {P : Marks → Prop} :
    (l.mergeSchemas docs).Keeps P := by
  cases docs with
  | nil => exact .pure _
  | cons base patches =>
      refine Run.Leaves.bind (Run.Leaves.inSpan _ ?_) fun _ => ?_
      · refine Run.Leaves.bind (mergeInto_keeps l base patches) fun _ => ?_
        exact Run.Leaves.bind (.annotate _ _) fun _ => .pure _
      · exact Run.Leaves.bind (.ofExcept _) fun _ => .pure _

/-- What discovery leaves, the rest of collecting schemas keeps. -/
theorem collectSchemas_leaves (overlays : List DocumentSchema) {start : Marks → σ → Prop}
    {P : Marks → Prop} (h : (l.discoverFiles AnnotationName.schemaMatch).Leaves start P) :
    (l.collectSchemas overlays).Leaves start P := by
  refine Run.Leaves.bind h fun files => ?_
  split
  · refine Run.Leaves.bind (Run.Leaves.inSpan _ ?_) fun _ => ?_
    · exact Run.Leaves.bind (.perform _) fun engine => evaluateSchemas_keeps engine files
    · exact Run.Leaves.bind (mergeSchemas_keeps l _) fun _ => .pure _
  · exact .pure _

/-- What discovery leaves, the rest of collecting values keeps. -/
theorem collectValues_leaves (overlays : List DataValues) (schema : Schema)
    {start : Marks → σ → Prop} {P : Marks → Prop}
    (h : (l.discoverFiles AnnotationName.dataValues).Leaves start P) :
    (l.collectValues overlays schema).Leaves start P := by
  refine Run.Leaves.bind h fun files => ?_
  refine Run.Leaves.inSpan _ (Run.Leaves.wrap _ ?_)
  exact Run.Leaves.bind (.perform _) fun _ => .pure _

theorem schemas_leaves (overlays : List DocumentSchema) {start : Marks → σ → Prop}
    {P : Marks → Prop} (h : (l.discoverFiles AnnotationName.schemaMatch).Leaves start P) :
    (l.schemas overlays).Leaves start P := by
  refine Run.Leaves.traced _ _ (Run.Leaves.bind ?_ fun outcome => ?_)
  · exact Run.Leaves.attempt (collectSchemas_leaves l overlays h)
  · cases outcome <;> exact .pure _

theorem values_leaves (overlays : List DataValues) (schema : Schema) {start : Marks → σ → Prop}
    {P : Marks → Prop} (h : (l.discoverFiles AnnotationName.dataValues).Leaves start P) :
    (l.values overlays schema).Leaves start P := by
  refine Run.Leaves.traced _ _ (Run.Leaves.bind ?_ fun _ => .pure _)
  exact Run.Leaves.attempt (collectValues_leaves l overlays schema h)

/-- What discovery leaves if it goes through the files is what the phase
leaves. -/
theorem discoverFiles_leaves (name : Text) {start : Marks → σ → Prop} {P : Marks → Prop}
    (h : (discover l.collaborators name l.library.accessible).Leaves start P) :
    (l.discoverFiles name).Leaves start P := by
  refine Run.Leaves.inSpan _ (Run.Leaves.bind h fun _ => ?_)
  exact Run.Leaves.bind (.annotate _ _) fun _ => .pure _

/-- **Collecting schemas** keeps files out of the output. -/
theorem schemas_keeps (overlays : List DocumentSchema) :
    (l.schemas overlays).Keeps (·.Off f) :=
  schemas_leaves l overlays (discoverFiles_leaves l _ (discover_keeps f _ _ _))

/-- **Collecting values** keeps files out of the output. -/
theorem values_keeps (overlays : List DataValues) (schema : Schema) :
    (l.values overlays schema).Keeps (·.Off f) :=
  values_leaves l overlays schema (discoverFiles_leaves l _ (discover_keeps f _ _ _))

/-- **Evaluating files** decides nothing about output. -/
theorem eval_keeps (values : DataValues) (libraryValues : List DataValues)
    (librarySchemas : List DocumentSchema) {P : Marks → Prop} :
    (l.eval values libraryValues librarySchemas).Keeps P := by
  intro s hs
  rcases engine : Action.apply (l.collaborators.newEngine
    ⟨values, libraryValues, librarySchemas⟩) s.world with ⟨x | e, w⟩
  · obtain ⟨-, hmarks, -⟩ := eval_outcome (s := s) (evaluateLibrary_noEngine engine)
    rw [hmarks]
    exact hs
  · let v : Scene σ := ⟨e, l.context.root, s.marks, libraryValues⟩
    obtain ⟨answer, calls, w', h⟩ := Outcome.total l.collaborators v l.library.accessible w
    obtain ⟨-, hmarks, -⟩ := eval_outcome (s := s) (Outcome.yields (v := v) engine rfl h)
    rw [hmarks]
    exact hs

end Loader

end Operations

end Stencil
