import Stencil.Proofs.Evaluation.Calls
import Stencil.Proofs.Trace.Likeness

/-!
# Two runs that agree

Two runs of one operation agree if they answer the same, call for call, from
sessions that are alike. What alike means is left open here: it is said of the
traces, of the decisions on output and of the worlds separately. A relation
between worlds need not be equality, so collaborators may keep what they like
in their world, as long as it does not show in their answers; an engine may
remember what it was called on since it was made.

Every way of building a run has one rule, and whether the runs of a loader
agree is put together from these rules along its definition.

## Main definitions

* `AgreeBy` — answers that agree, with what they leave.
* `Action.Agrees`, `Engine.Alike`, `Collaborators.Deterministic` —
  collaborators whose answers do not depend on what they were asked before.
* `Session.Alike`, `Run.Agrees` — sessions that are alike, and runs that agree.
* `Run.Steady` — operations that agree with themselves.

## Main results

* `Collaborators.Deterministic.recorded` — recorded collaborators are
  deterministic.
* `Collaborators.plain_deterministic` — there are such collaborators.
* `Run.Agrees.bind`, `Run.Agrees.inSpan` and the other rules of composition.
* `Run.Steady.inner`, `Run.Steady.outer` — an operation within another one, and
  on its own.
* `Run.Steady.restored` — what it leaves of the trace.
-/

namespace Stencil

variable {σ α β S : Type}

/-- Whether two answers, each with the state that is left, agree: both are
answers and related, or both are the same failure; and the states are related
in the way that goes with it. -/
inductive AgreeBy (rel : α → α → Prop) (post fail : S → S → Prop) :
    Except Failure α × S → Except Failure α × S → Prop
  | ok {a a' : α} {s s' : S} (answers : rel a a') (states : post s s') :
      AgreeBy rel post fail (.ok a, s) (.ok a', s')
  | error {x : Failure} {s s' : S} (states : fail s s') :
      AgreeBy rel post fail (.error x, s) (.error x, s')

namespace AgreeBy

variable {rel rel' : α → α → Prop} {post post' fail fail' : S → S → Prop}
  {p p' : Except Failure α × S}

theorem mono (h : AgreeBy rel post fail p p') (hrel : ∀ {a a'}, rel a a' → rel' a a')
    (hpost : ∀ {s s'}, post s s' → post' s s') (hfail : ∀ {s s'}, fail s s' → fail' s s') :
    AgreeBy rel' post' fail' p p' := by
  cases h with
  | ok answers states => exact .ok (hrel answers) (hpost states)
  | error states => exact .error (hfail states)

/-- Answers that agree by equality are equal. -/
theorem answer_eq (h : AgreeBy Eq post fail p p') : p.1 = p'.1 := by
  cases h with
  | ok answers => rw [answers]
  | error => rfl

/-- If it does not matter whether the answers are failures, the states are
related. -/
theorem states (h : AgreeBy rel post post p p') : post p.2 p'.2 := by
  cases h with
  | ok _ states => exact states
  | error states => exact states

end AgreeBy

/-! ## Deterministic collaborators -/

/-- Whether two actions agree from worlds that are related. -/
def Action.Agrees (a a' : Action σ α) (pre : σ → σ → Prop) (rel : α → α → Prop)
    (post fail : σ → σ → Prop) : Prop :=
  ∀ w w', pre w w' → AgreeBy rel post fail (Action.apply a w) (Action.apply a' w')

/-- Whether two engines answer the same, for whatever they are called on, from
worlds that are related as long as the engines are in use. -/
structure Engine.Alike (busy : σ → σ → Prop) (e e' : Engine σ) : Prop where
  yaml (c : Context) (f : File) : Action.Agrees (e.yaml c f) (e'.yaml c f) busy Eq busy busy
  text (c : Context) (f : File) : Action.Agrees (e.text c f) (e'.text c f) busy Eq busy busy
  script (c : Context) (f : File) : Action.Agrees (e.script c f) (e'.script c f) busy Eq busy busy

/-- Whether collaborators answer the same from worlds that are related.
Worlds are related in one way while no engine is in use, and in another, which
is closer, while one is. -/
structure Collaborators.Deterministic (c : Collaborators σ) (idle busy : σ → σ → Prop) : Prop where
  parse (f : File) : Action.Agrees (c.parse f) (c.parse f) idle Eq idle idle
  newEngine (seed : Seed) :
    Action.Agrees (c.newEngine seed) (c.newEngine seed) idle (Engine.Alike busy) busy idle
  merge (base patch : Document) :
    Action.Agrees (c.merge base patch) (c.merge base patch) idle Eq idle idle
  resolveValues (files : List Located) (overlays : List DataValues) (schema : Schema)
      (policy : ValuesPolicy) :
    Action.Agrees (c.resolveValues files overlays schema policy)
      (c.resolveValues files overlays schema policy) idle Eq idle idle
  postProcess (sets : DocumentSets) :
    Action.Agrees (c.postProcess sets) (c.postProcess sets) idle Eq idle idle
  idle_of_busy {w w' : σ} (h : busy w w') : idle w w'

/-- Worlds that are related, with the same calls. -/
def Recorded.Alike (W : σ → σ → Prop) (v v' : Recorded σ) : Prop :=
  W v.world v'.world ∧ v.calls = v'.calls

/-- Recorded actions agree if the actions do. -/
theorem Action.Agrees.recorded {a a' : Action σ α} {pre post fail : σ → σ → Prop}
    {rel : α → α → Prop} (h : Action.Agrees a a' pre rel post fail) (call : Call) :
    Action.Agrees (Action.recorded call a) (Action.recorded call a') (Recorded.Alike pre) rel
      (Recorded.Alike post) (Recorded.Alike fail) := by
  rintro ⟨w, calls⟩ ⟨w', _⟩ ⟨hw, rfl⟩
  rw [Action.recorded_apply, Action.recorded_apply]
  have hagree := h w w' hw
  generalize Action.apply a w = p, Action.apply a' w' = p' at hagree ⊢
  cases hagree with
  | ok answers states => exact .ok answers ⟨states, rfl⟩
  | error states => exact .error ⟨states, rfl⟩

/-- Engines that are alike are so when they are recorded. -/
theorem Engine.Alike.recorded {busy : σ → σ → Prop} {e e' : Engine σ} (h : Alike busy e e') :
    Alike (Recorded.Alike busy) e.recorded e'.recorded where
  yaml c f := (h.yaml c f).recorded _
  text c f := (h.text c f).recorded _
  script c f := (h.script c f).recorded _

/-- **Recorded collaborators** are deterministic if the collaborators are, and
are called in the same way. -/
theorem Collaborators.Deterministic.recorded {c : Collaborators σ} {idle busy : σ → σ → Prop}
    (h : c.Deterministic idle busy) :
    c.recorded.Deterministic (Recorded.Alike idle) (Recorded.Alike busy) where
  parse f := (h.parse f).recorded _
  newEngine seed := by
    refine Action.Agrees.recorded (fun w w' hw => ?_) _
    have hmake := h.newEngine seed w w' hw
    rw [Action.apply_bind, Action.apply_bind]
    generalize Action.apply (c.newEngine seed) w = p, Action.apply (c.newEngine seed) w' = p'
      at hmake ⊢
    cases hmake with
    | ok engines states => exact .ok engines.recorded states
    | error states => exact .error states
  merge base patch := (h.merge base patch).recorded _
  resolveValues files overlays schema policy := (h.resolveValues files overlays schema policy).recorded _
  postProcess sets := (h.postProcess sets).recorded _
  idle_of_busy hv := ⟨h.idle_of_busy hv.1, hv.2⟩

/-- The simplest collaborators are deterministic. -/
theorem Collaborators.plain_deterministic (documents : File → List Document) :
    (plain documents : Collaborators σ).Deterministic (fun _ _ => True) (fun _ _ => True) where
  parse _ _ _ _ := .ok rfl trivial
  newEngine _ _ _ _ := .ok
    { yaml := fun _ _ _ _ _ => .ok rfl trivial
      text := fun _ _ _ _ _ => .ok rfl trivial
      script := fun _ _ _ _ _ => .ok rfl trivial } trivial
  merge _ _ _ _ _ := .ok rfl trivial
  resolveValues _ _ _ _ _ _ _ := .ok rfl trivial
  postProcess _ _ _ _ := .ok rfl trivial
  idle_of_busy := id

/-! ## Runs -/

/-- Whether two sessions are alike: their traces, their decisions on output,
and their worlds. -/
structure Session.Alike (T : Trace Nat → Trace Nat → Prop) (M : Marks → Marks → Prop)
    (W : σ → σ → Prop) (s s' : Session σ) : Prop where
  traces : T s.trace s'.trace
  marks : M s.marks s'.marks
  worlds : W s.world s'.world

/-- Whether two runs agree from sessions that are related. -/
def Run.Agrees (r r' : Run σ α) (pre : Session σ → Session σ → Prop) (rel : α → α → Prop)
    (post fail : Session σ → Session σ → Prop) : Prop :=
  ∀ s s', pre s s' → AgreeBy rel post fail (r.apply s) (r'.apply s')

/-- An operation has no spans of its own within another one, or untraced. -/
theorem Run.traced_of_passes (name : Text) (attach : Span Nat → α → α) (r : Run σ α)
    {s : Session σ} (h : s.trace.passes = true) :
    (Run.traced name attach r).apply s = r.apply s := by
  show tracing Session.trace withTrace name (fun span => Except.map (attach span)) r.apply s =
    r.apply s
  rw [tracing]
  exact if_pos h

/-- An operation outside any other has a tree of its own, which is attached to
its answer and taken away again. -/
theorem Run.traced_of_not_passes (name : Text) (attach : Span Nat → α → α) (r : Run σ α)
    {s : Session σ} (h : s.trace.passes = false) :
    (Run.traced name attach r).apply s =
      let p := r.apply (withTrace (s.trace.start name) s)
      (match p.2.trace.roots[s.trace.roots.length]? with
        | some root => Except.map (attach root.finish) p.1
        | none => p.1,
        withTrace { p.2.trace with roots := p.2.trace.roots.take s.trace.roots.length,
                                   current := s.trace.current } p.2) := by
  show tracing Session.trace withTrace name (fun span => Except.map (attach span)) r.apply s = _
  have hown : ¬(!s.trace.enabled || s.trace.current.isSome) = true := by
    intro passes
    cases h.symm.trans passes
  rw [tracing, if_neg hown]
  rcases r.apply (withTrace (s.trace.start name) s) with ⟨b, s₁⟩
  cases hroot : s₁.trace.roots[s.trace.roots.length]? <;> simp only [hroot]

namespace Run.Agrees

variable {r r' : Run σ α} {pre post post' fail fail' : Session σ → Session σ → Prop}
  {rel : α → α → Prop} {T : Trace Nat → Trace Nat → Prop} {M : Marks → Marks → Prop}
  {W W' F : σ → σ → Prop}

theorem mono {pre' : Session σ → Session σ → Prop} (h : r.Agrees r' pre rel post fail)
    (hpre : ∀ {s s'}, pre' s s' → pre s s') (hpost : ∀ {s s'}, post s s' → post' s s')
    (hfail : ∀ {s s'}, fail s s' → fail' s s') : r.Agrees r' pre' rel post' fail' :=
  fun s s' hs => (h s s' (hpre hs)).mono id hpost hfail

protected theorem pure {a a' : α} (h : rel a a') :
    (pure a : Run σ α).Agrees (pure a') post rel post fail := fun _ _ hs => .ok h hs

/-- What follows a run may build on how the run went from both sessions. -/
theorem bind_apply {f f' : α → Run σ β} {rel' : β → β → Prop} (h : r.Agrees r' pre rel post fail)
    (k : ∀ s s' a a' s₁ s₁', pre s s' → r.apply s = (.ok a, s₁) → r'.apply s' = (.ok a', s₁') →
      rel a a' → post s₁ s₁' → AgreeBy rel' post' fail ((f a).apply s₁) ((f' a').apply s₁')) :
    (r >>= f).Agrees (r' >>= f') pre rel' post' fail := by
  intro s s' hs
  have hr := h s s' hs
  rw [apply_bind, apply_bind]
  rcases first : r.apply s with ⟨a, s₁⟩
  rcases first' : r'.apply s' with ⟨a', s₁'⟩
  rw [first, first'] at hr
  cases hr with
  | ok answers states => exact k s s' _ _ s₁ s₁' hs first first' answers states
  | error states => exact .error states

protected theorem bind {f f' : α → Run σ β} {rel' : β → β → Prop}
    (h : r.Agrees r' pre rel post fail)
    (k : ∀ a a', rel a a' → (f a).Agrees (f' a') post rel' post' fail) :
    (r >>= f).Agrees (r' >>= f') pre rel' post' fail :=
  bind_apply h fun _ _ a a' s₁ s₁' _ _ _ answers states => k a a' answers s₁ s₁' states

theorem ofExcept {e : Except Failure α} (hfail : ∀ {s s'}, post s s' → fail s s') :
    (Run.ofExcept e : Run σ α).Agrees (Run.ofExcept e) post Eq post fail := by
  intro s s' hs
  show AgreeBy Eq post fail (e, s) (e, s')
  cases e with
  | ok a => exact .ok rfl hs
  | error x => exact .error (hfail hs)

protected theorem wrap (describe : Text → Error) (h : r.Agrees r' pre rel post fail) :
    (Run.wrap describe r).Agrees (Run.wrap describe r') pre rel post fail := by
  intro s s' hs
  have hr := h s s' hs
  rw [wrap_apply, wrap_apply]
  generalize r.apply s = p, r'.apply s' = p' at hr ⊢
  cases hr with
  | ok answers states => exact .ok answers states
  | error states => exact .error states

protected theorem attempt (h : r.Agrees r' pre Eq post post) :
    (Run.attempt r).Agrees (Run.attempt r') pre Eq post post := by
  intro s s' hs
  have hr := h s s' hs
  rw [attempt_apply, attempt_apply]
  generalize r.apply s = p, r'.apply s' = p' at hr ⊢
  cases hr with
  | ok answers states => exact .ok (by rw [answers]) states
  | @error x _ _ states =>
      cases x with
      | error e cause => exact .ok rfl states
      | fault f => exact .error states

/-! What touches the world only. -/

theorem perform {a a' : Action σ α} (h : Action.Agrees a a' W rel W' F) :
    (Run.perform a).Agrees (Run.perform a') (Session.Alike T M W) rel (Session.Alike T M W')
      (Session.Alike T M F) := by
  intro s s' hs
  have ha := h s.world s'.world hs.worlds
  rw [perform_apply, perform_apply]
  generalize Action.apply a s.world = p, Action.apply a' s'.world = p' at ha ⊢
  cases ha with
  | ok answers worlds => exact .ok answers ⟨hs.traces, hs.marks, worlds⟩
  | error worlds => exact .error ⟨hs.traces, hs.marks, worlds⟩

/-! What touches the trace only. -/

theorem annotate (like : Trace.Likeness T) (key : Text) (n : Nat) :
    (Run.annotate key n : Run σ Unit).Agrees (Run.annotate key n) (Session.Alike T M W) Eq
      (Session.Alike T M W) fail :=
  fun _ _ hs => .ok rfl ⟨like.annotate hs.traces key n, hs.marks, hs.worlds⟩

theorem inSpan {M' M'' : Marks → Marks → Prop} (like : Trace.Likeness T) (name : Text)
    (h : r.Agrees r' (Session.Alike T M W) rel (Session.Alike T M' W') (Session.Alike T M'' F)) :
    (Run.inSpan name r).Agrees (Run.inSpan name r') (Session.Alike T M W) rel
      (Session.Alike T M' W') (Session.Alike T M'' F) := by
  intro s s' hs
  have hinner := h (withTrace (s.trace.enter name).2 s) (withTrace (s'.trace.enter name).2 s')
    ⟨like.enter hs.traces name, hs.marks, hs.worlds⟩
  show AgreeBy rel (Session.Alike T M' W') (Session.Alike T M'' F)
    (let p := r.apply (withTrace (s.trace.enter name).2 s);
      (p.1, withTrace (p.2.trace.leave (s.trace.enter name).1) p.2))
    (let p := r'.apply (withTrace (s'.trace.enter name).2 s');
      (p.1, withTrace (p.2.trace.leave (s'.trace.enter name).1) p.2))
  generalize r.apply (withTrace (s.trace.enter name).2 s) = p,
    r'.apply (withTrace (s'.trace.enter name).2 s') = p' at hinner ⊢
  cases hinner with
  | ok answers inner =>
      exact .ok answers ⟨like.leave hs.traces name inner.traces, inner.marks, inner.worlds⟩
  | error inner =>
      exact .error ⟨like.leave hs.traces name inner.traces, inner.marks, inner.worlds⟩

/-- An operation within another one is its body. -/
theorem traced (like : Trace.Likeness T) (name : Text) (attach : Span Nat → α → α)
    (h : r.Agrees r' (Session.Alike T M W) rel post fail) :
    (Run.traced name attach r).Agrees (Run.traced name attach r') (Session.Alike T M W) rel post
      fail := by
  intro s s' hs
  obtain ⟨passes, passes'⟩ := like.passes hs.traces
  rw [traced_of_passes name attach r passes, traced_of_passes name attach r' passes']
  exact h s s' hs

/-! What reads or changes the decisions on output. -/

theorem marks : (Run.marks : Run σ Marks).Agrees Run.marks (Session.Alike T M W) M
    (Session.Alike T M W) fail := fun _ _ hs => .ok hs.marks hs

theorem claim (f : File) :
    (Run.claim f : Run σ Unit).Agrees (Run.claim f) (Session.Alike T (fun _ _ => True) W) Eq
      (Session.Alike T (fun _ _ => True) W) fail :=
  fun _ _ hs => .ok rfl ⟨hs.traces, trivial, hs.worlds⟩

end Run.Agrees

/-! ## Operations of their own -/

/-- Whether a run is an operation of its own that agrees with itself, whatever
becomes of the traces: decisions on output that are alike in one way are left
alike in another. -/
def Run.Steady (op : Run σ α) (M M' : Marks → Marks → Prop) (W : σ → σ → Prop) : Prop :=
  ∃ name attach r, op = Run.traced name attach r ∧
    ∀ T, Trace.Likeness T → r.Agrees r (Session.Alike T M W) Eq (Session.Alike T M' W)
      (Session.Alike T M' W)

namespace Run.Steady

variable {op : Run σ α} {M M' : Marks → Marks → Prop} {W : σ → σ → Prop}

/-- Within another operation, it agrees with itself. -/
theorem inner {T : Trace Nat → Trace Nat → Prop} (h : op.Steady M M' W) (like : Trace.Likeness T) :
    op.Agrees op (Session.Alike T M W) Eq (Session.Alike T M' W) (Session.Alike T M' W) := by
  obtain ⟨name, attach, r, rfl, body⟩ := h
  exact Run.Agrees.traced like name attach (body T like)

/-- An operation with a tree of its own starts in it. -/
private theorem start_alike {s : Session σ} (h : s.trace.passes = false) (name : Text) :
    s.trace.start name = s.trace.start name ∧
      Trace.InTree s.trace.roots (s.trace.start name) :=
  ⟨rfl, Trace.start_inTree (Trace.enabled_of_not_passes h) name⟩

/-- **Outside any other operation**, or in the same way within another one, it
agrees with itself; the spans in its answers are the same. -/
theorem outer (h : op.Steady M M' W) :
    op.Agrees op (Session.Alike Trace.Restored M W) Eq (Session.Alike (fun _ _ => True) M' W)
      (Session.Alike (fun _ _ => True) M' W) := by
  obtain ⟨name, attach, r, rfl, body⟩ := h
  intro s s' hs
  have within : s.trace.passes = true ∧ s'.trace.passes = true →
      AgreeBy Eq (Session.Alike (fun _ _ => True) M' W) (Session.Alike (fun _ _ => True) M' W)
        ((Run.traced name attach r).apply s) ((Run.traced name attach r).apply s') := by
    rintro ⟨passes, passes'⟩
    rw [traced_of_passes name attach r passes, traced_of_passes name attach r passes']
    exact (body _ Trace.bothPass s s' ⟨⟨passes, passes'⟩, hs.marks, hs.worlds⟩).mono id
      (fun h => ⟨trivial, h.marks, h.worlds⟩) fun h => ⟨trivial, h.marks, h.worlds⟩
  rcases hs.traces with htraces | passes
  · cases passes : s.trace.passes with
    | true => exact within ⟨passes, htraces ▸ passes⟩
    | false =>
        rw [traced_of_not_passes name attach r passes,
          traced_of_not_passes name attach r (htraces ▸ passes), ← htraces]
        have hinner := body _ (Trace.sameTree s.trace.roots) (withTrace (s.trace.start name) s)
          (withTrace (s.trace.start name) s') ⟨start_alike passes name, hs.marks, hs.worlds⟩
        generalize r.apply (withTrace (s.trace.start name) s) = p,
          r.apply (withTrace (s.trace.start name) s') = p' at hinner ⊢
        cases hinner with
        | ok answers inner =>
            obtain ⟨hroots, -⟩ := inner.traces
            simp only [hroots]
            split <;> exact .ok (by rw [answers]) ⟨trivial, inner.marks, inner.worlds⟩
        | error inner =>
            obtain ⟨hroots, -⟩ := inner.traces
            simp only [hroots]
            split <;> exact .error ⟨trivial, inner.marks, inner.worlds⟩
  · exact within passes

/-- **Afterwards** the trace is as it was before, or the operation is itself
part of another one. -/
theorem restored (h : op.Steady M M' W) {s : Session σ} (marks : M s.marks s.marks)
    (world : W s.world s.world) : Trace.Restored s.trace (op.apply s).2.trace := by
  obtain ⟨name, attach, r, rfl, body⟩ := h
  have traces : ∀ {T} (_ : Trace.Likeness T) (s₀ : Session σ), T s₀.trace s₀.trace →
      s₀.marks = s.marks → s₀.world = s.world →
      T (r.apply s₀).2.trace (r.apply s₀).2.trace := by
    intro T like s₀ htrace hmarks hworld
    have hbody := body T like s₀ s₀ ⟨htrace, hmarks ▸ marks, hworld ▸ world⟩
    exact (hbody.mono id (fun h => h.traces) (fun h => h.traces)).states
  cases passes : s.trace.passes with
  | true =>
      rw [traced_of_passes name attach r passes]
      exact .inr ⟨passes, (traces Trace.bothPass s ⟨passes, passes⟩ rfl rfl).1⟩
  | false =>
      rw [traced_of_not_passes name attach r passes]
      obtain ⟨-, inner⟩ := traces (Trace.sameTree s.trace.roots) (withTrace (s.trace.start name) s)
        (start_alike passes name) rfl rfl
      refine .inl ?_
      show s.trace = ⟨_, _, s.trace.current⟩
      rw [inner.roots, inner.enabled, ← Trace.enabled_of_not_passes passes]

end Run.Steady

end Stencil
