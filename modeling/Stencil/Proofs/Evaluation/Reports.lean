import Stencil.Proofs.Evaluation.Claiming
import Stencil.Proofs.Evaluation.Collecting
import Stencil.Proofs.Evaluation.Resolving

/-!
# What operations report

The spans of an operation are part of its result, and nothing else of the
result depends on them. `Run.Reports` holds of an operation, the marks and the
world it starts from, its answer without spans, and the marks and the world it
leaves, whatever has been traced and whether or not anything is. It is
`Run.Yields` for operations: an operation reports what its body yields.

What an operation does is told together with what it does when its
collaborators are recorded, so that the calls it makes are known as well.

## Main definitions

* `ServiceResult.untraced` — an answer without its spans.
* `Run.Reports` — the answer of an operation, up to its spans.
* `Run.Recording`, `Run.Recounting` — a run, or an operation, and the calls of
  collaborators that it makes.
* `Operation.run` — an operation of a loader.

## Main results

* `Run.Reports.traced` — an operation of its own reports what its body does.
* `Loader.schemas_recounting`, `Loader.values_recounting`,
  `Loader.eval_recounting` — the three operations have reports.
-/

namespace Stencil

variable {σ α β : Type}

namespace ServiceResult

/-- An answer without its spans. -/
def untraced (r : ServiceResult α) : ServiceResult α := { r with telemetry := none }

/-- What collecting schemas as an operation answers with. -/
def ofSchemas : Except Error CollectedSchemas → ServiceResult CollectedSchemas
  | .ok collected => of "schemas" (.ok collected) collected.warnings
  | .error e => of "schemas" (.error e) []

/-- Whatever spans are attached to an answer, it is the same without them. -/
theorem map_untraced_attach (span : Span Nat) (a : Except Failure (ServiceResult α)) :
    (a.map (attach span)).map untraced = a.map untraced := by
  cases a <;> rfl

end ServiceResult

open ServiceResult (untraced)

/-! ## Reports -/

/-- An operation answers the same from all traces, up to the spans in its
answer, and leaves the same marks and the same world. -/
def Run.Reports (r : Run σ (ServiceResult α)) (m : Marks) (w : σ)
    (a : Except Failure (ServiceResult α)) (m' : Marks) (w' : σ) : Prop :=
  ∀ t, ∃ b t', r.apply ⟨m, t, w⟩ = (b, ⟨m', t', w'⟩) ∧ b.map untraced = a

namespace Run.Reports

variable {r : Run σ (ServiceResult α)} {f : ServiceResult α → Run σ (ServiceResult β)}
  {m m' m'' : Marks} {w w' w'' : σ} {a : Except Failure (ServiceResult α)}

/-- What an operation reports, from its answer in some session. -/
theorem apply_eq {s : Session σ} (h : r.Reports s.marks s.world a m' w') :
    (r.apply s).1.map untraced = a ∧ (r.apply s).2.marks = m' ∧ (r.apply s).2.world = w' := by
  obtain ⟨b, t', hrun, hb⟩ := h s.trace
  have hs : r.apply s = (b, ⟨m', t', w'⟩) := hrun
  rw [hs]
  exact ⟨hb, rfl, rfl⟩

/-- An operation reports one thing. -/
theorem unique {b : Except Failure (ServiceResult α)} (h : r.Reports m w a m' w')
    (k : r.Reports m w b m'' w'') : a = b ∧ m' = m'' ∧ w' = w'' := by
  obtain ⟨ha, hm, hw⟩ := h.apply_eq (s := ⟨m, .initial, w⟩)
  obtain ⟨hb, hm', hw'⟩ := k.apply_eq (s := ⟨m, .initial, w⟩)
  exact ⟨ha.symm.trans hb, hm.symm.trans hm', hw.symm.trans hw'⟩

theorem of_yields (h : r.Yields m w a m' w') : r.Reports m w (a.map untraced) m' w' := by
  intro t
  obtain ⟨t', ht⟩ := h t
  exact ⟨a, t', ht, rfl⟩

protected theorem pure (x : ServiceResult α) :
    (pure x : Run σ (ServiceResult α)).Reports m w (.ok x.untraced) m w :=
  of_yields (Run.Yields.pure x)

/-- What follows an operation and does not look at its spans. -/
protected theorem bind {x : ServiceResult α} {b : Except Failure (ServiceResult β)}
    (h : r.Reports m w (.ok x) m' w') (blind : ∀ y, f y = f y.untraced)
    (k : (f x).Reports m' w' b m'' w'') : (r >>= f).Reports m w b m'' w'' := by
  intro t
  obtain ⟨y, t₁, hrun, hy⟩ := h t
  obtain ⟨c, t₂, hnext, hc⟩ := k t₁
  cases y with
  | error e => cases hy
  | ok y =>
      have hx : y.untraced = x := Except.ok.inj hy
      refine ⟨c, t₂, ?_, hc⟩
      rw [Run.apply_bind, hrun]
      show (f y).apply ⟨m', t₁, w'⟩ = _
      rw [blind y, hx, hnext]

theorem bind_error {x : Failure} (h : r.Reports m w (.error x) m' w') :
    (r >>= f).Reports m w (.error x) m' w' := by
  intro t
  obtain ⟨y, t₁, hrun, hy⟩ := h t
  cases y with
  | ok y => cases hy
  | error e =>
      cases hy
      exact ⟨.error x, t₁, by rw [Run.apply_bind, hrun], rfl⟩

/-- **An operation of its own** reports what its body reports, whether or not
its spans are attached to the answer. -/
protected theorem traced (name : Text) (h : r.Reports m w a m' w') :
    (Run.traced name ServiceResult.attach r).Reports m w a m' w' := by
  intro t
  obtain ⟨hmarks, hworld, hanswer⟩ := traced_entered name ServiceResult.attach r ⟨m, t, w⟩
  have hbody : r.Reports (Session.entered ⟨m, t, w⟩ name).marks
      (Session.entered ⟨m, t, w⟩ name).world a m' w' := by
    rw [Session.entered_marks, Session.entered_world]
    exact h
  obtain ⟨ha, hm, hw⟩ := hbody.apply_eq
  let outer := (Run.traced name ServiceResult.attach r).apply ⟨m, t, w⟩
  refine ⟨outer.1, outer.2.trace, ?_, ?_⟩
  · rw [← hm, ← hw, ← hmarks, ← hworld]
  · show outer.1.map untraced = a
    rcases hanswer with hanswer | ⟨span, hanswer⟩ <;> rw [hanswer]
    · exact ha
    · rw [ServiceResult.map_untraced_attach, ha]

/-- An operation of its own that attempts some work, and makes an answer
without spans of what comes of it. -/
theorem attempt {work : Run σ β} {c : Except Failure β}
    {k : Except Error β → Run σ (ServiceResult α)} {f : Except Error β → ServiceResult α}
    (name : Text) (h : work.Yields m w c m' w') (answers : ∀ e, k e = pure (f e)) :
    (Run.traced name ServiceResult.attach (Run.attempt work >>= k)).Reports m w
      ((attempted c).map fun e => (f e).untraced) m' w' := by
  refine Reports.traced name ?_
  have hwork := Run.Yields.attempt h
  rcases c with (⟨e, cause⟩ | g) | x
  · refine of_yields (Run.Yields.bind hwork ?_) (a := .ok (f (.error e)))
    rw [answers]
    exact Run.Yields.pure _
  · exact of_yields (a := .error (.fault g)) (Run.Yields.bind_error hwork)
  · refine of_yields (Run.Yields.bind hwork ?_) (a := .ok (f (.ok x)))
    rw [answers]
    exact Run.Yields.pure _

end Run.Reports

/-! ## Calls -/

/-- What a run does, and what the same run does with recorded collaborators:
the same, and the recorder writes down some calls. -/
structure Run.Recording (r : Run σ α) (r' : Run (Recorded σ) α) (m : Marks) (w : σ)
    (a : Except Failure α) (calls : List Call) (m' : Marks) (w' : σ) : Prop where
  plain : r.Yields m w a m' w'
  recorded (earlier : List Call) : r'.Yields m ⟨w, earlier⟩ a m' ⟨w', earlier ++ calls⟩

/-- What an operation reports, and what the same operation reports with
recorded collaborators. -/
structure Run.Recounting (r : Run σ (ServiceResult α)) (r' : Run (Recorded σ) (ServiceResult α))
    (m : Marks) (w : σ) (a : Except Failure (ServiceResult α)) (calls : List Call) (m' : Marks)
    (w' : σ) : Prop where
  plain : r.Reports m w a m' w'
  recorded (earlier : List Call) : r'.Reports m ⟨w, earlier⟩ a m' ⟨w', earlier ++ calls⟩

namespace Run.Recounting

variable {r : Run σ (ServiceResult α)} {r' : Run (Recorded σ) (ServiceResult α)}
  {f : ServiceResult α → Run σ (ServiceResult β)}
  {f' : ServiceResult α → Run (Recorded σ) (ServiceResult β)} {m m' m'' : Marks} {w w' w'' : σ}
  {a : Except Failure (ServiceResult α)} {calls calls' : List Call}

/-- What an operation recounts, from its answer in some session. -/
theorem of_apply {s s' : Session σ} {b : Except Failure (ServiceResult α)}
    (h : r.Recounting r' s.marks s.world a calls m' w') (run : r.apply s = (b, s')) :
    r.Recounting r' s.marks s.world (b.map untraced) calls s'.marks s'.world := by
  obtain ⟨ha, hm, hw⟩ := h.plain.apply_eq
  rw [run] at ha hm hw
  rw [ha, hm, hw]
  exact h

protected theorem pure (x : ServiceResult α) :
    Run.Recounting (pure x) (pure x) m w (.ok x.untraced) [] m w where
  plain := Reports.pure x
  recorded earlier := by
    rw [List.append_nil]
    exact Reports.pure x

/-- What follows an operation adds its calls. -/
protected theorem bind {x : ServiceResult α} {b : Except Failure (ServiceResult β)}
    (h : r.Recounting r' m w (.ok x) calls m' w') (blind : ∀ y, f y = f y.untraced)
    (blind' : ∀ y, f' y = f' y.untraced)
    (k : (f x).Recounting (f' x) m' w' b calls' m'' w'') :
    (r >>= f).Recounting (r' >>= f') m w b (calls ++ calls') m'' w'' where
  plain := h.plain.bind blind k.plain
  recorded earlier := by
    rw [← List.append_assoc]
    exact (h.recorded earlier).bind blind' (k.recorded (earlier ++ calls))

theorem bind_error {x : Failure} (h : r.Recounting r' m w (.error x) calls m' w') :
    (r >>= f).Recounting (r' >>= f') m w (.error x) calls m' w' where
  plain := h.plain.bind_error
  recorded earlier := (h.recorded earlier).bind_error

protected theorem traced (name : Text) (h : r.Recounting r' m w a calls m' w') :
    (Run.traced name ServiceResult.attach r).Recounting
      (Run.traced name ServiceResult.attach r') m w a calls m' w' where
  plain := h.plain.traced name
  recorded earlier := (h.recorded earlier).traced name

end Run.Recounting

namespace Loader

variable (l : Loader σ) (m : Marks) (w : σ)

theorem collectSchemas_recording (overlays : List DocumentSchema) :
    ∃ a calls m' w', Run.Recording (l.collectSchemas overlays)
      (l.recorded.collectSchemas overlays) m w a calls m' w' := by
  obtain ⟨answer, found, calls, w', h⟩ := Collection.total l overlays w
  exact ⟨answer, calls, m.claimAll found, w', h.yields m, fun earlier =>
    (h.recorded earlier).yields m⟩

theorem collectValues_recording (overlays : List DataValues) (schema : Schema) :
    ∃ a calls m' w', Run.Recording (l.collectValues overlays schema)
      (l.recorded.collectValues overlays schema) m w a calls m' w' := by
  obtain ⟨answer, found, calls, w', h⟩ := Resolution.total l overlays schema w
  exact ⟨answer, calls, m.claimAll found, w', h.yields m, fun earlier =>
    (h.recorded earlier).yields m⟩

theorem evaluateLibrary_recording (values : DataValues) (libraryValues : List DataValues)
    (librarySchemas : List DocumentSchema) :
    ∃ a calls m' w', Run.Recording (l.evaluateLibrary values libraryValues librarySchemas)
      (l.recorded.evaluateLibrary values libraryValues librarySchemas) m w a calls m' w' := by
  let seed : Seed := ⟨values, libraryValues, librarySchemas⟩
  rcases make : Action.apply (l.collaborators.newEngine seed) w with ⟨x | e, w₁⟩
  · refine ⟨.error x, [.newEngine seed], m, w₁, evaluateLibrary_noEngine make, fun earlier => ?_⟩
    apply evaluateLibrary_noEngine
    show Action.apply (Action.recorded (.newEngine seed)
      do return (← l.collaborators.newEngine seed).recorded) ⟨w, earlier⟩ = _
    rw [Action.recorded_apply, Action.apply_bind, make]
  · let v : Scene σ := ⟨e, l.context.root, m, libraryValues⟩
    obtain ⟨answer, calls, w', h⟩ := Outcome.total l.collaborators v l.library.accessible w₁
    exact ⟨answer, .newEngine seed :: calls, m, w', h.yields (v := v) make rfl, fun earlier =>
      h.recorded_yields (v := v) make rfl earlier⟩

/-! The three operations have reports. -/

theorem schemas_recounting (overlays : List DocumentSchema) :
    ∃ a calls m' w', Run.Recounting (l.schemas overlays) (l.recorded.schemas overlays) m w a calls
      m' w' := by
  obtain ⟨c, calls, m', w', h⟩ := l.collectSchemas_recording m w overlays
  refine ⟨_, calls, m', w',
    Run.Reports.attempt (f := ServiceResult.ofSchemas) _ h.plain fun e => ?_, fun earlier =>
    Run.Reports.attempt (f := ServiceResult.ofSchemas) _ (h.recorded earlier) fun e => ?_⟩ <;>
  cases e <;> rfl

theorem values_recounting (overlays : List DataValues) (schema : Schema) :
    ∃ a calls m' w', Run.Recounting (l.values overlays schema) (l.recorded.values overlays schema)
      m w a calls m' w' := by
  obtain ⟨c, calls, m', w', h⟩ := l.collectValues_recording m w overlays schema
  exact ⟨_, calls, m', w', Run.Reports.attempt _ h.plain fun _ => rfl,
    fun earlier => Run.Reports.attempt _ (h.recorded earlier) fun _ => rfl⟩

theorem eval_recounting (values : DataValues) (libraryValues : List DataValues)
    (librarySchemas : List DocumentSchema) :
    ∃ a calls m' w', Run.Recounting (l.eval values libraryValues librarySchemas)
      (l.recorded.eval values libraryValues librarySchemas) m w a calls m' w' := by
  obtain ⟨c, calls, m', w', h⟩ :=
    l.evaluateLibrary_recording m w values libraryValues librarySchemas
  exact ⟨_, calls, m', w', Run.Reports.attempt _ h.plain fun _ => rfl,
    fun earlier => Run.Reports.attempt _ (h.recorded earlier) fun _ => rfl⟩

end Loader

/-! ## Operations of any kind -/

namespace Operation

/-- What an operation answers with if it succeeds. -/
def Payload : Operation → Type
  | .phase (.schemas _) => CollectedSchemas
  | .phase (.values _ _) => CollectedValues
  | .phase (.eval _ _ _) => EvalResult
  | .evaluate _ _ => Evaluation

/-- An operation of a loader. -/
def run (l : Loader σ) : (op : Operation) → Run σ (ServiceResult op.Payload)
  | .phase (.schemas overlays) => l.schemas overlays
  | .phase (.values overlays schema) => l.values overlays schema
  | .phase (.eval values libraryValues librarySchemas) =>
    l.eval values libraryValues librarySchemas
  | .evaluate schemaOverlays valuesOverlays => l.evaluate schemaOverlays valuesOverlays

/-- The name of the span of an operation. -/
def name : Operation → Text
  | .phase (.schemas _) => "LibraryLoader.schemas"
  | .phase (.values _ _) => "LibraryLoader.values"
  | .phase (.eval _ _ _) => "LibraryLoader.eval"
  | .evaluate _ _ => "LibraryLoader.evaluate"

end Operation

end Stencil
