import Stencil.Proofs.Evaluation.Reports

/-!
# A complete evaluation and its phases by hand

A complete evaluation is meant to be what a caller gets who collects schemas,
collects values and evaluates files one after another, each with what came out
of the one before, and stops at the first that does not succeed. `ByHand` says
what such a caller gets. It has one rule for each place at which the caller
can stop, which is stated with the results of the operations themselves, not
with what they do inside.

The two differ in what is traced: by hand there are three operations, each
with spans of its own, and otherwise there is one, whose spans are around
those of the phases. So they are compared up to spans.

## Main definitions

* `ByHand` — what the three operations come to by hand.

## Main results

* `ByHand.exists` — they come to something.
* `ByHand.phases_recounting` — and a complete evaluation comes to the same.
* `Operation.recounting` — every operation has a report.
* `evaluate_byHand` — the two agree, in answers, decisions on output, worlds
  and calls.
-/

namespace Stencil

variable {σ : Type}

open ServiceResult (untraced)

/-- What comes of collecting schemas, collecting values and evaluating files
by hand, and the session that is left: an outcome with warnings, or a fault
that escapes from one of the operations. -/
inductive ByHand (l : Loader σ) (schemaOverlays : List DocumentSchema)
    (valuesOverlays : List DataValues) (s : Session σ) :
    Except Failure (Except Error Evaluation × List Text) → Session σ → Prop
  /-- A fault escapes while schemas are collected. -/
  | schemasRaise {x : Failure} {s₁ : Session σ}
      (schemas : (l.schemas schemaOverlays).apply s = (.error x, s₁)) :
      ByHand l schemaOverlays valuesOverlays s (.error x) s₁
  /-- Schemas cannot be collected. -/
  | schemasFail {r : ServiceResult CollectedSchemas} {e : Error} {s₁ : Session σ}
      (schemas : (l.schemas schemaOverlays).apply s = (.ok r, s₁)) (fail : r.outcome = .error e) :
      ByHand l schemaOverlays valuesOverlays s (.ok (.error e, r.warnings)) s₁
  /-- A fault escapes while values are collected. -/
  | valuesRaise {r : ServiceResult CollectedSchemas} {collected : CollectedSchemas} {x : Failure}
      {s₁ s₂ : Session σ} (schemas : (l.schemas schemaOverlays).apply s = (.ok r, s₁))
      (ok : r.outcome = .ok collected)
      (values : (l.values valuesOverlays collected.schema).apply s₁ = (.error x, s₂)) :
      ByHand l schemaOverlays valuesOverlays s (.error x) s₂
  /-- Values cannot be collected. -/
  | valuesFail {r : ServiceResult CollectedSchemas} {collected : CollectedSchemas}
      {r' : ServiceResult CollectedValues} {e : Error} {s₁ s₂ : Session σ}
      (schemas : (l.schemas schemaOverlays).apply s = (.ok r, s₁)) (ok : r.outcome = .ok collected)
      (values : (l.values valuesOverlays collected.schema).apply s₁ = (.ok r', s₂))
      (fail : r'.outcome = .error e) :
      ByHand l schemaOverlays valuesOverlays s (.ok (.error e, r.warnings)) s₂
  /-- A fault escapes while files are evaluated. -/
  | evalRaise {r : ServiceResult CollectedSchemas} {collected : CollectedSchemas}
      {r' : ServiceResult CollectedValues} {found : CollectedValues} {x : Failure}
      {s₁ s₂ s₃ : Session σ}
      (schemas : (l.schemas schemaOverlays).apply s = (.ok r, s₁)) (ok : r.outcome = .ok collected)
      (values : (l.values valuesOverlays collected.schema).apply s₁ = (.ok r', s₂))
      (ok' : r'.outcome = .ok found)
      (eval : (l.eval found.values found.libraryValues collected.librarySchemas).apply s₂ =
        (.error x, s₃)) :
      ByHand l schemaOverlays valuesOverlays s (.error x) s₃
  /-- Files cannot be evaluated. -/
  | evalFail {r : ServiceResult CollectedSchemas} {collected : CollectedSchemas}
      {r' : ServiceResult CollectedValues} {found : CollectedValues}
      {r'' : ServiceResult EvalResult} {e : Error} {s₁ s₂ s₃ : Session σ}
      (schemas : (l.schemas schemaOverlays).apply s = (.ok r, s₁)) (ok : r.outcome = .ok collected)
      (values : (l.values valuesOverlays collected.schema).apply s₁ = (.ok r', s₂))
      (ok' : r'.outcome = .ok found)
      (eval : (l.eval found.values found.libraryValues collected.librarySchemas).apply s₂ =
        (.ok r'', s₃))
      (fail : r''.outcome = .error e) :
      ByHand l schemaOverlays valuesOverlays s (.ok (.error e, r.warnings)) s₃
  /-- All three succeed. -/
  | done {r : ServiceResult CollectedSchemas} {collected : CollectedSchemas}
      {r' : ServiceResult CollectedValues} {found : CollectedValues}
      {r'' : ServiceResult EvalResult} {result : EvalResult} {s₁ s₂ s₃ : Session σ}
      (schemas : (l.schemas schemaOverlays).apply s = (.ok r, s₁)) (ok : r.outcome = .ok collected)
      (values : (l.values valuesOverlays collected.schema).apply s₁ = (.ok r', s₂))
      (ok' : r'.outcome = .ok found)
      (eval : (l.eval found.values found.libraryValues collected.librarySchemas).apply s₂ =
        (.ok r'', s₃))
      (ok'' : r''.outcome = .ok result) :
      ByHand l schemaOverlays valuesOverlays s
        (.ok (.ok ⟨collected.schema, found.values, result⟩, r.warnings)) s₃

namespace ByHand

variable {l : Loader σ} {schemaOverlays : List DocumentSchema} {valuesOverlays : List DataValues}
  {s s' : Session σ} {ending : Except Failure (Except Error Evaluation × List Text)}

/-- **By hand, the operations come to something.** -/
theorem «exists» (l : Loader σ) (schemaOverlays : List DocumentSchema)
    (valuesOverlays : List DataValues) (s : Session σ) :
    ∃ ending s', ByHand l schemaOverlays valuesOverlays s ending s' := by
  rcases schemas : (l.schemas schemaOverlays).apply s with ⟨x | r, s₁⟩
  · exact ⟨_, _, .schemasRaise schemas⟩
  cases ok : r.outcome with
  | error e => exact ⟨_, _, .schemasFail schemas ok⟩
  | ok collected =>
      rcases values : (l.values valuesOverlays collected.schema).apply s₁ with ⟨x | r', s₂⟩
      · exact ⟨_, _, .valuesRaise schemas ok values⟩
      cases ok' : r'.outcome with
      | error e => exact ⟨_, _, .valuesFail schemas ok values ok'⟩
      | ok found =>
          rcases eval : (l.eval found.values found.libraryValues
            collected.librarySchemas).apply s₂ with ⟨x | r'', s₃⟩
          · exact ⟨_, _, .evalRaise schemas ok values ok' eval⟩
          cases ok'' : r''.outcome with
          | error e => exact ⟨_, _, .evalFail schemas ok values ok' eval ok''⟩
          | ok result => exact ⟨_, _, .done schemas ok values ok' eval ok''⟩

/-- What a complete evaluation answers, given what its phases come to by
hand. -/
def answer (ending : Except Failure (Except Error Evaluation × List Text)) :
    Except Failure (ServiceResult Evaluation) :=
  ending.map fun p => .of "evaluate" p.1 p.2

theorem answer_injective : Function.Injective answer := by
  intro a b h
  rcases a with x | ⟨outcome, warnings⟩ <;> rcases b with y | ⟨outcome', warnings'⟩ <;> cases h <;>
    rfl

section Phases

variable {r : ServiceResult CollectedSchemas} {collected : CollectedSchemas}
  {r' : ServiceResult CollectedValues} {found : CollectedValues} {s₁ s₂ : Session σ}
  {a : Except Failure (ServiceResult Evaluation)} {m' : Marks} {w' : σ}
  {stop : Error → ServiceResult Evaluation}
  {finish : CollectedValues → EvalResult → ServiceResult Evaluation}

/-- What a complete evaluation does once its schemas have been collected. -/
private theorem after_schemas
    (schemas : (l.schemas schemaOverlays).apply s = (.ok r, s₁)) (ok : r.outcome = .ok collected)
    (rest : ∃ calls,
      let stop (e : Error) : ServiceResult Evaluation := .of "evaluate" (.error e) r.warnings
      let finish (found : CollectedValues) (result : EvalResult) : ServiceResult Evaluation :=
        .of "evaluate" (.ok ⟨collected.schema, found.values, result⟩) r.warnings
      (l.afterSchemas valuesOverlays collected stop finish).Recounting
        (l.recorded.afterSchemas valuesOverlays collected stop finish) s₁.marks s₁.world a calls
        m' w') :
    ∃ calls, (l.phases schemaOverlays valuesOverlays).Recounting
      (l.recorded.phases schemaOverlays valuesOverlays) s.marks s.world a calls m' w' := by
  obtain ⟨_, calls, _, _, h⟩ := l.schemas_recounting s.marks s.world schemaOverlays
  obtain ⟨later, hrest⟩ := rest
  obtain ⟨op, outcome, warnings, spans⟩ := r
  cases ok
  exact ⟨calls ++ later, (h.of_apply schemas).bind (fun _ => rfl) (fun _ => rfl) hrest⟩

/-- And once its values have been collected. -/
private theorem after_values
    (values : (l.values valuesOverlays collected.schema).apply s₁ = (.ok r', s₂))
    (ok : r'.outcome = .ok found)
    (rest : ∃ calls, (do
        let evaluated ← l.eval found.values found.libraryValues collected.librarySchemas
        match evaluated.outcome with
        | .error e => return stop e
        | .ok result => return finish found result
          : Run σ (ServiceResult Evaluation)).Recounting
      (do
        let evaluated ← l.recorded.eval found.values found.libraryValues collected.librarySchemas
        match evaluated.outcome with
        | .error e => return stop e
        | .ok result => return finish found result) s₂.marks s₂.world a calls m' w') :
    ∃ calls, (l.afterSchemas valuesOverlays collected stop finish).Recounting
        (l.recorded.afterSchemas valuesOverlays collected stop finish) s₁.marks s₁.world a calls
        m' w' := by
  obtain ⟨_, calls, _, _, h⟩ :=
    l.values_recounting s₁.marks s₁.world valuesOverlays collected.schema
  obtain ⟨later, hrest⟩ := rest
  obtain ⟨op, outcome, warnings, spans⟩ := r'
  cases ok
  exact ⟨calls ++ later, (h.of_apply values).bind (fun _ => rfl) (fun _ => rfl) hrest⟩

end Phases

/-- **A complete evaluation comes to the same** as its phases by hand, with
some calls, whatever is traced. -/
theorem phases_recounting (h : ByHand l schemaOverlays valuesOverlays s ending s') :
    ∃ calls, (l.phases schemaOverlays valuesOverlays).Recounting
      (l.recorded.phases schemaOverlays valuesOverlays) s.marks s.world (answer ending) calls
      s'.marks s'.world := by
  cases h with
  | schemasRaise schemas =>
      obtain ⟨_, calls, _, _, h⟩ := l.schemas_recounting s.marks s.world schemaOverlays
      exact ⟨calls, (h.of_apply schemas).bind_error⟩
  | @schemasFail r e s₁ schemas fail =>
      obtain ⟨_, calls, _, _, h⟩ := l.schemas_recounting s.marks s.world schemaOverlays
      obtain ⟨op, outcome, warnings, spans⟩ := r
      cases fail
      exact ⟨calls ++ [], (h.of_apply schemas).bind (fun _ => rfl) (fun _ => rfl) (.pure _)⟩
  | @valuesRaise r collected x s₁ s₂ schemas ok values =>
      refine after_schemas schemas ok ?_
      obtain ⟨_, calls, _, _, h⟩ :=
        l.values_recounting s₁.marks s₁.world valuesOverlays collected.schema
      exact ⟨calls, (h.of_apply values).bind_error⟩
  | @valuesFail r collected r' e s₁ s₂ schemas ok values fail =>
      refine after_schemas schemas ok ?_
      obtain ⟨_, calls, _, _, h⟩ :=
        l.values_recounting s₁.marks s₁.world valuesOverlays collected.schema
      obtain ⟨op, outcome, warnings, spans⟩ := r'
      cases fail
      exact ⟨calls ++ [], (h.of_apply values).bind (fun _ => rfl) (fun _ => rfl) (.pure _)⟩
  | @evalRaise r collected r' found x s₁ s₂ s₃ schemas ok values ok' eval =>
      refine after_schemas schemas ok (after_values values ok' ?_)
      obtain ⟨_, calls, _, _, h⟩ := l.eval_recounting s₂.marks s₂.world found.values
        found.libraryValues collected.librarySchemas
      exact ⟨calls, (h.of_apply eval).bind_error⟩
  | @evalFail r collected r' found r'' e s₁ s₂ s₃ schemas ok values ok' eval fail =>
      refine after_schemas schemas ok (after_values values ok' ?_)
      obtain ⟨_, calls, _, _, h⟩ := l.eval_recounting s₂.marks s₂.world found.values
        found.libraryValues collected.librarySchemas
      obtain ⟨op, outcome, warnings, spans⟩ := r''
      cases fail
      exact ⟨calls ++ [], (h.of_apply eval).bind (fun _ => rfl) (fun _ => rfl) (.pure _)⟩
  | @done r collected r' found r'' result s₁ s₂ s₃ schemas ok values ok' eval ok'' =>
      refine after_schemas schemas ok (after_values values ok' ?_)
      obtain ⟨_, calls, _, _, h⟩ := l.eval_recounting s₂.marks s₂.world found.values
        found.libraryValues collected.librarySchemas
      obtain ⟨op, outcome, warnings, spans⟩ := r''
      cases ok''
      exact ⟨calls ++ [], (h.of_apply eval).bind (fun _ => rfl) (fun _ => rfl) (.pure _)⟩

/-- By hand with recorded collaborators, the operations come to the same, and
the recorder writes down the calls of a complete evaluation. -/
private theorem recorded {calls : List Call}
    (h : ByHand l schemaOverlays valuesOverlays s ending s')
    (recounting : (l.phases schemaOverlays valuesOverlays).Recounting
      (l.recorded.phases schemaOverlays valuesOverlays) s.marks s.world (answer ending) calls
      s'.marks s'.world) (earlier : List Call) :
    ∃ v, ByHand l.recorded schemaOverlays valuesOverlays (s.recorded earlier) ending v ∧
      v.marks = s'.marks ∧ v.world = ⟨s'.world, earlier ++ calls⟩ := by
  obtain ⟨ending', v, h'⟩ :=
    ByHand.exists l.recorded schemaOverlays valuesOverlays (s.recorded earlier)
  obtain ⟨_, recounting'⟩ := h'.phases_recounting
  obtain ⟨hanswer, hmarks, hworld⟩ := recounting'.plain.unique (recounting.recorded earlier)
  obtain rfl := answer_injective hanswer
  exact ⟨v, h', hmarks, hworld⟩

end ByHand

/-- **Every operation has a report**, with the calls that it makes. -/
theorem Operation.recounting (l : Loader σ) (op : Operation) (m : Marks) (w : σ) :
    ∃ a calls m' w', (op.run l).Recounting (op.run l.recorded) m w a calls m' w' := by
  rcases op with (overlays | ⟨overlays, schema⟩ | ⟨values, libraryValues, librarySchemas⟩) |
    ⟨schemaOverlays, valuesOverlays⟩
  · exact l.schemas_recounting m w overlays
  · exact l.values_recounting m w overlays schema
  · exact l.eval_recounting m w values libraryValues librarySchemas
  · obtain ⟨ending, s', h⟩ := ByHand.exists l schemaOverlays valuesOverlays ⟨m, .initial, w⟩
    obtain ⟨calls, hphases⟩ := h.phases_recounting
    exact ⟨_, calls, _, _, hphases.traced "LibraryLoader.evaluate"⟩

/-- **A complete evaluation agrees with its phases by hand**, for any loader,
overlays and collaborators, and from any decisions on output, world and
traces. By hand, collecting schemas, collecting values and evaluating files
come to an ending, each with what came out of the one before, and none after
one that does not succeed. Whatever that ending is, a complete evaluation comes
to the same one: the same fault escapes it, or it answers with the same
outcome, be it an error or the schema, the values and the result; its warnings
are those about schemas; and it leaves the same decisions on output and the
same world. Both call the same collaborators in the same order. -/
theorem evaluate_byHand (l : Loader σ) (schemaOverlays : List DocumentSchema)
    (valuesOverlays : List DataValues) (m : Marks) (w : σ) (t t' : Trace Nat)
    (earlier : List Call) :
    let evaluated := (l.evaluate schemaOverlays valuesOverlays).apply ⟨m, t, w⟩
    let recorded := (l.recorded.evaluate schemaOverlays valuesOverlays).apply ⟨m, t, ⟨w, earlier⟩⟩
    (∃ ending s', ByHand l schemaOverlays valuesOverlays ⟨m, t', w⟩ ending s') ∧
    ∀ ending s', ByHand l schemaOverlays valuesOverlays ⟨m, t', w⟩ ending s' →
      let answer : Except Failure (ServiceResult Evaluation) :=
        ending.map fun p => .of "evaluate" p.1 p.2
      (evaluated.1.map untraced = answer ∧ evaluated.2.marks = s'.marks ∧
        evaluated.2.world = s'.world) ∧
      ∃ calls v,
        ByHand l.recorded schemaOverlays valuesOverlays ⟨m, t', ⟨w, earlier⟩⟩ ending v ∧
        v.marks = s'.marks ∧ v.world = ⟨s'.world, earlier ++ calls⟩ ∧
        recorded.1.map untraced = answer ∧ recorded.2.marks = s'.marks ∧
        recorded.2.world = ⟨s'.world, earlier ++ calls⟩ := by
  intro evaluated recorded
  refine ⟨ByHand.exists l schemaOverlays valuesOverlays ⟨m, t', w⟩, ?_⟩
  intro ending s' h answer
  obtain ⟨calls, hphases⟩ := h.phases_recounting
  obtain ⟨v, hrecorded, hmarks, hworld⟩ := h.recorded hphases earlier
  have hevaluate := hphases.traced "LibraryLoader.evaluate"
  let s : Session (Recorded σ) := ⟨m, t, ⟨w, earlier⟩⟩
  exact ⟨hevaluate.plain.apply_eq (s := ⟨m, t, w⟩), calls, v, hrecorded, hmarks, hworld,
    (hevaluate.recorded earlier).apply_eq (s := s)⟩

end Stencil
