import Stencil.Proofs.Schema.Conforming

/-!
# Where messages point

A message begins with the path to what is wrong, and with a word of its own where
that is the whole value. The path is written step by step while checking descends,
and an empty path stands for the whole value. But a key may have no text: below it
the path is still empty, so the next key is not set off by a dot, and a message
about what stands under it points at the whole value. What is written is the path
without the keys of that sort at its front, and nothing else is left out.

## Main definitions

* `Step.fullPath` — the path to a position, with all of its steps.
* `Step.isBlank` — keys without text.
* `SchemaType.WrongKind` — values of the wrong kind for a type.

## Main results

* `Step.foldl_extend_nil` — the path that checking writes.
* `SchemaType.wrongKind_iff` — a value is of the wrong kind if something is wrong
  with the value itself.
* `violations_located` — where messages point.
-/

namespace Stencil

/-! ## Paths -/

namespace Step

/-- A step in words, where it is the first one. -/
def first : Step → Text
  | .key k => k.display
  | .index i => "[" ++ Text.ofNat i ++ "]"

/-- A step in words, where it follows another one. -/
def later : Step → Text
  | .key k => "." ++ k.display
  | .index i => "[" ++ Text.ofNat i ++ "]"

/-- The path to a position, with all of its steps. -/
def fullPath : List Step → Text
  | [] => []
  | s :: trail => s.first ++ trail.flatMap later

/-- Whether a step is a key without text. -/
def isBlank (s : Step) : Bool := s.first.isEmpty

/-- The steps to a position without the keys at their front that have no text. -/
def shown (trail : List Step) : List Step := trail.dropWhile isBlank

theorem extend_nil (s : Step) : s.extend [] = s.first := by
  cases s <;> rfl

theorem extend_of_ne_nil {path : Text} (present : path ≠ []) (s : Step) :
    s.extend path = path ++ s.later := by
  cases s with
  | key k =>
      rw [extend, SchemaType.keyPath, if_neg (by simpa using present), later, List.append_assoc]
  | index i => simp only [extend, SchemaType.indexPath, later, List.append_assoc]

/-- Once something is written, every step is. -/
theorem foldl_extend {path : Text} (present : path ≠ []) (trail : List Step) :
    trail.foldl extend path = path ++ trail.flatMap later := by
  induction trail generalizing path with
  | nil => rw [List.flatMap_nil, List.append_nil]; rfl
  | cons s trail ih =>
      rw [List.foldl_cons, extend_of_ne_nil present, ih (by simp [present]), List.flatMap_cons,
        List.append_assoc]

/-- **The path that checking writes** is the one of the steps that are shown. -/
theorem foldl_extend_nil (trail : List Step) :
    trail.foldl extend [] = fullPath (shown trail) := by
  induction trail with
  | nil => rfl
  | cons s trail ih =>
      rw [List.foldl_cons, shown, List.dropWhile_cons, extend_nil]
      cases hfirst : s.first with
      | nil =>
          have blank : s.isBlank = true := by rw [isBlank, hfirst]; rfl
          rw [if_pos blank, ih, shown]
      | cons c cs =>
          have worded : ¬ s.isBlank = true := by rw [isBlank, hfirst]; nofun
          rw [if_neg worded, foldl_extend (List.cons_ne_nil c cs), fullPath, hfirst]

/-- The first step that is shown has text. -/
theorem first_ne_nil {trail rest : List Step} {s : Step} (h : shown trail = s :: rest) :
    s.first ≠ [] := by
  have dropped : trail.dropWhile isBlank = s :: rest := h
  have worded := List.head_dropWhile_not isBlank (by rw [dropped]; nofun)
  simp only [dropped, List.head_cons, isBlank] at worded
  simpa using worded

/-- Where the first step has text, all steps are shown. -/
theorem shown_cons {trail : List Step} {s : Step} (h : s.first ≠ []) :
    shown (s :: trail) = s :: trail :=
  List.dropWhile_cons_of_neg (by simpa [isBlank] using h)

/-- What follows the first step in a message begins with none of the signs in the
word for the whole value. -/
theorem head_later (trail : List Step) (rest : Text) :
    ∀ c ∈ (trail.flatMap later ++ (": " ++ rest)).head?, c ∉ ("(document)" : Text) := by
  cases trail with
  | nil =>
      rintro c ⟨⟩
      decide +kernel
  | cons s trail =>
      cases s <;>
      · rintro c ⟨⟩
        decide +kernel

/-- What begins a text begins the first part of it, if the second part begins with
nothing that is in it. -/
theorem prefix_of_head_notMem {start front back : Text} (h : start <+: front ++ back)
    (apart : ∀ c ∈ back.head?, c ∉ start) : start <+: front := by
  rcases Nat.lt_or_ge front.length start.length with beyond | within
  · cases back with
    | nil => rwa [List.append_nil] at h
    | cons c back =>
        have longer : front ++ [c] <+: front ++ c :: back := ⟨back, by simp⟩
        have covered : front ++ [c] <+: start := by
          refine List.prefix_of_prefix_length_le longer h ?_
          rw [List.length_append]
          exact beyond
        exact absurd (covered.subset (by simp)) (apart c rfl)
  · exact List.prefix_of_prefix_length_le h (List.prefix_append front back) within

end Step

namespace SchemaType

/-! ## Values of the wrong kind -/

/-- Whether a value is of the wrong kind for a type. -/
def WrongKind : SchemaType → Value → Prop
  | .any _ _, _ => False
  | .nullable _ wrapped, v => v ≠ .null ∧ wrapped.WrongKind v
  | .scalar _ kind _, v => v.kind.name ≠ kind ∧ ¬ (kind = ("float" : Text) ∧ v.kind = .integer)
  | .map _ _, v => ∀ es, v ≠ .map es
  | .array _ _, v => ∀ xs, v ≠ .list xs
  | .unruled _, _ => False

/-- Whether something is wrong because of the kind of a value. -/
def Cause.IsMismatch (c : Cause) : Prop := ∃ t found, c = .mismatch t found

/-- **A value is of the wrong kind** if its kind is wrong with the value itself. -/
theorem wrongKind_iff {t : SchemaType} {v : Value} :
    t.WrongKind v ↔ ∃ c : Cause, c.IsMismatch ∧ t.Offends v ⟨[], c⟩ := by
  constructor
  · intro h
    induction t using partInduction with
    | step t ih =>
        cases t with
        | any p d => exact h.elim
        | nullable p wrapped =>
            obtain ⟨c, mismatch, offends⟩ := ih wrapped (List.mem_singleton_self _) h.2
            exact ⟨c, mismatch, .nullable h.1 offends⟩
        | scalar p kind d => exact ⟨_, ⟨_, _, rfl⟩, .scalar h.1 h.2⟩
        | map p items => exact ⟨_, ⟨_, _, rfl⟩, .map h⟩
        | array p item => exact ⟨_, ⟨_, _, rfl⟩, .array h⟩
        | unruled p => exact h.elim
  · rintro ⟨c, ⟨u, found, rfl⟩, offends⟩
    generalize ho : (⟨[], .mismatch u found⟩ : Offence) = o at offends
    induction offends with
    | nullable given _ ih => exact ⟨given, ih ho⟩
    | scalar other inexact => exact ⟨other, inexact⟩
    | map other | array other => exact other
    | undeclared | under | item | unruled => cases ho

/-! ## Messages -/

/-- The message of an offence, if the check starts at the value. -/
def Offence.message (o : Offence) : Text := (o.violation []).text

/-- Whether a message begins with a place, set off by a colon. -/
def Offence.PointsAt (place : Text) (o : Offence) : Prop := place ++ (": " : Text) <+: o.message

/-- What an offence points at: its path, or the whole value where that is of the wrong
kind. -/
def Offence.pointer (o : Offence) : Text :=
  match o.cause with
  | .mismatch _ _ => Violation.place (Step.fullPath (Step.shown o.trail))
  | _ => Step.fullPath (Step.shown o.trail)

variable {o : Offence}

/-- A message begins with what the offence points at. -/
theorem Offence.message_eq (ruled : o.cause ≠ .unruled) :
    ∃ back, o.message = o.pointer ++ (": " ++ back) := by
  obtain ⟨trail, cause⟩ := o
  cases cause with
  | mismatch t found =>
      refine ⟨"expected " ++ (t.name ++ (", found " ++ (found.name ++ (" (" ++
        (t.position.text ++ ")"))))), ?_⟩
      simp only [message, violation, Violation.text, pointer, Step.foldl_extend_nil,
        List.append_assoc]
      rfl
  | undeclared p =>
      refine ⟨"key is not declared in schema (" ++ (p.text ++ ")"), ?_⟩
      simp only [message, violation, Violation.text, pointer, Step.foldl_extend_nil,
        List.append_assoc]
      rfl
  | unruled => exact absurd rfl ruled

/-- An offence with a step that is shown points there. -/
theorem Offence.pointer_of_shown (some : Step.shown o.trail ≠ []) :
    o.pointer = Step.fullPath (Step.shown o.trail) := by
  obtain ⟨s, rest, hshown⟩ := List.exists_cons_of_ne_nil some
  have present : Step.fullPath (Step.shown o.trail) ≠ [] := by
    rw [hshown, Step.fullPath]
    simp [Step.first_ne_nil hshown]
  unfold pointer
  split
  · exact if_neg (by simpa using present)
  · rfl

/-- **Which messages point at the whole value**: those that a value is of the wrong
kind, where no step that leads there is shown. -/
theorem Offence.pointsAt_document_iff (ruled : o.cause ≠ .unruled)
    (keys : ∀ k, .key k ∈ o.trail → ¬ ("(document)" : Text) <+: k.display) :
    o.PointsAt "(document)" ↔ o.cause.IsMismatch ∧ Step.shown o.trail = [] := by
  obtain ⟨back, hmessage⟩ := o.message_eq ruled
  constructor
  · intro h
    have start : ("(document)" : Text) <+: o.message := (List.prefix_append ..).trans h
    cases hshown : Step.shown o.trail with
    | nil =>
        refine ⟨?_, rfl⟩
        cases hcause : o.cause with
        | mismatch t found => exact ⟨t, found, rfl⟩
        | undeclared p =>
            have nothing : o.pointer = [] := by rw [pointer, hcause, hshown]; rfl
            rw [hmessage, nothing] at start
            have none := List.prefix_nil.mp (Step.prefix_of_head_notMem start (Step.head_later [] back))
            exact absurd none (by decide +kernel)
        | unruled => exact absurd hcause ruled
    | cons s rest =>
        have mem : s ∈ Step.shown o.trail := by rw [hshown]; exact List.mem_cons_self
        rw [hmessage, pointer_of_shown (by rw [hshown]; nofun), hshown, Step.fullPath,
          List.append_assoc] at start
        have front := Step.prefix_of_head_notMem start (Step.head_later rest back)
        cases s with
        | key k => exact absurd front (keys k ((List.dropWhile_suffix Step.isBlank).subset mem))
        | index i =>
            obtain ⟨_, h⟩ := front
            cases h
  · rintro ⟨⟨t, found, hcause⟩, hshown⟩
    have whole : o.pointer = "(document)" := by rw [pointer, hcause, hshown]; rfl
    exact ⟨back, by rw [hmessage, whole, List.append_assoc]⟩

/-- The first step to an offence below a value is a key of the value or an index. -/
theorem Offends.first_step {t : SchemaType} {v : Value} (h : t.Offends v o) {s : Step}
    {rest : List Step} (below : o.trail = s :: rest) :
    (∃ es e, v = .map es ∧ e ∈ es ∧ s = .key e.1) ∨ ∃ i, s = .index i := by
  induction h with
  | nullable _ _ ih => exact ih below
  | undeclared mem | under mem =>
      cases below
      exact .inl ⟨_, _, rfl, mem, rfl⟩
  | item =>
      cases below
      exact .inr ⟨_, rfl⟩
  | scalar | map | array | unruled => cases below

/-- If all keys of the whole value have text, all steps to an offence are shown. -/
theorem Offends.shown_eq {t : SchemaType} {v : Value} (h : t.Offends v o)
    (worded : ∀ es, v = .map es → ∀ e ∈ es, e.1.display ≠ []) : Step.shown o.trail = o.trail := by
  cases htrail : o.trail with
  | nil => rfl
  | cons s rest =>
      refine Step.shown_cons ?_
      rcases h.first_step htrail with ⟨es, e, hv, mem, rfl⟩ | ⟨i, rfl⟩
      · exact worded es hv e mem
      · nofun

end SchemaType

/-- **Where messages point.** Keys that begin with the word for the whole value
apart, a message begins with that word exactly if a value is of the wrong kind and
no step that leads there is shown, and it begins with the path of the steps that
are shown if there are any. So if all keys of the whole value have text, a message
begins with the word exactly if the whole value is of the wrong kind, and every
other one begins with the full path. -/
theorem violations_located (t : SchemaType) (v : Value) (ruled : t.Ruled)
    (keys : ∀ trail ∈ v.trails, ∀ k, .key k ∈ trail → ¬ ("(document)" : Text) <+: k.display) :
    t.check [] v = .ok ((t.offences v).map (·.message)) ∧
      (∀ o ∈ t.offences v,
        (o.PointsAt "(document)" ↔ o.cause.IsMismatch ∧ Step.shown o.trail = []) ∧
        (Step.shown o.trail ≠ [] → o.PointsAt (Step.fullPath (Step.shown o.trail)))) ∧
      ((∀ es, v = .map es → ∀ e ∈ es, e.1.display ≠ []) →
        ((∃ o ∈ t.offences v, o.PointsAt "(document)") ↔ t.WrongKind v) ∧
          ∀ o ∈ t.offences v, o.trail ≠ [] → o.PointsAt (Step.fullPath o.trail)) := by
  have pointing : ∀ o ∈ t.offences v,
      (o.PointsAt "(document)" ↔ o.cause.IsMismatch ∧ Step.shown o.trail = []) ∧
        (Step.shown o.trail ≠ [] → o.PointsAt (Step.fullPath (Step.shown o.trail))) := by
    intro o mem
    have hcause := (SchemaType.mem_offences.mp mem).ruled ruled
    have hkeys := keys o.trail ((SchemaType.trails_sublist t v).subset (List.mem_map_of_mem mem))
    refine ⟨o.pointsAt_document_iff hcause hkeys, fun some => ?_⟩
    obtain ⟨back, hmessage⟩ := o.message_eq hcause
    exact ⟨back, by rw [hmessage, o.pointer_of_shown some, List.append_assoc]⟩
  refine ⟨SchemaType.check_eq ruled [] v, pointing, fun worded => ?_⟩
  have shown : ∀ o ∈ t.offences v, Step.shown o.trail = o.trail := fun o mem =>
    (SchemaType.mem_offences.mp mem).shown_eq worded
  refine ⟨⟨?_, fun wrong => ?_⟩, fun o mem some => ?_⟩
  · rintro ⟨⟨trail, cause⟩, mem, points⟩
    obtain ⟨mismatch, none⟩ := (pointing _ mem).1.mp points
    cases (shown _ mem).symm.trans none
    exact SchemaType.wrongKind_iff.mpr ⟨cause, mismatch, SchemaType.mem_offences.mp mem⟩
  · obtain ⟨cause, mismatch, offends⟩ := SchemaType.wrongKind_iff.mp wrong
    have mem := SchemaType.mem_offences.mpr offends
    exact ⟨_, mem, (pointing _ mem).1.mpr ⟨mismatch, rfl⟩⟩
  · have located := (pointing o mem).2
    rw [shown o mem] at located
    exact located some

/-- A text for an integer, below a key without text that is not at the front of the
path. -/
theorem violations_located_blank_within :
    let t : SchemaType := .map .unknown [(.str "db", .map .unknown
      [(.str [], .map .unknown [(.str "port", .scalar .unknown "integer" .null)])])]
    let v : Value := .map [(.str "db", .map [(.str [], .map [(.str "port", .str "eighty")])])]
    t.Ruled ∧
      (∀ trail ∈ v.trails, ∀ k, .key k ∈ trail → ¬ ("(document)" : Text) <+: k.display) ∧
      (∀ es, v = .map es → ∀ e ∈ es, e.1.display ≠ []) ∧ ¬ t.WrongKind v ∧
      ∃ o ∈ t.offences v, o.cause.IsMismatch ∧ o.PointsAt "db..port" ∧
        ¬ o.PointsAt "(document)" := by
  intro t v
  have ruled : t.Ruled := by
    have one : ∀ {k : Value} {u : SchemaType}, u.Ruled → (SchemaType.map .unknown [(k, u)]).Ruled :=
      fun h => .map (List.forall_mem_singleton.mpr h)
    exact one (one (one .scalar))
  have keys : ∀ trail ∈ v.trails, ∀ k, .key k ∈ trail → ¬ ("(document)" : Text) <+: k.display := by
    simp [v, Value.trails, Value.entriesTrails, Value.display]
    decide +kernel
  have worded : ∀ es, v = .map es → ∀ e ∈ es, e.1.display ≠ [] := by
    intro es hes e mem
    obtain rfl := Value.map.inj hes
    rw [List.mem_singleton.mp mem]
    decide +kernel
  obtain ⟨-, -, located⟩ := violations_located t v ruled keys
  obtain ⟨whole, below⟩ := located worded
  have fits : ¬ t.WrongKind v := fun h => h _ rfl
  have offends : (⟨[.key (.str "db"), .key (.str []), .key (.str "port")],
      .mismatch (.scalar .unknown "integer" .null) .string⟩ : SchemaType.Offence) ∈ t.offences v := by
    with_unfolding_all exact List.mem_singleton_self _
  exact ⟨ruled, keys, worded, fits, _, offends, ⟨_, _, rfl⟩,
    below _ offends (List.cons_ne_nil _ _),
    fun points => fits (whole.mp ⟨_, offends, points⟩)⟩

/-- Below a key without text at the front, nothing says that the value is not at the
top. -/
example : (SchemaType.map .unknown [(.str [], .map .unknown
      [(.str "a", .scalar .unknown "string" .null)])]).check []
    (.map [(.str [], .map [(.str "a", .int 5)])]) =
      .ok ["a: expected string, found integer (?)"] := by
  with_unfolding_all rfl

end Stencil
