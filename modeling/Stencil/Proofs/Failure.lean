import Mathlib.Data.List.Forall2
import Stencil.Failure

/-!
# Steps that may fail

Steps that may fail answer if all of them answer, and fail as the first one
does that fails. The two rules are stated for two steps, and for a step that
is taken for every element of a list.

## Main results

* `bind_eq_ok`, `bind_eq_error` — how two steps end.
* `mapM_eq_ok`, `mapM_eq_error` — how a step for every element ends.
* `Failure.becomes_iff` — a failure becomes what a wrapper makes of it.
* `wrapFaults_ok`, `wrapFaults_error`, `wrapFaults_fault` — what a stack of
  wrappers makes of an answer and of a failure.
-/

namespace Stencil

variable {ε α β : Type}

/-- Two steps answer if both do. -/
theorem bind_eq_ok {e : Except ε α} {f : α → Except ε β} {b : β} :
    (e >>= f) = .ok b ↔ ∃ a, e = .ok a ∧ f a = .ok b := by
  cases e with
  | error x => exact ⟨nofun, fun ⟨_, h, _⟩ => nomatch h⟩
  | ok a => exact ⟨fun h => ⟨a, rfl, h⟩, fun ⟨_, h, hf⟩ => by cases h; exact hf⟩

/-- Two steps fail as the first one does, or as the second one does after
it. -/
theorem bind_eq_error {e : Except ε α} {f : α → Except ε β} {x : ε} :
    (e >>= f) = .error x ↔ e = .error x ∨ ∃ a, e = .ok a ∧ f a = .error x := by
  cases e with
  | error y =>
      constructor
      · intro h
        cases h
        exact .inl rfl
      · rintro (h | ⟨_, h, _⟩) <;> cases h
        rfl
  | ok a =>
      constructor
      · exact fun h => .inr ⟨a, rfl, h⟩
      · rintro (h | ⟨_, h, hf⟩) <;> cases h
        exact hf

/-- A failure under another name is still one, and an answer stays. -/
theorem mapError_eq_ok {δ : Type} {g : ε → δ} {e : Except ε α} {a : α} :
    e.mapError g = .ok a ↔ e = .ok a := by
  cases e <;> simp [Except.mapError]

theorem mapError_eq_error {δ : Type} {g : ε → δ} {e : Except ε α} {y : δ} :
    e.mapError g = .error y ↔ ∃ x, e = .error x ∧ g x = y := by
  cases e <;> simp [Except.mapError]

/-- Whatever is related to others one by one is related to one of them. -/
theorem exists_of_forall₂ {R : α → β → Prop} {as : List α} {bs : List β}
    (h : List.Forall₂ R as bs) : ∀ a ∈ as, ∃ b, R a b := by
  induction h with
  | nil => exact fun a ha => absurd ha List.not_mem_nil
  | cons one _ ih =>
      intro a ha
      rcases List.mem_cons.mp ha with rfl | ha
      · exact ⟨_, one⟩
      · exact ih a ha

/-- A step for every element answers if it does for each. -/
theorem mapM_eq_ok {f : α → Except ε β} {as : List α} {bs : List β} (h : as.mapM f = .ok bs) :
    List.Forall₂ (fun a b => f a = .ok b) as bs := by
  induction as generalizing bs with
  | nil =>
      cases h
      exact .nil
  | cons a as ih =>
      rw [List.mapM_cons] at h
      obtain ⟨b, hb, h⟩ := bind_eq_ok.mp h
      obtain ⟨bs, hbs, h⟩ := bind_eq_ok.mp h
      cases h
      exact .cons hb (ih hbs)

/-- A step for every element fails as it does for one of them. -/
theorem mapM_eq_error {f : α → Except ε β} {as : List α} {x : ε} (h : as.mapM f = .error x) :
    ∃ a ∈ as, f a = .error x := by
  induction as with
  | nil => cases h
  | cons a as ih =>
      rw [List.mapM_cons] at h
      rcases bind_eq_error.mp h with h | ⟨b, -, h⟩
      · exact ⟨a, List.mem_cons_self .., h⟩
      · rcases bind_eq_error.mp h with h | ⟨bs, -, h⟩
        · obtain ⟨c, hc, hfail⟩ := ih h
          exact ⟨c, List.mem_cons_of_mem _ hc, hfail⟩
        · cases h

/-! ## Wrappers -/

namespace Failure

/-- What becomes of a failure behind a wrapper that describes faults. An error stays, with its
cause. A fault becomes the error that describes its message, and is the cause of it. -/
inductive Becomes (describe : Text → Error) : Failure → Failure → Prop
  | error (e : Error) (cause : Option Fault) :
    Becomes describe (.error e cause) (.error e cause)
  | fault (f : Fault) : Becomes describe (.fault f) (.error (describe f.message) (some f))

variable {describe : Text → Error} {x y : Failure}

theorem becomes_wrap (describe : Text → Error) (x : Failure) :
    x.Becomes describe (x.wrap describe) := by
  cases x with
  | error e cause => exact .error e cause
  | fault f => exact .fault f

theorem Becomes.eq_wrap (h : x.Becomes describe y) : y = x.wrap describe := by
  cases h <;> rfl

/-- **A failure becomes** what a wrapper makes of it, and nothing else. -/
theorem becomes_iff : x.Becomes describe y ↔ y = x.wrap describe := by
  constructor
  · exact Becomes.eq_wrap
  · rintro rfl
    exact becomes_wrap describe x

/-- No fault gets out of a wrapper. -/
theorem Becomes.not_fault (h : x.Becomes describe y) (f : Fault) : y ≠ .fault f := by
  cases h <;> nofun

end Failure

/-- An answer passes any number of wrappers as it is. -/
theorem wrapFaults_ok (describes : List (Text → Error)) (a : α) :
    wrapFaults describes (.ok a : Except Failure α) = .ok a := by
  induction describes with
  | nil => rfl
  | cons describe describes ih => exact ih

/-- An error of the library passes any number of wrappers as it is. -/
theorem wrapFaults_error (describes : List (Text → Error)) (e : Error) (cause : Option Fault) :
    wrapFaults describes (.error (.error e cause) : Except Failure α) =
      .error (.error e cause) := by
  induction describes with
  | nil => rfl
  | cons describe describes ih => exact ih

/-- Of any number of wrappers, the innermost one tells what a fault becomes. -/
theorem wrapFaults_fault (describe : Text → Error) (describes : List (Text → Error)) (f : Fault) :
    wrapFaults (describe :: describes) (.error (.fault f) : Except Failure α) =
      .error (.error (describe f.message) (some f)) :=
  wrapFaults_error describes (describe f.message) (some f)

end Stencil
