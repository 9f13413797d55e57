import Stencil.Text.Named

/-!
# Spans

A trace shows which phases an operation went through. A span is one phase:
it has a name, annotations, the phases inside it, and an end; how long it
took is not part of it. Spans are collected only while tracing is enabled
and an operation is being traced; at any other time opening a span has no
effect.

The current span is a path into the trees of spans, so that opening a span
below it and going back to it are operations on a plain value.

## Main definitions

* `Span` — a phase with the phases inside it.
* `Trace` — the trees of spans and the path to the current one.
* `Trace.enter`, `Trace.leave` — opening and closing a span.
* `spanning`, `tracing` — a computation inside a span, and a computation
  that is an operation of its own.
-/

namespace Stencil

/-- A phase with annotations of some type and the phases inside it. -/
structure Span (α : Type) where
  name : Text
  annotations : List (Text × α)
  ended : Bool
  children : List (Span α)

namespace Span

variable {α : Type}

/-- A span that has just been opened. -/
def opened (name : Text) : Span α := ⟨name, [], false, []⟩

/-- A span that has ended. -/
def finish (s : Span α) : Span α := { s with ended := true }

/-- A span with a further one opened inside it. -/
def addChild (name : Text) (s : Span α) : Span α :=
  { s with children := s.children ++ [opened name] }

/-- A span with an annotation. -/
def annotate (key : Text) (a : α) (s : Span α) : Span α :=
  { s with annotations := Named.put key a s.annotations }

/-- A span with a change to the one at a path below it. -/
def changeAt (change : Span α → Span α) : List Nat → Span α → Span α
  | [], s => change s
  | i :: path, s => { s with children := s.children.modify i (changeAt change path) }

/-- The span at a path below a span. -/
def at? : List Nat → Span α → Option (Span α)
  | [], s => some s
  | i :: path, s => s.children[i]? >>= at? path

end Span

/-- The trees of spans, the path to the current one, and whether tracing is
enabled. -/
structure Trace (α : Type) where
  enabled : Bool
  roots : List (Span α)
  current : Option (List Nat)
  deriving Inhabited

namespace Trace

variable {α : Type}

/-- Tracing as it is at first: disabled, and without spans. -/
def initial : Trace α := ⟨false, [], none⟩

/-- A trace with a change to the span at a path. -/
def changeAt (change : Span α → Span α) (path : List Nat) (t : Trace α) : Trace α :=
  match path with
  | [] => t
  | i :: path => { t with roots := t.roots.modify i (Span.changeAt change path) }

/-- The span at a path. -/
def at? (t : Trace α) : List Nat → Option (Span α)
  | [] => none
  | i :: path => t.roots[i]? >>= Span.at? path

/-- The path to the current span, while tracing is enabled. -/
def active? (t : Trace α) : Option (List Nat) := if t.enabled then t.current else none

/-- The current span, while tracing is enabled. -/
def current? (t : Trace α) : Option (Span α) := t.active? >>= t.at?

/-- A trace with a new tree whose root is the current span. -/
def start (name : Text) (t : Trace α) : Trace α :=
  { t with roots := t.roots ++ [.opened name], current := some [t.roots.length] }

/-- Opens a span below the current one, which makes it the current one, and
gives its path; without a current span nothing happens. -/
def enter (name : Text) (t : Trace α) : Option (List Nat) × Trace α :=
  match t.active? with
  | none => (none, t)
  | some parent =>
    let index := ((t.at? parent).map (·.children.length)).getD 0
    let path := parent ++ [index]
    (some path, { t.changeAt (Span.addChild name) parent with current := some path })

/-- Closes a span that was opened, which makes the one around it the
current one. -/
def leave (entered : Option (List Nat)) (t : Trace α) : Trace α :=
  match entered with
  | none => t
  | some path => { t.changeAt Span.finish path with current := some path.dropLast }

/-- A trace with an annotation on the current span. -/
def annotate (key : Text) (a : α) (t : Trace α) : Trace α :=
  match t.active? with
  | none => t
  | some path => t.changeAt (Span.annotate key a) path

end Trace

section

variable {α β S : Type} (trace : S → Trace α) (withTrace : Trace α → S → S)

/-- A computation inside a span, which is closed whatever the computation
answers. -/
def spanning (name : Text) (body : S → β × S) (s : S) : β × S :=
  let (entered, t) := (trace s).enter name
  let (b, s) := body (withTrace t s)
  (b, withTrace ((trace s).leave entered) s)

/-- A computation that is an operation of its own: if tracing is enabled
and no span is current, its spans are collected in a tree that is attached
to its answer, and the trace is left as it was found. -/
def tracing (name : Text) (attach : Span α → β → β) (body : S → β × S) (s : S) : β × S :=
  let before := trace s
  if !before.enabled || before.current.isSome then body s
  else
    let (b, s) := body (withTrace (before.start name) s)
    let after := trace s
    let b :=
      match after.roots[before.roots.length]? with
      | some root => attach root.finish b
      | none => b
    (b, withTrace
      { after with roots := after.roots.take before.roots.length, current := before.current } s)

end

end Stencil
