import Reckoner.Evaluation.Error

/-! # Traced computations

A computation that records the fragments it recognizes, in order, up to where it ends.
-/

namespace Reckoner

/-- One recognized fragment, trimmed, with how many fragments it lies inside. -/
structure Event where
  capture : Capture
  fragment : Fragment
  depth : Nat
deriving DecidableEq, Repr

namespace Event

def kind (e : Event) : Kind := e.capture.kind

/-- The event as one line of a log. -/
def line (e : Event) : List Char :=
  "DEBUG matched kind=".toList ++ e.kind.name ++ " capture=".toList ++ e.capture.display ++
    " fragment=".toList ++ Quoted.encode e.fragment ++ " depth=".toList ++ Nat.toDigits 10 e.depth

end Event

/-- A result, and the events on the way to it. -/
structure Traced (α : Type) where
  events : List Event
  result : Except EvalError α

namespace Traced

variable {α β : Type}

/-- Records one event. -/
def emit (e : Event) : Traced Unit := ⟨[e], .ok ()⟩

/-- Ends with an error. -/
def fail (e : EvalError) : Traced α := ⟨[], .error e⟩

/-- A result that comes without events. -/
def ofExcept (x : Except EvalError α) : Traced α := ⟨[], x⟩

/-- An error ends the computation: what comes after it leaves no events. -/
instance : Monad Traced where
  pure a := ⟨[], .ok a⟩
  bind x k :=
    match x.result with
    | .ok a => ⟨x.events ++ (k a).events, (k a).result⟩
    | .error e => ⟨x.events, .error e⟩

theorem bind_of_ok {x : Traced α} {a : α} (h : x.result = .ok a) (k : α → Traced β) :
    x >>= k = ⟨x.events ++ (k a).events, (k a).result⟩ := by
  simp only [bind, h]

theorem bind_of_error {x : Traced α} {e : EvalError} (h : x.result = .error e)
    (k : α → Traced β) : x >>= k = ⟨x.events, .error e⟩ := by
  simp only [bind, h]

@[simp] theorem emit_bind (e : Event) (k : Unit → Traced β) :
    emit e >>= k = ⟨e :: (k ()).events, (k ()).result⟩ := rfl

end Traced

end Reckoner
