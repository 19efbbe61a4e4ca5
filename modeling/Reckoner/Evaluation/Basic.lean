import Reckoner.Decimal.Numeral
import Reckoner.Evaluation.Trace
import Reckoner.Fragment.Recognition
import Reckoner.Function

/-! # Evaluation

A fragment is trimmed and taken apart, and its parts are evaluated from left to right before the
operator or the function is applied. Parts are shorter than the whole, so evaluation ends at any
limit; the limit only cuts off what lies too deep.
-/

namespace Reckoner

/-- How deep fragments may lie unless told otherwise. -/
def defaultLimit : Nat := 256

/-- The number that a literal writes. -/
def readLiteral (value : Fragment) : Except EvalError Binary64 :=
  match Decimal.read? value with
  | some d => .ok d.toBinary64
  | none => .error (.malformedNumber value)

/-- Applies the function of a name. -/
def applyFunction (name : List Char) (x : Binary64) : Except EvalError Binary64 :=
  match Function.ofName? name with
  | some f => .ok (f.apply x)
  | none => .error (.unknownFunction name)

/-- Applies the operator of a symbol. -/
def applyOperator (symbol : List Char) (a b : Binary64) : Except EvalError Binary64 :=
  match Operator.ofSymbol? symbol with
  | some op => .ok (op.apply a b)
  | none => .error (.unknownOperator symbol)

/-- The run over a fragment that lies `depth` fragments deep. -/
def run (limit depth : Nat) (text : Fragment) : Traced Binary64 :=
  if limit < depth then .fail (.depthExceeded limit)
  else
    match h : Fragment.classify (trim text) with
    | none => .fail (.noMatchingRule (trim text))
    | some (.literal value) => do
      Traced.emit ⟨.literal value, trim text, depth⟩
      .ofExcept (readLiteral value)
    | some (.call name argument) => do
      Traced.emit ⟨.call name argument, trim text, depth⟩
      let x ← run limit (depth + 1) argument
      .ofExcept (applyFunction name x)
    | some (.group inner) => do
      Traced.emit ⟨.group inner, trim text, depth⟩
      run limit (depth + 1) inner
    | some (.binary left op right) => do
      Traced.emit ⟨.binary left op right, trim text, depth⟩
      let a ← run limit (depth + 1) left
      let b ← run limit (depth + 1) right
      .ofExcept (applyOperator op.symbol a b)
termination_by text.length
decreasing_by
  all_goals
    have short := Fragment.length_lt_of_classify h
    have := length_trim_le text
    simp [Capture.parts] at short
    omega

/-- Evaluates a text, and tells the fragments recognized on the way. -/
def trace (text : Fragment) (limit : Nat := defaultLimit) : Traced Binary64 := run limit 0 text

/-- The value of a text. -/
def evaluate (text : Fragment) (limit : Nat := defaultLimit) : Except EvalError Binary64 :=
  (trace text limit).result

end Reckoner
