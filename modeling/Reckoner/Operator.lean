import Reckoner.Binary64.FloorDivision
import Reckoner.Binary64.Power

/-! # Binary operators -/

namespace Reckoner

inductive Operator
  | floorDiv | mod | pow | mul | div | add | sub
deriving DecidableEq, Repr

namespace Operator

/-- The order in which a fragment is searched for operators. -/
def trialOrder : List Operator := [floorDiv, mod, pow, mul, div, add, sub]

/-- The operators in the order of the table that symbols are looked up in. -/
def table : List Operator := [add, sub, mul, div, mod, floorDiv, pow]

def symbol : Operator → List Char
  | floorDiv => ['/', '/']
  | mod => ['%']
  | pow => ['*', '*']
  | mul => ['*']
  | div => ['/']
  | add => ['+']
  | sub => ['-']

/-- The operator whose symbol is this one's symbol twice, if there is one. -/
def doubled? : Operator → Option Operator
  | mul => some pow
  | div => some floorDiv
  | _ => none

def apply : Operator → Binary64 → Binary64 → Binary64
  | floorDiv, a, b => a.floorDiv b
  | mod, a, b => a.floorMod b
  | pow, a, b => a.pow b
  | mul, a, b => a * b
  | div, a, b => a / b
  | add, a, b => a + b
  | sub, a, b => a - b

def ofSymbol? (symbol : List Char) : Option Operator :=
  table.find? (·.symbol = symbol)

@[simp] theorem ofSymbol?_symbol (op : Operator) : ofSymbol? op.symbol = some op := by
  cases op <;> rfl

theorem symbol_ne_nil (op : Operator) : op.symbol ≠ [] := by
  cases op <;> simp [symbol]

end Operator

end Reckoner
