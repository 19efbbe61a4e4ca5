import Reckoner.Binary64.Circular

/-! # Named functions, of an angle in radians -/

namespace Reckoner

inductive Function
  | sin | cos | tan
deriving DecidableEq, Repr

namespace Function

def table : List Function := [sin, cos, tan]

def name : Function → List Char
  | sin => ['s', 'i', 'n']
  | cos => ['c', 'o', 's']
  | tan => ['t', 'a', 'n']

def apply : Function → Binary64 → Binary64
  | sin, x => x.sin
  | cos, x => x.cos
  | tan, x => x.tan

def ofName? (name : List Char) : Option Function :=
  table.find? (·.name = name)

@[simp] theorem ofName?_name (f : Function) : ofName? f.name = some f := by
  cases f <;> rfl

end Function

end Reckoner
