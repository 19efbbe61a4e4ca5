import Reckoner.Operator
import Reckoner.Text.Quoted

/-! # What a fragment is recognized as -/

namespace Reckoner

/-- A piece of the text under evaluation. -/
abbrev Fragment := List Char

/-- The shapes that a fragment can have. -/
inductive Kind
  | literal | call | group
  | binary (op : Operator)
deriving DecidableEq, Repr

namespace Kind

/-- The order in which the shapes are tried. A sign is tried as part of a numeral before it is
tried as an operator, and parentheses around the whole come before any operator inside. -/
def trialOrder : List Kind :=
  [literal, call, group] ++ Operator.trialOrder.map binary

def name : Kind → List Char
  | literal => "literal".toList
  | call => "call".toList
  | group => "group".toList
  | binary op => "binary `".toList ++ op.symbol ++ ['`']

end Kind

/-- A recognized fragment, taken apart. -/
inductive Capture
  | literal (value : Fragment)
  | call (name argument : Fragment)
  | group (inner : Fragment)
  | binary (left : Fragment) (op : Operator) (right : Fragment)
deriving DecidableEq, Repr

namespace Capture

def kind : Capture → Kind
  | literal _ => .literal
  | call _ _ => .call
  | group _ => .group
  | binary _ op _ => .binary op

/-- The parts that are fragments to be evaluated themselves, from left to right. -/
def parts : Capture → List Fragment
  | literal _ => []
  | call _ argument => [argument]
  | group inner => [inner]
  | binary left _ right => [left, right]

/-- The named parts in the order in which they are shown. -/
def fields : Capture → List (List Char × Fragment)
  | literal value => [("value".toList, value)]
  | call name argument => [("func_name".toList, name), ("exp".toList, argument)]
  | group inner => [("exp".toList, inner)]
  | binary left op right =>
    [("exp1".toList, left), ("op".toList, op.symbol), ("exp2".toList, right)]

/-- Named fields with their quoted values, in braces. -/
def display (c : Capture) : List Char :=
  '\x7b' :: (", ".toList.intercalate
    (c.fields.map fun (name, value) => name ++ ": ".toList ++ Quoted.encode value)) ++ ['\x7d']

end Capture

end Reckoner
