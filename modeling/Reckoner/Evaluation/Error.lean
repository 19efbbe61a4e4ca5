import Reckoner.Fragment.Capture

/-! # What stops an evaluation -/

namespace Reckoner

inductive EvalError
  /-- A fragment that no kind recognizes, without the blanks around it. -/
  | noMatchingRule (fragment : Fragment)
  /-- A literal that does not write a number. -/
  | malformedNumber (fragment : Fragment)
  | unknownFunction (name : List Char)
  | unknownOperator (symbol : List Char)
  /-- A fragment that lies deeper than the limit. -/
  | depthExceeded (limit : Nat)
deriving DecidableEq, Repr

namespace EvalError

def message : EvalError → List Char
  | noMatchingRule fragment => "No rule matches the fragment '".toList ++ fragment ++ ['\'', '.']
  | malformedNumber fragment => "Malformed number '".toList ++ fragment ++ ['\'', '.']
  | unknownFunction name => "Unknown function '".toList ++ name ++ ['\'', '.']
  | unknownOperator symbol => "Unknown operator '".toList ++ symbol ++ ['\'', '.']
  | depthExceeded limit =>
    "Expression nests deeper than ".toList ++ Nat.toDigits 10 limit ++ " levels.".toList

end EvalError

end Reckoner
