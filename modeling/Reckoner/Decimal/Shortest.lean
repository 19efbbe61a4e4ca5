import Reckoner.Binary64.Basic

/-! # The fewest digits that read back

A unit is `5 ^ 1074` times `10 ^ -1074`, so every finite value is a whole number of *grains* of
`10 ^ -1074`. The decimals that round to a value are those between the midpoints to its neighbours,
the midpoints included where the value's rank is even.
-/

namespace Reckoner.Decimal

/-- How many grains a unit has. -/
abbrev grainsPerUnit : Nat := Nat.pow 5 1074

/-- Does a number of grains round to rank `r`, for `r` above zero? -/
def roundsTo (r grains : Nat) : Bool :=
  let below := (Binary64.unitsAt (r - 1) + Binary64.unitsAt r) * grainsPerUnit
  let above := (Binary64.unitsAt r + Binary64.unitsAt (r + 1)) * grainsPerUnit
  if r % 2 = 0 then below ≤ 2 * grains && 2 * grains ≤ above
  else below < 2 * grains && 2 * grains < above

/-- The grains nearest to `exact` among its two neighbours on the grid of `10 ^ j` that round to
rank `r`; halfway between two that do, the upper one. -/
def onGrid? (r exact j : Nat) : Option Nat :=
  let low := exact / Nat.pow 10 j * Nat.pow 10 j
  let high := low + Nat.pow 10 j
  match roundsTo r low, roundsTo r high with
  | true, true => some (if exact - low < high - exact then low else high)
  | true, false => some low
  | false, true => some high
  | false, false => none

/-- Tries the grids from `10 ^ j` down. The grid of single grains holds the value itself. -/
def shortestFrom (r exact : Nat) : Nat → Nat
  | 0 => exact
  | j + 1 =>
    match onGrid? r exact (j + 1) with
    | some grains => grains
    | none => shortestFrom r exact j

/-- The grains of the shortest decimal that rounds to rank `r`, of several the nearest. -/
def shortestGrains (r : Nat) : Nat :=
  let exact := Binary64.unitsAt r * grainsPerUnit
  if r = 0 then 0 else shortestFrom r exact ((Nat.toDigits 10 exact).length - 1)

end Reckoner.Decimal
