/-! # Fixed-point series

A whole number `n` stands for `n / 2 ^ bits`. Each series is summed until its powers vanish. Every
division cuts off less than one unit in the last place, and `bits` is chosen to leave room for what
the terms of a sum lose by it.
-/

namespace Reckoner.FixedPoint

/-- The sum of the shares of the powers that follow from `power`, from term `i` on. -/
def series (advance share : Nat → Int → Int) : Nat → Nat → Int → Int
  | 0, _, _ => 0
  | fuel + 1, i, power =>
    if power = 0 then 0
    else share i power + series advance share fuel (i + 1) (advance i power)

/-- The number one. -/
def one (bits : Nat) : Int := .ofNat (1 <<< bits)

/-- The product of two numbers of `bits` places. -/
def mul (bits : Nat) (x y : Int) : Int := (x * y).tdiv (one bits)

/-- The arc tangent of `1 / k`. -/
def arctanInv (bits k : Nat) : Int :=
  series (fun _ p => (-p).tdiv (k * k)) (fun i p => p.tdiv (2 * i + 1)) bits 0 (one bits / k)

/-- A quarter of the full turn, `8 · arctan (1/5) - 2 · arctan (1/239)`. -/
def halfPi (bits : Nat) : Int := 8 * arctanInv bits 5 - 2 * arctanInv bits 239

def sin (bits : Nat) (x : Int) : Int :=
  let square := mul bits x x
  series (fun i p => (mul bits (-p) square).tdiv ((2 * i + 2) * (2 * i + 3))) (fun _ p => p)
    bits 0 x

def cos (bits : Nat) (x : Int) : Int :=
  let square := mul bits x x
  series (fun i p => (mul bits (-p) square).tdiv ((2 * i + 1) * (2 * i + 2))) (fun _ p => p)
    bits 0 (one bits)

/-- The natural logarithm of `n / d`, as twice the area tangent of `(n - d) / (n + d)`. -/
def log (bits n d : Nat) : Int :=
  let z := ((n - d : Int) * one bits).tdiv (n + d)
  let square := mul bits z z
  2 * series (fun _ p => mul bits p square) (fun i p => p.tdiv (2 * i + 1)) bits 0 z

def exp (bits : Nat) (x : Int) : Int :=
  series (fun i p => (mul bits p x).tdiv (i + 1)) (fun _ p => p) bits 0 (one bits)

end Reckoner.FixedPoint
