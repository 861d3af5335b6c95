import StepScript.Number.Binary64

/-!
The shortest decimal that reads back to a binary number.

The quotients that round to a magnitude `m * 2 ^ q` form an interval, its ends included exactly when
`m` is even. Among the grids of the multiples of a power of ten the coarsest one with a point in that
interval gives the fewest digits; of its two points next to the magnitude the nearer one is taken,
and of two equally near ones the even one.
-/

namespace StepScript.Number

/-- The quotients that round to a magnitude, over one denominator. -/
structure Interval where
  low : Nat
  value : Nat
  high : Nat
  den : Nat
  closed : Bool

/-- The interval of a magnitude other than zero, in quarters of its last place. Below a power of two
the next magnitude is only half as far away. -/
def Binary64.interval (x : Binary64) : Interval :=
  let m := x.significand
  let q := x.exponent - 2
  let below := if m = Nat.pow 2 52 ∧ Binary64.minExponent < x.exponent then 1 else 2
  let scale := if 0 ≤ q then Nat.pow 2 q.toNat else 1
  { low := (4 * m - below) * scale
    value := 4 * m * scale
    high := (4 * m + 2) * scale
    den := if 0 ≤ q then 1 else Nat.pow 2 (-q).toNat
    closed := m % 2 = 0 }

/-- Whether `num / den'` lies in the interval. -/
def Interval.contains (i : Interval) (num den' : Nat) : Bool :=
  let n := num * i.den
  let low := i.low * den'
  let high := i.high * den'
  if i.closed then low ≤ n && n ≤ high else low < n && n < high

/-- The point of the grid of multiples of `10 ^ power` to take for the interval's value, if one lies in
the interval, as the factor of the power of ten. -/
def Interval.gridPoint? (i : Interval) (power : Int) : Option Nat :=
  let up := Nat.pow 10 power.toNat
  let down := Nat.pow 10 (-power).toNat
  let num := i.value * down
  let den := i.den * up
  let floor := num / den
  let twice := 2 * (num % den)
  let below := i.contains (floor * up) down
  let above := i.contains ((floor + 1) * up) down
  if below && above then
    some (if twice < den ∨ (twice = den ∧ floor % 2 = 0) then floor else floor + 1)
  else if below then some floor
  else if above then some (floor + 1)
  else none

/-- The first power from `power` downwards whose grid has a point in the interval. -/
def Interval.search (i : Interval) : Nat → Int → Nat × Int
  | 0, power => (i.value / i.den, power)
  | steps + 1, power =>
    match i.gridPoint? power with
    | some digits => (digits, power)
    | none => i.search steps (power - 1)

/-- The digits `d` and power `k` of the shortest decimal `d * 10 ^ k` that reads back to the magnitude
of a number other than zero. -/
def Binary64.shortest (x : Binary64) : Nat × Int :=
  let bound := ((x.significand.log2 : Int) + 2 + x.exponent) * 30103 / 100000 + 1
  x.interval.search 24 bound

end StepScript.Number
