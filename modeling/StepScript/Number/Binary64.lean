/-!
Binary floating-point numbers of 64 bits, in exact arithmetic.

A finite number is a sign and a magnitude `m * 2 ^ q`. `round` takes a quotient of natural numbers to
the nearest magnitude, a tie to the even one, and reports a quotient too large for the format.
Products and quotients of two numbers are the exact ones, rounded once.
-/

namespace StepScript.Number

/-- A finite number in the 64-bit interchange format, kept as its bits. -/
structure Binary64 where
  bits : UInt64
  deriving DecidableEq, Repr

namespace Binary64

/-- The weight of the last place of the smallest magnitudes, as a power of two. -/
def minExponent : Int := -1074

def isNegative (x : Binary64) : Bool :=
  Nat.pow 2 63 ≤ x.bits.toNat

/-- The bits without the sign. -/
def magnitudeBits (x : Binary64) : Nat :=
  x.bits.toNat % Nat.pow 2 63

/-- The factor `m` of the magnitude `m * 2 ^ q`. -/
def significand (x : Binary64) : Nat :=
  let b := x.magnitudeBits
  if b < Nat.pow 2 52 then b else Nat.pow 2 52 + b % Nat.pow 2 52

/-- The exponent `q` of the magnitude `m * 2 ^ q`. -/
def exponent (x : Binary64) : Int :=
  let field := x.magnitudeBits / Nat.pow 2 52
  if field = 0 then minExponent else minExponent + (field - 1 : Nat)

/-- The number with the given magnitude bits and sign. -/
def ofMagnitude (negative : Bool) (b : Nat) : Binary64 :=
  ⟨(if negative then Nat.pow 2 63 + b else b).toUInt64⟩

def zero (negative : Bool) : Binary64 := ofMagnitude negative 0

/-- Whether the number is a zero of either sign. -/
def isZero (x : Binary64) : Bool := x.magnitudeBits == 0

def neg (x : Binary64) : Binary64 := ofMagnitude (!x.isNegative) x.magnitudeBits

/-- The natural number nearest to `num / den`, of two the even one. -/
def divNearest (num den : Nat) : Nat :=
  let whole := num / den
  let twice := 2 * (num % den)
  if twice < den then whole
  else if den < twice then whole + 1
  else whole + whole % 2

/-- The exponent `k` with `2 ^ k ≤ num / den < 2 ^ (k + 1)`, for positive arguments. -/
def log2Quotient (num den : Nat) : Int :=
  let k : Int := (num.log2 : Int) - (den.log2 : Int)
  let reaches := if 0 ≤ k then den * Nat.pow 2 k.toNat ≤ num else den ≤ num * Nat.pow 2 (-k).toNat
  if reaches then k else k - 1

/-- The magnitude bits nearest to `num / den`, a tie to even; none if beyond the largest number. -/
def roundBits? (num den : Nat) : Option Nat :=
  if num = 0 then some 0
  else
    let q := max (log2Quotient num den - 52) minExponent
    let m :=
      if 0 ≤ q then divNearest num (den * Nat.pow 2 q.toNat) else divNearest (num * Nat.pow 2 (-q).toNat) den
    let b := (q - minExponent).toNat * Nat.pow 2 52 + m
    if b < 2047 * Nat.pow 2 52 then some b else none

/-- The number nearest to `± num / den`; none if beyond the largest number. -/
def round? (negative : Bool) (num den : Nat) : Option Binary64 :=
  (roundBits? num den).map (ofMagnitude negative)

/-- The magnitude as a quotient of natural numbers. -/
def quotient (x : Binary64) : Nat × Nat :=
  let q := x.exponent
  if 0 ≤ q then (x.significand * Nat.pow 2 q.toNat, 1) else (x.significand, Nat.pow 2 (-q).toNat)

/-- The rounded product; none if beyond the largest number. -/
def mul? (x y : Binary64) : Option Binary64 :=
  let (a, b) := x.quotient
  let (c, d) := y.quotient
  round? (x.isNegative != y.isNegative) (a * c) (b * d)

/-- The rounded quotient by a number other than zero; none if beyond the largest number. -/
def div? (x y : Binary64) : Option Binary64 :=
  let (a, b) := x.quotient
  let (c, d) := y.quotient
  round? (x.isNegative != y.isNegative) (a * d) (b * c)

/-- The number nearest to `± digits * 10 ^ power`; none if beyond the largest number. A power far
outside the format's range is settled without computing it. -/
def ofDecimal? (negative : Bool) (digits : Nat) (power : Int) : Option Binary64 :=
  if digits = 0 then some (zero negative)
  else if 400 < power then none
  else if power < -400 - (digits.log2 : Int) then some (zero negative)
  else if 0 ≤ power then round? negative (digits * Nat.pow 10 power.toNat) 1
  else round? negative digits (Nat.pow 10 (-power).toNat)

end Binary64

end StepScript.Number
