import StepScript.Number.Binary64
import StepScript.Text.Ascii
import StepScript.Value

/-!
Numbers in JSON text.

A number is written as an optional minus sign, digits without a leading zero, optional digits after a
point and an optional exponent. Without point and exponent it is whole, if it fits 64 bits; otherwise
it is a float. Of the digits as many count as fit a 64-bit word; whole digits after them count as
zeros, further digits after the point not at all. The word is rounded to a float, which is then
multiplied or divided by a power of ten and rounded again.
-/

namespace StepScript.Json

open Number Text

structure NumberToken where
  negative : Bool
  whole : List Char
  fraction? : Option (List Char)
  /-- Whether the exponent is negative, and its digits. -/
  exponent? : Option (Bool × List Char)

/-- The digits at the front of a text and what follows them. -/
def spanDigits (cs : List Char) : List Char × List Char :=
  (cs.takeWhile isDigit, cs.dropWhile isDigit)

/-- The whole digits of a number: a zero alone, or digits that start with another one. -/
def wholeDigits? (cs : List Char) : Option (List Char × List Char) :=
  let (digits, rest) := spanDigits cs
  if digits.isEmpty ∨ (digits.head? = some '0' ∧ digits.length ≠ 1) then none
  else some (digits, rest)

/-- The point and the digits after it, if there is a point. -/
def fractionDigits? : List Char → Option (Option (List Char) × List Char)
  | '.' :: cs =>
    let (digits, rest) := spanDigits cs
    if digits.isEmpty then none else some (some digits, rest)
  | cs => some (none, cs)

def exponentSign : List Char → Bool × List Char
  | '+' :: cs => (false, cs)
  | '-' :: cs => (true, cs)
  | cs => (false, cs)

def exponentDigits? : List Char → Option (Option (Bool × List Char) × List Char)
  | c :: cs =>
    if c = 'e' ∨ c = 'E' then
      let (negative, cs) := exponentSign cs
      let (digits, rest) := spanDigits cs
      if digits.isEmpty then none else some (some (negative, digits), rest)
    else some (none, c :: cs)
  | [] => some (none, [])

/-- The number at the front of a text, if it is well formed, and what follows it. -/
def numberToken? (cs : List Char) : Option (NumberToken × List Char) := do
  let negative := cs.head? == some '-'
  let (whole, cs) ← wholeDigits? (if negative then cs.drop 1 else cs)
  let (fraction?, cs) ← fractionDigits? cs
  let (exponent?, cs) ← exponentDigits? cs
  return ({ negative, whole, fraction?, exponent? }, cs)

/-- The first number that does not fit a word. -/
def wordLimit : Nat := Nat.pow 2 64

/-- A word extended by as many digits as fit, with the digits that are left. -/
def accumulate (n : Nat) : List Char → Nat × List Char
  | [] => (n, [])
  | c :: cs =>
    let m := n * 10 + (c.toNat - '0'.toNat)
    if m < wordLimit then accumulate m cs else (n, c :: cs)

/-- The greatest size of an exponent that is computed with. -/
def exponentLimit : Nat := Nat.pow 2 31

/-- The float of a power of ten. -/
def powerOfTen (e : Nat) : Binary64 :=
  (Binary64.ofDecimal? false 1 e).getD (.zero false)

/-- A float divided by a power of ten in steps that a float can hold. -/
def divideByTens : (steps : Nat) → Binary64 → (e : Nat) → Option Binary64
  | 0, x, _ => some x
  | steps + 1, x, e =>
    if e ≤ 308 then x.div? (powerOfTen e)
    else if x.isZero then some x
    else (x.div? (powerOfTen 308)).bind fun y => divideByTens steps y (e - 308)

/-- The float of a word and a power of ten; none if it is too large. -/
def scaled? (word : Nat) (power : Int) : Option Binary64 := do
  let x ← Binary64.ofDecimal? false word 0
  if power < 0 then divideByTens 8 x power.natAbs
  else if power ≤ 308 then x.mul? (powerOfTen power.toNat)
  else if x.isZero then some x
  else none

/-- The float that a number stands for; none if it is too large. -/
def NumberToken.float? (t : NumberToken) : Option Binary64 := do
  let (word, unread) := accumulate 0 t.whole
  let fraction := t.fraction?.getD []
  let (word, unreadFraction) := accumulate word fraction
  let point : Int := (unread.length : Int) - ((fraction.length - unreadFraction.length : Nat) : Int)
  let magnitude ←
    match t.exponent? with
    | none => scaled? word point
    | some (negative, digits) =>
      let e := (numeral? 10 digits).getD 0
      if exponentLimit ≤ e then
        if word ≠ 0 ∧ !negative then none else some (.zero false)
      else scaled? word (if negative then point - e else point + e)
  return if t.negative then magnitude.neg else magnitude

/-- The number that is written; none if it is a float that is too large. -/
def NumberToken.amount? (t : NumberToken) : Option Amount :=
  let n := (numeral? 10 t.whole).getD 0
  let isWhole := t.fraction?.isNone ∧ t.exponent?.isNone
  if isWhole ∧ !t.negative ∧ n < Nat.pow 2 64 then some (.whole n)
  else if isWhole ∧ t.negative ∧ n ≠ 0 ∧ n ≤ Nat.pow 2 63 then some (.whole (-n))
  else t.float?.map .float

end StepScript.Json
