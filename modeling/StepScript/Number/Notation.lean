import StepScript.Number.Shortest

/-!
The text of a binary number.

The digits are the fewest that read back to the number. A scientific exponent from -5 to 15 is
written positionally, with at least one digit after the point; any other one after an `e` with its
sign. The sign of zero is kept.
-/

namespace StepScript.Number

/-- Where positional writing ends and how an exponent is written. -/
structure Layout where
  /-- The least scientific exponent written positionally. -/
  leastPlain : Int
  /-- The least scientific exponent above those written positionally. -/
  firstScientific : Int
  /-- What stands before a positive exponent. -/
  positiveMark : String
  /-- What stands before the size of a negative exponent. -/
  negativeMark : String

def Layout.standard : Layout := ⟨-5, 16, "e+", "e-"⟩

/-- The digits of a positional number whose first digit has weight `10 ^ exponent`. -/
def plainText (digits : List Char) (exponent : Int) : List Char :=
  if exponent < 0 then
    '0' :: '.' :: List.replicate (-exponent - 1).toNat '0' ++ digits
  else
    let whole := exponent.toNat + 1
    let fraction := digits.drop whole
    digits.take whole ++ List.replicate (whole - digits.length) '0' ++ '.' ::
      (if fraction.isEmpty then ['0'] else fraction)

/-- The digits of a number in scientific writing. -/
def scientificText (layout : Layout) (digits : List Char) (exponent : Int) : List Char :=
  let fraction := digits.drop 1
  let mark := if exponent < 0 then layout.negativeMark else layout.positiveMark
  digits.take 1 ++ (if fraction.isEmpty then [] else '.' :: fraction) ++ mark.toList ++
    (toString exponent.natAbs).toList

/-- The text of a magnitude other than zero. -/
def magnitudeText (layout : Layout) (x : Binary64) : List Char :=
  let (d, k) := x.shortest
  let digits := (toString d).toList
  let exponent := k + (digits.length : Int) - 1
  if layout.leastPlain ≤ exponent ∧ exponent < layout.firstScientific then plainText digits exponent
  else scientificText layout digits exponent

def Binary64.text (x : Binary64) : String :=
  let body := if x.isZero then "0.0" else String.ofList (magnitudeText .standard x)
  if x.isNegative then "-" ++ body else body

end StepScript.Number
