/-!
Letters compared without regard to case, for the twenty-six letters of ASCII only: every other
character is equal to itself alone.
-/

namespace StepScript.Text

/-- The small form of an ASCII capital; any other character as it is. -/
def lowerChar (c : Char) : Char :=
  if 'A' ≤ c ∧ c ≤ 'Z' then Char.ofNat (c.toNat + 32) else c

/-- The capital form of a small ASCII letter; any other character as it is. -/
def upperChar (c : Char) : Char :=
  if 'a' ≤ c ∧ c ≤ 'z' then Char.ofNat (c.toNat - 32) else c

/-- A text with its ASCII capitals made small. -/
def lower (s : String) : String :=
  String.ofList (s.toList.map lowerChar)

/-- Two texts that differ at most in the case of ASCII letters. -/
def sameLetters (s t : String) : Bool :=
  s.toList.map lowerChar == t.toList.map lowerChar

/-- The letters and digits of ASCII and the underscore. -/
def isWordChar (c : Char) : Bool :=
  ('A' ≤ c && c ≤ 'Z') || ('a' ≤ c && c ≤ 'z') || ('0' ≤ c && c ≤ '9') || c == '_'

def isDigit (c : Char) : Bool :=
  '0' ≤ c && c ≤ '9'

/-- The value of a digit in a radix up to sixteen, letters in either case. -/
def digitValue? (radix : Nat) (c : Char) : Option Nat :=
  let value :=
    if '0' ≤ c ∧ c ≤ '9' then some (c.toNat - '0'.toNat)
    else if 'a' ≤ c ∧ c ≤ 'f' then some (c.toNat - 'a'.toNat + 10)
    else if 'A' ≤ c ∧ c ≤ 'F' then some (c.toNat - 'A'.toNat + 10)
    else none
  value.filter (· < radix)

/-- The number that digits stand for, most significant first, if all are digits of the radix. -/
def numeral? (radix : Nat) (cs : List Char) : Option Nat :=
  cs.foldl (fun acc c => acc.bind fun n => (digitValue? radix c).map (n * radix + ·)) (some 0)

/-- The small hexadecimal digit of a value below sixteen. -/
def hexDigit (n : Nat) : Char :=
  if n < 10 then Char.ofNat ('0'.toNat + n) else Char.ofNat ('a'.toNat + (n - 10))

end StepScript.Text
