import StepScript.Document.OfValue
import StepScript.Yaml.Node

/-!
What YAML scalars stand for.

A plain scalar without a tag is null, a flag, a whole number, a float or a text, by its form; any other
scalar is a text, unless a tag of the standard vocabulary says that it is one of these.
-/

namespace StepScript.Yaml

open Number Text

/-- Whether a text is a form of null. -/
def isNullForm (s : String) : Bool :=
  ["null", "Null", "NULL", "~"].contains s

/-- The flag that a text is a form of. -/
def flagForm? (s : String) : Option Bool :=
  if ["true", "True", "TRUE"].contains s then some true
  else if ["false", "False", "FALSE"].contains s then some false
  else none

/-- Whether a text consists of several digits of which the first is zero, after a sign or not. -/
def isPaddedDigits (cs : List Char) : Bool :=
  let cs := if cs.head? = some '-' ∨ cs.head? = some '+' then cs.drop 1 else cs
  1 < cs.length && cs.head? == some '0' && cs.all isDigit

/-- The radix of a mark at the front of a text, and the text after it. -/
def radix : List Char → Option (Nat × List Char)
  | '0' :: 'x' :: cs => some (16, cs)
  | '0' :: 'o' :: cs => some (8, cs)
  | '0' :: 'b' :: cs => some (2, cs)
  | _ => none

/-- The number of digits in a radix, if there are any and nothing else. -/
def digits? (base : Nat) (cs : List Char) : Option Nat :=
  if cs.isEmpty then none else numeral? base cs

/-- The natural number below a bound that a text is a form of. -/
def naturalForm? (bound : Nat) (cs : List Char) : Option Nat :=
  let unsigned := if cs.head? = some '+' then cs.drop 1 else cs
  let marked := (radix unsigned).bind fun (base, ds) => (digits? base ds).filter (· < bound)
  match marked with
  | some n => some n
  | none => if isPaddedDigits cs then none else (digits? 10 unsigned).filter (· < bound)

/-- The size of the negative number that a text is a form of, at most a bound. -/
def negativeForm? (bound : Nat) (cs : List Char) : Option Nat :=
  match cs with
  | '-' :: ds =>
    let marked := (radix ds).bind fun (base, ds) => (digits? base ds).filter (· ≤ bound)
    match marked with
    | some n => some n
    | none => if isPaddedDigits cs then none else (digits? 10 ds).filter (· ≤ bound)
  | _ => none

/-- The digits of a float's text, its exponent, and whether it is negative. -/
structure DecimalForm where
  negative : Bool
  digits : Nat
  power : Int

/-- The sign of an exponent and its digits, after the letter. -/
def exponentForm? (cs : List Char) : Option Int :=
  match cs with
  | '-' :: ds => (digits? 10 ds).map fun n => -(n : Int)
  | '+' :: ds => (digits? 10 ds).map Int.ofNat
  | ds => (digits? 10 ds).map Int.ofNat

/-- The decimal that a text is a form of: digits with a point or without it, of which there has to be
one, and an exponent or none. -/
def decimalForm? (cs : List Char) : Option DecimalForm := do
  let negative := cs.head? == some '-'
  let cs := if negative ∨ cs.head? = some '+' then cs.drop 1 else cs
  let whole := cs.takeWhile isDigit
  let cs := cs.dropWhile isDigit
  let fraction := if cs.head? = some '.' then (cs.drop 1).takeWhile isDigit else []
  let cs := if cs.head? = some '.' then (cs.drop 1).dropWhile isDigit else cs
  let digits ← digits? 10 (whole ++ fraction)
  let exponent ←
    match cs with
    | [] => some 0
    | c :: cs => if c = 'e' ∨ c = 'E' then exponentForm? cs else none
  return { negative, digits, power := exponent - fraction.length }

/-- What a text is as a float: a number, or one of the words for an infinite or undefined one. -/
inductive FloatForm where
  | finite (x : Binary64)
  | special

/-- The float that a text is a form of. A number that is too large is none. -/
def floatForm? (cs : List Char) : Option FloatForm :=
  let positive := if cs.head? = some '+' then cs.drop 1 else cs
  let words (ws : List String) (cs : List Char) : Bool := ws.contains (String.ofList cs)
  if cs.head? = some '+' ∧ (positive.head? = some '+' ∨ positive.head? = some '-') then none
  else if words [".inf", ".Inf", ".INF"] positive ||
      words ["-.inf", "-.Inf", "-.INF", ".nan", ".NaN", ".NAN"] cs then some .special
  else
    (decimalForm? positive).bind fun d =>
      (Binary64.ofDecimal? d.negative d.digits d.power).map .finite

/-- The atom of a float. What is not a finite number is null. -/
def FloatForm.atom : FloatForm → Atom
  | .finite x => .number (.float x)
  | .special => .null

/-- The whole number that a text is a form of: none if it is no form of one, and no atom if it does not
fit the numbers of data values though it fits 128 bits. -/
def wholeForm? (cs : List Char) : Option (Option Atom) :=
  match naturalForm? (Nat.pow 2 64) cs with
  | some n => some (some (.number (.whole n)))
  | none =>
    match negativeForm? (Nat.pow 2 63) cs with
    | some n => some (some (.number (.whole (-n))))
    | none =>
      if (naturalForm? (Nat.pow 2 128) cs).isSome || (negativeForm? (Nat.pow 2 127) cs).isSome then some none
      else none

/-- The atom that a plain scalar without a tag stands for. -/
def plainAtom? (text : String) : Option Atom :=
  let cs := text.toList
  if text = "" ∨ isNullForm text then some .null
  else
    match flagForm? text with
    | some b => some (.flag b)
    | none =>
      match wholeForm? cs with
      | some a => a
      | none =>
        if isPaddedDigits cs then some (.text text)
        else some (((floatForm? cs).map FloatForm.atom).getD (.text text))

def standardTag (name : String) : String := "tag:yaml.org,2002:" ++ name

/-- The name of a tag that is local to the document. -/
def localTag? (tag? : Option String) : Option String :=
  match tag? with
  | none => none
  | some tag =>
    match tag.toList with
    | ['!'] => some "!"
    | '!' :: cs => some (String.ofList cs)
    | _ => none

/-- The atom that a scalar stands for; none if its tag does not allow it. -/
def atom? (tag? : Option String) (style : ScalarStyle) (text : String) : Option Atom :=
  match tag? with
  | none => if style = .plain then plainAtom? text else some (.text text)
  | some tag =>
    if (localTag? (some tag)).isSome then none
    else if tag = standardTag "bool" then (flagForm? text).map .flag
    else if tag = standardTag "int" then (wholeForm? text.toList).bind id
    else if tag = standardTag "float" then (floatForm? text.toList).map FloatForm.atom
    else if tag = standardTag "null" then if isNullForm text then some .null else none
    else some (.text text)

/-- Whether something is there, for a scalar in an optional place; none if its tag is wrong. -/
def present? (tag? : Option String) (style : ScalarStyle) (text : String) : Option Bool :=
  if style ≠ .plain then some true
  else
    match tag? with
    | none => some (text ≠ "" ∧ !isNullForm text)
    | some tag =>
      if tag = standardTag "null" then if isNullForm text then some false else none
      else some true

/-- Whether a scalar may be a flag or number: it is plain, or literal with the tag of one. -/
def mayBe (name : String) (tag? : Option String) (style : ScalarStyle) : Bool :=
  style == .plain || (style == .literal && tag? == some (standardTag name))

/-- How a scalar reads in each place. -/
def scalar (tag? : Option String) (style : ScalarStyle) (text : String) : Scalar where
  text? := some text
  flag? := if mayBe "bool" tag? style then flagForm? text else none
  natural? := if mayBe "int" tag? style then naturalForm? (Nat.pow 2 64) text.toList else none
  present? := present? tag? style text
  isEmptyCollection := style == .plain && text == ""
  variant? :=
    match localTag? tag? with
    | some name => some ⟨name, style == .plain && (text == "" || isNullForm text)⟩
    | none => some ⟨text, true⟩
  atom? := atom? tag? style text

end StepScript.Yaml
