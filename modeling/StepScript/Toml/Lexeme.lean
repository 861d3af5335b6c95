import StepScript.Document.OfValue
import StepScript.Number.Binary64
import StepScript.Text.Ascii

/-!
The parts of TOML text that hold no other values: blanks, comments, strings, keys, numbers, dates and
times. Each function takes its part off the front of a text, and gives none where the text is not of
that form.
-/

namespace StepScript.Toml

open Number Text

/-- A reader of a part of a text: the part, and what follows it. -/
abbrev Lexer (α : Type) := List Char → Option (α × List Char)

/-! ### Blanks and comments -/

/-- The text after blanks within a line. -/
def skipBlanks (cs : List Char) : List Char :=
  cs.dropWhile fun c => c == ' ' || c == '\t'

/-- Characters that may stand in comments and, but for their marks, in strings. -/
def isPrintable (c : Char) : Bool :=
  c == '\t' || (' ' ≤ c && c ≤ '~') || 0x80 ≤ c.toNat

def newline? : List Char → Option (List Char)
  | '\n' :: cs => some cs
  | '\r' :: '\n' :: cs => some cs
  | _ => none

/-- The text after a comment, if there is one. -/
def skipComment (cs : List Char) : List Char :=
  if cs.head? = some '#' then cs.dropWhile isPrintable else cs

/-- The text after blanks, a comment and the end of the line, if nothing else stands before that. -/
def lineEnd? (cs : List Char) : Option (List Char) :=
  match skipComment (skipBlanks cs) with
  | [] => some []
  | cs => newline? cs

/-- The text after blanks, comments and line breaks. -/
def skipLines : (fuel : Nat) → List Char → List Char
  | 0, cs => cs
  | fuel + 1, cs =>
    let cs := skipComment (skipBlanks cs)
    match newline? cs with
    | some cs => skipLines fuel cs
    | none => cs

/-! ### Strings -/

/-- The character of an escape whose backslash has been read. -/
def escape? : Lexer Char
  | 'u' :: cs => code 4 cs
  | 'U' :: cs => code 8 cs
  | c :: cs =>
    let e? :=
      match c with
      | 'b' => some '\x08'
      | 't' => some '\t'
      | 'n' => some '\n'
      | 'f' => some '\x0c'
      | 'r' => some '\r'
      | '"' => some '"'
      | '\\' => some '\\'
      | _ => none
    e?.map (·, cs)
  | [] => none
where
  /-- The character of a code of hexadecimal digits. -/
  code (count : Nat) (cs : List Char) : Option (Char × List Char) := do
    let digits := cs.take count
    let n ← if digits.length = count then numeral? 16 digits else none
    if h : n.isValidChar then some (Char.ofNatAux n h, cs.drop count) else none

/-- The inside of a string in double quotes, up to its closing quote. -/
def basicInside? : (fuel : Nat) → Lexer (List Char)
  | 0, _ => none
  | _ + 1, [] => none
  | fuel + 1, c :: cs =>
    if c = '"' then some ([], cs)
    else if c = '\\' then do
      let (e, cs) ← escape? cs
      let (text, cs) ← basicInside? fuel cs
      return (e :: text, cs)
    else if isPrintable c then do
      let (text, cs) ← basicInside? fuel cs
      return (c :: text, cs)
    else none

/-- The inside of a string in single quotes, up to its closing quote. -/
def literalInside? : Lexer (List Char)
  | [] => none
  | c :: cs =>
    if c = '\'' then some ([], cs)
    else if isPrintable c then (literalInside? cs).map fun (text, cs) => (c :: text, cs)
    else none

/-- The quotes here at the end of a string of several lines, if there are at least three: those that
belong to the string, of which there are at most two, and the text after them. -/
def closing? (quote : Char) (cs : List Char) : Option (List Char × List Char) :=
  let count := min (cs.takeWhile (· == quote)).length 5
  if 3 ≤ count then some (List.replicate (count - 3) quote, cs.drop count) else none

/-- The text after a line break that a backslash takes away, with the blanks and line breaks around
it. -/
def skippedBreak? (cs : List Char) : Option (List Char) :=
  match newline? (skipBlanks cs) with
  | none => none
  | some cs => some (skipGap (cs.length + 1) cs)
where
  skipGap : (fuel : Nat) → List Char → List Char
    | 0, cs => cs
    | fuel + 1, cs =>
      let cs := skipBlanks cs
      match newline? cs with
      | some cs => skipGap fuel cs
      | none => cs

/-- The inside of a string of several lines, up to its closing quotes, with escapes or without. -/
def linesInside? (quote : Char) (escapes : Bool) : (fuel : Nat) → Lexer (List Char)
  | 0, _ => none
  | _ + 1, [] => none
  | fuel + 1, c :: cs =>
    match closing? quote (c :: cs) with
    | some (quotes, cs) => some (quotes, cs)
    | none =>
      match newline? (c :: cs) with
      | some cs => (linesInside? quote escapes fuel cs).map fun (text, cs) => ('\n' :: text, cs)
      | none =>
        if escapes && c == '\\' then
          match skippedBreak? cs with
          | some cs => linesInside? quote escapes fuel cs
          | none => do
            let (e, cs) ← escape? cs
            let (text, cs) ← linesInside? quote escapes fuel cs
            return (e :: text, cs)
        else if isPrintable c then
          (linesInside? quote escapes fuel cs).map fun (text, cs) => (c :: text, cs)
        else none

/-- The text after a line break at the start of a string of several lines. -/
def skipFirstBreak (cs : List Char) : List Char :=
  (newline? cs).getD cs

def lineString? : Lexer String
  | '"' :: cs => (basicInside? (cs.length + 1) cs).map fun (text, cs) => (String.ofList text, cs)
  | '\'' :: cs => (literalInside? cs).map fun (text, cs) => (String.ofList text, cs)
  | _ => none

def string? (cs : List Char) : Option (String × List Char) :=
  match cs with
  | '"' :: '"' :: '"' :: inside =>
    (linesInside? '"' true (inside.length + 1) (skipFirstBreak inside)).map
      fun (text, cs) => (String.ofList text, cs)
  | '\'' :: '\'' :: '\'' :: inside =>
    (linesInside? '\'' false (inside.length + 1) (skipFirstBreak inside)).map
      fun (text, cs) => (String.ofList text, cs)
  | cs => lineString? cs

/-! ### Keys -/

def isKeyChar (c : Char) : Bool :=
  isWordChar c || c == '-'

def simpleKey? (cs : List Char) : Option (String × List Char) :=
  if cs.head? = some '"' ∨ cs.head? = some '\'' then lineString? cs
  else
    let name := cs.takeWhile isKeyChar
    if name.isEmpty then none else some (String.ofList name, cs.dropWhile isKeyChar)

/-- The parts of a key with dots, and the text after the blanks that follow it. -/
def key? : (fuel : Nat) → Lexer (List String)
  | 0, _ => none
  | fuel + 1, cs => do
    let (name, cs) ← simpleKey? (skipBlanks cs)
    match skipBlanks cs with
    | '.' :: cs =>
      let (names, cs) ← key? fuel cs
      return (name :: names, cs)
    | cs => return ([name], cs)

/-! ### Numbers -/

/-- Digits with single underscores between them; the underscores are left out. -/
def digitRun? (isDigitHere : Char → Bool) : (fuel : Nat) → Lexer (List Char)
  | 0, _ => none
  | _ + 1, [] => none
  | fuel + 1, c :: cs =>
    if !isDigitHere c then none
    else
      match cs with
      | '_' :: d :: _ =>
        if isDigitHere d then
          (digitRun? isDigitHere fuel (cs.drop 1)).map fun (ds, cs) => (c :: ds, cs)
        else some ([c], cs)
      | d :: _ =>
        if isDigitHere d then (digitRun? isDigitHere fuel cs).map fun (ds, cs) => (c :: ds, cs)
        else some ([c], cs)
      | [] => some ([c], cs)

/-- A sign, if there is one: whether it is a minus sign. -/
def sign : List Char → Bool × List Char
  | '+' :: cs => (false, cs)
  | '-' :: cs => (true, cs)
  | cs => (false, cs)

/-- Digits without a leading zero, or a zero. -/
def wholeRun? (cs : List Char) : Option (List Char × List Char) :=
  if cs.head? = some '0' then some (['0'], cs.drop 1)
  else digitRun? isDigit (cs.length + 1) cs

/-- The radix of a whole number with a mark for it. -/
def radix? : List Char → Option (Nat × List Char)
  | '0' :: 'x' :: cs => some (16, cs)
  | '0' :: 'o' :: cs => some (8, cs)
  | '0' :: 'b' :: cs => some (2, cs)
  | _ => none

/-- A whole number that fits 64 bits with its sign. -/
def whole? (cs : List Char) : Option (Int × List Char) := do
  match radix? cs with
  | some (radix, cs) =>
    let (digits, cs) ← digitRun? (fun c => (digitValue? radix c).isSome) (cs.length + 1) cs
    let n ← numeral? radix digits
    if n < Nat.pow 2 63 then return ((n : Int), cs) else none
  | none =>
    let (negative, cs) := sign cs
    let (digits, cs) ← wholeRun? cs
    let n ← numeral? 10 digits
    if negative then (if n ≤ Nat.pow 2 63 then return (-(n : Int), cs) else none)
    else if n < Nat.pow 2 63 then return ((n : Int), cs) else none

def fraction? : Lexer (List Char)
  | '.' :: cs => digitRun? isDigit (cs.length + 1) cs
  | _ => none

def exponent? : Lexer Int
  | c :: cs =>
    if c = 'e' ∨ c = 'E' then do
      let (negative, cs) := sign cs
      let (digits, cs) ← digitRun? isDigit (cs.length + 1) cs
      let n ← numeral? 10 digits
      return (if negative then -(n : Int) else n, cs)
    else none
  | [] => none

/-- The text after a float. A float that is too large is none, unless it is negative. -/
def float? (cs : List Char) : Option (Unit × List Char) := do
  let (negative, unsigned) := sign cs
  match unsigned with
  | 'i' :: 'n' :: 'f' :: rest => return ((), rest)
  | 'n' :: 'a' :: 'n' :: rest => return ((), rest)
  | _ =>
    let (whole, cs) ← wholeRun? unsigned
    let (fraction, power, rest) ←
      match fraction? cs with
      | some (fraction, cs) =>
        match exponent? cs with
        | some (power, cs) => some (fraction, power, cs)
        | none => some (fraction, 0, cs)
      | none => (exponent? cs).map fun (power, cs) => ([], power, cs)
    let digits ← numeral? 10 (whole ++ fraction)
    if !negative ∧ (Binary64.ofDecimal? false digits (power - fraction.length)).isNone then none
    else return ((), rest)

/-! ### Dates and times -/

/-- A number of exactly `count` digits between two bounds. -/
def field? (count low high : Nat) (cs : List Char) : Option (Nat × List Char) := do
  let digits := cs.take count
  let n ← if digits.length = count then numeral? 10 digits else none
  if low ≤ n ∧ n ≤ high then return (n, cs.drop count) else none

def expect? (c : Char) (cs : List Char) : Option (List Char) :=
  if cs.head? = some c then some (cs.drop 1) else none

def daysOf (year month : Nat) : Nat :=
  let leap := year % 4 = 0 ∧ (year % 100 ≠ 0 ∨ year % 400 = 0)
  if month = 2 then if leap then 29 else 28
  else if [4, 6, 9, 11].contains month then 30
  else 31

def date? (cs : List Char) : Option (List Char) := do
  let (year, cs) ← field? 4 0 9999 cs
  let (month, cs) ← field? 2 1 12 (← expect? '-' cs)
  let (_, cs) ← field? 2 1 (daysOf year month) (← expect? '-' cs)
  return cs

def time? (cs : List Char) : Option (List Char) := do
  let (_, cs) ← field? 2 0 23 cs
  let (_, cs) ← field? 2 0 59 (← expect? ':' cs)
  let (_, cs) ← field? 2 0 60 (← expect? ':' cs)
  match cs with
  | '.' :: rest => if rest.head?.any isDigit then return rest.dropWhile isDigit else none
  | _ => return cs

/-- The text after the offset of a time zone. -/
def offset? (cs : List Char) : Option (List Char) :=
  match cs with
  | [] => none
  | c :: cs =>
    if c = 'Z' ∨ c = 'z' then some cs
    else if c = '+' ∨ c = '-' then do
      let (_, cs) ← field? 2 0 23 cs
      let (_, cs) ← field? 2 0 59 (← expect? ':' cs)
      return cs
    else none

/-- The text after a date, a time or both. -/
def dateTime? (cs : List Char) : Option (Unit × List Char) :=
  match date? cs with
  | none => (time? cs).map ((), ·)
  | some cs =>
    let timeAfter : Option (List Char) :=
      match cs with
      | c :: rest => if c = 'T' ∨ c = 't' ∨ c = ' ' then time? rest else none
      | [] => none
    match timeAfter with
    | none => some ((), cs)
    | some cs => some ((), (offset? cs).getD cs)

/-! ### Scalars -/

/-- A date, a time, a number or a word. -/
def unquoted? (cs : List Char) : Option (Scalar × List Char) :=
  match dateTime? cs with
  | some ((), rest) => some (.unreadable, rest)
  | none =>
    match float? cs with
    | some ((), rest) => some (.unreadable, rest)
    | none =>
      match whole? cs with
      | some (n, rest) => some ((Atom.number (.whole n)).scalar, rest)
      | none =>
        if "true".toList.isPrefixOf cs then some ((Atom.flag true).scalar, cs.drop 4)
        else if "false".toList.isPrefixOf cs then some ((Atom.flag false).scalar, cs.drop 5)
        else none

def scalar? (cs : List Char) : Option (Scalar × List Char) :=
  if cs.head? = some '"' ∨ cs.head? = some '\'' then
    (string? cs).map fun (s, rest) => ((Atom.text s).scalar, rest)
  else unquoted? cs

end StepScript.Toml
