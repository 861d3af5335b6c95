import StepScript.Document.OfValue
import StepScript.Json.Number

/-!
JSON text as a document.

Text is read from left to right until its end or the first place where it is not JSON; what stands
before that place is kept. Some things are well formed and yet read in no place: a string with half of
a surrogate pair, a number too large for a float, and a collection nested deeper than `depthLimit`.
They can stand only where they are passed over.
-/

namespace StepScript.Json

open Text

def depthLimit : Nat := 127

/-- A text without the white space at its front. -/
def skipSpace (cs : List Char) : List Char :=
  cs.dropWhile fun c => c == ' ' || c == '\n' || c == '\t' || c == '\r'

/-! ### Strings -/

/-- A unit of a string: a character, or a 16-bit unit given by an escape. -/
inductive StringUnit where
  | char (c : Char)
  | unit (n : Nat)

/-- The character of an escape with one letter. -/
def escapedChar? (c : Char) : Option Char :=
  match c with
  | '"' => some '"'
  | '\\' => some '\\'
  | '/' => some '/'
  | 'b' => some '\x08'
  | 'f' => some '\x0c'
  | 'n' => some '\n'
  | 'r' => some '\r'
  | 't' => some '\t'
  | _ => none

/-- The units of a string whose opening quote has been read, and what follows its closing quote. -/
def stringUnits? : List Char → Option (List StringUnit × List Char)
  | [] => none
  | '"' :: cs => some ([], cs)
  | '\\' :: 'u' :: a :: b :: c :: d :: cs => do
    let n ← numeral? 16 [a, b, c, d]
    let (units, rest) ← stringUnits? cs
    return (.unit n :: units, rest)
  | '\\' :: c :: cs => do
    let e ← escapedChar? c
    let (units, rest) ← stringUnits? cs
    return (.char e :: units, rest)
  | c :: cs =>
    if c.toNat < 0x20 ∨ c = '\\' then none
    else do
      let (units, rest) ← stringUnits? cs
      return (.char c :: units, rest)

/-- Whether a 16-bit unit is the first half of a pair. -/
def isHighHalf (n : Nat) : Bool := 0xD800 ≤ n && n < 0xDC00

/-- Whether a 16-bit unit is the second half of a pair. -/
def isLowHalf (n : Nat) : Bool := 0xDC00 ≤ n && n < 0xE000

/-- The characters of units, if every half of a pair has its other half. -/
def unitChars? : List StringUnit → Option (List Char)
  | [] => some []
  | .char c :: us => (unitChars? us).map (c :: ·)
  | .unit n :: .unit m :: us =>
    if isHighHalf n && isLowHalf m then
      (unitChars? us).map (Char.ofNat (0x10000 + (n - 0xD800) * 0x400 + (m - 0xDC00)) :: ·)
    else if isHighHalf n || isLowHalf n then none
    else (unitChars? (.unit m :: us)).map (Char.ofNat n :: ·)
  | .unit n :: us =>
    if isHighHalf n || isLowHalf n then none else (unitChars? us).map (Char.ofNat n :: ·)

/-- The text of a string whose opening quote has been read, none if it has half of a pair, and what
follows the string. -/
def string? (cs : List Char) : Option (Option String × List Char) := do
  let (units, rest) ← stringUnits? cs
  return ((unitChars? units).map String.ofList, rest)

/-! ### Scalars -/

def words : List (List Char × Atom) :=
  [("null".toList, .null), ("true".toList, .flag true), ("false".toList, .flag false)]

/-- An atom in each place; one that is not a value reads in none. -/
def atomScalar (a : Option Atom) : Scalar :=
  (a.map Atom.scalar).getD .unreadable

/-- The scalar at the front of a text, and what follows it. -/
def scalar? (cs : List Char) : Option (Scalar × List Char) :=
  match cs with
  | [] => none
  | '"' :: rest => (string? rest).map fun (s, rest) => (atomScalar (s.map .text), rest)
  | c :: _ =>
    if c = '-' ∨ isDigit c then (numberToken? cs).map fun (t, rest) => (atomScalar (t.amount?.map .number), rest)
    else (words.find? fun (w, _) => w.isPrefixOf cs).map fun (w, a) => (a.scalar, cs.drop w.length)

/-! ### Collections -/

/-- A part of a document, and the text after it, none if the text stopped being well formed. -/
abbrev Part (α : Type) := α × Option (List Char)

def collect (level : Nat) (build : Collection → Document) (c : Collection) : Document :=
  if level < depthLimit then build c
  else if c.whole then .scalar .unreadable
  else .cut

/-- A record as a choice: its first name, with nothing attached if the only value is null. -/
def recordVariant? (entries : List (Option String × Document)) : Option Variant :=
  match entries with
  | [(some name, d)] => some ⟨name, d.isNull⟩
  | (some name, _) :: _ => some ⟨name, false⟩
  | _ => none

/-- What follows the value of an entry or item: the closing mark, or a comma. -/
inductive Continuation where
  | closed (rest : List Char)
  | more (rest : List Char)
  | broken

/-- What follows an item of a collection that ends with the given mark. -/
def continuation (mark : Char) (cs : List Char) : Continuation :=
  match skipSpace cs with
  | [] => .broken
  | c :: cs => if c = mark then .closed cs else if c = ',' then .more cs else .broken

/-- The name of an entry and the text after its colon, if both are there. -/
def entryName? (cs : List Char) : Option (Option String × Option (List Char)) :=
  match skipSpace cs with
  | '"' :: cs => do
    let (name, rest) ← string? cs
    return (name, match skipSpace rest with
      | ':' :: rest => some rest
      | _ => none)
  | _ => none

mutual

/-- The item at the front of a text, in collections nested `level` deep. -/
def item (level : Nat) : (fuel : Nat) → List Char → Part Document
  | 0, _ => (.cut, none)
  | fuel + 1, cs =>
    match skipSpace cs with
    | '[' :: cs =>
      match skipSpace cs with
      | ']' :: rest => (collect level (.sequence · []) { positional := true }, some rest)
      | cs =>
        let (ds, rest) := items (level + 1) fuel cs
        (collect level (.sequence · ds) { positional := true, whole := rest.isSome }, rest)
    | '\x7b' :: cs =>
      match skipSpace cs with
      | '\x7d' :: rest => (collect level (.mapping · []) {}, some rest)
      | cs =>
        let (es, rest) := entries (level + 1) fuel cs
        (collect level (.mapping · es) { whole := rest.isSome, variant? := recordVariant? es }, rest)
    | cs =>
      match scalar? cs with
      | some (s, rest) => (.scalar s, some rest)
      | none => (.cut, none)

/-- The items of a list from the next one on. -/
def items (level : Nat) : (fuel : Nat) → List Char → Part (List Document)
  | 0, _ => ([], none)
  | fuel + 1, cs =>
    match item level fuel cs with
    | (d, none) => ([d], none)
    | (d, some rest) =>
      match continuation ']' rest with
      | .closed rest => ([d], some rest)
      | .broken => ([d], none)
      | .more rest =>
        let (ds, rest) := items level fuel rest
        (d :: ds, rest)

/-- The entries of a record from the next one on. -/
def entries (level : Nat) : (fuel : Nat) → List Char → Part (List (Option String × Document))
  | 0, _ => ([], none)
  | fuel + 1, cs =>
    match entryName? cs with
    | none => ([], none)
    | some (name, none) => ([(name, .cut)], none)
    | some (name, some cs) =>
      match item level fuel cs with
      | (d, none) => ([(name, d)], none)
      | (d, some rest) =>
        match continuation '\x7d' rest with
        | .closed rest => ([(name, d)], some rest)
        | .broken => ([(name, d)], none)
        | .more rest =>
          let (es, rest) := entries level fuel rest
          ((name, d) :: es, rest)

end

/-- Reads JSON text that holds one item of the given form and nothing else. -/
def read {α : Type} (readItem : Document → Except DecodeError α) (text : String) :
    Except DecodeError α := do
  let cs := text.toList
  let (d, rest) := item 0 (2 * cs.length + 2) cs
  let a ← readItem d
  match rest with
  | some rest => if (skipSpace rest).isEmpty then return a else .error .malformed
  | none => .error .malformed

/-- The data value that JSON text stands for. -/
def value (text : String) : Except DecodeError Value :=
  read Document.value text

end StepScript.Json
