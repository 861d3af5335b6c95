import StepScript.Text.Ascii

/-!
A place in YAML text: what stands after it, and its line, column and index. Lines end with a line feed,
a carriage return, both together, or one of three other line breaks of Unicode.
-/

namespace StepScript.Yaml

/-- A place in a text. -/
structure Cursor where
  rest : List Char
  line : Nat := 0
  column : Nat := 0
  index : Nat := 0

def isBreak (c : Char) : Bool :=
  c == '\n' || c == '\r' || c == '\u0085' || c == '\u2028' || c == '\u2029'

/-- The characters that stand between words of a line. -/
def isGap (c : Char) : Bool :=
  c == ' ' || c == '\t'

/-- The characters of the names of anchors, handles and directives. -/
def isNameChar (c : Char) : Bool :=
  Text.isWordChar c || c == '-'

def isAllowed (c : Char) : Bool :=
  let n := c.toNat
  n == 0x09 || n == 0x0A || n == 0x0D || (0x20 ≤ n && n ≤ 0x7E) || n == 0x85 ||
    (0xA0 ≤ n && n ≤ 0xD7FF) || (0xE000 ≤ n && n ≤ 0xFFFD && n != 0xFEFF) || 0x10000 ≤ n

namespace Cursor

/-- Whether the given character stands `n` places further on. -/
def hasAt (p : Cursor) (n : Nat) (c : Char) : Bool :=
  p.rest[n]? == some c

def has (p : Cursor) (c : Char) : Bool :=
  p.hasAt 0 c

def atEnd (p : Cursor) : Bool := p.rest.isEmpty

/-- Whether a gap, a line break or the end of the text stands `n` places further on. -/
def isSpacedAt (p : Cursor) (n : Nat) : Bool :=
  match p.rest[n]? with
  | none => true
  | some c => isGap c || isBreak c

def test (p : Cursor) (property : Char → Bool) : Bool :=
  match p.rest with
  | [] => false
  | c :: _ => property c

def atLineEnd (p : Cursor) : Bool := p.atEnd || p.test isBreak

/-- The place `n` characters further on in the same line. -/
def skip (p : Cursor) (n : Nat) : Cursor :=
  { p with rest := p.rest.drop n, column := p.column + n, index := p.index + n }

/-- The place after the characters with a property, none of which ends a line. -/
def skipWhile (p : Cursor) (property : Char → Bool) : Cursor :=
  p.skip (p.rest.takeWhile property).length

/-- The characters with a property, none of which ends a line, and the place after them. -/
def readWhile (p : Cursor) (property : Char → Bool) : List Char × Cursor :=
  (p.rest.takeWhile property, p.skipWhile property)

/-- The line break here as it is kept in a scalar, and the place after it; nothing if there is none. -/
def readBreak (p : Cursor) : List Char × Cursor :=
  let next (rest : List Char) (n : Nat) : Cursor :=
    { rest, line := p.line + 1, column := 0, index := p.index + n }
  match p.rest with
  | '\r' :: '\n' :: rest => (['\n'], next rest 2)
  | c :: rest =>
    if c == '\u2028' || c == '\u2029' then ([c], next rest 1)
    else if isBreak c then (['\n'], next rest 1)
    else ([], p)
  | [] => ([], p)

def skipBreak (p : Cursor) : Cursor := p.readBreak.2

/-- Whether a mark that separates documents starts here. -/
def atDocumentMark (p : Cursor) (mark : Char) : Bool :=
  p.column == 0 && p.has mark && p.hasAt 1 mark && p.hasAt 2 mark && p.isSpacedAt 3

/-- The place after a comment here, if there is one. -/
def skipComment (p : Cursor) : Cursor :=
  if p.has '#' then p.skipWhile (!isBreak ·) else p

/-- The place after gaps, a comment and the line break at the end of a line, if nothing else stands
before that. -/
def finishLine? (p : Cursor) : Option Cursor :=
  let p := (p.skipWhile isGap).skipComment
  if p.atLineEnd then some p.skipBreak else none

end Cursor

end StepScript.Yaml
