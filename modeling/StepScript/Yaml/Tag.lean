import StepScript.Yaml.Cursor

/-!
The texts of YAML tags, anchors and directives.
-/

namespace StepScript.Yaml

/-- A tag as it is written: the handle of a shorthand, and the rest. A tag in angle brackets has no
handle, and neither has the tag of a single exclamation mark. -/
structure WrittenTag where
  handle : String
  suffix : String
  deriving DecidableEq

/-- The characters of tags besides letters, digits, hyphens and underscores. -/
def tagMarks : List Char := ";/?:@&=+$.%!~*'()".toList

/-- The characters of tags; a few more are allowed in angle brackets. -/
def isTagChar (bracketed : Bool) (c : Char) : Bool :=
  isNameChar c || tagMarks.contains c || (bracketed && (c == ',' || c == '[' || c == ']'))

/-- The byte of an escape here: a percent sign and two hexadecimal digits. -/
def escapedByte? : List Char → Option (UInt8 × List Char)
  | '%' :: a :: b :: rest => (Text.numeral? 16 [a, b]).map fun n => (n.toUInt8, rest)
  | _ => none

/-- How many bytes a character has whose first byte is given. -/
def encodedLength? (b : UInt8) : Option Nat :=
  if b &&& 0x80 = 0x00 then some 1
  else if b &&& 0xE0 = 0xC0 then some 2
  else if b &&& 0xF0 = 0xE0 then some 3
  else if b &&& 0xF8 = 0xF0 then some 4
  else none

/-- The further bytes of an escaped character, and what follows them. -/
def furtherBytes? : (count : Nat) → List Char → Option (List UInt8 × List Char)
  | 0, cs => some ([], cs)
  | count + 1, cs => do
    let (b, cs) ← escapedByte? cs
    if b &&& 0xC0 = 0x80 then
      let (bs, cs) ← furtherBytes? count cs
      return (b :: bs, cs)
    else none

/-- The bytes of a part of a tag, with escapes replaced, and what follows it. -/
def tagBytes? (bracketed : Bool) : (fuel : Nat) → List Char → Option (List UInt8 × List Char)
  | 0, cs => some ([], cs)
  | fuel + 1, cs =>
    match cs with
    | [] => some ([], [])
    | c :: rest =>
      if c = '%' then do
        let (b, after) ← escapedByte? cs
        let length ← encodedLength? b
        let (bs, after) ← furtherBytes? (length - 1) after
        let (more, after) ← tagBytes? bracketed fuel after
        return (b :: bs ++ more, after)
      else if isTagChar bracketed c then do
        let (more, after) ← tagBytes? bracketed fuel rest
        return ((String.singleton c).toUTF8.toList ++ more, after)
      else some ([], cs)

/-- A part of a tag after a text that belongs to it, and the place after it. -/
def tagPart? (bracketed : Bool) (before : List Char) (p : Cursor) : Option (String × Cursor) := do
  let (bytes, after) ← tagBytes? bracketed (p.rest.length + 1) p.rest
  let start := (String.ofList before).toUTF8.toList
  let text ← String.fromUTF8? ⟨(start ++ bytes).toArray⟩
  return (text, p.skip (p.rest.length - after.length))

/-- A handle here: an exclamation mark, name characters and perhaps another exclamation mark. -/
def handle? (p : Cursor) : Option (List Char × Cursor) :=
  if p.has '!' then
    let (name, p) := (p.skip 1).readWhile isNameChar
    if p.has '!' then some ('!' :: name ++ ['!'], p.skip 1) else some ('!' :: name, p)
  else none

/-- Whether the text of a handle is one that ends with an exclamation mark of its own. -/
def isClosedHandle (cs : List Char) : Bool :=
  2 ≤ cs.length && cs.getLast? == some '!'

/-- The tag here, and the place after it. -/
def tag? (inFlow : Bool) (p : Cursor) : Option (WrittenTag × Cursor) := do
  let (tag, p) ←
    if p.hasAt 1 '<' then do
      let (suffix, p) ← tagPart? true [] (p.skip 2)
      if suffix.isEmpty ∨ !p.has '>' then none
      else some ((⟨"", suffix⟩ : WrittenTag), p.skip 1)
    else do
      let (handle, p) ← handle? p
      if isClosedHandle handle then
        let (suffix, p) ← tagPart? false [] p
        if suffix.isEmpty then none else some (⟨String.ofList handle, suffix⟩, p)
      else
        let (suffix, p) ← tagPart? false (handle.drop 1) p
        some (if suffix.isEmpty then ⟨"", "!"⟩ else ⟨"!", suffix⟩, p)
  if (inFlow && p.has ',') || p.isSpacedAt 0 then return (tag, p) else none

/-- The name of an anchor or alias whose mark has been read, and the place after it. -/
def anchorName? (p : Cursor) : Option (String × Cursor) :=
  let (name, p) := p.readWhile isNameChar
  let endMarks := "?:,]\x7d%@`".toList
  if name.isEmpty then none
  else if p.isSpacedAt 0 || p.test endMarks.contains then some (String.ofList name, p)
  else none

/-- A directive: the version of the language, or the meaning of a handle. -/
inductive Directive where
  | version (major minor : Nat)
  | handle (name : String) (meaning : String)
  deriving DecidableEq

/-- A number of a version, of at most nine digits. -/
def versionNumber? (p : Cursor) : Option (Nat × Cursor) := do
  let (digits, p) := p.readWhile Text.isDigit
  if digits.isEmpty ∨ 9 < digits.length then none
  else return ((← Text.numeral? 10 digits), p)

/-- The directive whose mark has been read, and the place after its line. -/
def directive? (p : Cursor) : Option (Directive × Cursor) := do
  let (name, p) := p.readWhile isNameChar
  if name.isEmpty ∨ !p.isSpacedAt 0 then none
  let p' := p.skipWhile isGap
  let (d, p) ←
    if name = "YAML".toList then do
      let (major, p) ← versionNumber? p'
      if !p.has '.' then none
      let (minor, p) ← versionNumber? (p.skip 1)
      some (Directive.version major minor, p)
    else if name = "TAG".toList then do
      let (handle, p) ← handle? p'
      if !(isClosedHandle handle || handle = ['!']) || !p.test isGap then none
      let (meaning, p) ← tagPart? true [] (p.skipWhile isGap)
      if meaning.isEmpty ∨ !p.isSpacedAt 0 then none
      some (.handle (String.ofList handle) meaning, p)
    else none
  return (d, ← p.finishLine?)

end StepScript.Yaml
