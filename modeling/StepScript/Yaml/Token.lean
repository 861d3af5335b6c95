import StepScript.Yaml.ScalarText
import StepScript.Yaml.Tag

/-!
The tokens of YAML text.

A text is a list of tokens: marks, scalars, anchors, aliases, tags, and the starts and ends of block
collections, which are given by indentation. That a scalar, or any other node on one line, is the key
of an entry shows only at the colon after it; until then its place is kept as a possible key, and the
key mark is put in front of it later. If the text is not well formed at some place, the tokens before
the earliest possible key stand, followed by the token `broken`.
-/

namespace StepScript.Yaml

inductive ScalarStyle where
  | plain
  | quoted
  | literal
  | folded
  deriving DecidableEq

inductive Token where
  | streamEnd
  /-- The text is not well formed from here on. -/
  | broken
  | directive (d : Directive)
  | documentStart
  | documentEnd
  | blockSequenceStart
  | blockMappingStart
  | blockEnd
  | flowSequenceStart
  | flowSequenceEnd
  | flowMappingStart
  | flowMappingEnd
  | blockEntry
  | flowEntry
  | key
  | value
  | alias (name : String)
  | anchor (name : String)
  | tag (t : WrittenTag)
  | scalar (style : ScalarStyle) (text : String)
  deriving DecidableEq

/-- A place where a key may have started. -/
structure PossibleKey where
  /-- Whether nothing but a key may stand there. -/
  required : Bool
  /-- The number of the token that starts there. -/
  number : Nat
  line : Nat
  column : Nat
  index : Nat

/-- The state of reading tokens. -/
structure Reader where
  cursor : Cursor
  tokens : Array Token := #[]
  /-- The column of the current block collection; -1 outside of all. -/
  indent : Int := -1
  /-- The columns of the block collections around it. -/
  outer : List Int := []
  /-- Whether a key may start at the next token. -/
  keyAllowed : Bool := true
  /-- The possible key of the innermost flow collection, or of the block context. -/
  current : Option PossibleKey := none
  /-- The possible keys of the contexts around it, one for each flow collection. -/
  suspended : List (Option PossibleKey) := []

namespace Reader

/-- Whether the place is within a flow collection. -/
def inFlow (r : Reader) : Bool := !r.suspended.isEmpty

def emit (r : Reader) (t : Token) : Reader :=
  { r with tokens := r.tokens.push t }

def moveTo (r : Reader) (p : Cursor) : Reader :=
  { r with cursor := p }

/-- The place of the next token, and whether a line was ended before it. Tabs may stand before a token
where no key may start. -/
def nextPlace (inFlow : Bool) : (fuel : Nat) → (keyAllowed : Bool) → Cursor → Bool × Cursor
  | 0, keyAllowed, p => (keyAllowed, p)
  | fuel + 1, keyAllowed, p =>
    let p := p.skipWhile fun c => c == ' ' || ((inFlow || !keyAllowed) && c == '\t')
    let p := p.skipComment
    if p.test isBreak then nextPlace inFlow fuel (keyAllowed || !inFlow) p.skipBreak
    else (keyAllowed, p)

/-- The columns left when the block collections right of a column end, and how many end. -/
def close (column : Int) : Int → List Int → Nat × Int × List Int
  | indent, [] => (0, indent, [])
  | indent, o :: os =>
    if column < indent then
      let (n, indent, outer) := close column o os
      (n + 1, indent, outer)
    else (0, indent, o :: os)

/-- Ends the block collections right of a column. -/
def unroll (r : Reader) (column : Int) : Reader :=
  if r.inFlow then r
  else
    let (n, indent, outer) := close column r.indent r.outer
    { r with indent, outer, tokens := r.tokens ++ Array.replicate n .blockEnd }

/-- Starts a block collection at a column right of the current one, with its token at a number. -/
def roll (r : Reader) (column number : Nat) (t : Token) : Reader :=
  if r.inFlow || !(r.indent < column) then r
  else
    { r with indent := column, outer := r.indent :: r.outer, tokens := r.tokens.insertIdxIfInBounds number t }

/-- Gives up the current possible key; none if a key is required there. -/
def dropKey? (r : Reader) : Option Reader :=
  if r.current.any (·.required) then none else some { r with current := none }

/-- Notes the place as a possible key, if a key may start there. -/
def noteKey? (r : Reader) : Option Reader :=
  if r.keyAllowed then do
    let r ← r.dropKey?
    let p := r.cursor
    return { r with current := some {
      required := !r.inFlow && r.indent == p.column, number := r.tokens.size,
      line := p.line, column := p.column, index := p.index } }
  else some r

/-- Whether a possible key cannot be one any more: a key stands in one line of limited length. -/
def isStale (p : Cursor) (k : PossibleKey) : Bool :=
  k.line < p.line || k.index + 1024 < p.index

/-- Gives up the possible keys that cannot be keys any more; none if a key is required at one. -/
def dropStale? (r : Reader) : Option Reader :=
  let stale := isStale r.cursor
  if (r.current :: r.suspended).any fun k => k.any fun k => stale k && k.required then none
  else
    some { r with
      current := r.current.filter (!stale ·)
      suspended := r.suspended.map fun k => k.filter (!stale ·) }

/-- How many tokens are settled: those before the earliest possible key. -/
def settled (r : Reader) : Nat :=
  ((r.current :: r.suspended).filterMap id).foldl (fun n k => min n k.number) r.tokens.size

/-! ### Tokens of one kind -/

/-- A mark of `n` characters. -/
def mark (r : Reader) (n : Nat) (t : Token) : Reader :=
  (r.moveTo (r.cursor.skip n)).emit t

def readEnd? (r : Reader) : Option Reader := do
  let r ← (r.unroll (-1)).dropKey?
  return r.emit .streamEnd

/-- A line that starts with a percent sign. -/
def readDirective? (r : Reader) : Option Reader := do
  let r ← (r.unroll (-1)).dropKey?
  let (d, p) ← directive? (r.cursor.skip 1)
  return ({ r with keyAllowed := false }.moveTo p).emit (.directive d)

def readDocumentMark? (r : Reader) (t : Token) : Option Reader := do
  let r ← (r.unroll (-1)).dropKey?
  return { r with keyAllowed := false }.mark 3 t

def readFlowStart? (r : Reader) (t : Token) : Option Reader := do
  let r ← r.noteKey?
  return { r with keyAllowed := true, suspended := r.current :: r.suspended, current := none }.mark 1 t

def readFlowEnd? (r : Reader) (t : Token) : Option Reader := do
  let r ← r.dropKey?
  let r :=
    match r.suspended with
    | k :: ks => { r with current := k, suspended := ks }
    | [] => r
  return { r with keyAllowed := false }.mark 1 t

/-- The comma between the entries of a flow collection. -/
def readFlowEntry? (r : Reader) : Option Reader := do
  let r ← r.dropKey?
  return { r with keyAllowed := true }.mark 1 .flowEntry

def readBlockEntry? (r : Reader) : Option Reader := do
  if !r.inFlow && !r.keyAllowed then none
  let r ← (r.roll r.cursor.column r.tokens.size .blockSequenceStart).dropKey?
  return { r with keyAllowed := true }.mark 1 .blockEntry

def readKey? (r : Reader) : Option Reader := do
  if !r.inFlow && !r.keyAllowed then none
  let r ← (r.roll r.cursor.column r.tokens.size .blockMappingStart).dropKey?
  return { r with keyAllowed := !r.inFlow }.mark 1 .key

def readValue? (r : Reader) : Option Reader :=
  match r.current with
  | some k =>
    let r := { r with tokens := r.tokens.insertIdxIfInBounds k.number .key }
    let r := r.roll k.column k.number .blockMappingStart
    some ({ r with current := none, keyAllowed := false }.mark 1 .value)
  | none =>
    if !r.inFlow && !r.keyAllowed then none
    else
      let r := r.roll r.cursor.column r.tokens.size .blockMappingStart
      some ({ r with keyAllowed := !r.inFlow }.mark 1 .value)

def readAnchor? (r : Reader) (t : String → Token) : Option Reader := do
  let r ← r.noteKey?
  let (name, p) ← anchorName? (r.cursor.skip 1)
  return ({ r with keyAllowed := false }.moveTo p).emit (t name)

def readTag? (r : Reader) : Option Reader := do
  let r ← r.noteKey?
  let (t, p) ← tag? r.inFlow r.cursor
  return ({ r with keyAllowed := false }.moveTo p).emit (.tag t)

def readBlock? (r : Reader) (literal : Bool) : Option Reader := do
  let r ← r.dropKey?
  let (text, p) ← block? literal r.indent (r.cursor.skip 1)
  return ({ r with keyAllowed := true }.moveTo p).emit
    (.scalar (if literal then .literal else .folded) (String.ofList text))

def readQuoted? (r : Reader) (single : Bool) : Option Reader := do
  let r ← r.noteKey?
  let p := r.cursor.skip 1
  let (text, p) ← quoted? single (p.rest.length + 1) p
  return ({ r with keyAllowed := false }.moveTo p).emit (.scalar .quoted (String.ofList text))

/-- A plain scalar. A key may start after one that ends its line. -/
def readPlain? (r : Reader) : Option Reader := do
  let r ← r.noteKey?
  let p := r.cursor
  let (text, p, endsLine) ← plain? r.inFlow (r.indent + 1).toNat (p.rest.length + 1) {} p
  return ({ r with keyAllowed := endsLine }.moveTo p).emit (.scalar .plain (String.ofList text))

/-- The characters that start no plain scalar. -/
def indicators : List Char := "-?:,[]\x7b\x7d#&*!|>'\"%@`".toList

def startsPlain (r : Reader) : Bool :=
  let p := r.cursor
  p.test fun c =>
    !(isGap c || isBreak c || indicators.contains c) ||
      (c == '-' && !(p.skip 1).test isGap) ||
      (!r.inFlow && (c == '?' || c == ':') && !p.isSpacedAt 1)

def next? (r : Reader) : Option Reader := do
  let (keyAllowed, p) := nextPlace r.inFlow (r.cursor.rest.length + 1) r.keyAllowed r.cursor
  let r ← ({ r with keyAllowed }.moveTo p).dropStale?
  let r := r.unroll p.column
  match p.rest with
  | [] => r.readEnd?
  | c :: _ =>
    if p.column = 0 ∧ c = '%' then r.readDirective?
    else if p.atDocumentMark '-' then r.readDocumentMark? .documentStart
    else if p.atDocumentMark '.' then r.readDocumentMark? .documentEnd
    else if c = '[' then r.readFlowStart? .flowSequenceStart
    else if c = '\x7b' then r.readFlowStart? .flowMappingStart
    else if c = ']' then r.readFlowEnd? .flowSequenceEnd
    else if c = '\x7d' then r.readFlowEnd? .flowMappingEnd
    else if c = ',' then r.readFlowEntry?
    else if c = '-' ∧ p.isSpacedAt 1 then r.readBlockEntry?
    else if c = '?' ∧ (r.inFlow ∨ p.isSpacedAt 1) then r.readKey?
    else if c = ':' ∧ (r.inFlow ∨ p.isSpacedAt 1) then r.readValue?
    else if c = '*' then r.readAnchor? .alias
    else if c = '&' then r.readAnchor? .anchor
    else if c = '!' then r.readTag?
    else if c = '|' ∧ !r.inFlow then r.readBlock? true
    else if c = '>' ∧ !r.inFlow then r.readBlock? false
    else if c = '\'' then r.readQuoted? true
    else if c = '"' then r.readQuoted? false
    else if r.startsPlain then r.readPlain?
    else none

/-- The settled tokens and the mark of a fault. -/
def brokenTokens (r : Reader) : List Token :=
  (r.tokens.take r.settled).toList ++ [.broken]

/-- Reads tokens to the end of the text or to the first fault. -/
def run : (fuel : Nat) → Reader → List Token
  | 0, r => r.brokenTokens
  | fuel + 1, r =>
    match r.dropStale? with
    | none => r.brokenTokens
    | some r =>
      match r.next? with
      | none => r.brokenTokens
      | some r' => if r'.tokens.back? = some .streamEnd then r'.tokens.toList else run fuel r'

end Reader

/-- The tokens of a text. A byte order mark at its start does not count; a character that YAML text may
not contain breaks the whole text. -/
def tokens (text : String) : List Token :=
  let cs := text.toList
  let cs := if cs.head? = some '\uFEFF' then cs.drop 1 else cs
  if cs.all isAllowed then Reader.run (cs.length + 2) { cursor := { rest := cs } } else [.broken]

end StepScript.Yaml
