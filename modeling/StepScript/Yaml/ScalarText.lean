import StepScript.Yaml.Cursor

/-!
The texts of YAML scalars.

A plain or quoted scalar may go on in further lines: a single line break becomes a blank, and of several
the first is dropped. A block scalar keeps its lines (literal) or joins them in the same way (folded),
except around lines that start with a gap; its header says what becomes of the line breaks at its end.
-/

namespace StepScript.Yaml

/-! ### Gaps within flow scalars -/

/-- What stands between two words of a scalar: gaps, or line breaks. -/
structure Interval where
  gaps : List Char := []
  broken : Bool := false
  firstBreak : List Char := []
  furtherBreaks : List Char := []

def Interval.text (i : Interval) : List Char :=
  if i.broken then
    if i.firstBreak = ['\n'] then
      if i.furtherBreaks.isEmpty then [' '] else i.furtherBreaks
    else i.firstBreak ++ i.furtherBreaks
  else i.gaps

/-- The interval that starts here, continued, and the place after it. A tab left of the column
`indent` may not start a line; that fault gives none. -/
def readInterval? (indent : Nat) : (fuel : Nat) → Interval → Cursor → Option (Interval × Cursor)
  | 0, i, p => some (i, p)
  | fuel + 1, i, p =>
    match p.rest with
    | [] => some (i, p)
    | c :: _ =>
      if isGap c then
        if i.broken && p.column < indent && c == '\t' then none
        else if i.broken then readInterval? indent fuel i (p.skip 1)
        else readInterval? indent fuel { i with gaps := i.gaps ++ [c] } (p.skip 1)
      else if isBreak c then
        let (text, p) := p.readBreak
        if i.broken then
          readInterval? indent fuel { i with furtherBreaks := i.furtherBreaks ++ text } p
        else readInterval? indent fuel { i with gaps := [], broken := true, firstBreak := text } p
      else some (i, p)

/-! ### Quoted scalars -/

/-- The character of an escape with one letter. -/
def escapedChar? (c : Char) : Option Char :=
  match c with
  | '0' => some '\x00'
  | 'a' => some '\x07'
  | 'b' => some '\x08'
  | 't' => some '\t'
  | '\t' => some '\t'
  | 'n' => some '\n'
  | 'v' => some '\x0b'
  | 'f' => some '\x0c'
  | 'r' => some '\r'
  | 'e' => some '\x1b'
  | ' ' => some ' '
  | '"' => some '"'
  | '/' => some '/'
  | '\\' => some '\\'
  | 'N' => some '\u0085'
  | '_' => some '\u00a0'
  | 'L' => some '\u2028'
  | 'P' => some '\u2029'
  | _ => none

/-- How many hexadecimal digits follow the letter of an escape. -/
def escapeDigits? (c : Char) : Option Nat :=
  match c with
  | 'x' => some 2
  | 'u' => some 4
  | 'U' => some 8
  | _ => none

/-- The character of a code, if there is one. -/
def charOfCode? (n : Nat) : Option Char :=
  if h : n.isValidChar then some (Char.ofNatAux n h) else none

/-- The character of the escape here, whose backslash is the first character, and its length. -/
def escape? (p : Cursor) : Option (Char × Nat) := do
  let letter ← p.rest[1]?
  match escapeDigits? letter with
  | some count => do
    let digits := (p.rest.drop 2).take count
    let n ← if digits.length = count then Text.numeral? 16 digits else none
    return ((← charOfCode? n), 2 + count)
  | none => return ((← escapedChar? letter), 2)

/-- How a run of characters of a quoted scalar ends. -/
inductive RunEnd where
  | other
  | escapedBreak

/-- The characters of a quoted scalar up to a gap, a line break, the closing quote or an escaped line
break. -/
def quotedRun? (single : Bool) : (fuel : Nat) → Cursor → Option (List Char × RunEnd × Cursor)
  | 0, _ => none
  | fuel + 1, p =>
    match p.rest with
    | [] => some ([], .other, p)
    | c :: next =>
      if isGap c || isBreak c then some ([], .other, p)
      else if single then
        if c = '\'' then
          if next.head? = some '\'' then
            (quotedRun? single fuel (p.skip 2)).map fun (cs, e, p) => ('\'' :: cs, e, p)
          else some ([], .other, p)
        else (quotedRun? single fuel (p.skip 1)).map fun (cs, e, p) => (c :: cs, e, p)
      else if c = '"' then some ([], .other, p)
      else if c = '\\' then
        if (p.skip 1).test isBreak then some ([], .escapedBreak, (p.skip 1).skipBreak)
        else
          match escape? p with
          | none => none
          | some (e, length) =>
            (quotedRun? single fuel (p.skip length)).map fun (cs, r, p) => (e :: cs, r, p)
      else (quotedRun? single fuel (p.skip 1)).map fun (cs, e, p) => (c :: cs, e, p)

/-- The text of a quoted scalar whose opening quote has been read, and the place after its closing
quote. A mark that separates documents may not stand within it. -/
def quoted? (single : Bool) : (fuel : Nat) → Cursor → Option (List Char × Cursor)
  | 0, _ => none
  | fuel + 1, p =>
    if p.atDocumentMark '-' || p.atDocumentMark '.' || p.atEnd then none
    else
      match quotedRun? single (p.rest.length + 1) p with
      | none => none
      | some (run, runEnd, p) =>
        if p.has (if single then '\'' else '"') then some (run, p.skip 1)
        else
          let start : Interval := { broken := runEnd matches .escapedBreak }
          match readInterval? 0 p.rest.length start p with
          | none => none
          | some (interval, p) =>
            (quoted? single fuel p).map fun (cs, p) => (run ++ interval.text ++ cs, p)

/-! ### Plain scalars -/

/-- Marks that end a plain scalar within a flow collection. -/
def isFlowMark (c : Char) : Bool :=
  c == ',' || c == '[' || c == ']' || c == '\x7b' || c == '\x7d'

/-- The characters of a plain scalar up to a gap, a line break or a mark that ends the scalar. -/
def plainRun? (inFlow : Bool) : (fuel : Nat) → Cursor → Option (List Char × Cursor)
  | 0, _ => none
  | fuel + 1, p =>
    match p.rest with
    | [] => some ([], p)
    | c :: next =>
      if isGap c || isBreak c then some ([], p)
      else if inFlow && c == ':' && (next.head?.any fun d => isFlowMark d || d == '?') then none
      else if (c == ':' && p.isSpacedAt 1) || (inFlow && isFlowMark c) then some ([], p)
      else (plainRun? inFlow fuel (p.skip 1)).map fun (cs, p) => (c :: cs, p)

/-- The text of a plain scalar after an interval, the place after it and the gaps that follow it, and
whether these end its line. Lines after the first one have to start at the column `indent` or
further right, unless in a flow collection. -/
def plain? (inFlow : Bool) (indent : Nat) : (fuel : Nat) → Interval → Cursor →
    Option (List Char × Cursor × Bool)
  | 0, _, _ => none
  | fuel + 1, before, p =>
    if p.atDocumentMark '-' || p.atDocumentMark '.' || p.has '#' then some ([], p, before.broken)
    else
      match plainRun? inFlow (p.rest.length + 1) p with
      | none => none
      | some (run, p) =>
        let text := if run.isEmpty then [] else before.text ++ run
        let before := if run.isEmpty then before else {}
        if !(p.test isGap || p.test isBreak) then some (text, p, before.broken)
        else
          match readInterval? indent p.rest.length before p with
          | none => none
          | some (interval, p) =>
            if !inFlow && p.column < indent then some (text, p, interval.broken)
            else
              (plain? inFlow indent fuel interval p).map fun (cs, p, b) => (text ++ cs, p, b)

/-! ### Block scalars -/

/-- What becomes of the line breaks at the end of a block scalar. -/
inductive Chomping where
  | strip
  | clip
  | keep

def chomping? (p : Cursor) : Option Chomping :=
  if p.has '+' then some .keep else if p.has '-' then some .strip else none

/-- The indentation mark here: none if there is none, and no result for a zero. -/
def indentMark? (p : Cursor) : Option (Option Nat) :=
  match p.rest with
  | c :: _ =>
    if Text.isDigit c then if c = '0' then none else some (some (c.toNat - '0'.toNat)) else some none
  | [] => some none

/-- The marks of a block scalar's header in either order, and the place after its line. -/
def blockHeader? (p : Cursor) : Option (Chomping × Option Nat × Cursor) := do
  match chomping? p with
  | some chomping =>
    let p := p.skip 1
    let indent ← indentMark? p
    let p ← (if indent.isSome then p.skip 1 else p).finishLine?
    return (chomping, indent, p)
  | none =>
    let indent ← indentMark? p
    let p := if indent.isSome then p.skip 1 else p
    match (if indent.isSome then chomping? p else none) with
    | some chomping => return (chomping, indent, ← (p.skip 1).finishLine?)
    | none => return (.clip, indent, ← p.finishLine?)

/-- The line breaks of empty lines here, the greatest column that their blanks reach, and the place of
the first text. The indentation is none as long as it is not known. -/
def blockBreaks? (indent? : Option Nat) : (fuel : Nat) → (reached : Nat) → Cursor →
    Option (List Char × Nat × Cursor)
  | 0, _, _ => none
  | fuel + 1, reached, p =>
    let blanks := (p.rest.takeWhile (· == ' ')).length
    let p := p.skip (match indent? with
      | some indent => min blanks (indent - p.column)
      | none => blanks)
    let reached := max reached p.column
    let within :=
      match indent? with
      | some indent => p.column < indent
      | none => true
    if within && p.has '\t' then none
    else if p.test isBreak then
      let (text, p) := p.readBreak
      (blockBreaks? indent? fuel reached p).map fun (cs, reached, p) => (text ++ cs, reached, p)
    else some ([], reached, p)

/-- The lines of a block scalar from the one here on, after the break `ended` that ends the line before
it and further breaks; with the breaks that are left at the end. -/
def blockLines? (literal : Bool) (indent : Nat) : (fuel : Nat) → (startedBlank : Bool) →
    (ended further : List Char) → Cursor → Option (List Char × List Char × List Char × Cursor)
  | 0, _, _, _, _ => none
  | fuel + 1, startedBlank, ended, further, p =>
    if p.column ≠ indent ∨ p.atEnd then some ([], ended, further, p)
    else
      let startsBlank := p.test isGap
      let between :=
        if !literal && ended == ['\n'] && !startedBlank && !startsBlank then
          if further.isEmpty then [' '] else further
        else ended ++ further
      let (line, p) := p.readWhile (!isBreak ·)
      let (ended, p) := p.readBreak
      match blockBreaks? (some indent) (p.rest.length + 1) 0 p with
      | none => none
      | some (further, _, p) =>
        (blockLines? literal indent fuel startsBlank ended further p).map
          fun (cs, e, f, p) => (between ++ line ++ cs, e, f, p)

/-- The text of a block scalar whose mark has been read, in a collection indented by `parent`, and the
place after it. -/
def block? (literal : Bool) (parent : Int) (p : Cursor) : Option (List Char × Cursor) := do
  let (chomping, mark?, p) ← blockHeader? p
  let given? := mark?.map fun n => if 0 ≤ parent then parent.toNat + n else n
  let (breaks, reached, p) ← blockBreaks? given? (p.rest.length + 1) 0 p
  let indent := given?.getD (max (max reached (parent + 1).toNat) 1)
  let (text, ended, further, p) ← blockLines? literal indent (p.rest.length + 1) false [] breaks p
  let tail :=
    match chomping with
    | .strip => []
    | .clip => ended
    | .keep => ended ++ further
  return (text ++ tail, p)

end StepScript.Yaml
