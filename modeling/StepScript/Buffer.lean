import StepScript.Settings

/-!
Generated code under construction.

A buffer holds fragments of text, each with the level of indentation at which it was appended, and the
current level. Rendering puts the fragments one after another and writes the indentation of a fragment
at every line start within it, unless the piece of the line in that fragment is empty or only a line
break. Fragments are only ever added at the end (`fragments_append`).
-/

namespace StepScript

/-- A text and the level at which it was appended. -/
structure Fragment where
  level : Nat
  text : String
  deriving DecidableEq

/-- Generated code under construction. -/
structure Buffer where
  fragments : Array Fragment := #[]
  level : Nat := 0
  indentUnit : String
  lineBreak : String
  deriving DecidableEq

namespace Buffer

def ofSettings (s : Settings) : Buffer :=
  { indentUnit := s.indentUnit, lineBreak := s.lineBreak }

/-- The buffer with a fragment at the current level. -/
def append (b : Buffer) (text : String) : Buffer :=
  { b with fragments := b.fragments.push ⟨b.level, text⟩ }

/-- The buffer with a fragment that ends its line. -/
def appendLine (b : Buffer) (text : String) : Buffer :=
  b.append (text ++ b.lineBreak)

def indent (b : Buffer) : Buffer :=
  { b with level := b.level + 1 }

/-- The buffer one level back, if it is not at level zero. -/
def unindent? (b : Buffer) : Option Buffer :=
  match b.level with
  | 0 => none
  | level + 1 => some { b with level }

def isEmpty (b : Buffer) : Bool := b.fragments.isEmpty

/-- A text cut after each line feed. -/
def pieces : List Char → List (List Char)
  | [] => []
  | c :: cs =>
    if c = '\n' then [c] :: pieces cs
    else
      match pieces cs with
      | [] => [[c]]
      | p :: ps => (c :: p) :: ps

/-- Whether a piece of a line has no character but those of line breaks. -/
def isBlankPiece (p : List Char) : Bool :=
  p.all fun c => c == '\r' || c == '\n'

def endsLine (p : List Char) : Bool :=
  p.getLast? == some '\n'

/-- The pieces of a fragment as they are rendered, where the first one stands at a line start or not,
and whether a line starts after them. -/
def renderPieces (indentation : List Char) : (atLineStart : Bool) → List (List Char) →
    List Char × Bool
  | atLineStart, [] => ([], atLineStart)
  | atLineStart, p :: ps =>
    let (text, next) := renderPieces indentation (endsLine p) ps
    (if atLineStart && !isBlankPiece p then (indentation ++ p ++ text, next)
    else (p ++ text, next))

def indentation (unit : List Char) (level : Nat) : List Char :=
  (List.replicate level unit).flatten

/-- The fragments as they are rendered, from a line start or from within a line. -/
def renderFragments (unit : List Char) : (atLineStart : Bool) → List Fragment → List Char
  | _, [] => []
  | atLineStart, f :: fs =>
    let (text, next) := renderPieces (indentation unit f.level) atLineStart (pieces f.text.toList)
    text ++ renderFragments unit next fs

def render (b : Buffer) : String :=
  String.ofList (renderFragments b.indentUnit.toList true b.fragments.toList)

@[simp] theorem fragments_append (b : Buffer) (text : String) :
    (b.append text).fragments.toList = b.fragments.toList ++ [⟨b.level, text⟩] := by
  simp [append]

@[simp] theorem level_append (b : Buffer) (text : String) : (b.append text).level = b.level := rfl

theorem unindent?_indent (b : Buffer) : b.indent.unindent? = some b := rfl

end Buffer

end StepScript
