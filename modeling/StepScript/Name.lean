import StepScript.Text.Ascii

/-!
Physical names.

A table is written in generated code as a library reference and a member name. Both consist of ASCII
letters, digits and underscores, do not start with a digit, and have a greatest length: 8 for a
library reference, 32 for a member name. `Name.check` reports the first rule that a text breaks:
that it is not empty, its length in bytes, and its characters.
-/

namespace StepScript

open Text

inductive NameKind where
  | libref
  | member
  deriving DecidableEq

def NameKind.label : NameKind → String
  | .libref => "libref"
  | .member => "member name"

def NameKind.limit : NameKind → Nat
  | .libref => 8
  | .member => 32

inductive NameError where
  | empty (kind : NameKind)
  | tooLong (kind : NameKind) (bytes : Nat)
  | badCharacters (kind : NameKind) (text : String)
  deriving DecidableEq

def NameError.message : NameError → String
  | .empty kind => kind.label ++ " cannot be empty"
  | .tooLong kind bytes =>
    kind.label ++ " exceeds maximum length (max: " ++ toString kind.limit ++ ", got: " ++
      toString bytes ++ ")"
  | .badCharacters kind text =>
    kind.label ++ " '" ++ text ++
      "' must start with a letter or underscore and contain only letters, digits and underscores"

namespace Name

/-- Whether the characters of a text are those of a name: word characters, the first no digit. -/
def hasNameShape (cs : List Char) : Bool :=
  match cs with
  | [] => false
  | c :: _ => !isDigit c && cs.all isWordChar

/-- Whether a text is a physical name of a kind; if not, the first rule that it breaks. -/
def check (kind : NameKind) (s : String) : Except NameError Unit :=
  if s.isEmpty then .error (.empty kind)
  else if kind.limit < s.utf8ByteSize then .error (.tooLong kind s.utf8ByteSize)
  else if hasNameShape s.toList then .ok ()
  else .error (.badCharacters kind s)

end Name

end StepScript
