import StepScript.Value
import StepScript.Text.Ascii

/-!
Data values as JSON text, without blanks. Only printable ASCII characters are written as they are;
every other character is escaped, as a pair of halves where it needs more than sixteen bits.
-/

namespace StepScript.Json

open Text

def unitEscape (n : Nat) : List Char :=
  '\\' :: 'u' :: [n / 4096 % 16, n / 256 % 16, n / 16 % 16, n % 16].map hexDigit

def writeChar (c : Char) : List Char :=
  match c with
  | '"' => ['\\', '"']
  | '\\' => ['\\', '\\']
  | '\x08' => ['\\', 'b']
  | '\t' => ['\\', 't']
  | '\n' => ['\\', 'n']
  | '\x0c' => ['\\', 'f']
  | '\r' => ['\\', 'r']
  | c =>
    let n := c.toNat
    if 0x20 ≤ n ∧ n < 0x7F then [c]
    else if n < 0x10000 then unitEscape n
    else
      unitEscape (0xD800 + (n - 0x10000) / 0x400) ++ unitEscape (0xDC00 + (n - 0x10000) % 0x400)

def writeString (s : String) : List Char :=
  '"' :: s.toList.flatMap writeChar ++ ['"']

def writeAtom : Atom → List Char
  | .null => "null".toList
  | .flag b => (if b then "true" else "false").toList
  | .number n => n.text.toList
  | .text s => writeString s

mutual

def writeValue : Value → List Char
  | .atom a => writeAtom a
  | .list items => '[' :: writeItems items ++ [']']
  | .record fields => '\x7b' :: writeFields fields ++ ['\x7d']

/-- The items of a list, with commas between. -/
def writeItems : List Value → List Char
  | [] => []
  | [v] => writeValue v
  | v :: vs => writeValue v ++ ',' :: writeItems vs

/-- The fields of a record, with commas between. -/
def writeFields : List (String × Value) → List Char
  | [] => []
  | [(k, v)] => writeString k ++ ':' :: writeValue v
  | (k, v) :: fs => writeString k ++ ':' :: writeValue v ++ ',' :: writeFields fs

end

def write (v : Value) : String :=
  String.ofList (writeValue v)

end StepScript.Json
