import StepScript.Document.Record

/-!
Data values as documents. A value reads in the place of its own kind only: a number is not a text,
and a whole number is no float. A list may stand for a record, and a record with one field whose
value is null for a choice.
-/

namespace StepScript

/-- Natural numbers below this bound fit 64 bits. -/
def wordBound : Nat := Nat.pow 2 64

/-- A number in the place of a natural number. -/
def Amount.natural? : Amount → Option Nat
  | .whole (.ofNat n) => if n < wordBound then some n else none
  | _ => none

def Atom.scalar (a : Atom) : Scalar :=
  let s : Scalar := { present? := some true, atom? := some a }
  match a with
  | .null => { s with present? := some false }
  | .flag b => { s with flag? := some b }
  | .number n => { s with natural? := n.natural? }
  | .text t => { s with text? := some t, variant? := some ⟨t, true⟩ }

/-- The written field of an optional text: nothing if it is not there. -/
def optionalField (name : String) : Option String → List (String × Value)
  | none => []
  | some s => [(name, .text s)]

def Document.isNull : Document → Bool
  | .scalar s => s.atom? == some .null
  | _ => false

mutual

def Value.document : Value → Document
  | .atom a => .scalar a.scalar
  | .list items => .sequence { positional := true } (documents items)
  | .record fields =>
    let entries := entryDocuments fields
    let variant? :=
      match entries with
      | [(some name, d)] => some ⟨name, d.isNull⟩
      | _ => none
    .mapping { variant? } entries

/-- The documents of a list of data values. -/
def documents : List Value → List Document
  | [] => []
  | v :: vs => v.document :: documents vs

/-- The entries of a record of data values. -/
def entryDocuments : List (String × Value) → List (Option String × Document)
  | [] => []
  | (k, v) :: fs => (some k, v.document) :: entryDocuments fs

end

end StepScript
