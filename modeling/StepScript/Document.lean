import StepScript.Value

/-!
Documents: the common form of data read from JSON, YAML and TOML text and of data values.

What a written item means depends on where it stands: `5` is a number in a free-form setting and the
text `5` in the place of a name. A document keeps for every scalar how it reads in each place, and for
every collection whether it reached its end: text that stops being well formed leaves the collections
around that point without an end, so that a fault of the data before that point is still the first.
-/

namespace StepScript

/-- Why a document is not the data that was asked for. -/
inductive DecodeError where
  /-- A required field of a record is not there. -/
  | missingField (name : String)
  /-- A name that is none of the choices in its place. -/
  | unknownVariant (name : String) (choices : List String)
  /-- A field of a record that stands twice. -/
  | duplicateField (name : String)
  /-- Text that is not well formed, or an item of the wrong kind. -/
  | malformed
  deriving DecidableEq

/-- A name between backquotes. -/
def quoteName (name : String) : String :=
  "`" ++ name ++ "`"

def listChoices : List String → String
  | [] => "there are no variants"
  | [a] => "expected " ++ quoteName a
  | [a, b] => "expected " ++ quoteName a ++ " or " ++ quoteName b
  | names => "expected one of " ++ String.intercalate ", " (names.map quoteName)

/-- The text of an error, for the three that concern a named part of the data. -/
def DecodeError.message? : DecodeError → Option String
  | .missingField name => some ("missing field " ++ quoteName name)
  | .unknownVariant name choices =>
    some ("unknown variant " ++ quoteName name ++ ", " ++ listChoices choices)
  | .duplicateField name => some ("duplicate field " ++ quoteName name)
  | .malformed => none

/-- A choice as it is written: its name, and whether nothing else is attached to it. -/
structure Variant where
  name : String
  bare : Bool

/-- How a scalar reads in each place. -/
structure Scalar where
  text? : Option String := none
  flag? : Option Bool := none
  /-- As a natural number that fits 64 bits. -/
  natural? : Option Nat := none
  /-- In an optional place: whether something is there. -/
  present? : Option Bool := none
  /-- Whether it stands for an empty list or record. -/
  isEmptyCollection : Bool := false
  variant? : Option Variant := none
  atom? : Option Atom := none

/-- What a list or record is besides its items. -/
structure Collection where
  /-- Whether its end was reached. -/
  whole : Bool := true
  /-- Whether it may stand for a record although it is a list of the record's fields. -/
  positional : Bool := false
  /-- Whether it reads as a data value. -/
  untyped : Bool := true
  variant? : Option Variant := none

/-- Written data. -/
inductive Document where
  | scalar (s : Scalar)
  | sequence (c : Collection) (items : List Document)
  /-- A name that is not a text is none. -/
  | mapping (c : Collection) (entries : List (Option String × Document))
  /-- Where the text stops being well formed. -/
  | cut

/-- A scalar that is well formed and reads in no place. -/
def Scalar.unreadable : Scalar := {}

namespace Document

/-- Whether the item is well formed to its end. -/
def isWhole : Document → Bool
  | .scalar _ => true
  | .sequence c _ => c.whole
  | .mapping c _ => c.whole
  | .cut => false

/-- The scalar of a document, if it is one. -/
def scalar? : Document → Option Scalar
  | .scalar s => some s
  | _ => none

/-- A reading that may not apply, as a result. -/
def orMalformed {α : Type} : Option α → Except DecodeError α
  | some a => .ok a
  | none => .error .malformed

/-- The document in the place of a text. -/
def text (d : Document) : Except DecodeError String :=
  orMalformed (d.scalar?.bind (·.text?))

/-- The document in the place of a flag. -/
def flag (d : Document) : Except DecodeError Bool :=
  orMalformed (d.scalar?.bind (·.flag?))

/-- The document in the place of a natural number. -/
def natural (d : Document) : Except DecodeError Nat :=
  orMalformed (d.scalar?.bind (·.natural?))

def optional {α : Type} (read : Document → Except DecodeError α) (d : Document) :
    Except DecodeError (Option α) :=
  match d with
  | .scalar s =>
    match s.present? with
    | none => .error .malformed
    | some false => .ok none
    | some true => some <$> read d
  | _ => some <$> read d

/-- The document as the name of a choice. -/
def variant? : Document → Option Variant
  | .scalar s => s.variant?
  | .sequence c _ => c.variant?
  | .mapping c _ => c.variant?
  | .cut => none

/-- The document in the place of one of several named choices. -/
def choice {α : Type} (choices : List (String × α)) (d : Document) : Except DecodeError α :=
  match d.variant? with
  | none => .error .malformed
  | some v =>
    match choices.lookup v.name with
    | none => .error (.unknownVariant v.name (choices.map (·.1)))
    | some a => if v.bare then .ok a else .error .malformed

/-- A result that holds if the collection reached its end. -/
def ended {α : Type} (c : Collection) (a : α) : Except DecodeError α :=
  if c.whole then .ok a else .error .malformed

/-- The document in the place of a list. -/
def list {α : Type} (read : Document → Except DecodeError α) (d : Document) :
    Except DecodeError (List α) :=
  match d with
  | .sequence c items => items.mapM read >>= ended c
  | .scalar s => if s.isEmptyCollection then .ok [] else .error .malformed
  | _ => .error .malformed

mutual

/-- The document in the place of a data value. -/
def value : Document → Except DecodeError Value
  | .scalar s => (orMalformed s.atom?).map .atom
  | .sequence c items =>
    if c.untyped then values items >>= fun vs => ended c (.list vs) else .error .malformed
  | .mapping c entries =>
    if c.untyped then
      fields entries >>= fun fs => ended c (.record (gatherFields fs))
    else .error .malformed
  | .cut => .error .malformed

/-- The documents of a list in the place of data values. -/
def values : List Document → Except DecodeError (List Value)
  | [] => .ok []
  | d :: ds =>
    match d.value with
    | .error e => .error e
    | .ok v =>
      match values ds with
      | .error e => .error e
      | .ok vs => .ok (v :: vs)

/-- The entries of a mapping in the place of data values. -/
def fields : List (Option String × Document) → Except DecodeError (List (String × Value))
  | [] => .ok []
  | (none, _) :: _ => .error .malformed
  | (some k, d) :: es =>
    match d.value with
    | .error e => .error e
    | .ok v =>
      match fields es with
      | .error e => .error e
      | .ok fs => .ok ((k, v) :: fs)

end

/-- The document in the place of a record of free-form data values, in the order of names. -/
def freeForm (d : Document) : Except DecodeError (List (String × Value)) :=
  match d with
  | .mapping c entries => fields entries >>= fun fs => ended c (gatherFields fs)
  | .scalar s => if s.isEmptyCollection then .ok [] else .error .malformed
  | _ => .error .malformed

/-- The document in the place of a record of texts, in the order in which they are written. -/
def texts (d : Document) : Except DecodeError (List (String × String)) :=
  match d with
  | .mapping c entries =>
    (entries.mapM fun (k, d) => do return ((← orMalformed k), (← d.text))) >>= ended c
  | .scalar s => if s.isEmptyCollection then .ok [] else .error .malformed
  | _ => .error .malformed

end Document

end StepScript
