import StepScript.Document

/-!
Reading records.

A record is written as a mapping, or in some formats as the list of its fields in their order. Its
fields are read one by one, and each reading remembers at which entry it failed; readings are put
together by `seq`, which keeps the failure of the earliest entry. So the first fault in the order of
the text is the one reported, and among required fields that are missing the one declared first.
Entries of unknown names are passed over. A reading succeeds exactly if each of its parts does
(`seq_eq_found_iff`).
-/

namespace StepScript

/-- What reading some fields of a record gives: a result, or the error at the entry of the given
position. -/
inductive Reading (α : Type) where
  | found (a : α)
  | fault (position : Nat) (error : DecodeError)

namespace Reading

def map {α β : Type} (f : α → β) : Reading α → Reading β
  | found a => found (f a)
  | fault p e => fault p e

/-- Two readings of one record: of two faults the one of the earlier entry, of two faults at one entry
the left one. -/
def seq {α β : Type} : Reading (α → β) → Reading α → Reading β
  | found f, found a => found (f a)
  | found _, fault p e => fault p e
  | fault p e, found _ => fault p e
  | fault p e, fault p' e' => if p' < p then fault p' e' else fault p e

instance : Functor Reading where
  map := Reading.map

instance : Seq Reading where
  seq f x := Reading.seq f (x ())

/-- The reading as a result. -/
def result {α : Type} : Reading α → Except DecodeError α
  | found a => .ok a
  | fault _ e => .error e

theorem map_eq_found_iff {α β : Type} {f : α → β} {x : Reading α} {b : β} :
    f <$> x = found b ↔ ∃ a, x = found a ∧ f a = b := by
  cases x <;> simp [Functor.map, Reading.map]

theorem seq_eq_found_iff {α β : Type} {f : Reading (α → β)} {x : Reading α} {b : β} :
    f <*> x = found b ↔ ∃ g a, f = found g ∧ x = found a ∧ g a = b := by
  cases f <;> cases x <;> simp only [Seq.seq, Reading.seq] <;> try simp
  split <;> simp

theorem result_eq_ok_iff {α : Type} {x : Reading α} {a : α} : x.result = .ok a ↔ x = found a := by
  cases x <;> simp [result]

end Reading

/-- The members of a record as they are written. -/
inductive Members where
  | named (entries : List (Option String × Document)) (whole : Bool)
  | listed (items : List Document) (whole : Bool)

/-- A written record, with the names of the fields that it may have in their order. -/
structure WrittenRecord where
  fieldNames : List String
  members : Members

/-- The document in the place of a record. -/
def Document.members? : Document → Option Members
  | .mapping c entries => some (.named entries c.whole)
  | .sequence c items => if c.positional then some (.listed items c.whole) else none
  | .scalar s => if s.isEmptyCollection then some (.named [] true) else none
  | .cut => none

/-- The entries of a name, with their positions. -/
def entriesOf (name : String) (entries : List (Option String × Document)) :
    List (Nat × Document) :=
  (entries.zipIdx.filter fun (e, _) => e.1 == some name).map fun (e, i) => (i, e.2)

namespace WrittenRecord

/-- The value of a field: `absent` if it is not there. -/
def field {α : Type} (r : WrittenRecord) (name : String) (read : Document → Except DecodeError α)
    (absent : Reading α) : Reading α :=
  match r.members with
  | .named entries _ =>
    match entriesOf name entries with
    | [] => absent
    | (i, d) :: more =>
      match read d, more with
      | .error e, _ => .fault i e
      | .ok a, [] => .found a
      | .ok _, (j, _) :: _ => .fault j (.duplicateField name)
  | .listed items _ =>
    match items[r.fieldNames.idxOf name]? with
    | none => absent
    | some d =>
      match read d with
      | .error e => .fault (r.fieldNames.idxOf name) e
      | .ok a => .found a

/-- What a missing field that is required gives: a fault after all entries. -/
def missing {α : Type} (r : WrittenRecord) (name : String) : Reading α :=
  match r.members with
  | .named entries _ => .fault (entries.length + 1) (.missingField name)
  | .listed items _ => .fault items.length .malformed

def required {α : Type} (r : WrittenRecord) (name : String)
    (read : Document → Except DecodeError α) : Reading α :=
  r.field name read (r.missing name)

/-- A field that has a value also if it is not there. -/
def withDefault {α : Type} (r : WrittenRecord) (name : String)
    (read : Document → Except DecodeError α) (default : α) : Reading α :=
  r.field name read (.found default)

def optionalText (r : WrittenRecord) (name : String) : Reading (Option String) :=
  r.withDefault name (Document.optional Document.text) none

/-- Whether an entry is no field of the record and yet stands in the way: its name is not a text, or
its text is not well formed to its end. -/
def obstructs (fieldNames : List String) : Option String × Document → Bool
  | (none, _) => true
  | (some name, d) => !fieldNames.contains name && !d.isWhole

/-- What is left to check once the fields are read: that unknown entries are well formed, that a list
of fields has no further item, and that the record reached its end. -/
def rest (r : WrittenRecord) : Reading Unit :=
  match r.members with
  | .named entries whole =>
    match entries.findIdx? (obstructs r.fieldNames) with
    | some i => .fault i .malformed
    | none => if whole then .found () else .fault entries.length .malformed
  | .listed items whole =>
    if r.fieldNames.length < items.length then .fault r.fieldNames.length .malformed
    else if whole then .found () else .fault items.length .malformed

def read {α : Type} (fieldNames : List String) (body : WrittenRecord → Reading α) (d : Document) :
    Except DecodeError α :=
  match d.members? with
  | none => .error .malformed
  | some members =>
    let r : WrittenRecord := ⟨fieldNames, members⟩
    ((fun a () => a) <$> body r <*> r.rest).result

end WrittenRecord

end StepScript
