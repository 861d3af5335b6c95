import StepScript.Document.Canonical
import StepScript.Document.OfValue
import StepScript.Uuid

/-!
Transformations.

A transformation is one step of a job: a kind, the tables that it reads and writes, ordering keys,
column mappings, and free-form properties that hold the options of the step. Properties are a
canonical record, so their names ascend and each stands once. The identifier of a transformation is
the given one, or else is derived from its kind and name.
-/

namespace StepScript

open Text

inductive Kind where
  | sort
  | append
  deriving DecidableEq

def Kind.name : Kind → String
  | .sort => "sort"
  | .append => "append"

/-- Every kind, in the order of their names. -/
def Kind.all : List Kind := [.append, .sort]

/-- The kinds by name, as they are offered where a kind is read. -/
def Kind.choices : List (String × Kind) :=
  [("sort", .sort), ("append", .append)]

/-- The kind of a name in letters of either case. -/
def Kind.parse? (s : String) : Option Kind :=
  Kind.choices.lookup (lower s)

/-- The text of the error that a text names no kind. -/
def Kind.unknownMessage (s : String) : String :=
  "Unknown transformation kind: " ++ s

/-- A reference to a table by its identifier. -/
structure TableRef where
  tableId : String
  deriving DecidableEq

structure SortKey where
  name : String
  descending : Bool := false
  deriving DecidableEq

/-- A column of the sources and the column of the target that it becomes. -/
structure ColumnMapping where
  source : String
  target : String
  deriving DecidableEq

/-- Whether the mapping changes the name, letters of either case being the same. -/
def ColumnMapping.isRename (m : ColumnMapping) : Bool :=
  !sameLetters m.source m.target

/-- Free-form properties, in the order of their names. -/
structure Properties where
  entries : List (String × Value)
  canonical : (Value.record entries).isCanonical = true

namespace Properties

def empty : Properties := ⟨[], rfl⟩

/-- Reads properties; of two values of one name the last counts. -/
def read (d : Document) : Except DecodeError Properties :=
  match h : d.freeForm with
  | .ok entries => .ok ⟨entries, Document.isCanonical_of_freeForm h⟩
  | .error e => .error e

/-- The properties with one set to the data value of a document. -/
def put (p : Properties) (key : String) (d : Document) : Except DecodeError Properties :=
  match h : d.value with
  | .ok v =>
    .ok ⟨putField key v p.entries,
      isCanonical_putField (Document.isCanonical_of_value d v h) p.canonical⟩
  | .error e => .error e

def value (p : Properties) : Value := .record p.entries

end Properties

structure Transform where
  /-- The given identifier. -/
  id? : Option Uuid := none
  name : String
  kind : Kind
  sources : List TableRef := []
  targets : List TableRef := []
  orderBy : List SortKey := []
  mappings : List ColumnMapping := []
  properties : Properties := .empty

namespace Transform

/-- The identifier that is derived from a kind and a name. -/
def derivedId (kind : Kind) (name : String) : Uuid :=
  Uuid.ofName .objectNamespace (kind.name ++ ":" ++ name)

def id (t : Transform) : Uuid :=
  t.id?.getD (derivedId t.kind t.name)

def target? (t : Transform) : Option TableRef :=
  match t.targets with
  | [r] => some r
  | _ => none

end Transform

/-! ### The written form -/

namespace TableRef

def fieldNames : List String := ["table_id"]

def read : Document → Except DecodeError TableRef :=
  WrittenRecord.read fieldNames fun r => TableRef.mk <$> r.required "table_id" Document.text

def value (r : TableRef) : Value := .record [("table_id", .text r.tableId)]

end TableRef

namespace SortKey

def fieldNames : List String := ["name", "descending"]

def read : Document → Except DecodeError SortKey :=
  WrittenRecord.read fieldNames fun r =>
    SortKey.mk
      <$> r.required "name" Document.text
      <*> r.withDefault "descending" Document.flag false

def value (k : SortKey) : Value :=
  .record [("name", .text k.name), ("descending", .flag k.descending)]

end SortKey

namespace ColumnMapping

def fieldNames : List String := ["source", "target"]

def read : Document → Except DecodeError ColumnMapping :=
  WrittenRecord.read fieldNames fun r =>
    ColumnMapping.mk <$> r.required "source" Document.text <*> r.required "target" Document.text

def value (m : ColumnMapping) : Value :=
  .record [("source", .text m.source), ("target", .text m.target)]

end ColumnMapping

/-- Reads an identifier in one of its forms. -/
def Uuid.read (d : Document) : Except DecodeError Uuid := do
  match Uuid.parse? (← d.text) with
  | some id => .ok id
  | none => .error .malformed

namespace Transform

def fieldNames : List String :=
  ["id", "name", "kind", "sources", "targets", "order_by", "column_mappings", "properties"]

def read : Document → Except DecodeError Transform :=
  WrittenRecord.read fieldNames fun r =>
    Transform.mk
      <$> r.withDefault "id" (Document.optional Uuid.read) none
      <*> r.required "name" Document.text
      <*> r.required "kind" (Document.choice Kind.choices)
      <*> r.withDefault "sources" (Document.list TableRef.read) []
      <*> r.withDefault "targets" (Document.list TableRef.read) []
      <*> r.withDefault "order_by" (Document.list SortKey.read) []
      <*> r.withDefault "column_mappings" (Document.list ColumnMapping.read) []
      <*> r.withDefault "properties" Properties.read .empty

/-- The written form of a transformation; an identifier that is not given is left out. -/
def value (t : Transform) : Value :=
  .record (optionalField "id" (t.id?.map Uuid.text) ++
    [("name", .text t.name), ("kind", .text t.kind.name),
      ("sources", .list (t.sources.map TableRef.value)),
      ("targets", .list (t.targets.map TableRef.value)),
      ("order_by", .list (t.orderBy.map SortKey.value)),
      ("column_mappings", .list (t.mappings.map ColumnMapping.value)),
      ("properties", t.properties.value)])

end Transform

end StepScript
