import StepScript.Document.OfValue

/-!
Tables.

A table is known by its identifier; its member name and library say where it is stored. A managed
table belongs to the generated code, which may delete and replace it; an external one does not, and
is only read if it is exposed as a permanent view. What is said of a table for reading (`keep`,
`renames`, `condition`, `readOptions`) and for writing (`label`, `writeOptions`) goes into the clauses
that refer to it.
-/

namespace StepScript

/-- Whether the generated code owns a table. -/
inductive Storage where
  | managed
  | external
  deriving DecidableEq

/-- The name of a kind of storage in its written form. -/
def Storage.name : Storage → String
  | .managed => "managed"
  | .external => "external"

def Storage.choices : List (String × Storage) :=
  [("managed", .managed), ("external", .external)]

structure Column where
  name : String
  label : Option String := none
  format : Option String := none
  deriving DecidableEq

/-- A renaming of a column where a table is read. -/
structure ColumnRename where
  source : String
  target : String
  deriving DecidableEq

structure Table where
  /-- The identifier by which transformations refer to the table. -/
  id : String
  name : String
  /-- The library; none stands for the default library. -/
  libref : Option String := none
  storage : Storage := .managed
  /-- Whether an external table is a view that may be read. -/
  permanentView : Bool := false
  label : Option String := none
  columns : List Column := []
  /-- The columns kept where the table is read. -/
  keep : List String := []
  renames : List ColumnRename := []
  /-- The condition on rows where the table is read. -/
  condition : Option String := none
  readOptions : Option String := none
  writeOptions : Option String := none
  deriving DecidableEq

/-! ### The written form -/

namespace Column

def fieldNames : List String := ["name", "label", "format"]

def read : Document → Except DecodeError Column :=
  WrittenRecord.read fieldNames fun r =>
    Column.mk
      <$> r.required "name" Document.text
      <*> r.optionalText "label"
      <*> r.optionalText "format"

def value (c : Column) : Value :=
  .record (("name", .text c.name) :: optionalField "label" c.label ++ optionalField "format" c.format)

end Column

namespace ColumnRename

def fieldNames : List String := ["from", "to"]

def read : Document → Except DecodeError ColumnRename :=
  WrittenRecord.read fieldNames fun r =>
    ColumnRename.mk <$> r.required "from" Document.text <*> r.required "to" Document.text

def value (c : ColumnRename) : Value :=
  .record [("from", .text c.source), ("to", .text c.target)]

end ColumnRename

namespace Table

/-- A managed table whose identifier is its member name. -/
def ofName (name : String) : Table := { id := name, name }

def isExternal (t : Table) : Bool := t.storage == .external

def asPermanentView (t : Table) : Table := { t with storage := .external, permanentView := true }

def fieldNames : List String :=
  ["id", "name", "libref", "storage", "permanent_view", "label", "columns", "keep", "rename", "where",
    "read_options", "write_options"]

def read : Document → Except DecodeError Table :=
  WrittenRecord.read fieldNames fun r =>
    Table.mk
      <$> r.required "id" Document.text
      <*> r.required "name" Document.text
      <*> r.optionalText "libref"
      <*> r.withDefault "storage" (Document.choice Storage.choices) .managed
      <*> r.withDefault "permanent_view" Document.flag false
      <*> r.optionalText "label"
      <*> r.withDefault "columns" (Document.list Column.read) []
      <*> r.withDefault "keep" (Document.list Document.text) []
      <*> r.withDefault "rename" (Document.list ColumnRename.read) []
      <*> r.optionalText "where"
      <*> r.optionalText "read_options"
      <*> r.optionalText "write_options"

/-- The written form of a table; an optional text that is not there is left out. -/
def value (t : Table) : Value :=
  .record (
    [("id", .text t.id), ("name", .text t.name)] ++
    optionalField "libref" t.libref ++
    [("storage", .text t.storage.name), ("permanent_view", .flag t.permanentView)] ++
    optionalField "label" t.label ++
    [("columns", .list (t.columns.map Column.value)), ("keep", .texts t.keep),
      ("rename", .list (t.renames.map ColumnRename.value))] ++
    optionalField "where" t.condition ++
    optionalField "read_options" t.readOptions ++
    optionalField "write_options" t.writeOptions)

end Table

end StepScript
