import StepScript.Failure
import StepScript.Settings
import StepScript.Table
import StepScript.Text.Blank
import StepScript.Text.Quoted

/-!
How generated code refers to a table: its physical location, the options under which it is read and
written, and the statements for its columns. A location is a valid library reference and a valid
member name with a point between.
-/

namespace StepScript

open Text

structure Location where
  libref : String
  member : String
  deriving DecidableEq

def Location.text (l : Location) : String :=
  l.libref ++ "." ++ l.member

namespace Table

/-- The library of the table, or else the default one. -/
def effectiveLibref (s : Settings) (t : Table) : String :=
  t.libref.getD s.defaultLibref

/-- A physical name of the table that was checked to be of its kind. -/
def checkedName (t : Table) (kind : NameKind) (name : String) : Except Cause String :=
  match Name.check kind name with
  | .ok () => .ok name
  | .error e => .error (.invalidLocation t.id t.name e)

/-- The table's library reference, if it is valid. -/
def libref? (s : Settings) (t : Table) : Except Cause String :=
  t.checkedName .libref (t.effectiveLibref s)

/-- The table's member name, if it is valid. -/
def member? (t : Table) : Except Cause String :=
  t.checkedName .member t.name

/-- The table's location, if both of its names are valid. -/
def location? (s : Settings) (t : Table) : Except Cause Location :=
  match t.libref? s with
  | .error e => .error e
  | .ok libref =>
    match t.member? with
    | .error e => .error e
    | .ok member => .ok ⟨libref, member⟩

def inParens (name text : String) : String :=
  name ++ "=(" ++ text ++ ")"

/-- The parts of the options under which the table is read. -/
def readParts (t : Table) : List String :=
  (if t.keep.isEmpty then [] else ["keep=" ++ String.intercalate " " t.keep]) ++
  (if t.renames.isEmpty then []
    else [inParens "rename" (String.intercalate " " (t.renames.map fun r => r.source ++ "=" ++ r.target))]) ++
  ((nonBlank? t.condition).map (inParens "where")).toList ++
  (nonBlank? t.readOptions).toList

/-- The options under which the table is read; empty if there are none. -/
def readText (t : Table) : String :=
  String.intercalate " " t.readParts

/-- The options under which the table is written, with the table's label or without it; empty if there
are none. -/
def writeText (t : Table) (withLabel : Bool) : String :=
  String.intercalate " " (
    (if withLabel then ((nonBlank? t.label).map fun l => "label=" ++ Quoted.write l).toList else []) ++
    (nonBlank? t.writeOptions).toList)

/-- The columns with a label, each with its literal. -/
def labelItems (t : Table) : List String :=
  t.columns.filterMap fun c => (nonBlank? c.label).map fun l => c.name ++ "=" ++ Quoted.write l

/-- The columns with a format, each with it. -/
def formatItems (t : Table) : List String :=
  t.columns.filterMap fun c => (nonBlank? c.format).map fun f => c.name ++ " " ++ f

/-- A statement of a keyword and items, unless there are no items. -/
def statement (keyword : String) (items : List String) : List String :=
  if items.isEmpty then [] else [keyword ++ " " ++ String.intercalate " " items ++ ";"]

/-- The statements for the columns' labels, where asked for, and formats. -/
def columnStatements (t : Table) (withLabels : Bool) : List String :=
  (if withLabels then statement "label" t.labelItems else []) ++ statement "format" t.formatItems

end Table

end StepScript
