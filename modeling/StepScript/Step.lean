import StepScript.Buffer
import StepScript.OptionText
import StepScript.Step.Resolve

/-!
Steps.

A step is what is done to generate one transformation. It writes into a buffer, knows the dataset that
was produced last, and counts its intermediate tables. It may stop with a failure, or with a defect of
the caller that the operations do not allow for; what was written until then stays written.
-/

namespace StepScript

/-- A call that is not allowed where it was made. -/
inductive Defect where
  /-- The level of indentation was zero. -/
  | unindentAtZero
  /-- The table to delete is external. -/
  | deleteOfExternal (table : String)
  deriving DecidableEq

def Defect.message : Defect → String
  | .unindentAtZero => "CodeBuffer::unindent called at indentation level 0"
  | .deleteOfExternal table => "emit_table_delete called for external table '" ++ table ++ "'"

/-- Why a step stops. -/
inductive Halt where
  | failure (f : Failure)
  | defect (d : Defect)
  deriving DecidableEq

/-- What a step changes. -/
structure StepState where
  buffer : Buffer
  /-- The dataset that was produced last. -/
  lastOutput? : Option String := none
  /-- How many intermediate tables were named. -/
  workTables : Nat := 0
  deriving DecidableEq

/-- The state in which the step of a transformation starts. -/
def StepState.fresh (s : Settings) : StepState :=
  { buffer := .ofSettings s }

/-- What a name stands for at run time that no step has set: the dataset produced last. -/
def lastDataset := "&SYSLAST"

/-- The dataset that was produced last, as generated code refers to it. -/
def StepState.lastOutput (s : StepState) : String :=
  s.lastOutput?.getD lastDataset

/-- A computation within a step: it changes the state and may stop, the state then being as it is. -/
abbrev Step (α : Type) := EStateM Halt StepState α

namespace Step

open Text

/-! ### Elementary operations -/

/-- The result of a check, or the failure of the transformation. -/
def attempt {α : Type} (env : Env) : Except Cause α → Step α
  | .ok a => pure a
  | .error cause => throw (.failure ⟨env.transform, cause⟩)

def append (text : String) : Step Unit :=
  modify fun s => { s with buffer := s.buffer.append text }

def appendLine (text : String) : Step Unit :=
  modify fun s => { s with buffer := s.buffer.appendLine text }

def indent : Step Unit :=
  modify fun s => { s with buffer := s.buffer.indent }

def unindent : Step Unit := do
  match (← get).buffer.unindent? with
  | some buffer => modify fun s => { s with buffer }
  | none => throw (.defect .unindentAtZero)

def indented (body : Step Unit) : Step Unit := do
  indent
  body
  unindent

def lastOutput : Step String := do
  return (← get).lastOutput

def setLastOutput (dataset : String) : Step Unit :=
  modify fun s => { s with lastOutput? := some dataset }

def appendLines (texts : List String) : Step Unit :=
  texts.forM appendLine

/-- Appends options in parentheses after a blank, unless they are blank. -/
def appendOptions (options : String) : Step Unit :=
  match nonBlank options with
  | some text => append (" (" ++ text ++ ")")
  | none => pure ()

/-! ### Tables -/

/-- The first source table. Its location counts as produced last if nothing was produced yet. -/
def resolveSource (env : Env) (t : Transform) : Step Table := do
  let source ← attempt env (env.firstSource t)
  if (← get).lastOutput?.isNone then
    let location ← attempt env (source.location? env.settings)
    setLastOutput location.text
  return source

/-- The first eight digits of a transformation's identifier, in capitals. -/
def idPart (t : Transform) : String :=
  String.ofList ((t.id.digits.take 8).map upperChar)

/-- The name of the intermediate table with a number. -/
def workTable (s : Settings) (t : Transform) (n : Nat) : String :=
  s.workLibref ++ ".W" ++ idPart t ++ "_" ++ toString n

def nextWorkTable (env : Env) (t : Transform) : Step String := do
  modify fun s => { s with workTables := s.workTables + 1 }
  return workTable env.settings t (← get).workTables

/-! ### Statements -/

/-- The texts of the statement that sets system options. -/
def systemOptions (s : Settings) (t : Transform) : List String :=
  let system := OptionText.resolve t.properties OptionText.system
  s.globalOptions.filterMap nonBlank ++ if system = "" then [] else [system]

/-- The statement that sets system options, unless there are none. -/
def emitSystemOptions (env : Env) (t : Transform) : Step Unit := do
  let options := systemOptions env.settings t
  if !options.isEmpty then
    appendLine ("options " ++ String.intercalate " " options ++ ";")
    appendLine ""

def emitTableDelete (env : Env) (table : Table) : Step Unit := do
  if table.isExternal then
    throw (.defect (.deleteOfExternal table.name))
  let libref ← attempt env (table.libref? env.settings)
  let member ← attempt env table.member?
  appendLine ("proc datasets lib = " ++ libref ++ " nolist nowarn memtype = (data view);")
  indented do
    appendLine ("delete " ++ member ++ ";")
  appendLine "quit;"
  appendLine ""

/-- The statements that set the column attributes of a table in place, unless it has none. -/
def emitColumnAttributes (env : Env) (table : Table) (withLabels : Bool) : Step Unit := do
  let statements := table.columnStatements withLabels
  if !statements.isEmpty then
    let libref ← attempt env (table.libref? env.settings)
    let member ← attempt env table.member?
    appendLine ""
    appendLine ("proc datasets lib = " ++ libref ++ " nolist nowarn;")
    indented do
      appendLine ("modify " ++ member ++ ";")
      indented do
        appendLines statements
    appendLine "quit;"

/-- An ordering key in the statement of the ordering. -/
def sortKeyText (k : SortKey) : String :=
  if k.descending then "descending " ++ k.name else k.name

/-- The statement of the ordering, if there are ordering keys. -/
def orderByStatement? (t : Transform) : Option String :=
  if t.orderBy.isEmpty then none
  else some ("by " ++ String.intercalate " " (t.orderBy.map sortKeyText) ++ ";")

/-- The variable that holds the status of the last statement. -/
def statusVariable := "&syserr"

/-- The check of a status with which every step ends. -/
def finish (status : String) : Step Unit := do
  appendLine ""
  appendLine ("%rcSet(" ++ status ++ ");")
  appendLine ""

end Step

end StepScript
