import StepScript.Step.Mapping

/-!
Append steps.

An append step replaces its target by the rows of all its sources, one source after another: the
target is deleted, and a data step with one line per source writes it, with its labels and formats.
-/

namespace StepScript.Step

open Text

/-- A source as a line of the data step. -/
def sourceLine (env : Env) (source : Table) : Except Cause String :=
  match source.location? env.settings with
  | .ok location => .ok (withOptions location.text source.readText)
  | .error e => .error e

/-- The sources as lines of the data step. -/
def sourceLines (env : Env) (t : Transform) : Except Cause (List String) :=
  match env.sources t with
  | .ok sources => sources.mapM (sourceLine env)
  | .error e => .error e

/-- Ends the current line and starts one that is a level deeper. -/
def continueLine (text : String) : Step Unit := do
  appendLine ""
  indented (append text)

/-- The data step that writes a location from source lines. -/
def emitAppend (out targetOptions : String) (inputs : List String) (appendOptionText : String)
    (statements : List String) : Step Unit := do
  append ("data " ++ out)
  appendOptions targetOptions
  appendLine ";"
  indented do
    append "set"
    inputs.forM continueLine
    match nonBlank appendOptionText with
    | some options => continueLine options
    | none => pure ()
    appendLine ";"
    appendLines statements
  appendLine "run;"

def generateAppend (env : Env) (t : Transform) : Step Unit := do
  attempt env (Env.checkSourceAndTarget t)
  attempt env (env.checkTargetManaged t)
  attempt env (env.checkSourcesReadable t)
  let inputs ← attempt env (sourceLines env t)
  let target ← attempt env (env.target t)
  let location ← attempt env (target.location? env.settings)
  emitSystemOptions env t
  emitTableDelete env target
  emitAppend location.text (target.writeText true) inputs
    (OptionText.resolve t.properties OptionText.append) (target.columnStatements true)
  setLastOutput location.text
  finish statusVariable

end StepScript.Step
