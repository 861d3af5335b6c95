import StepScript.Step.Mapping

/-!
Sort steps.

A sort step replaces its target by the rows of its first source in the order of its ordering keys: the
target is deleted, columns are mapped if asked for, and a sort procedure reads the dataset produced
last and writes the target. Labels and formats of columns are set afterwards.
-/

namespace StepScript.Step

open Text

/-- The sort procedure from a dataset into a location. -/
def emitSort (env : Env) (t : Transform) (data sourceOptions out targetOptions sortOptions : String) :
    Step Unit := do
  append ("proc sort data = " ++ data)
  appendOptions sourceOptions
  appendLine ""
  indented do
    append ("out = " ++ out)
    appendOptions targetOptions
    match nonBlank sortOptions with
    | some options =>
      appendLine ""
      append options
    | none => pure ()
    appendLine ";"
    match orderByStatement? t with
    | some statement => appendLine statement
    | none => attempt env (.error (.missingOrderBy OptionText.sort))
  appendLine "run;"

def generateSort (mapper : ColumnMapper) (env : Env) (t : Transform) : Step Unit := do
  attempt env (Env.checkSourceAndTarget t)
  attempt env (env.checkTargetManaged t)
  attempt env (env.checkSourcesReadable t)
  let source ← resolveSource env t
  let target ← attempt env (env.target t)
  let location ← attempt env (target.location? env.settings)
  emitSystemOptions env t
  emitTableDelete env target
  let mapped ← mapColumns mapper env t source.readText
  let data ← lastOutput
  emitSort env t data (if mapped then "" else source.readText) location.text (target.writeText true)
    (OptionText.resolve t.properties OptionText.sort)
  emitColumnAttributes env target true
  finish statusVariable

end StepScript.Step
