import StepScript.Step

/-!
The column-mapping pass.

Where columns of the source become columns of other names in the target, a data step ahead of the main
statement writes an intermediate table with the mapped columns only. That table then counts as
produced last, so the main statement reads mapped data. The pass applies the source's read options
itself, and says so by its result.
-/

namespace StepScript

open Text

/-- How columns are mapped ahead of a main statement. -/
inductive ColumnMapper where
  /-- Keeps the mapped columns and renames them. -/
  | rename
  /-- Leaves columns alone. -/
  | none
  deriving DecidableEq

namespace Step

/-- The renamings of the mappings that change a name. -/
def renameItems (t : Transform) : List String :=
  (t.mappings.filter ColumnMapping.isRename).map fun m => m.source ++ " = " ++ m.target

/-- A dataset to read with its options in parentheses, unless they are blank. -/
def withOptions (dataset options : String) : String :=
  match nonBlank options with
  | some text => dataset ++ " (" ++ text ++ ")"
  | none => dataset

/-- The data step that maps the columns of the dataset produced last. -/
def emitMapping (env : Env) (t : Transform) (sourceOptions : String) : Step Unit := do
  let input ← lastOutput
  let work ← nextWorkTable env t
  appendLine ("data " ++ work ++ ";")
  indented do
    appendLine ("set " ++ withOptions input sourceOptions ++ ";")
    appendLine ("keep " ++ String.intercalate " " (t.mappings.map (·.source)) ++ ";")
    if !(renameItems t).isEmpty then
      appendLine ("rename " ++ String.intercalate " " (renameItems t) ++ ";")
  appendLine "run;"
  appendLine ""
  setLastOutput work

/-- Maps columns, if the mapper does and the transformation asks for it. The result says whether a
data step was written. -/
def mapColumns (mapper : ColumnMapper) (env : Env) (t : Transform) (sourceOptions : String) :
    Step Bool :=
  match mapper with
  | .none => pure false
  | .rename =>
    if t.mappings.isEmpty then pure false
    else do
      emitMapping env t sourceOptions
      return true

end Step

end StepScript
