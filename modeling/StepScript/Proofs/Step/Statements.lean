import StepScript.Registry
import StepScript.Proofs.Step.Writes
import StepScript.Proofs.Table.Location

/-! What the statements of a step are, as fragments. Each statement is written as a whole once the names
    in it are known to be valid; the sort procedure alone may stop, for want of ordering keys. -/

namespace StepScript
open Text

namespace Step

/-! ### Statements that every step may have -/

/-- Options in parentheses. -/
def optionFragments (options : String) : List Fragment :=
  match nonBlank options with
  | some text => [⟨0, " (" ++ text ++ ")"⟩]
  | none => []

theorem writes_appendOptions (options : String) :
    Writes (appendOptions options) fun _ => optionFragments options := by
  unfold appendOptions optionFragments
  cases nonBlank options with
  | some text => exact writes_append _
  | none => exact .nothing

/-- The statement that sets system options. -/
def systemFragments (s : Settings) (t : Transform) (br : String) : List Fragment :=
  if (systemOptions s t).isEmpty then []
  else [line br 0 ("options " ++ String.intercalate " " (systemOptions s t) ++ ";"), line br 0 ""]

theorem writes_emitSystemOptions (env : Env) (t : Transform) :
    Writes (emitSystemOptions env t) (systemFragments env.settings t) := by
  unfold emitSystemOptions systemFragments
  cases h : (systemOptions env.settings t).isEmpty with
  | true =>
    simp only [h]
    exact .nothing
  | false =>
    simp only [h]
    exact (writes_appendLine _).seq (writes_appendLine _)

/-- The statements that delete the table at a location. -/
def deleteFragments (l : Location) (br : String) : List Fragment :=
  [line br 0 ("proc datasets lib = " ++ l.libref ++ " nolist nowarn memtype = (data view);"),
    line br 1 ("delete " ++ l.member ++ ";"), line br 0 "quit;", line br 0 ""]

/-- The statements that set column attributes in place. -/
def columnFragments (l : Location) (statements : List String) (br : String) : List Fragment :=
  if statements.isEmpty then []
  else
    [line br 0 "", line br 0 ("proc datasets lib = " ++ l.libref ++ " nolist nowarn;"),
      line br 1 ("modify " ++ l.member ++ ";")] ++
    statements.map (line br 2) ++ [line br 0 "quit;"]

/-- A managed table with a location is deleted there. -/
theorem writes_emitTableDelete {env : Env} {table : Table} {l : Location} (hmanaged : table.isExternal = false)
    (hl : table.location? env.settings = .ok l) : Writes (emitTableDelete env table) (deleteFragments l) := by
  obtain ⟨hlibref, hmember⟩ := Table.names_of_location? hl
  have hbody : Writes (do
      appendLine ("proc datasets lib = " ++ l.libref ++ " nolist nowarn memtype = (data view);")
      indented (appendLine ("delete " ++ l.member ++ ";"))
      appendLine "quit;"
      appendLine "") (deleteFragments l) :=
    (writes_appendLine _).seq ((writes_appendLine _).indented.seq ((writes_appendLine _).seq (writes_appendLine _)))
  intro s
  unfold emitTableDelete
  rw [hmanaged, hlibref, hmember]
  exact hbody s

theorem writes_emitColumnAttributes {env : Env} {table : Table} {l : Location}
    (hl : table.location? env.settings = .ok l) (withLabels : Bool) :
    Writes (emitColumnAttributes env table withLabels) (columnFragments l (table.columnStatements withLabels)) := by
  obtain ⟨hlibref, hmember⟩ := Table.names_of_location? hl
  unfold emitColumnAttributes columnFragments
  rw [hlibref, hmember]
  cases h : (table.columnStatements withLabels).isEmpty with
  | true =>
    simp only [h]
    exact .nothing
  | false =>
    simp only [h]
    have hmodify := ((writes_appendLine ("modify " ++ l.member ++ ";")).seq
      (writes_appendLines (table.columnStatements withLabels)).indented).indented
    have hbody := (writes_appendLine "").seq
      ((writes_appendLine ("proc datasets lib = " ++ l.libref ++ " nolist nowarn;")).seq
        (hmodify.seq (writes_appendLine "quit;")))
    refine Writes.of_eq hbody fun br => ?_
    rw [List.map_append, map_deeper_line, map_deeper_line]
    rfl

/-- The check of a status. -/
def finishFragments (status br : String) : List Fragment :=
  [line br 0 "", line br 0 ("%rcSet(" ++ status ++ ");"), line br 0 ""]

theorem writes_finish (status : String) : Writes (finish status) (finishFragments status) :=
  (writes_appendLine _).seq ((writes_appendLine _).seq (writes_appendLine _))

/-! ### Column mapping -/

/-- The data step that maps columns into a work table. -/
def mappingFragments (t : Transform) (work input sourceOptions br : String) : List Fragment :=
  [line br 0 ("data " ++ work ++ ";"), line br 1 ("set " ++ withOptions input sourceOptions ++ ";"),
    line br 1 ("keep " ++ String.intercalate " " (t.mappings.map (·.source)) ++ ";")] ++
  (if (renameItems t).isEmpty then []
    else [line br 1 ("rename " ++ String.intercalate " " (renameItems t) ++ ";")]) ++
  [line br 0 "run;", line br 0 ""]

/-- The state after columns were mapped into a new work table. -/
def mappedState (env : Env) (t : Transform) (sourceOptions : String) (s : StepState) : StepState :=
  let work := workTable env.settings t (s.workTables + 1)
  { s.write (mappingFragments t work s.lastOutput sourceOptions s.buffer.lineBreak) with
    lastOutput? := some work
    workTables := s.workTables + 1 }

/-- Whether columns are mapped. -/
def mapsColumns (mapper : ColumnMapper) (t : Transform) : Bool :=
  mapper == .rename && !t.mappings.isEmpty

theorem emitMapping_eq (env : Env) (t : Transform) (sourceOptions : String) (s : StepState) :
    emitMapping env t sourceOptions s = .ok () (mappedState env t sourceOptions s) := by
  have hbody : ∀ work input : String, Writes (do
      appendLine ("data " ++ work ++ ";")
      indented do
        appendLine ("set " ++ withOptions input sourceOptions ++ ";")
        appendLine ("keep " ++ String.intercalate " " (t.mappings.map (·.source)) ++ ";")
        if !(renameItems t).isEmpty then
          appendLine ("rename " ++ String.intercalate " " (renameItems t) ++ ";")
      appendLine "run;"
      appendLine "") (mappingFragments t work input sourceOptions) := fun work input => by
    unfold mappingFragments
    cases (renameItems t).isEmpty with
    | true =>
      exact (writes_appendLine _).seq (((writes_appendLine _).seq
        ((writes_appendLine _).seq .nothing)).indented.seq
          ((writes_appendLine _).seq (writes_appendLine _)))
    | false =>
      exact (writes_appendLine _).seq (((writes_appendLine _).seq
        ((writes_appendLine _).seq (writes_appendLine _))).indented.seq
          ((writes_appendLine _).seq (writes_appendLine _)))
  have hinput : lastOutput s = .ok s.lastOutput s := rfl
  have hwork : nextWorkTable env t s = .ok (workTable env.settings t (s.workTables + 1))
      { s with workTables := s.workTables + 1 } := rfl
  unfold emitMapping
  rw [bind_ok hinput, bind_ok hwork]
  have hrun := (hbody (workTable env.settings t (s.workTables + 1)) s.lastOutput).bind
    (fun _ => setLastOutput (workTable env.settings t (s.workTables + 1))) { s with workTables := s.workTables + 1 }
  simp only [bind_assoc] at hrun
  exact hrun

theorem mapColumns_eq (mapper : ColumnMapper) (env : Env) (t : Transform) (sourceOptions : String) (s : StepState) :
    mapColumns mapper env t sourceOptions s =
      .ok (mapsColumns mapper t) (if mapsColumns mapper t then mappedState env t sourceOptions s else s) := by
  unfold mapColumns mapsColumns
  cases mapper with
  | none => rfl
  | rename =>
    cases t.mappings.isEmpty with
    | true => rfl
    | false => exact bind_ok (emitMapping_eq env t sourceOptions s)

/-! ### The main statements -/

/-- Sort options on a line of their own. -/
def sortOptionFragments (sortOptions br : String) : List Fragment :=
  match nonBlank sortOptions with
  | some options => [line br 0 "", ⟨0, options⟩]
  | none => []

/-- The sort procedure. -/
def sortFragments (data sourceOptions out targetOptions sortOptions statement br : String) : List Fragment :=
  [⟨0, "proc sort data = " ++ data⟩] ++ optionFragments sourceOptions ++ [line br 0 ""] ++
  ([⟨0, "out = " ++ out⟩] ++ optionFragments targetOptions ++ sortOptionFragments sortOptions br ++
    [line br 0 ";", line br 0 statement] : List Fragment).map Fragment.deeper ++
  [line br 0 "run;"]

theorem writes_emitSort {env : Env} {t : Transform} {statement : String} (h : orderByStatement? t = some statement)
    (data sourceOptions out targetOptions sortOptions : String) :
    Writes (emitSort env t data sourceOptions out targetOptions sortOptions)
      (sortFragments data sourceOptions out targetOptions sortOptions statement) := by
  unfold emitSort sortFragments sortOptionFragments
  rw [h]
  cases nonBlank sortOptions with
  | some options =>
    refine Writes.of_eq ((writes_append _).seq ((writes_appendOptions _).seq ((writes_appendLine _).seq
      (((writes_append _).seq ((writes_appendOptions _).seq ((writes_appendLine _).seq ((writes_append _).seq
        ((writes_appendLine _).seq (writes_appendLine _)))))).indented.seq (writes_appendLine _))))) fun br => ?_
    simp
  | none =>
    refine Writes.of_eq ((writes_append _).seq ((writes_appendOptions _).seq ((writes_appendLine _).seq
      (((writes_append _).seq ((writes_appendOptions _).seq
        ((writes_appendLine _).seq (writes_appendLine _)))).indented.seq (writes_appendLine _))))) fun br => ?_
    simp

theorem emitSort_halts {env : Env} {t : Transform} (h : orderByStatement? t = none)
    (data sourceOptions out targetOptions sortOptions : String) :
    Halts (emitSort env t data sourceOptions out targetOptions sortOptions)
      (.failure ⟨env.transform, .missingOrderBy OptionText.sort⟩) := by
  have hmissing : Halts (attempt (α := Unit) env (.error (.missingOrderBy OptionText.sort)))
      (.failure ⟨env.transform, .missingOrderBy OptionText.sort⟩) := fun s => ⟨s, rfl⟩
  unfold emitSort
  rw [h]
  refine .after (writes_append _) (.after (writes_appendOptions _) (.after (writes_appendLine _)
    (.bind (.indented (.after (writes_append _) (.after (writes_appendOptions _) ?_))) _)))
  cases nonBlank sortOptions with
  | some options =>
    exact .after (writes_appendLine _) (.after (writes_append _) (.after (writes_appendLine _) hmissing))
  | none => exact .after (writes_appendLine _) hmissing

/-- A line that goes on one level deeper. -/
def continuedLine (br text : String) : List Fragment := [line br 0 "", ⟨1, text⟩]

/-- The data step that writes a location from source lines. -/
def appendFragments (out targetOptions : String) (inputs : List String) (appendOptionText : String)
    (statements : List String) (br : String) : List Fragment :=
  [⟨0, "data " ++ out⟩] ++ optionFragments targetOptions ++ [line br 0 ";"] ++
  ([⟨0, "set"⟩] ++ (inputs ++ (nonBlank appendOptionText).toList).flatMap (continuedLine br) ++
    [line br 0 ";"] ++ statements.map (line br 0) : List Fragment).map Fragment.deeper ++
  [line br 0 "run;"]

theorem writes_continueLine (text : String) : Writes (continueLine text) fun br => continuedLine br text :=
  (writes_appendLine _).seq (writes_append _).indented

theorem writes_emitAppend (out targetOptions : String) (inputs : List String) (appendOptionText : String)
    (statements : List String) :
    Writes (emitAppend out targetOptions inputs appendOptionText statements)
      (appendFragments out targetOptions inputs appendOptionText statements) := by
  unfold emitAppend appendFragments
  cases nonBlank appendOptionText with
  | some options =>
    refine Writes.of_eq ((writes_append _).seq ((writes_appendOptions _).seq ((writes_appendLine _).seq
      (((writes_append _).seq ((Writes.forM writes_continueLine).seq ((writes_continueLine _).seq
        ((writes_appendLine _).seq (writes_appendLines _))))).indented.seq (writes_appendLine _))))) fun br => ?_
    simp
  | none =>
    refine Writes.of_eq ((writes_append _).seq ((writes_appendOptions _).seq ((writes_appendLine _).seq
      (((writes_append _).seq ((Writes.forM writes_continueLine).seq
        ((writes_appendLine _).seq (writes_appendLines _)))).indented.seq (writes_appendLine _))))) fun br => ?_
    simp

end Step
end StepScript
