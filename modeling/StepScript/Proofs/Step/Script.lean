import StepScript.Proofs.Results
import StepScript.Proofs.Step.Outcome

/-! The code of a step as a list of statements. A statement is kept as data: the places of the tables that
    it names, and the texts that stand in it. The statements of a transformation follow from its tables, the
    settings and its own texts alone, and line breaks only come in with the fragments to which they are
    written. A generator that starts afresh and succeeds has written its statements, and nothing else. -/

namespace StepScript
open Text

/-! ### Places -/

/-- The place where a table is stored, whether its names are valid or not. -/
def Table.place (s : Settings) (u : Table) : Location := ⟨u.effectiveLibref s, u.name⟩

/-- The place of the intermediate table with a number. -/
def Step.workPlace (s : Settings) (t : Transform) (n : Nat) : Location :=
  ⟨s.workLibref, "W" ++ idPart t ++ "_" ++ toString n⟩

theorem Step.text_workPlace (s : Settings) (t : Transform) (n : Nat) :
    (workPlace s t n).text = workTable s t n := by
  have hpoint : ".W" = "." ++ "W" := rfl
  unfold workPlace Location.text workTable
  rw [hpoint]
  simp only [String.append_assoc]

/-! ### Statements -/

/-- A statement of a step. Texts named for an activity are its options. -/
inductive Statement where
  | options (texts : List String)
  | delete (table : Location)
  /-- The data step that keeps and renames columns. -/
  | mapping (work input : Location) (read : String) (keep renames : List String)
  | sort (data : Location) (read : String) (out : Location) (written sorting order : String)
  /-- The data step that writes the rows of the inputs, each of which is read with options. -/
  | append (out : Location) (written : String) (inputs : List (Location × String)) (appending : String)
      (attributes : List String)
  /-- The statements that set column attributes in place. -/
  | columns (table : Location) (attributes : List String)
  | check

namespace Statement
open Step

/-- The line of a source, with the options under which it is read. -/
def inputLine (input : Location × String) : String := withOptions input.1.text input.2

/-- What a statement is written as, with a line break. -/
def fragments (br : String) : Statement → List Fragment
  | .options texts =>
    if texts.isEmpty then []
    else [line br 0 ("options " ++ String.intercalate " " texts ++ ";"), line br 0 ""]
  | .delete table => deleteFragments table br
  | .mapping work input read keep renames =>
    [line br 0 ("data " ++ work.text ++ ";"), line br 1 ("set " ++ withOptions input.text read ++ ";"),
      line br 1 ("keep " ++ String.intercalate " " keep ++ ";")] ++
    (if renames.isEmpty then [] else [line br 1 ("rename " ++ String.intercalate " " renames ++ ";")]) ++
    [line br 0 "run;", line br 0 ""]
  | .sort data read out written sorting order => sortFragments data.text read out.text written sorting order br
  | .append out written inputs appending attributes =>
    appendFragments out.text written (inputs.map inputLine) appending attributes br
  | .columns table attributes => columnFragments table attributes br
  | .check => finishFragments statusVariable br

/-- The places of the tables that a statement names. -/
def places : Statement → List Location
  | .options _ => []
  | .delete table => [table]
  | .mapping work input _ _ _ => [work, input]
  | .sort data _ out _ _ _ => [data, out]
  | .append out _ inputs _ _ => out :: inputs.map (·.1)
  | .columns table _ => [table]
  | .check => []

end Statement

/-- The empty buffer of settings with statements written into it. -/
def Buffer.ofScript (s : Settings) (script : List Statement) : Buffer :=
  (Buffer.ofSettings s).write (script.flatMap (Statement.fragments s.lineBreak))

/-! ### Scripts -/

namespace Step
variable {mapper : ColumnMapper} {env : Env} {t : Transform} {source target : Table} {l : Location}
  {order : String} {s s' : StepState}

/-- The statement that maps the columns of a transformation into the intermediate table with a number. -/
def mappingStatement (s : Settings) (t : Transform) (n : Nat) (input : Location) (read : String) : Statement :=
  .mapping (workPlace s t n) input read (t.mappings.map (·.source)) (renameItems t)

/-- The statements that replace a target by the sorted rows of a source. -/
def sortScript (mapper : ColumnMapper) (s : Settings) (t : Transform) (source target : Table) (order : String) :
    List Statement :=
  let input := source.place s
  let out := target.place s
  let sorting := OptionText.resolve t.properties OptionText.sort
  [.options (systemOptions s t), .delete out] ++
  (if mapsColumns mapper t then
    [mappingStatement s t 1 input source.readText,
      .sort (workPlace s t 1) "" out (target.writeText true) sorting order]
  else [.sort input source.readText out (target.writeText true) sorting order]) ++
  [.columns out (target.columnStatements true), .check]

/-- The statements that replace a target by the rows of sources. -/
def appendScript (s : Settings) (t : Transform) (sources : List Table) (target : Table) : List Statement :=
  [.options (systemOptions s t), .delete (target.place s),
    .append (target.place s) (target.writeText true) (sources.map fun u => (u.place s, u.readText))
      (OptionText.resolve t.properties OptionText.append) (target.columnStatements true),
    .check]

/-- The first source of a step that starts afresh has a location, which then counts as produced last. -/
theorem resolveSource_fresh (h : resolveSource env t (.fresh env.settings) = .ok source s) :
    env.firstSource t = .ok source ∧ ∃ l, source.location? env.settings = .ok l ∧
      s.buffer = .ofSettings env.settings ∧ s.lastOutput? = some l.text ∧ s.workTables = 0 := by
  obtain ⟨hfirst, ⟨dataset, hdataset, -⟩ | ⟨-, l, hl, rfl⟩⟩ := resolveSource_eq_ok h
  · cases hdataset
  · exact ⟨hfirst, l, hl, rfl, rfl, rfl⟩

theorem fragments_mappingStatement (s : Settings) (t : Transform) (n : Nat) (input : Location) (read br : String) :
    (mappingStatement s t n input read).fragments br = mappingFragments t (workTable s t n) input.text read br := by
  rw [mappingStatement, Statement.fragments, text_workPlace]
  rfl

/-- The mapping of columns reads the dataset produced last, and is what its statement is written as. -/
theorem mappedState_eq (hwork : s.workTables = 0) (hlast : s.lastOutput = (source.place env.settings).text) :
    mappedState env t source.readText s =
      { s.write ((mappingStatement env.settings t 1 (source.place env.settings) source.readText).fragments
          s.buffer.lineBreak) with
        lastOutput? := some (workPlace env.settings t 1).text
        workTables := 1 } := by
  rw [fragments_mappingStatement, text_workPlace, ← hlast]
  unfold mappedState
  rw [hwork]

/-- The sort of a source into a target is what its statements are written as. -/
theorem buffer_sortedState (hbuffer : s.buffer = .ofSettings env.settings)
    (hlast : s.lastOutput? = some (source.place env.settings).text) (hwork : s.workTables = 0) :
    (sortedState mapper env t source target (target.place env.settings) order s).buffer =
      .ofScript env.settings (sortScript mapper env.settings t source target order) := by
  have hbr : s.buffer.lineBreak = env.settings.lineBreak := by rw [hbuffer]; rfl
  obtain ⟨deleted, hdeleted⟩ : ∃ d, deletedState env t (target.place env.settings) s = d := ⟨_, rfl⟩
  have hwork' : deleted.workTables = 0 := hdeleted ▸ hwork
  have hinput : deleted.lastOutput = (source.place env.settings).text := by
    have hlast' : deleted.lastOutput? = s.lastOutput? := by rw [← hdeleted]; rfl
    rw [StepState.lastOutput, hlast', hlast]
    rfl
  have hbuffer' : deleted.buffer = (Buffer.ofSettings env.settings).write
      ((Statement.options (systemOptions env.settings t)).fragments env.settings.lineBreak ++
        (Statement.delete (target.place env.settings)).fragments env.settings.lineBreak) := by
    rw [← hdeleted, ← hbr, ← hbuffer]
    rfl
  unfold sortedState readState Buffer.ofScript sortScript
  rw [hdeleted]
  cases mapsColumns mapper t with
  | true =>
    simp only [if_true, mappedState_eq hwork' hinput, StepState.lastOutput, Option.getD_some, StepState.write, hbr,
      hbuffer', Buffer.write_write, List.cons_append, List.nil_append, List.flatMap_cons, List.flatMap_nil,
      List.append_assoc, List.append_nil]
    rfl
  | false =>
    simp only [Bool.false_eq_true, if_false, hinput, StepState.write, hbr, hbuffer', Buffer.write_write,
      List.cons_append, List.nil_append, List.flatMap_cons, List.flatMap_nil, List.append_assoc, List.append_nil]
    rfl

/-- The data step that appends sources to a target is what its statements are written as. -/
theorem buffer_appendedState {sources : List Table} {inputs : List String}
    (hbuffer : s.buffer = .ofSettings env.settings)
    (hinputs : inputs = (sources.map fun u => (u.place env.settings, u.readText)).map Statement.inputLine) :
    (appendedState env t inputs target (target.place env.settings) s).buffer =
      .ofScript env.settings (appendScript env.settings t sources target) := by
  unfold appendedState deletedState Buffer.ofScript appendScript
  simp only [StepState.write, Buffer.write_write, hbuffer, hinputs, List.flatMap_cons, List.flatMap_nil,
    List.append_assoc, List.append_nil]
  rfl

theorem sourceLine_eq_ok {text : String} (h : sourceLine env source = .ok text) :
    source.HasValidNames env.settings ∧ text = Statement.inputLine (source.place env.settings, source.readText) := by
  rw [sourceLine_eq_map] at h
  cases hl : source.location? env.settings with
  | error e =>
    rw [hl] at h
    cases h
  | ok l =>
    obtain ⟨hnames, rfl⟩ := Table.location?_eq_ok_iff.mp hl
    rw [hl] at h
    exact ⟨hnames, (Except.ok.inj h).symm⟩

/-- Sources that are written as lines are known tables whose names are valid. -/
theorem sourceLines_eq_ok {inputs : List String} (h : sourceLines env t = .ok inputs) :
    ∃ sources, env.sources t = .ok sources ∧ (∀ u ∈ sources, u.HasValidNames env.settings) ∧
      inputs = (sources.map fun u => (u.place env.settings, u.readText)).map Statement.inputLine := by
  unfold sourceLines at h
  cases hsources : env.sources t with
  | error e =>
    rw [hsources] at h
    cases h
  | ok sources =>
    rw [hsources] at h
    have hlines : List.Forall₂ (fun u text => u.HasValidNames env.settings ∧
        text = Statement.inputLine (u.place env.settings, u.readText)) sources inputs :=
      (mapM_eq_ok_iff.mp h).imp fun _ _ => sourceLine_eq_ok
    obtain ⟨hnames, htexts⟩ := (List.forall₂_and_left _ _).mp hlines
    have hmap : List.Forall₂ (· = ·) (sources.map fun u => Statement.inputLine (u.place env.settings, u.readText))
        inputs := List.forall₂_map_left_iff.mpr (htexts.imp fun _ _ => Eq.symm)
    rw [List.forall₂_eq_eq_eq] at hmap
    exact ⟨sources, rfl, hnames, by simp only [← hmap, List.map_map, Function.comp_def]⟩

end Step

/-! ### Scripts of generators -/

/-- Whether a generator maps the columns of a transformation. -/
def Generator.mapsColumns (g : Generator) (t : Transform) : Bool :=
  match g with
  | .sort mapper => Step.mapsColumns mapper t
  | .append => false

/-- A script of a transformation. Its tables are known, their names are valid, and a sort has ordering keys. -/
def Generator.HasScript (g : Generator) (env : Env) (t : Transform) (script : List Statement) : Prop :=
  match g with
  | .sort mapper => ∃ source target order, env.firstSource t = .ok source ∧ env.target t = .ok target ∧
      source.HasValidNames env.settings ∧ target.HasValidNames env.settings ∧
      Step.orderByStatement? t = some order ∧ script = Step.sortScript mapper env.settings t source target order
  | .append => ∃ sources target, env.sources t = .ok sources ∧ env.target t = .ok target ∧
      (∀ u ∈ sources, u.HasValidNames env.settings) ∧ target.HasValidNames env.settings ∧
      script = Step.appendScript env.settings t sources target

/-- A generator that starts afresh and succeeds has written the script of the transformation. -/
theorem Generator.Generated.hasScript {g : Generator} {env : Env} {t : Transform} {s' : StepState}
    (h : g.Generated env t (.fresh env.settings) s') :
    ∃ script, g.HasScript env t script ∧ s'.buffer = .ofScript env.settings script := by
  cases g with
  | sort mapper =>
    obtain ⟨source, target, l, order, s₁, hresolved, htarget, hl, horder, rfl⟩ := h
    obtain ⟨hsource, input, hinput, hbuffer, hlast, hwork⟩ := Step.resolveSource_fresh hresolved
    obtain ⟨hnames, rfl⟩ := Table.location?_eq_ok_iff.mp hl
    obtain ⟨hnames', rfl⟩ := Table.location?_eq_ok_iff.mp hinput
    exact ⟨_, ⟨source, target, order, hsource, htarget, hnames', hnames, horder, rfl⟩,
      Step.buffer_sortedState hbuffer hlast hwork⟩
  | append =>
    obtain ⟨inputs, target, l, hinputs, htarget, hl, rfl⟩ := h
    obtain ⟨sources, hsources, hnames', hlines⟩ := Step.sourceLines_eq_ok hinputs
    obtain ⟨hnames, rfl⟩ := Table.location?_eq_ok_iff.mp hl
    exact ⟨_, ⟨sources, target, hsources, htarget, hnames', hnames, rfl⟩, Step.buffer_appendedState rfl hlines⟩

end StepScript
