import StepScript.Proofs.Buffer.Lines
import StepScript.Proofs.Step.LineBreak

/-! Statements as lines. What a statement is written as is said line by line, each line with its level. The lines
    of a statement do not tell how it is put together: options, further sources and the closing semicolon are
    written as fragments of their own, and go on with a line that is open (`Lays`). -/

namespace StepScript
open Text Step

/-! ### Lines of statements -/

/-- A dataset with its options in parentheses, unless they are blank. -/
def dataset (name options : String) : String :=
  if trim options = "" then name else name ++ " (" ++ trim options ++ ")"

def optionLines (options : String) : List Line :=
  if options = "" then [] else [⟨0, "options " ++ options ++ ";"⟩, ⟨0, ""⟩]

def deleteLines (table : Location) : List Line :=
  [⟨0, "proc datasets lib = " ++ table.libref ++ " nolist nowarn memtype = (data view);"⟩,
    ⟨1, "delete " ++ table.member ++ ";"⟩, ⟨0, "quit;"⟩, ⟨0, ""⟩]

/-- The data step that maps columns; the line of the renamings is left out if there are none. -/
def mappingLines (work input : String) (keep renames : List String) : List Line :=
  [⟨0, "data " ++ work ++ ";"⟩, ⟨1, "set " ++ input ++ ";"⟩,
    ⟨1, "keep " ++ String.intercalate " " keep ++ ";"⟩] ++
  (if renames = [] then [] else [⟨1, "rename " ++ String.intercalate " " renames ++ ";"⟩]) ++
  [⟨0, "run;"⟩, ⟨0, ""⟩]

def given (text : String) : List String := if text = "" then [] else [text]

/-- The sort procedure; sort options have a line of their own. -/
def procedureLines (data out sorting order : String) : List Line :=
  [⟨0, "proc sort data = " ++ data⟩] ++ withSemicolon (⟨1, "out = " ++ out⟩ :: (given sorting).map (⟨1, ·⟩)) ++
  [⟨1, order⟩, ⟨0, "run;"⟩]

/-- The data step that appends items, each on a line of its own. -/
def dataStepLines (out : String) (items attributes : List String) : List Line :=
  [⟨0, "data " ++ out ++ ";"⟩, ⟨1, "set"⟩] ++ withSemicolon (items.map (⟨2, ·⟩)) ++ attributes.map (⟨1, ·⟩) ++
  [⟨0, "run;"⟩]

/-- The statements that set column attributes in place, unless there are none. -/
def attributeLines (table : Location) (attributes : List String) : List Line :=
  if attributes = [] then []
  else
    [⟨0, ""⟩, ⟨0, "proc datasets lib = " ++ table.libref ++ " nolist nowarn;"⟩,
      ⟨1, "modify " ++ table.member ++ ";"⟩] ++
    attributes.map (⟨2, ·⟩) ++ [⟨0, "quit;"⟩]

def checkLines : List Line := [⟨0, ""⟩, ⟨0, "%rcSet(&syserr);"⟩, ⟨0, ""⟩]

namespace Statement

/-- What a statement is written as, line by line. -/
def lines : Statement → List Line
  | .options texts => optionLines (String.intercalate " " texts)
  | .delete table => deleteLines table
  | .mapping work input read keep renames => mappingLines work.text (dataset input.text read) keep renames
  | .sort data read out written sorting order =>
    procedureLines (dataset data.text read) (dataset out.text written) (trim sorting) order
  | .append out written inputs appending attributes =>
    dataStepLines (dataset out.text written)
      ((inputs.map fun input => dataset input.1.text input.2) ++ given (trim appending)) attributes
  | .columns table attributes => attributeLines table attributes
  | .check => checkLines

/-- A statement in which no text is missing where one is written. -/
def Filled : Statement → Prop
  | .options texts => ∀ text ∈ texts, text ≠ ""
  | .sort _ _ _ _ _ order => Visible order
  | .append _ _ inputs _ attributes => inputs ≠ [] ∧ ∀ text ∈ attributes, Visible text
  | .columns _ attributes => ∀ text ∈ attributes, Visible text
  | _ => True

end Statement

/-! ### Texts -/

section Texts
variable {name options sorting text : String} {texts : List String}

theorem Text.visible_of_trim_ne_empty (h : trim text ≠ "") : Visible (trim text) := by
  cases hchars : trimChars text.toList with
  | nil => exact absurd (by rw [trim, hchars, String.ofList_nil]) h
  | cons c cs =>
    -- The first character of a trimmed text is not blank, and those of line breaks are.
    have hblank := isBlank_eq_false_of_trimChars_eq_cons hchars
    have hmem : c ∈ (trim text).toList := by rw [toList_trim, hchars]; exact List.mem_cons_self
    have hne : ∀ d, isBlank d = true → c ≠ d := fun d hd e => absurd (e ▸ hd) (by simp [hblank])
    exact ⟨c, hmem, hne '\r' (by decide), hne '\n' (by decide)⟩

theorem Text.oneLine_and_visible_of_nonBlank (h : OneLine options) (htext : nonBlank options = some text) :
    OneLine text ∧ Visible text := by
  obtain ⟨rfl, hempty⟩ := nonBlank_eq_some_iff.mp htext
  exact ⟨h.trim, visible_of_trim_ne_empty hempty⟩

theorem Text.intercalate_eq_empty_iff (h : ∀ text ∈ texts, text ≠ "") :
    String.intercalate " " texts = "" ↔ texts = [] := by
  refine ⟨fun hjoined => ?_, fun hnil => by rw [hnil, String.intercalate_nil]⟩
  cases texts with
  | nil => rfl
  | cons text texts =>
    have htext : text ≠ "" := h text List.mem_cons_self
    cases texts with
    | nil =>
      rw [String.intercalate_singleton] at hjoined
      exact absurd hjoined htext
    | cons text' texts =>
      rw [String.intercalate_cons_of_ne_nil (List.cons_ne_nil text' texts), String.append_assoc] at hjoined
      exact absurd (String.append_eq_empty_iff.mp hjoined).1 htext

theorem withOptions_eq (name options : String) : withOptions name options = dataset name options := by
  unfold withOptions dataset
  rw [nonBlank_eq]
  by_cases hempty : trim options = "" <;> simp [hempty]

theorem oneLine_dataset (hname : OneLine name) (hoptions : OneLine options) : OneLine (dataset name options) :=
  withOptions_eq name options ▸ oneLine_withOptions hname hoptions

theorem visible_inputLine (input : Location × String) : Visible (Statement.inputLine input) := by
  unfold Statement.inputLine withOptions Location.text
  split <;> simp +decide

theorem given_trim (text : String) : given (trim text) = (nonBlank text).toList := by
  unfold given
  rw [nonBlank_eq]
  split <;> rfl

end Texts

/-! ### Fragments of statements -/

section Laying
variable {s : Settings} {fs gs : List Fragment} {lines : List Line} {level : Nat} {ahead name options : String}

/-- Options in parentheses go on with an open line, at whatever level they are written. -/
theorem Lays.parenthesized (h : Lays s fs lines (some ⟨level, ahead ++ name⟩)) (gs : List Fragment)
    (hone : OneLine options) (hgs : gs.map Fragment.text = (optionFragments options).map Fragment.text) :
    Lays s (fs ++ gs) lines (some ⟨level, ahead ++ dataset name options⟩) := by
  unfold optionFragments at hgs
  rw [← withOptions_eq]
  unfold withOptions
  cases htext : nonBlank options with
  | none =>
    rw [htext, List.map_nil, List.map_eq_nil_iff] at hgs
    rw [hgs, List.append_nil]
    exact h
  | some text =>
    rw [htext, List.map_singleton] at hgs
    obtain ⟨g, rfl, hg⟩ := List.map_eq_singleton_iff.mp hgs
    have hmore := h.more g.level g.text (by rw [hg]; simp +decide [hone.nonBlank htext])
    have hline : ahead ++ name ++ g.text = ahead ++ (name ++ " (" ++ text ++ ")") := by
      simp only [hg, String.append_assoc]
    rw [← hline]
    exact hmore

theorem map_deeper_sortOptionFragments (sorting br : String) :
    (sortOptionFragments sorting br).map Fragment.deeper =
      (nonBlank sorting).toList.flatMap fun text => [Step.line br 1 "", ⟨1, text⟩] := by
  unfold sortOptionFragments
  cases nonBlank sorting <;> rfl

theorem map_deeper_continuedLines (br : String) (texts : List String) :
    (texts.flatMap (continuedLine br)).map Fragment.deeper =
      texts.flatMap fun text => [Step.line br 1 "", ⟨2, text⟩] := by
  rw [List.map_flatMap]
  rfl

theorem lays_sortFragments {data read out written sorting order : String} (hdata : OneLine data)
    (hread : OneLine read) (hout : OneLine out) (hwritten : OneLine written) (hsorting : OneLine sorting)
    (horder : OneLine order) (hvisible : Visible order) :
    Lays s (sortFragments data read out written sorting order s.lineBreak)
      (procedureLines (dataset data read) (dataset out written) (trim sorting) order) none := by
  have hproc : Lays s [⟨0, "proc sort data = " ++ data⟩] [] (some ⟨0, "proc sort data = " ++ data⟩) :=
    .opening 0 _ (by simp +decide [hdata]) (by simp +decide)
  have hout' : Lays s [⟨1, "out = " ++ out⟩] [] (some ⟨1, "out = " ++ out⟩) :=
    .opening 1 _ (by simp +decide [hout]) (by simp +decide)
  have hdeeper : ((optionFragments written).map Fragment.deeper).map Fragment.text =
      (optionFragments written).map Fragment.text := List.map_map
  have hclosed := (hout'.parenthesized _ hwritten hdeeper).withSemicolon 1 1 (nonBlank sorting).toList fun text htext =>
    oneLine_and_visible_of_nonBlank hsorting (Option.mem_toList.mp htext)
  have hend : ∀ l ∈ [⟨1, order⟩, ⟨0, "run;"⟩], Line.Proper l := by simp +decide [horder, hvisible]
  have hfragments : sortFragments data read out written sorting order s.lineBreak =
      [⟨0, "proc sort data = " ++ data⟩] ++ optionFragments read ++ [line s.lineBreak 0 ""] ++
      ([⟨1, "out = " ++ out⟩] ++ (optionFragments written).map Fragment.deeper ++
        ((nonBlank sorting).toList.flatMap fun text => [line s.lineBreak 1 "", ⟨1, text⟩]) ++
        [line s.lineBreak 1 ";"]) ++ [line s.lineBreak 1 order, line s.lineBreak 0 "run;"] := by
    rw [← map_deeper_sortOptionFragments]
    simp [sortFragments, Fragment.deeper, line]
  have hall := (((hproc.parenthesized _ hread rfl).lineBreak 0).append hclosed).append (.ofLines hend)
  rw [hfragments, procedureLines, given_trim]
  simpa only [List.nil_append, List.map_cons, List.map_nil] using hall

theorem lays_appendFragments {out written appending : String} {inputs attributes : List String}
    (hout : OneLine out) (hwritten : OneLine written) (hinputs : ∀ text ∈ inputs, OneLine text ∧ Visible text)
    (hne : inputs ≠ []) (happending : OneLine appending)
    (hattributes : ∀ text ∈ attributes, OneLine text ∧ Visible text) :
    Lays s (appendFragments out written inputs appending attributes s.lineBreak)
      (dataStepLines (dataset out written) (inputs ++ given (trim appending)) attributes) none := by
  have hdata : Lays s [⟨0, "data " ++ out⟩] [] (some ⟨0, "data " ++ out⟩) :=
    .opening 0 _ (by simp +decide [hout]) (by simp +decide)
  have hset : Lays s [⟨1, "set"⟩] [] (some ⟨1, "set"⟩) := .opening 1 _ (by decide) (by decide)
  have hitems : ∀ text ∈ inputs ++ (nonBlank appending).toList, OneLine text ∧ Visible text := by
    intro text htext
    rcases List.mem_append.mp htext with hinput | hoption
    · exact hinputs text hinput
    · exact oneLine_and_visible_of_nonBlank happending (Option.mem_toList.mp hoption)
  have hattributes' : ∀ l ∈ attributes.map (⟨1, ·⟩), Line.Proper l := by simpa using hattributes
  have hrun : ∀ l ∈ [⟨0, "run;"⟩], Line.Proper l := by simp +decide
  have hlines : dataStepLines (dataset out written) (inputs ++ given (trim appending)) attributes =
      [⟨0, "data " ++ dataset out written ++ ";"⟩] ++
      withSemicolon (⟨1, "set"⟩ :: (inputs ++ (nonBlank appending).toList).map (⟨2, ·⟩)) ++
      attributes.map (⟨1, ·⟩) ++ [⟨0, "run;"⟩] := by
    -- There is an input, so the semicolon is not that of the first line.
    obtain ⟨input, inputs, rfl⟩ := List.exists_cons_of_ne_nil hne
    rw [dataStepLines, given_trim]
    rfl
  have hfragments : appendFragments out written inputs appending attributes s.lineBreak =
      [⟨0, "data " ++ out⟩] ++ optionFragments written ++ [line s.lineBreak 0 ";"] ++
      ([⟨1, "set"⟩] ++ ((inputs ++ (nonBlank appending).toList).flatMap fun text =>
        [line s.lineBreak 1 "", ⟨2, text⟩]) ++ [line s.lineBreak 1 ";"]) ++
      attributes.map (line s.lineBreak 1) ++ [line s.lineBreak 0 "run;"] := by
    rw [← map_deeper_continuedLines, ← map_deeper_line]
    simp [appendFragments, Fragment.deeper, line]
  have hstart := ((hdata.parenthesized _ hwritten rfl).close 0 ";" (by decide)).append (hset.withSemicolon 2 1 _ hitems)
  have hall := (hstart.append (.ofLines hattributes')).append (.ofLines hrun)
  rw [hfragments, hlines]
  simpa only [List.nil_append, List.map_map, Function.comp_def, List.map_cons, List.map_nil] using hall

theorem lays_columnFragments {table : Location} {attributes : List String} (hlibref : OneLine table.libref)
    (hmember : OneLine table.member) (h : ∀ text ∈ attributes, OneLine text ∧ Visible text) :
    Lays s (columnFragments table attributes s.lineBreak) (attributeLines table attributes) none := by
  simp only [columnFragments, attributeLines, List.isEmpty_iff]
  split
  · exact .nil
  · have hstart : ∀ l ∈ [⟨0, ""⟩, ⟨0, "proc datasets lib = " ++ table.libref ++ " nolist nowarn;"⟩,
        ⟨1, "modify " ++ table.member ++ ";"⟩], Line.Proper l := by simp +decide [hlibref, hmember]
    have hattributes : ∀ l ∈ attributes.map (⟨2, ·⟩), Line.Proper l := by simpa using h
    have hquit : ∀ l ∈ [⟨0, "quit;"⟩], Line.Proper l := by simp +decide
    have hall := ((Lays.ofLines (s := s) hstart).append (.ofLines hattributes)).append (.ofLines hquit)
    rw [List.map_map] at hall
    exact hall

end Laying

namespace Statement

theorem lays_fragments {st : Statement} (hone : st.IsOneLine) (hfilled : st.Filled) (s : Settings) :
    Lays s (st.fragments s.lineBreak) st.lines none := by
  cases st with
  | options texts =>
    have hjoined : OneLine (String.intercalate " " texts) := oneLine_intercalate hone
    simp only [fragments, lines, optionLines, intercalate_eq_empty_iff hfilled, List.isEmpty_iff]
    split
    · exact .nil
    · have hproper : ∀ l ∈ [⟨0, "options " ++ String.intercalate " " texts ++ ";"⟩, ⟨0, ""⟩], Line.Proper l := by
        simp +decide [hjoined]
      exact .ofLines hproper
  | delete table =>
    simp only [IsOneLine, Statement.texts, List.forall_mem_cons] at hone
    obtain ⟨hlibref, hmember, -⟩ := hone
    have hproper : ∀ l ∈ deleteLines table, l.Proper := by simp +decide [deleteLines, hlibref, hmember]
    exact .ofLines hproper
  | mapping work input read keep renames =>
    simp only [IsOneLine, Statement.texts, List.forall_mem_append, List.forall_mem_cons] at hone
    obtain ⟨⟨⟨hwork, hinput, hread, -⟩, hkeep⟩, hrenames⟩ := hone
    have hproper : ∀ l ∈ mappingLines work.text (dataset input.text read) keep renames, l.Proper := by
      unfold mappingLines
      split <;> simp +decide [hwork, oneLine_dataset hinput hread, oneLine_intercalate hkeep,
        oneLine_intercalate hrenames]
    have hlaid := Lays.ofLines (s := s) hproper
    simp only [fragments, lines, withOptions_eq]
    unfold mappingLines at hlaid ⊢
    cases renames <;> exact hlaid
  | sort data read out written sorting order =>
    simp only [IsOneLine, Statement.texts, List.forall_mem_cons] at hone
    obtain ⟨hdata, hread, hout, hwritten, hsorting, horder, -⟩ := hone
    exact lays_sortFragments hdata hread hout hwritten hsorting horder hfilled
  | append out written inputs appending attributes =>
    simp only [IsOneLine, Statement.texts, List.forall_mem_append, List.forall_mem_cons] at hone
    obtain ⟨⟨⟨hout, hwritten, happending, -⟩, hinputs⟩, hattributes⟩ := hone
    obtain ⟨hne, hvisible⟩ := hfilled
    have hitems : (inputs.map fun input => dataset input.1.text input.2) = inputs.map inputLine :=
      List.map_congr_left fun input _ => (withOptions_eq _ _).symm
    have hinputs' : ∀ text ∈ inputs.map inputLine, OneLine text ∧ Visible text := by
      intro text htext
      refine ⟨hinputs text htext, ?_⟩
      obtain ⟨input, -, rfl⟩ := List.mem_map.mp htext
      exact visible_inputLine input
    rw [lines, hitems]
    exact lays_appendFragments hout hwritten hinputs' (mt List.map_eq_nil_iff.mp hne) happending
      fun text htext => ⟨hattributes text htext, hvisible text htext⟩
  | columns table attributes =>
    simp only [IsOneLine, Statement.texts, List.forall_mem_append, List.forall_mem_cons] at hone
    obtain ⟨⟨hlibref, hmember, -⟩, hattributes⟩ := hone
    exact lays_columnFragments hlibref hmember fun text htext => ⟨hattributes text htext, hfilled text htext⟩
  | check =>
    have hproper : ∀ l ∈ checkLines, l.Proper := by simp +decide [checkLines]
    exact .ofLines hproper

end Statement

/-! ### Scripts -/

/-- A script is rendered to the lines of its statements. -/
theorem render_ofScript_lines {script : List Statement} (h : ∀ st ∈ script, st.IsOneLine ∧ st.Filled) (s : Settings) :
    (Buffer.ofScript s script).render = s.layout (script.flatMap Statement.lines) := by
  have hlaid : Lays s (script.flatMap (Statement.fragments s.lineBreak)) (script.flatMap Statement.lines) none := by
    induction script with
    | nil => exact .nil
    | cons st script ih =>
      obtain ⟨⟨hone, hfilled⟩, hscript⟩ := List.forall_mem_cons.mp h
      exact (st.lays_fragments hone hfilled s).append (ih hscript)
  rw [render_ofScript, hlaid.rendered, Option.elim_none, String.toList_empty, List.append_nil, String.ofList_toList]

end StepScript
