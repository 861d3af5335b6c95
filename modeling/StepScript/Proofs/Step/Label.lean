import StepScript.Proofs.Buffer.Literal
import StepScript.Proofs.Step.Ending
import StepScript.Proofs.Step.Lines
import StepScript.Proofs.Table.Labels

/-! The label of a target in the code of a step. A sort names its target on an indented line, and an append does
    so on a line of level zero. So an append gives the label back as it is, while in a sort each line of the
    label but the first is read with the indentation ahead of it. -/

namespace StepScript
open Text

/-! ### Options with a label -/

theorem Text.Quoted.toList_write (s : String) : (write s).toList = '"' :: doubleQuotes s.toList ++ ['"'] := by
  simp [write]

theorem Text.Quoted.read_cons (cs : List Char) : read ('"' :: cs) = readInside cs := rfl

namespace Table
variable {u : Table} {label : String}

theorem trim_writeText_false (u : Table) : trim (u.writeText false) = u.writeText false := by
  rw [writeText_false]
  cases hoptions : nonBlank? u.writeOptions with
  | none => rfl
  | some text =>
    obtain ⟨s, -, htext⟩ := Option.bind_eq_some_iff.mp hoptions
    exact (nonBlank_eq_some_iff.mp (nonBlank_of_nonBlank htext)).1

/-- The options of a labelled table start with a letter, and end with a quote or with a trimmed text. -/
theorem nonBlank_writeText (h : nonBlank? u.label = some label) :
    nonBlank (u.writeText true) = some (u.writeText true) := by
  obtain ⟨-, hlast⟩ := trimChars_eq_self_iff.mp (trim_eq_self_iff.mp (trim_writeText_false u))
  refine nonBlank_eq_some_iff.mpr ⟨trim_eq_self_iff.mpr (trimChars_eq_self_iff.mpr ⟨?_, ?_⟩), ?_⟩
  · rw [writeText_of_label h]
    simp +decide
  · rw [writeText_of_label h]
    split
    · rw [String.append_empty, String.toList_append, Quoted.toList_write, ← List.append_assoc, List.getLast?_concat]
      exact fun c hc => Option.some.inj hc ▸ (by decide : isBlank '"' = false)
    next hsome =>
      have hne : (u.writeText false).toList ≠ [] := by simpa using hsome
      rw [← String.append_assoc, String.toList_append, List.getLast?_append_of_ne_nil _ hne]
      exact hlast
  · rw [writeText_of_label h]
    simp

/-- In the options of a labelled table in parentheses, something else than a quote comes after the label. -/
theorem toList_labelOptions (h : nonBlank? u.label = some label) : ∃ c more, c ≠ '"' ∧
    (" (" ++ u.writeText true ++ ")").toList =
      " (label=\"".toList ++ (Quoted.doubleQuotes label.toList ++ '"' :: c :: more) := by
  rw [writeText_of_label h]
  split
  · exact ⟨')', [], by decide, by simp [Quoted.toList_write]⟩
  · exact ⟨' ', (u.writeText false).toList ++ [')'], by decide, by simp [Quoted.toList_write]⟩

end Table

/-! ### Clauses of a target -/

/-- The clause in which a statement names the target that it writes, with the line of the clause. -/
structure TargetClause where
  /-- The lines of the statement that stand ahead. -/
  ahead : String
  indentation : String
  keyword : String
  place : Location
  /-- The options under which the target is written. -/
  written : String

def TargetClause.opening (c : TargetClause) : String := c.ahead ++ c.indentation ++ c.keyword ++ c.place.text

open Step in
/-- The clause of a statement that writes a target; the one of a sort is on a line of its own, and deeper. -/
def Statement.targetClause? (s : Settings) : Statement → Option TargetClause
  | .sort data read out written _ _ =>
    some ⟨"proc sort data = " ++ withOptions data.text read ++ s.lineBreak, s.indentUnit, "out = ", out, written⟩
  | .append out written _ _ _ => some ⟨"", "", "data ", out, written⟩
  | _ => none

section Rendering
open Buffer Step
variable {s : Settings} {st : Statement} {clause : TargetClause} {text : String}

theorem optionFragments_eq {options : String} (h : nonBlank options = some text) :
    optionFragments options = [⟨0, " (" ++ text ++ ")"⟩] := by
  unfold optionFragments
  rw [h]

/-- A line of a dataset with its options is rendered as it is at level zero. -/
theorem renderFragments_dataset (atLineStart : Bool) (ahead name options : String) (fs : List Fragment) :
    renderFragments s.indentUnit.toList atLineStart
        ([⟨0, ahead ++ name⟩] ++ optionFragments options ++ [line s.lineBreak 0 ""] ++ fs) =
      (ahead ++ withOptions name options ++ s.lineBreak).toList ++ renderFragments s.indentUnit.toList true fs := by
  obtain ⟨gs, hgs⟩ : ∃ gs, gs = [⟨0, ahead ++ name⟩] ++ optionFragments options ++ [line s.lineBreak 0 ""] := ⟨_, rfl⟩
  have htext : textOf gs = (ahead ++ withOptions name options ++ s.lineBreak).toList := by
    unfold optionFragments at hgs
    unfold withOptions
    rw [hgs]
    cases nonBlank options <;> simp [textOf, line]
  have hlevel : ∀ f ∈ gs, f.level = 0 := by
    unfold optionFragments at hgs
    rw [hgs]
    cases nonBlank options <;> simp [line]
  rw [← hgs, renderFragments_append, renderFragments_level_zero _ hlevel, htext, lineStartAfter_lineBreak]

/-- A clause starts a line or stands at level zero, and the options in parentheses after it go on with its line. -/
theorem renderFragments_clause {atLineStart : Bool} {name : String} (level : Nat)
    (hstart : level = 0 ∨ atLineStart = true) (hone : OneLine name) (hvisible : Visible name) (options : String)
    (fs : List Fragment) : ∃ after,
      renderFragments s.indentUnit.toList atLineStart (⟨level, name⟩ :: ⟨level, options⟩ :: fs) =
        Buffer.indentation s.indentUnit.toList level ++ name.toList ++
          ((renderPieces (Buffer.indentation s.indentUnit.toList level) false (pieces options.toList)).1 ++ after) := by
  have hname : (renderPieces (Buffer.indentation s.indentUnit.toList level) atLineStart (pieces name.toList)).1 =
      Buffer.indentation s.indentUnit.toList level ++ name.toList := by
    rw [renderPieces_of_not_mem_dropLast _ _ (not_mem_dropLast_of_oneLine hone),
      isBlankPiece_eq_false_iff.mpr hvisible]
    rcases hstart with rfl | rfl
    · exact ite_self _
    · rfl
  rw [renderFragments_cons, renderFragments_cons, hname, lineStartAfter_of_oneLine hone (.inr hvisible)]
  exact ⟨_, rfl⟩

/-- A statement that writes a target is rendered up to the target as its clause says, and goes on with the options
    of the target in parentheses. -/
theorem renderFragments_target (h : st.targetClause? s = some clause) (hone : OneLine clause.place.text)
    (htext : nonBlank clause.written = some text) (atLineStart : Bool) (fs : List Fragment) : ∃ after,
      renderFragments s.indentUnit.toList atLineStart (st.fragments s.lineBreak ++ fs) = clause.opening.toList ++
        ((renderPieces clause.indentation.toList false (pieces (" (" ++ text ++ ")").toList)).1 ++ after) := by
  cases st with
  | sort data read out written sorting order =>
    obtain rfl := Option.some.inj h
    have hunit : Buffer.indentation s.indentUnit.toList 1 = s.indentUnit.toList := by simp [Buffer.indentation]
    have hone' : OneLine ("out = " ++ out.text) := by simp +decide [hone]
    obtain ⟨gs, hfragments⟩ : ∃ gs, (Statement.sort data read out written sorting order).fragments s.lineBreak ++ fs =
        ([⟨0, "proc sort data = " ++ data.text⟩] ++ optionFragments read ++ [Step.line s.lineBreak 0 ""]) ++
          (⟨1, "out = " ++ out.text⟩ :: ⟨1, " (" ++ text ++ ")"⟩ :: gs) := by
      simp only [Statement.fragments, sortFragments, optionFragments_eq htext, List.map_append, List.append_assoc]
      exact ⟨_, rfl⟩
    obtain ⟨after, hclause⟩ := renderFragments_clause 1 (.inr rfl) hone' (by simp +decide) (" (" ++ text ++ ")") gs
    refine ⟨after, ?_⟩
    rw [hfragments, renderFragments_dataset, hclause, hunit]
    simp only [TargetClause.opening, String.toList_append, List.append_assoc]
  | append out written inputs appending attributes =>
    obtain rfl := Option.some.inj h
    have hunit : Buffer.indentation s.indentUnit.toList 0 = [] := rfl
    have hone' : OneLine ("data " ++ out.text) := by simp +decide [hone]
    obtain ⟨gs, hfragments⟩ : ∃ gs,
        (Statement.append out written inputs appending attributes).fragments s.lineBreak ++ fs =
          ⟨0, "data " ++ out.text⟩ :: ⟨0, " (" ++ text ++ ")"⟩ :: gs := by
      simp only [Statement.fragments, appendFragments, optionFragments_eq htext, List.append_assoc]
      exact ⟨_, rfl⟩
    obtain ⟨after, hclause⟩ := renderFragments_clause 0 (.inl rfl) hone' (by simp +decide) (" (" ++ text ++ ")") gs
    refine ⟨after, ?_⟩
    rw [hfragments, hclause, hunit]
    simp only [TargetClause.opening, String.toList_append, List.append_assoc, String.toList_empty, List.nil_append]
  | options | delete | mapping | columns | check => cases h

/-- In the code of a statement that writes a labelled target, the label is read with its lines indented. -/
theorem renderFragments_label {u : Table} {label : String} (h : st.targetClause? s = some clause)
    (hone : OneLine clause.place.text) (hindentation : '"' ∉ clause.indentation.toList)
    (hwritten : clause.written = u.writeText true) (hlabel : nonBlank? u.label = some label) (atLineStart : Bool)
    (fs : List Fragment) : ∃ code after,
      renderFragments s.indentUnit.toList atLineStart (st.fragments s.lineBreak ++ fs) =
        clause.opening.toList ++ " (label=".toList ++ code ∧
      Quoted.read code = some (indentLines clause.indentation.toList label.toList, after) := by
  have htext : nonBlank clause.written = some (u.writeText true) := by
    rw [hwritten]
    exact Table.nonBlank_writeText hlabel
  obtain ⟨c, more, hc, hoptions⟩ := Table.toList_labelOptions hlabel
  obtain ⟨after, hrendered⟩ := renderFragments_target h hone htext atLineStart fs
  have hnext : ((c :: more) ++ after).head? ≠ some '"' := by simpa using hc
  have hquote : " (label=\"".toList = " (label=".toList ++ ['"'] := rfl
  rw [hoptions, renderPieces_within_append (by decide), hquote] at hrendered
  refine ⟨_, _, ?_, (Quoted.read_cons _).trans (readInside_renderPieces hindentation label.toList hnext)⟩
  rw [hrendered]
  simp only [List.append_assoc, List.cons_append, List.nil_append]

end Rendering

/-! ### Labels in the code of a step -/

/-- The indentation of the line on which a generator names its target. -/
def Generator.clauseIndentation (g : Generator) (s : Settings) : String :=
  match g with
  | .sort _ => s.indentUnit
  | .append => ""

section Labels
open Buffer
variable {g : Generator} {env : Env} {t : Transform} {s' : StepState} {script : List Statement} {label : String}

theorem Generator.clauseIndentation_eq_nil_iff {s : Settings} :
    (g.clauseIndentation s).toList = [] ↔ g = .append ∨ s.indentWidth = 0 := by
  cases g <;> simp [clauseIndentation, Settings.indentUnit]

theorem Generator.quote_not_mem_clauseIndentation (s : Settings) : '"' ∉ (g.clauseIndentation s).toList := by
  cases g <;> simp [clauseIndentation, Settings.indentUnit]

/-- One statement of a script writes the target, under the options of the target with its label. -/
theorem Generator.HasScript.exists_clause (h : g.HasScript env t script) : ∃ target ahead st rest clause,
    env.target t = .ok target ∧ target.HasValidNames env.settings ∧ script = ahead ++ st :: rest ∧
      st.targetClause? env.settings = some clause ∧ clause.place = target.place env.settings ∧
      clause.written = target.writeText true ∧ clause.indentation = g.clauseIndentation env.settings := by
  cases g with
  | sort mapper =>
    obtain ⟨source, target, order, -, htarget, -, hnames, -, rfl⟩ := h
    have hclause : ∀ data read, ∃ clause,
        (Statement.sort data read (target.place env.settings) (target.writeText true)
          (OptionText.resolve t.properties OptionText.sort) order).targetClause? env.settings = some clause ∧
        clause.place = target.place env.settings ∧ clause.written = target.writeText true ∧
        clause.indentation = env.settings.indentUnit := fun data read => ⟨_, rfl, rfl, rfl, rfl⟩
    unfold Step.sortScript
    cases Step.mapsColumns mapper t with
    | true =>
      obtain ⟨clause, hclause⟩ := hclause (Step.workPlace env.settings t 1) ""
      exact ⟨target, [_, _, _], _, [_, _], clause, htarget, hnames, rfl, hclause⟩
    | false =>
      obtain ⟨clause, hclause⟩ := hclause (source.place env.settings) source.readText
      exact ⟨target, [_, _], _, [_, _], clause, htarget, hnames, rfl, hclause⟩
  | append =>
    obtain ⟨sources, target, -, htarget, -, hnames, rfl⟩ := h
    obtain ⟨clause, hclause⟩ : ∃ clause, (Statement.append (target.place env.settings) (target.writeText true)
          (sources.map fun u => (u.place env.settings, u.readText)) (OptionText.resolve t.properties OptionText.append)
          (target.columnStatements true)).targetClause? env.settings = some clause ∧
        clause.place = target.place env.settings ∧ clause.written = target.writeText true ∧ clause.indentation = "" :=
      ⟨_, rfl, rfl, rfl, rfl⟩
    exact ⟨target, [_, _], _, [_], clause, htarget, hnames, rfl, hclause⟩

/-- The label of a target, read from the code of a generator that succeeds after the target's place, is the label with
    its lines indented. That is the label itself exactly if the generator is an append, or nothing is indented, or
    the label has no line feed. -/
theorem label_reads_back (h : g.generate env t (.fresh env.settings) = .ok () s') :
    ∃ target ahead st rest clause, env.target t = .ok target ∧ g.HasScript env t (ahead ++ st :: rest) ∧
      st.targetClause? env.settings = some clause ∧ clause.place = target.place env.settings ∧
      ∀ label, nonBlank? target.label = some label → ∃ code text after,
        s'.buffer.render = (Buffer.ofScript env.settings ahead).render ++ clause.opening ++ " (label=" ++ code ∧
          Quoted.read code.toList = some (text, after) ∧
          text = indentLines (g.clauseIndentation env.settings).toList label.toList ∧
          (text = label.toList ↔ g = .append ∨ env.settings.indentWidth = 0 ∨ '\n' ∉ label.toList) := by
  obtain ⟨script, hscript, hbuffer⟩ := (Generator.generated_of_ok h).hasScript
  obtain ⟨target, ahead, st, rest, clause, htarget, hnames, rfl, hclause, hplace, hwritten, hindentation⟩ :=
    hscript.exists_clause
  refine ⟨target, ahead, st, rest, clause, htarget, hscript, hclause, hplace, fun label hlabel => ?_⟩
  have hone : OneLine clause.place.text := by
    rw [hplace]
    exact Location.oneLine_text hnames.oneLine_place
  have hquote : '"' ∉ clause.indentation.toList := by
    rw [hindentation]
    exact g.quote_not_mem_clauseIndentation env.settings
  obtain ⟨code, after, hrendered, hread⟩ := renderFragments_label hclause hone hquote hwritten hlabel
    (lineStartAfter true (textOf (ahead.flatMap (Statement.fragments env.settings.lineBreak))))
    (rest.flatMap (Statement.fragments env.settings.lineBreak))
  rw [hindentation] at hread
  refine ⟨String.ofList code, _, after, ?_, ?_, rfl, ?_⟩
  · rw [hbuffer, render_ofScript, List.flatMap_append, List.flatMap_cons, renderFragments_append, hrendered,
      render_ofScript, ← String.toList_inj]
    simp only [String.toList_append, String.toList_ofList, List.append_assoc]
  · rw [String.toList_ofList]
    exact hread
  · rw [indentLines_eq_self_iff, Generator.clauseIndentation_eq_nil_iff, or_assoc]

/-- A label of two lines does not come back from the code of a sort. -/
theorem mappedSort_label : ∃ s',
    (Generator.sort .rename).generate mappedEnv mappedSort (.fresh mappedEnv.settings) = .ok () s' ∧
    nonBlank? labelled.label = some "first\nsecond" ∧ ∃ ahead code after,
      s'.buffer.render = ahead ++ "WORK.OUT (label=" ++ code ∧
      Quoted.read code.toList = some ("first\n  second".toList, after) := by
  have hok : (Generator.sort .rename).generate mappedEnv mappedSort (.fresh mappedEnv.settings) = .ok () _ := rfl
  obtain ⟨target, ahead, st, rest, clause, htarget, -, -, hplace, hlabels⟩ := label_reads_back hok
  have hlabelled : mappedEnv.target mappedSort = .ok labelled := rfl
  obtain rfl : labelled = target := Except.ok.inj (hlabelled.symm.trans htarget)
  have hlabel : nonBlank? labelled.label = some "first\nsecond" := by decide
  obtain ⟨code, text, after, hrender, hread, htext, -⟩ := hlabels _ hlabel
  have htext' : text = "first\n  second".toList := htext.trans (by decide)
  have hopening : clause.opening = clause.ahead ++ clause.indentation ++ clause.keyword ++ "WORK.OUT" := by
    rw [TargetClause.opening, hplace]
    rfl
  refine ⟨_, hok, hlabel, (Buffer.ofScript mappedEnv.settings ahead).render ++
    (clause.ahead ++ clause.indentation ++ clause.keyword), code, after, ?_, htext' ▸ hread⟩
  have hparts : "WORK.OUT (label=" = "WORK.OUT" ++ " (label=" := rfl
  rw [hrender, hopening, hparts]
  simp only [String.append_assoc]

end Labels

end StepScript
