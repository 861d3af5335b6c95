import StepScript.Proofs.Buffer.Render
import StepScript.Proofs.Step.Outcome

/-! How a step ends. No generator makes a call that is not allowed; one that succeeds leaves the level of
    indentation as it was, and what it wrote last is a line of that level, an empty line and the check of the
    status. So the code of a step that starts afresh ends with this check at the start of a line. -/

namespace StepScript

namespace Step
variable {br : String} {fs : List Fragment}

/-- Fragments the last of which is a line at the level of the buffer. -/
def EndsWithLine (br : String) (fs : List Fragment) : Prop :=
  ∃ ahead text, fs = ahead ++ [line br 0 text]

theorem EndsWithLine.after (h : EndsWithLine br fs) (ahead : List Fragment) : EndsWithLine br (ahead ++ fs) := by
  obtain ⟨ahead', text, rfl⟩ := h
  exact ⟨ahead ++ ahead', text, (List.append_assoc ..).symm⟩

theorem endsWithLine_sortFragments (data sourceOptions out targetOptions sortOptions statement br : String) :
    EndsWithLine br (sortFragments data sourceOptions out targetOptions sortOptions statement br) :=
  ⟨_, "run;", rfl⟩

theorem endsWithLine_appendFragments (out targetOptions : String) (inputs : List String) (appendOptionText : String)
    (statements : List String) (br : String) :
    EndsWithLine br (appendFragments out targetOptions inputs appendOptionText statements br) :=
  ⟨_, "run;", rfl⟩

theorem EndsWithLine.columns (h : EndsWithLine br fs) (l : Location) (statements : List String) :
    EndsWithLine br (fs ++ columnFragments l statements br) := by
  unfold columnFragments
  split
  · rw [List.append_nil]
    exact h
  · exact EndsWithLine.after ⟨_, "quit;", rfl⟩ fs

/-- The last lines of a step: the end of its last statement and the check of the status. -/
def closingLines (text : String) : List String := [text, "", "%rcSet(&syserr);", ""]

theorem closing_of_endsWithLine (h : EndsWithLine br fs) :
    ∃ ahead text, fs ++ finishFragments statusVariable br = ahead ++ (closingLines text).map (line br 0) := by
  obtain ⟨ahead, text, rfl⟩ := h
  refine ⟨ahead, text, ?_⟩
  rw [List.append_assoc]
  rfl

end Step

/-! ### What a generator wrote -/

section Generators
variable {g : Generator} {env : Env} {t : Transform} {s s' : StepState}

/-- A generator that succeeds adds fragments, and the last ones are lines at the level of the buffer. -/
theorem Generator.Generated.closes (h : g.Generated env t s s') : ∃ fs text,
    s'.buffer = s.buffer.write (fs ++ (Step.closingLines text).map (Step.line s.buffer.lineBreak 0)) := by
  cases g with
  | sort mapper =>
    obtain ⟨source, target, l, statement, s₁, hresolved, -, -, -, rfl⟩ := h
    -- What is written ahead of the sort procedure does not matter, only that it is added.
    obtain ⟨fs, hread⟩ : (Step.readState mapper env t source l s₁).buffer.Extends s₁.buffer :=
      Step.extends_readState.trans ⟨_, rfl⟩
    obtain ⟨ahead, text, hclosing⟩ := Step.closing_of_endsWithLine
      ((Step.endsWithLine_sortFragments (Step.readState mapper env t source l s₁).lastOutput
        (if Step.mapsColumns mapper t then "" else source.readText) l.text (target.writeText true)
        (OptionText.resolve t.properties OptionText.sort) statement s₁.buffer.lineBreak).columns l
          (target.columnStatements true))
    refine ⟨fs ++ ahead, text, ?_⟩
    rw [List.append_assoc, ← Step.buffer_of_resolveSource hresolved, ← hclosing, ← Buffer.write_write, ← hread]
    rfl
  | append =>
    obtain ⟨inputs, target, l, -, -, -, rfl⟩ := h
    obtain ⟨fs, hdeleted⟩ : (Step.deletedState env t l s).buffer.Extends s.buffer := ⟨_, rfl⟩
    obtain ⟨ahead, text, hclosing⟩ := Step.closing_of_endsWithLine
      (Step.endsWithLine_appendFragments l.text (target.writeText true) inputs
        (OptionText.resolve t.properties OptionText.append) (target.columnStatements true) s.buffer.lineBreak)
    refine ⟨fs ++ ahead, text, ?_⟩
    rw [List.append_assoc, ← hclosing, ← Buffer.write_write, ← hdeleted]
    rfl

/-- The check of the status, between empty lines, as it ends the code of a step. -/
def statusCheck (br : String) : String := br ++ "%rcSet(&syserr);" ++ br ++ br

/-- The code of a step that starts afresh ends with the check of the status, right after a line break. -/
theorem Generator.Generated.render_eq (h : g.Generated env t (.fresh env.settings) s') :
    ∃ body, s'.buffer.render = body ++ env.settings.lineBreak ++ statusCheck env.settings.lineBreak := by
  obtain ⟨fs, text, hbuffer⟩ := h.closes
  have hlevel : (StepState.fresh env.settings).buffer.level = 0 := rfl
  have hbr : (StepState.fresh env.settings).buffer.lineBreak = env.settings.lineBreak := rfl
  refine ⟨((StepState.fresh env.settings).buffer.write fs).render ++ text, ?_⟩
  rw [hbuffer, hbr, Buffer.render_write_lines hlevel]
  simp [Step.closingLines, statusCheck, String.append_assoc]

/-- No generator unindents at level zero or deletes an external table. One that succeeds leaves the level of
    indentation as it was; and if it starts afresh, its code ends with the check of the status. -/
theorem generate_ends_with_check (g : Generator) (env : Env) (t : Transform) (s : StepState) :
    (∀ d s', g.generate env t s ≠ .error (.defect d) s') ∧
    ∀ s', g.generate env t s = .ok () s' → s'.buffer.level = s.buffer.level ∧
      (s = .fresh env.settings → ∃ body,
        s'.buffer.render = body ++ env.settings.lineBreak ++ statusCheck env.settings.lineBreak) := by
  refine ⟨fun d s' hdefect => ?_, fun s' hok => ⟨?_, fun hfresh => ?_⟩⟩
  · obtain ⟨o, -, hfailure, -⟩ := Generator.stops hdefect
    cases hfailure
  · obtain ⟨fs, text, hbuffer⟩ := (Generator.generated_of_ok hok).closes
    rw [hbuffer]
    rfl
  · subst hfresh
    exact (Generator.generated_of_ok hok).render_eq

end Generators

/-- A sort with mapped columns into a table whose texts contain line feeds. -/
def mappedSort : Transform :=
  { name := "by age", kind := .sort, sources := [⟨"CLASS"⟩], targets := [⟨"OUT"⟩], orderBy := [{ name := "AGE" }],
    mappings := [⟨"NAME", "FULL\nNAME"⟩] }

def labelled : Table :=
  { id := "OUT", name := "OUT", label := some "first\nsecond", columns := [{ name := "AGE", label := some "\n" }] }

def mappedEnv : Env :=
  ⟨"by age", (Catalog.ofTables [.ofName "CLASS", labelled]).get?, { indentWidth := 2, lineEnding := .crlf }⟩

theorem mappedSort_ends_with_check : ∃ s',
    (Generator.sort .rename).generate mappedEnv mappedSort (.fresh mappedEnv.settings) = .ok () s' ∧
    s'.buffer.level = 0 ∧ ∃ body, s'.buffer.render = body ++ "\r\n" ++ statusCheck "\r\n" := by
  have hok : (Generator.sort .rename).generate mappedEnv mappedSort (.fresh mappedEnv.settings) = .ok () _ := rfl
  obtain ⟨-, hends⟩ := generate_ends_with_check (.sort .rename) mappedEnv mappedSort (.fresh mappedEnv.settings)
  obtain ⟨hlevel, hrender⟩ := hends _ hok
  exact ⟨_, hok, hlevel, hrender rfl⟩

end StepScript
