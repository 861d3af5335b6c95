import StepScript.Proofs.Step.Ending
import StepScript.Proofs.Step.Script
import StepScript.Proofs.Text.Uuid

/-! Which places of tables are written into the code of a step. The names of the tables that a transformation
    refers to have been checked by then. The member name of the intermediate table is made up so that it is
    valid, but its library is taken from the settings as it is, and nothing checks it. -/

namespace StepScript
open Text

/-- Both names of a place are valid. -/
def Location.IsValid (l : Location) : Prop :=
  Name.check .libref l.libref = .ok () ∧ Name.check .member l.member = .ok ()

/-! ### Names of intermediate tables -/

namespace Step

theorem isWordChar_of_mem_idPart {t : Transform} {c : Char} (h : c ∈ (idPart t).toList) : isWordChar c = true := by
  have hcapitals : ∀ d < 16, isWordChar (upperChar (hexDigit d)) = true := by decide
  rw [idPart, String.toList_ofList] at h
  obtain ⟨digit, hdigit, rfl⟩ := List.mem_map.mp h
  obtain ⟨d, hd, rfl⟩ := Uuid.exists_of_mem_hexDigits (List.mem_of_mem_take hdigit)
  exact hcapitals d hd

theorem length_idPart (t : Transform) : (idPart t).toList.length = 8 := by
  rw [idPart, String.toList_ofList, List.length_map, List.length_take, Uuid.digits, Uuid.length_hexDigits]
  rfl

/-- The member name of the first intermediate table of a step is valid. -/
theorem check_workPlace_member (s : Settings) (t : Transform) :
    Name.check .member (workPlace s t 1).member = .ok () := by
  have hmember : (workPlace s t 1).member = String.ofList ('W' :: ((idPart t).toList ++ ['_', '1'])) := by
    have hone : toString 1 = "1" := rfl
    refine String.toList_injective ?_
    simp [workPlace, hone]
  rw [hmember]
  refine Name.check_ofList_cons (by decide) ?_ ?_
  · intro c hc
    simp only [List.mem_cons, List.mem_append, List.not_mem_nil, or_false] at hc
    rcases hc with rfl | hc | rfl | rfl
    · decide
    · exact isWordChar_of_mem_idPart hc
    · decide
    · decide
  · rw [List.length_append, length_idPart]
    decide

theorem isValid_workPlace_iff {s : Settings} {t : Transform} :
    (workPlace s t 1).IsValid ↔ Name.check .libref s.workLibref = .ok () :=
  and_iff_left (check_workPlace_member s t)

end Step

/-! ### Places in scripts -/

section Scripts
variable {g : Generator} {env : Env} {t : Transform} {script : List Statement}

/-- A place in a script is valid, or it is that of the intermediate table into which columns are mapped. -/
theorem Generator.HasScript.isValid_or_work (h : g.HasScript env t script) :
    ∀ statement ∈ script, ∀ l ∈ statement.places,
      l.IsValid ∨ (g.mapsColumns t = true ∧ l = Step.workPlace env.settings t 1) := by
  cases g with
  | sort mapper =>
    obtain ⟨source, target, order, -, -, hsource, htarget, -, rfl⟩ := h
    have hsource' : (source.place env.settings).IsValid := hsource
    have htarget' : (target.place env.settings).IsValid := htarget
    have hmaps : (Generator.sort mapper).mapsColumns t = Step.mapsColumns mapper t := rfl
    unfold Step.sortScript
    rw [hmaps]
    cases Step.mapsColumns mapper t with
    | true => simp [Step.mappingStatement, Statement.places, hsource', htarget']
    | false => simp [Statement.places, hsource', htarget']
  | append =>
    obtain ⟨sources, target, -, -, hsources, htarget, rfl⟩ := h
    have hsources' : ∀ u ∈ sources, (u.place env.settings).IsValid := hsources
    have htarget' : (target.place env.settings).IsValid := htarget
    simpa [Step.appendScript, Statement.places, htarget', mapsColumns] using hsources'

/-- A script that maps columns names the intermediate table. -/
theorem Generator.HasScript.work_mem (h : g.HasScript env t script) (hmaps : g.mapsColumns t = true) :
    ∃ statement ∈ script, Step.workPlace env.settings t 1 ∈ statement.places := by
  cases g with
  | sort mapper =>
    obtain ⟨source, target, order, -, -, -, -, -, rfl⟩ := h
    have hmaps' : Step.mapsColumns mapper t = true := hmaps
    refine ⟨Step.mappingStatement env.settings t 1 (source.place env.settings) source.readText, ?_, List.mem_cons_self⟩
    simp [Step.sortScript, hmaps']
  | append => cases hmaps

end Scripts

/-- A generator that starts afresh and succeeds writes valid places, except that of the intermediate table
    into which columns are mapped: it is valid exactly if the library in the settings is. -/
theorem places_valid_iff (g : Generator) (env : Env) (t : Transform) (s' : StepState)
    (h : g.generate env t (.fresh env.settings) = .ok () s') :
    ∃ script, g.HasScript env t script ∧ s'.buffer = .ofScript env.settings script ∧
      (∀ statement ∈ script, ∀ l ∈ statement.places, l ≠ Step.workPlace env.settings t 1 → l.IsValid) ∧
      ((∀ statement ∈ script, ∀ l ∈ statement.places, l.IsValid) ↔
        (g.mapsColumns t = true → Name.check .libref env.settings.workLibref = .ok ())) := by
  obtain ⟨script, hscript, hbuffer⟩ := (Generator.generated_of_ok h).hasScript
  refine ⟨script, hscript, hbuffer, fun statement hstatement l hl hne => ?_, fun hvalid hmaps => ?_,
    fun hwork statement hstatement l hl => ?_⟩
  · exact (hscript.isValid_or_work statement hstatement l hl).resolve_right fun hl' => hne hl'.2
  · obtain ⟨statement, hstatement, hl⟩ := hscript.work_mem hmaps
    exact Step.isValid_workPlace_iff.mp (hvalid statement hstatement _ hl)
  · rcases hscript.isValid_or_work statement hstatement l hl with hvalid | ⟨hmaps, rfl⟩
    · exact hvalid
    · exact Step.isValid_workPlace_iff.mpr (hwork hmaps)

theorem mappedSort_places_valid : ∃ s' script,
    (Generator.sort .rename).generate mappedEnv mappedSort (.fresh mappedEnv.settings) = .ok () s' ∧
    s'.buffer = .ofScript mappedEnv.settings script ∧
    ∀ statement ∈ script, ∀ l ∈ statement.places, l.IsValid := by
  have hok : (Generator.sort .rename).generate mappedEnv mappedSort (.fresh mappedEnv.settings) = .ok () _ := rfl
  obtain ⟨script, -, hbuffer, -, hvalid⟩ := places_valid_iff _ _ _ _ hok
  exact ⟨_, script, hok, hbuffer, hvalid.mpr fun _ => rfl⟩

/-- The tables of the sort with mapped columns, and a library of intermediate tables that is none. -/
def blankLibraryEnv : Env :=
  { mappedEnv with settings := { workLibref := "MY WORK" } }

theorem mappedSort_blank_library : ∃ s' script,
    (Generator.sort .rename).generate blankLibraryEnv mappedSort (.fresh blankLibraryEnv.settings) = .ok () s' ∧
    s'.buffer = .ofScript blankLibraryEnv.settings script ∧
    ∃ statement ∈ script, ∃ l ∈ statement.places, ¬l.IsValid := by
  have hok : (Generator.sort .rename).generate blankLibraryEnv mappedSort (.fresh blankLibraryEnv.settings) =
    .ok () _ := rfl
  have hinvalid : Name.check .libref blankLibraryEnv.settings.workLibref ≠ .ok () := by decide
  obtain ⟨script, hscript, hbuffer⟩ := (Generator.generated_of_ok hok).hasScript
  obtain ⟨statement, hstatement, hl⟩ := hscript.work_mem rfl
  exact ⟨_, script, hok, hbuffer, statement, hstatement, _, hl, mt Step.isValid_workPlace_iff.mp hinvalid⟩

end StepScript
