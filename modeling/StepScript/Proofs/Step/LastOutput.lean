import StepScript.Proofs.Step.Outcome

/-! The dataset that counts as produced last after a step. An append leaves it at the target that it wrote. A sort
    does not: it leaves the dataset that its procedure read, which is the intermediate table of mapped columns, or
    what was produced ahead of the step, or the first source. -/

namespace StepScript

theorem StepState.lastOutput_write (s : StepState) (fs : List Fragment) : (s.write fs).lastOutput = s.lastOutput := rfl

namespace Step

/-! ### What a sort reads -/

/-- A dataset is the one that a sort reads: the intermediate table if columns are mapped; if not, what was produced
    ahead of the step, and the first source where nothing was. -/
inductive Sorts (mapper : ColumnMapper) (env : Env) (t : Transform) (s : StepState) : String → Prop
  | mapped : mapsColumns mapper t = true → Sorts mapper env t s (workTable env.settings t (s.workTables + 1))
  | earlier {dataset : String} : mapsColumns mapper t = false → s.lastOutput? = some dataset →
      Sorts mapper env t s dataset
  | source {u : Table} {l : Location} : mapsColumns mapper t = false → s.lastOutput? = none →
      env.firstSource t = .ok u → u.location? env.settings = .ok l → Sorts mapper env t s l.text

section Sorting
variable {mapper : ColumnMapper} {env : Env} {t : Transform} {source target : Table} {l : Location}
  {dataset dataset' : String} {s s₁ : StepState}

theorem Sorts.unique (h : Sorts mapper env t s dataset) (h' : Sorts mapper env t s dataset') : dataset = dataset' := by
  cases h <;> cases h' <;> simp_all

/-- The dataset that is produced last when the sort procedure is written is the one that it reads. -/
theorem sorts_readState (h : resolveSource env t s = .ok source s₁) :
    Sorts mapper env t s (readState mapper env t source l s₁).lastOutput := by
  unfold readState
  cases hmaps : mapsColumns mapper t with
  | true =>
    have hwork : (mappedState env t source.readText (deletedState env t l s₁)).lastOutput =
        workTable env.settings t (s₁.workTables + 1) := rfl
    rw [if_pos rfl, hwork, workTables_of_resolveSource h]
    exact .mapped hmaps
  | false =>
    rw [if_neg (by decide), deletedState, StepState.lastOutput_write, StepState.lastOutput]
    obtain ⟨hfirst, ⟨dataset, hdataset, rfl⟩ | ⟨hnone, location, hlocation, rfl⟩⟩ := resolveSource_eq_ok h
    · rw [hdataset]
      exact .earlier hmaps hdataset
    · exact .source hmaps hnone hfirst hlocation

/-- A sort goes on from what is written ahead of its procedure with the dataset that is produced last by then. -/
theorem exists_buffer_sortedState (mapper : ColumnMapper) (env : Env) (t : Transform) (source target : Table)
    (l : Location) (statement : String) (s : StepState) :
    ∃ rest, (sortedState mapper env t source target l statement s).buffer =
      (readState mapper env t source l s).buffer.write
        (⟨0, "proc sort data = " ++ (readState mapper env t source l s).lastOutput⟩ :: rest) := by
  unfold sortedState sortFragments
  simp only [StepState.write, List.cons_append, List.nil_append]
  exact ⟨_, rfl⟩

end Sorting
end Step

/-! ### After a step -/

section Steps
variable {g : Generator} {env : Env} {t : Transform} {s s' : StepState}

/-- After a generator has succeeded, the dataset produced last is the one that its sort procedure was written to read,
    or the target of an append. So it is the target exactly if the generator is an append, or a sort that reads the
    place which it writes. -/
theorem lastOutput_is_target_iff (h : g.generate env t s = .ok () s') :
    ∃ target l, env.target t = .ok target ∧ target.location? env.settings = .ok l ∧
      (∀ mapper, g = .sort mapper → Step.Sorts mapper env t s s'.lastOutput ∧ ∃ ahead rest,
        s'.buffer = s.buffer.write (ahead ++ ⟨0, "proc sort data = " ++ s'.lastOutput⟩ :: rest)) ∧
      (s'.lastOutput = l.text ↔ g = .append ∨ ∃ mapper, g = .sort mapper ∧ Step.Sorts mapper env t s l.text) := by
  have hgenerated := Generator.generated_of_ok h
  cases g with
  | sort mapper =>
    obtain ⟨source, target, l, statement, s₁, hresolved, htarget, hl, -, hs'⟩ := hgenerated
    have hlast : s'.lastOutput = (Step.readState mapper env t source l s₁).lastOutput := by
      rw [hs', Step.sortedState, StepState.lastOutput_write]
    have hsorts : Step.Sorts mapper env t s s'.lastOutput := hlast ▸ Step.sorts_readState hresolved
    refine ⟨target, l, htarget, hl, fun mapper' hmapper => ?_, ?_⟩
    · cases hmapper
      refine ⟨hsorts, ?_⟩
      obtain ⟨fs, hread⟩ : (Step.readState mapper env t source l s₁).buffer.Extends s₁.buffer :=
        Step.extends_readState.trans ⟨_, rfl⟩
      obtain ⟨rest, hbuffer⟩ := Step.exists_buffer_sortedState mapper env t source target l statement s₁
      rw [← hs', ← hlast, hread, Buffer.write_write, Step.buffer_of_resolveSource hresolved] at hbuffer
      exact ⟨fs, rest, hbuffer⟩
    · constructor
      · intro htext
        exact .inr ⟨mapper, rfl, htext ▸ hsorts⟩
      · rintro (hg | ⟨mapper', hg, hsorts'⟩)
        · cases hg
        · cases hg
          exact hsorts.unique hsorts'
  | append =>
    obtain ⟨inputs, target, l, -, htarget, hl, rfl⟩ := hgenerated
    refine ⟨target, l, htarget, hl, fun mapper hmapper => ?_, iff_of_true rfl (.inl rfl)⟩
    cases hmapper

end Steps

/-- A sort of a table into another one. -/
def plainSort : Transform :=
  { name := "S", kind := .sort, sources := [⟨"SRC"⟩], targets := [⟨"OUT"⟩], orderBy := [{ name := "K" }] }

def plainEnv : Env := ⟨"S", (Catalog.ofTables [.ofName "SRC", .ofName "OUT"]).get?, {}⟩

/-- What was produced ahead of a sort happens to be at the place that it writes. -/
theorem plainSort_rereads_target : ∃ s',
    (Generator.sort .rename).generate plainEnv plainSort
      { StepState.fresh plainEnv.settings with lastOutput? := some "WORK.OUT" } = .ok () s' ∧
    s'.lastOutput = "WORK.OUT" := by
  have hok : (Generator.sort .rename).generate plainEnv plainSort
    { StepState.fresh plainEnv.settings with lastOutput? := some "WORK.OUT" } = .ok () _ := rfl
  obtain ⟨target, l, htarget, hl, -, hiff⟩ := lastOutput_is_target_iff hok
  have htarget' : plainEnv.target plainSort = .ok (.ofName "OUT") := rfl
  obtain rfl : Table.ofName "OUT" = target := Except.ok.inj (htarget'.symm.trans htarget)
  have hl' : (Table.ofName "OUT").location? plainEnv.settings = .ok ⟨"WORK", "OUT"⟩ := rfl
  obtain rfl : ⟨"WORK", "OUT"⟩ = l := Except.ok.inj (hl'.symm.trans hl)
  exact ⟨_, hok, hiff.mpr (.inr ⟨.rename, rfl, .earlier rfl rfl⟩)⟩

/-- The source of a sort counts as produced last after it, and not the target that was written. -/
theorem plainSort_leaves_source : ∃ s' target l,
    (Generator.sort .rename).generate plainEnv plainSort (.fresh plainEnv.settings) = .ok () s' ∧
    plainEnv.target plainSort = .ok target ∧ target.location? plainEnv.settings = .ok l ∧
    l.text = "WORK.OUT" ∧ s'.lastOutput = "WORK.SRC" ∧ s'.lastOutput ≠ l.text :=
  ⟨_, _, _, rfl, rfl, rfl, rfl, rfl, by decide⟩

end StepScript
