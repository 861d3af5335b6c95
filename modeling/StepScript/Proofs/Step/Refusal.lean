import StepScript.Proofs.Step.Outcome

/-! What a step leaves when it stops. The tables of a transformation are looked at ahead of the first
    statement, and the names found valid then stay valid, so a failure that concerns tables leaves the
    buffer as it was. Only the lack of ordering keys is noticed within the statements. -/

namespace StepScript

/-- A class of failures that concern the tables of a transformation. -/
def FailureClass.ConcernsTables (c : FailureClass) : Prop :=
  c = .structural ∨ ∃ reference, c = .resolution reference

/-! ### Obstacles and their classes -/

section Obstacles
variable {lookup : String → Option Table} {t : Transform} {r : TableRef} {s : Settings} {o : Obstacle}

theorem concern_of_mem_shapeObstacles (h : o ∈ shapeObstacles t) : o.concern = .structural := by
  rw [← o.concern_cause]
  rcases cause_of_mem_shapeObstacles h with ⟨-, hcause⟩ | ⟨-, hcause⟩ | ⟨q, -, -, hcause⟩
  · rw [hcause, Cause.concern]
  · rw [hcause, Cause.concern]
  · rw [hcause, Cause.concern]

theorem concern_of_mem_tableObstacles {allowed : Table → Bool} {refusal : String → Obstacle}
    (hrefusal : ∀ name, (refusal name).concern = .structural) (h : o ∈ tableObstacles lookup allowed refusal r) :
    o.concern.ConcernsTables := by
  rw [← o.concern_cause]
  rcases cause_of_mem_tableObstacles h with ⟨-, hcause⟩ | ⟨u, -, -, hcause⟩
  · rw [hcause]
    exact .inr ⟨_, rfl⟩
  · rw [hcause, (refusal u.name).concern_cause]
    exact .inl (hrefusal _)

theorem concern_of_mem_locationObstacles (h : o ∈ locationObstacles s lookup r) : o.concern.ConcernsTables := by
  obtain ⟨u, e, -, -, hcause⟩ := cause_of_mem_locationObstacles h
  rw [← o.concern_cause, hcause]
  exact .inr ⟨_, rfl⟩

/-- The conditions of every step concern its tables. -/
theorem concern_of_mem_stepObstacles {inputs : List TableRef} (h : o ∈ stepObstacles s lookup t inputs) :
    o.concern.ConcernsTables := by
  simp only [stepObstacles, List.mem_append, List.mem_flatMap] at h
  rcases h with (((h | ⟨q, -, h⟩) | ⟨q, -, h⟩) | ⟨q, -, h⟩) | ⟨q, -, h⟩
  · exact .inl (concern_of_mem_shapeObstacles h)
  · exact concern_of_mem_tableObstacles (fun _ => rfl) h
  · exact concern_of_mem_tableObstacles (fun _ => rfl) h
  · exact concern_of_mem_locationObstacles h
  · exact concern_of_mem_locationObstacles h

theorem not_concernsTables_configuration (category : String) : ¬(FailureClass.configuration category).ConcernsTables := by
  simp [FailureClass.ConcernsTables]

end Obstacles

/-! ### Generators that stop -/

section Generators
variable {g : Generator} {env : Env} {t : Transform} {s s' : StepState} {halt : Halt}

/-- A failure that concerns tables leaves the buffer as it was; any other one is the lack of ordering keys. -/
theorem Generator.stops_for_tables_or_order (h : g.generate env t s = .error halt s') :
    (s'.buffer = s.buffer ∧ ∃ cause : Cause, halt = .failure ⟨env.transform, cause⟩ ∧ cause.concern.ConcernsTables) ∨
    (g.kind = .sort ∧ t.orderBy = [] ∧ halt = .failure ⟨env.transform, .missingOrderBy OptionText.sort⟩) := by
  obtain ⟨o, ho, hhalt, hbuffer⟩ := g.stops h
  rcases List.mem_append.mp ho with ho | ho
  · -- What comes late has the class of missing ordering keys, and no obstacle with tables has it.
    have htables := concern_of_mem_stepObstacles ho
    refine .inl ⟨hbuffer.resolve_right fun hsort => ?_, o.cause, hhalt, o.concern_cause.symm ▸ htables⟩
    exact not_concernsTables_configuration _ (hsort ▸ htables)
  · split at ho
    · rename_i hkind
      obtain ⟨horder, rfl⟩ := eq_of_mem_orderObstacles ho
      exact .inr ⟨hkind, horder, hhalt⟩
    · cases ho

end Generators

/-! ### Statements that stop -/

namespace Step

theorem Writes.ne_error {x : Step Unit} {fs : String → List Fragment} (hx : Writes x fs) {s s' : StepState}
    {halt : Halt} : x s ≠ .error halt s' := by
  rw [hx s]
  nofun

section Names
variable {env : Env} {table : Table} {s s' : StepState} {halt : Halt}

/-- A statement that stops for the names of its table has written nothing yet. -/
theorem names_error {k : String → String → Step Unit} {e : Cause} (hl : table.location? env.settings = .error e)
    (h : (do
      let libref ← attempt env (table.libref? env.settings)
      let member ← attempt env table.member?
      k libref member) s = .error halt s') : s' = s := by
  rcases Table.names_of_location?_error hl with hlibref | ⟨libref, hlibref, hmember⟩
  · rw [hlibref] at h
    cases h
    rfl
  · rw [hlibref, hmember] at h
    cases h
    rfl

theorem emitTableDelete_error (hmanaged : table.isExternal = false)
    (h : emitTableDelete env table s = .error halt s') : s' = s := by
  cases hl : table.location? env.settings with
  | ok l => exact absurd h (writes_emitTableDelete hmanaged hl).ne_error
  | error e =>
    unfold emitTableDelete at h
    rw [hmanaged] at h
    exact names_error hl h

theorem emitColumnAttributes_error {withLabels : Bool}
    (h : emitColumnAttributes env table withLabels s = .error halt s') : s' = s := by
  cases hl : table.location? env.settings with
  | ok l => exact absurd h (writes_emitColumnAttributes hl withLabels).ne_error
  | error e =>
    unfold emitColumnAttributes at h
    cases hempty : (table.columnStatements withLabels).isEmpty with
    | true =>
      simp only [hempty] at h
      cases h
    | false =>
      simp only [hempty] at h
      exact names_error hl h

end Names

end Step

/-! ### What stays as it was -/

/-- A failure that concerns the tables of a transformation comes ahead of the first statement. Only a sort
    without ordering keys may fail after something was written. A statement that deletes a managed table, or
    sets column attributes, is written as a whole or not at all. -/
theorem generate_failure_keeps_buffer (env : Env) (s s' : StepState) (halt : Halt) :
    (∀ (g : Generator) (t : Transform), g.generate env t s = .error halt s' →
      (∀ f, halt = .failure f → f.cause.concern.ConcernsTables → s'.buffer = s.buffer) ∧
      (s'.buffer ≠ s.buffer → (∃ mapper, g = .sort mapper) ∧ t.orderBy = [] ∧
        halt = .failure ⟨env.transform, .missingOrderBy OptionText.sort⟩) ∧
      (g = .append → s'.buffer = s.buffer)) ∧
    (∀ table, table.isExternal = false → Step.emitTableDelete env table s = .error halt s' → s'.buffer = s.buffer) ∧
    (∀ table withLabels, Step.emitColumnAttributes env table withLabels s = .error halt s' →
      s'.buffer = s.buffer) := by
  refine ⟨fun g t h => ?_, fun table hmanaged h => ?_, fun table withLabels h => ?_⟩
  · rcases Generator.stops_for_tables_or_order h with ⟨hbuffer, -⟩ | ⟨hkind, horder, rfl⟩
    · exact ⟨fun _ _ _ => hbuffer, fun hne => absurd hbuffer hne, fun _ => hbuffer⟩
    · obtain ⟨mapper, rfl⟩ : ∃ mapper, g = .sort mapper := by
        cases g with
        | sort mapper => exact ⟨mapper, rfl⟩
        | append => cases hkind
      refine ⟨fun f hf htables => ?_, fun _ => ⟨⟨mapper, rfl⟩, horder, rfl⟩, nofun⟩
      cases hf
      exact absurd htables (not_concernsTables_configuration _)
  · rw [Step.emitTableDelete_error hmanaged h]
  · rw [Step.emitColumnAttributes_error h]

/-- A table whose member name is not valid. -/
def misnamed : Table :=
  { id := "OUT", name := "out put", columns := [{ name := "A", format := some "8." }] }

def misnamedEnv : Env := ⟨"step", (Catalog.ofTables [.ofName "SRC", .ofName "DST", misnamed]).get?, {}⟩

/-- A sort without ordering keys into a table. -/
def unorderedInto (target : String) : Transform :=
  { name := "step", kind := .sort, sources := [⟨"SRC"⟩], targets := [⟨target⟩] }

/-- A state within an indented statement. -/
def midway : StepState :=
  { buffer := { (Buffer.ofSettings {}) with fragments := #[⟨0, "data A;\n"⟩], level := 2 } }

theorem generate_failure_misnamed :
    (∃ halt s', (Generator.sort .rename).generate misnamedEnv (unorderedInto "OUT") midway = .error halt s' ∧
      s' ≠ midway ∧ s'.buffer = midway.buffer) ∧
    (∃ halt s', (Generator.sort .rename).generate misnamedEnv (unorderedInto "DST") midway = .error halt s' ∧
      s'.buffer ≠ midway.buffer ∧ halt = .failure ⟨"step", .missingOrderBy "SORT"⟩) ∧
    (∃ halt s', Step.emitTableDelete misnamedEnv misnamed midway = .error halt s' ∧ s'.buffer = midway.buffer) ∧
    ∃ halt s', Step.emitColumnAttributes misnamedEnv misnamed true midway = .error halt s' ∧
      s'.buffer = midway.buffer := by
  refine ⟨⟨_, _, rfl, by decide, ?_⟩, ⟨_, _, rfl, by decide, ?_⟩, ⟨_, _, rfl, ?_⟩, ⟨_, _, rfl, ?_⟩⟩
  · have herror : (Generator.sort .rename).generate misnamedEnv (unorderedInto "OUT") midway = .error _ _ := rfl
    exact ((generate_failure_keeps_buffer _ _ _ _).1 _ _ herror).1 _ rfl (.inr ⟨"OUT", rfl⟩)
  · have herror : (Generator.sort .rename).generate misnamedEnv (unorderedInto "DST") midway = .error _ _ := rfl
    exact (((generate_failure_keeps_buffer _ _ _ _).1 _ _ herror).2.1 (by decide)).2.2
  · exact (generate_failure_keeps_buffer misnamedEnv midway _ _).2.1 misnamed rfl rfl
  · exact (generate_failure_keeps_buffer misnamedEnv midway _ _).2.2 misnamed true rfl

end StepScript
