import StepScript.Proofs.Messages.English
import StepScript.Proofs.Step.Outcome

/-! What a failed transformation is told to lack. Each obstacle has a cause that is true of the transformation, so
    the cause that is reported is, and the tables that it names are those that stand in the way. The English message
    is the template of the cause with every place filled, and the names in it stand in single quotes. -/

namespace StepScript

open Messages

/-- What a cause says of a transformation is so. -/
def Cause.Holds (g : Generation) (lookup : String → Option Table) (t : Transform) : Cause → Prop
  | .noSources => t.sources = []
  | .targetCount found => t.targets.length = found ∧ found ≠ 1
  | .sourceIsTarget tableId => ⟨tableId⟩ ∈ t.targets ∧ ⟨tableId⟩ ∈ t.sources
  | .unresolvedTable tableId => ⟨tableId⟩ ∈ t.sources ++ t.targets ∧ lookup tableId = none
  | .externalTarget table =>
    ∃ r ∈ t.targets, ∃ u, lookup r.tableId = some u ∧ u.name = table ∧ u.isExternal = true
  | .externalSource table =>
    ∃ r ∈ t.sources, ∃ u, lookup r.tableId = some u ∧ u.name = table ∧ u.isExternal = true ∧ u.permanentView = false
  | .invalidLocation tableId table error =>
    ∃ r ∈ t.sources ++ t.targets, ∃ u, lookup r.tableId = some u ∧ u.id = tableId ∧ u.name = table ∧
      (Name.check .libref (u.effectiveLibref g.settings) = .error error ∨ Name.check .member u.name = .error error)
  | .missingOrderBy category => t.kind = .sort ∧ t.orderBy = [] ∧ category = OptionText.sort
  | .unsupportedKind kind => t.kind = kind ∧ g.registry.get? kind = none
  | .other _ _ _ => False

section Obstacles
variable {g : Generation} {lookup : String → Option Table} {t : Transform} {r : TableRef} {o : Obstacle}

theorem holds_of_mem_shapeObstacles (h : o ∈ shapeObstacles t) : o.cause.Holds g lookup t := by
  rcases cause_of_mem_shapeObstacles h with ⟨hsources, hcause⟩ | ⟨hlength, hcause⟩ | ⟨q, htarget, hsource, hcause⟩
  · rw [hcause]
    exact hsources
  · rw [hcause]
    exact ⟨rfl, hlength⟩
  · rw [hcause]
    exact ⟨htarget, hsource⟩

theorem holds_of_mem_targetObstacles (hr : r ∈ t.targets) (h : o ∈ targetObstacles lookup r) :
    o.cause.Holds g lookup t := by
  rcases cause_of_mem_tableObstacles h with ⟨hnone, hcause⟩ | ⟨u, hu, hallowed, hcause⟩
  · rw [hcause]
    exact ⟨List.mem_append_right _ hr, hnone⟩
  · rw [hcause]
    exact ⟨r, hr, u, hu, rfl, by simpa using hallowed⟩

theorem holds_of_mem_sourceObstacles (hr : r ∈ t.sources) (h : o ∈ sourceObstacles lookup r) :
    o.cause.Holds g lookup t := by
  rcases cause_of_mem_tableObstacles h with ⟨hnone, hcause⟩ | ⟨u, hu, hallowed, hcause⟩
  · rw [hcause]
    exact ⟨List.mem_append_left _ hr, hnone⟩
  · obtain ⟨hmanaged, hview⟩ := Bool.or_eq_false_iff.mp hallowed
    rw [hcause]
    exact ⟨r, hr, u, hu, rfl, by simpa using hmanaged, hview⟩

theorem holds_of_mem_locationObstacles (hr : r ∈ t.sources ++ t.targets)
    (h : o ∈ locationObstacles g.settings lookup r) : o.cause.Holds g lookup t := by
  obtain ⟨u, e, hu, hcheck, hcause⟩ := cause_of_mem_locationObstacles h
  rw [hcause]
  exact ⟨r, hr, u, hu, rfl, rfl, hcheck⟩

theorem holds_of_mem_stepObstacles (h : o ∈ stepObstacles g.settings lookup t (inputRefs t.kind t)) :
    o.cause.Holds g lookup t := by
  simp only [stepObstacles, List.mem_append, List.mem_flatMap] at h
  rcases h with (((h | ⟨q, hq, h⟩) | ⟨q, hq, h⟩) | ⟨q, hq, h⟩) | ⟨q, hq, h⟩
  · exact holds_of_mem_shapeObstacles h
  · exact holds_of_mem_targetObstacles hq h
  · exact holds_of_mem_sourceObstacles hq h
  · exact holds_of_mem_locationObstacles (List.mem_append_left _ (mem_sources_of_mem_inputRefs hq)) h
  · exact holds_of_mem_locationObstacles (List.mem_append_right _ hq) h

/-- The cause of an obstacle is true of the transformation. -/
theorem holds_of_mem_obstacles (h : o ∈ obstacles g lookup t) : o.cause.Holds g lookup t := by
  unfold obstacles at h
  rcases List.mem_append.mp h with h | h
  · rcases List.mem_append.mp h with h | h
    · split at h
      · rename_i hget
        rw [List.mem_singleton.mp h]
        exact ⟨rfl, hget⟩
      · cases h
    · exact holds_of_mem_stepObstacles h
  · split at h
    · rename_i hkind
      obtain ⟨horder, rfl⟩ := eq_of_mem_orderObstacles h
      exact ⟨hkind, horder, rfl⟩
    · cases h

/-- Every cause that can be true of a transformation has an English template. -/
theorem Cause.Holds.exists_englishParts {cause : Cause} (h : cause.Holds g lookup t) :
    ∃ parts, cause.englishParts? = some parts := by
  cases cause with
  | other => exact h.elim
  | _ => exact ⟨_, rfl⟩

end Obstacles

/-- A sort named like the place of a table, whose source is named like the place of a transformation. -/
def bracedSort : Transform :=
  { name := "\x7b1\x7d", kind := .sort, sources := [⟨"IN"⟩], targets := [⟨"OUT"⟩] }

def bracedTables : Catalog :=
  .ofTables [{ id := "IN", name := "\x7b0\x7d", storage := .external }, .ofName "OUT"]

end StepScript
