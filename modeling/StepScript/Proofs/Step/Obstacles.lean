import StepScript.Program
import StepScript.Proofs.Table.Location

/-! What stands in the way of generating a transformation. The conditions on a transformation stand in a
    fixed order, and each one that is not met is an obstacle. The checks of a step look at the conditions
    one after another, some of them several times; what they find is the first obstacle. -/

namespace StepScript

/-- A condition that is not met: what it concerns, and the cause that is reported, which is of that class. -/
structure Obstacle where
  concern : FailureClass
  cause : Cause
  concern_cause : cause.concern = concern

/-- A transformation has sources, and exactly one target, which is none of them. -/
def shapeObstacles (t : Transform) : List Obstacle :=
  (if t.sources = [] then [⟨.structural, .noSources, rfl⟩] else []) ++
  (if t.targets.length = 1 then [] else [⟨.structural, .targetCount t.targets.length, rfl⟩]) ++
  (t.targets.filter (· ∈ t.sources)).map fun r => ⟨.structural, .sourceIsTarget r.tableId, rfl⟩

/-- A reference is to a known table of an allowed kind. -/
def tableObstacles (lookup : String → Option Table) (allowed : Table → Bool) (refusal : String → Obstacle)
    (r : TableRef) : List Obstacle :=
  match lookup r.tableId with
  | none => [⟨.resolution r.tableId, .unresolvedTable r.tableId, rfl⟩]
  | some u => if allowed u then [] else [refusal u.name]

/-- A target is known and managed. -/
def targetObstacles (lookup : String → Option Table) : TableRef → List Obstacle :=
  tableObstacles lookup (fun u => !u.isExternal) fun name => ⟨.structural, .externalTarget name, rfl⟩

/-- A source is known, and managed or a permanent view. -/
def sourceObstacles (lookup : String → Option Table) : TableRef → List Obstacle :=
  tableObstacles lookup (fun u => !u.isExternal || u.permanentView) fun name =>
    ⟨.structural, .externalSource name, rfl⟩

/-- A physical name of a table is valid. -/
def nameObstacles (u : Table) (kind : NameKind) (name : String) : List Obstacle :=
  match Name.check kind name with
  | .ok () => []
  | .error e => [⟨.resolution u.id, .invalidLocation u.id u.name e, rfl⟩]

/-- The library of a table and then its member name are valid. -/
def locationObstacles (s : Settings) (lookup : String → Option Table) (r : TableRef) : List Obstacle :=
  match lookup r.tableId with
  | none => []
  | some u => nameObstacles u .libref (u.effectiveLibref s) ++ nameObstacles u .member u.name

/-- The conditions of every step; the locations of the given inputs are looked at. -/
def stepObstacles (s : Settings) (lookup : String → Option Table) (t : Transform) (inputs : List TableRef) :
    List Obstacle :=
  shapeObstacles t ++ t.targets.flatMap (targetObstacles lookup) ++ t.sources.flatMap (sourceObstacles lookup) ++
    inputs.flatMap (locationObstacles s lookup) ++ t.targets.flatMap (locationObstacles s lookup)

/-- A sort has ordering keys. -/
def orderObstacles (t : Transform) : List Obstacle :=
  if t.orderBy = [] then [⟨.configuration OptionText.sort, .missingOrderBy OptionText.sort, rfl⟩] else []

/-- The sources whose locations a step of a kind writes. -/
def inputRefs (kind : Kind) (t : Transform) : List TableRef :=
  match kind with
  | .sort => t.sources.take 1
  | .append => t.sources

theorem mem_sources_of_mem_inputRefs {kind : Kind} {t : Transform} {r : TableRef} (h : r ∈ inputRefs kind t) :
    r ∈ t.sources := by
  cases kind with
  | sort => exact List.mem_of_mem_take h
  | append => exact h

/-- What stands in the way of generating a transformation, in the order in which it is looked for. -/
def obstacles (g : Generation) (lookup : String → Option Table) (t : Transform) : List Obstacle :=
  (if g.registry.get? t.kind = none then [⟨.unsupportedKind t.kind, .unsupportedKind t.kind, rfl⟩] else []) ++
    stepObstacles g.settings lookup t (inputRefs t.kind t) ++
    if t.kind = .sort then orderObstacles t else []

/-! ### What each obstacle says -/

section Causes
variable {lookup : String → Option Table} {t : Transform} {r : TableRef} {s : Settings} {u : Table} {o : Obstacle}

theorem cause_of_mem_shapeObstacles (h : o ∈ shapeObstacles t) :
    (t.sources = [] ∧ o.cause = .noSources) ∨
    (t.targets.length ≠ 1 ∧ o.cause = .targetCount t.targets.length) ∨
    ∃ q ∈ t.targets, q ∈ t.sources ∧ o.cause = .sourceIsTarget q.tableId := by
  unfold shapeObstacles at h
  rcases List.mem_append.mp h with h | h
  · rcases List.mem_append.mp h with h | h
    · split at h
      · rename_i hsources
        rw [List.mem_singleton.mp h]
        exact .inl ⟨hsources, rfl⟩
      · cases h
    · split at h
      · cases h
      · rename_i hlength
        rw [List.mem_singleton.mp h]
        exact .inr (.inl ⟨hlength, rfl⟩)
  · obtain ⟨q, hq, rfl⟩ := List.mem_map.mp h
    obtain ⟨htarget, hsource⟩ := List.mem_filter.mp hq
    exact .inr (.inr ⟨q, htarget, of_decide_eq_true hsource, rfl⟩)

theorem cause_of_mem_tableObstacles {allowed : Table → Bool} {refusal : String → Obstacle}
    (h : o ∈ tableObstacles lookup allowed refusal r) :
    (lookup r.tableId = none ∧ o.cause = .unresolvedTable r.tableId) ∨
    ∃ u, lookup r.tableId = some u ∧ allowed u = false ∧ o.cause = (refusal u.name).cause := by
  unfold tableObstacles at h
  split at h
  · rename_i hnone
    rw [List.mem_singleton.mp h]
    exact .inl ⟨hnone, rfl⟩
  · rename_i u hu
    split at h
    · cases h
    · rename_i hallowed
      rw [List.mem_singleton.mp h]
      exact .inr ⟨u, hu, Bool.eq_false_iff.mpr hallowed, rfl⟩

theorem cause_of_mem_nameObstacles {kind : NameKind} {name : String} (h : o ∈ nameObstacles u kind name) :
    ∃ e, Name.check kind name = .error e ∧ o.cause = .invalidLocation u.id u.name e := by
  unfold nameObstacles at h
  split at h
  · cases h
  · rename_i e he
    rw [List.mem_singleton.mp h]
    exact ⟨e, he, rfl⟩

theorem cause_of_mem_locationObstacles (h : o ∈ locationObstacles s lookup r) :
    ∃ u e, lookup r.tableId = some u ∧
      (Name.check .libref (u.effectiveLibref s) = .error e ∨ Name.check .member u.name = .error e) ∧
      o.cause = .invalidLocation u.id u.name e := by
  unfold locationObstacles at h
  split at h
  · cases h
  · rename_i u hu
    rcases List.mem_append.mp h with h | h
    · obtain ⟨e, he, hcause⟩ := cause_of_mem_nameObstacles h
      exact ⟨u, e, hu, .inl he, hcause⟩
    · obtain ⟨e, he, hcause⟩ := cause_of_mem_nameObstacles h
      exact ⟨u, e, hu, .inr he, hcause⟩

theorem eq_of_mem_orderObstacles (h : o ∈ orderObstacles t) :
    t.orderBy = [] ∧ o = ⟨.configuration OptionText.sort, .missingOrderBy OptionText.sort, rfl⟩ := by
  unfold orderObstacles at h
  split at h
  · rename_i horder
    exact ⟨horder, List.mem_singleton.mp h⟩
  · cases h

end Causes

/-! ### Checks find the first obstacle -/

/-- A check succeeds if there is no obstacle, and else gives the cause of the first one. -/
def Finds {α : Type} (os : List Obstacle) (x : Except Cause α) : Prop :=
  match os with
  | [] => ∃ a, x = .ok a
  | o :: _ => x = .error o.cause

namespace Finds
variable {α β : Type} {os os' : List Obstacle} {x : Except Cause α}

theorem eq_nil (h : Finds os x) {a : α} (hx : x = .ok a) : os = [] := by
  cases os with
  | nil => rfl
  | cons o os =>
    have herror : x = .error o.cause := h
    rw [hx] at herror
    cases herror

/-- A check that goes on with another one finds the obstacles of both. -/
theorem bind {k : α → Except Cause β} (hx : Finds os x) (hk : ∀ a, x = .ok a → Finds os' (k a)) :
    Finds (os ++ os') (x >>= k) := by
  cases os with
  | nil =>
    obtain ⟨a, rfl⟩ := hx
    exact hk a rfl
  | cons o os =>
    have herror : x = .error o.cause := hx
    rw [herror]
    rfl

/-- A check whose result is only put into another form finds the same obstacles. -/
theorem map (hx : Finds os x) (f : α → β) : Finds os (f <$> x) := by
  cases os with
  | nil =>
    obtain ⟨a, rfl⟩ := hx
    exact ⟨f a, rfl⟩
  | cons o os =>
    have herror : x = .error o.cause := hx
    rw [herror]
    rfl

end Finds

theorem target?_eq_some_iff {t : Transform} {r : TableRef} : t.target? = some r ↔ t.targets = [r] := by
  unfold Transform.target?
  split
  · rename_i r' hr
    simp [hr]
  · rename_i hne
    simpa using hne r

theorem target?_of_length {t : Transform} (h : t.targets.length ≠ 1) : t.target? = none := by
  unfold Transform.target?
  split
  · rename_i r hr
    simp [hr] at h
  · rfl

theorem finds_checkSourceAndTarget (t : Transform) : Finds (shapeObstacles t) (Env.checkSourceAndTarget t) := by
  unfold shapeObstacles Env.checkSourceAndTarget
  by_cases hsources : t.sources = []
  · simp [hsources, Finds]
  by_cases htargets : t.targets.length = 1
  · obtain ⟨r, hr⟩ := List.length_eq_one_iff.mp htargets
    by_cases hmem : r ∈ t.sources
    · simp [hsources, target?_eq_some_iff.mpr hr, hr, hmem, Finds]
    · simp [hsources, target?_eq_some_iff.mpr hr, hr, hmem, Finds]
  · simp [hsources, htargets, target?_of_length htargets, Finds]

/-- A transformation without an obstacle in its shape has one target. -/
theorem targets_of_shape {t : Transform} (h : shapeObstacles t = []) :
    t.sources ≠ [] ∧ ∃ r, t.targets = [r] ∧ r ∉ t.sources := by
  unfold shapeObstacles at h
  obtain ⟨h, hmem⟩ := List.append_eq_nil_iff.mp h
  obtain ⟨hsources, htargets⟩ := List.append_eq_nil_iff.mp h
  have hlength : t.targets.length = 1 := by
    by_cases hone : t.targets.length = 1
    · exact hone
    · simp [hone] at htargets
  obtain ⟨r, hr⟩ := List.length_eq_one_iff.mp hlength
  refine ⟨fun hnil => by simp [hnil] at hsources, r, hr, fun hr' => ?_⟩
  simp [hr, hr'] at hmem

section Tables
variable {env : Env} {t : Transform} {r : TableRef} {rs : List TableRef} {u : Table} {s : Settings}

theorem table_eq_ok_iff : env.table r = .ok u ↔ env.lookup r.tableId = some u := by
  unfold Env.table
  cases env.lookup r.tableId with
  | none => simp
  | some v => simp

theorem finds_checkTargetManaged (h : t.targets = [r]) :
    Finds (targetObstacles env.lookup r) (env.checkTargetManaged t) := by
  unfold targetObstacles tableObstacles Env.checkTargetManaged Env.target Env.table
  rw [target?_eq_some_iff.mpr h]
  cases hu : env.lookup r.tableId with
  | none => simp [Finds, hu]
  | some u => cases hext : u.isExternal <;> simp [Finds, hu, hext]

theorem finds_mayRead (env : Env) (r : TableRef) :
    Finds (sourceObstacles env.lookup r) (env.checkReadable [r]) := by
  unfold sourceObstacles tableObstacles Env.checkReadable Env.table
  cases hu : env.lookup r.tableId with
  | none => rfl
  | some u => cases hread : Env.mayRead u <;> simp_all [Finds, Env.mayRead, Env.checkReadable]

theorem checkReadable_cons (env : Env) (r : TableRef) (rs : List TableRef) :
    env.checkReadable (r :: rs) = (env.checkReadable [r] >>= fun _ => env.checkReadable rs) := by
  simp only [Env.checkReadable]
  cases env.table r with
  | error e => rfl
  | ok u => cases hread : Env.mayRead u <;> simp only [hread] <;> rfl

theorem finds_checkReadable (env : Env) : ∀ rs : List TableRef,
    Finds (rs.flatMap (sourceObstacles env.lookup)) (env.checkReadable rs)
  | [] => ⟨(), rfl⟩
  | r :: rs => by
    rw [List.flatMap_cons, checkReadable_cons]
    exact (finds_mayRead env r).bind fun _ _ => finds_checkReadable env rs

/-! ### Locations -/

theorem finds_checkedName (u : Table) (kind : NameKind) (name : String) :
    Finds (nameObstacles u kind name) (u.checkedName kind name) := by
  unfold nameObstacles Table.checkedName
  cases Name.check kind name with
  | ok a => exact ⟨name, rfl⟩
  | error e => rfl

theorem finds_location? (h : env.lookup r.tableId = some u) :
    Finds (locationObstacles s env.lookup r) (u.location? s) := by
  unfold locationObstacles
  rw [h, Table.location?_eq_bind]
  exact (finds_checkedName u .libref (u.effectiveLibref s)).bind fun libref _ =>
    (finds_checkedName u .member u.name).map (Location.mk libref)

theorem sourceLine_eq_map (env : Env) (u : Table) :
    Step.sourceLine env u = (fun l => Step.withOptions l.text u.readText) <$> u.location? env.settings := by
  unfold Step.sourceLine
  cases u.location? env.settings <;> rfl

theorem known_of_readable (h : sourceObstacles env.lookup r = []) : ∃ u, env.lookup r.tableId = some u := by
  unfold sourceObstacles tableObstacles at h
  cases hu : env.lookup r.tableId with
  | none => simp [hu] at h
  | some u => exact ⟨u, rfl⟩

theorem mapM_table_of_readable : ∀ {rs : List TableRef}, rs.flatMap (sourceObstacles env.lookup) = [] →
    ∃ us, rs.mapM env.table = .ok us
  | [], _ => ⟨[], rfl⟩
  | r :: rs, h => by
    obtain ⟨hr, hrs⟩ := List.append_eq_nil_iff.mp h
    obtain ⟨u, hu⟩ := known_of_readable hr
    obtain ⟨us, hus⟩ := mapM_table_of_readable hrs
    exact ⟨u :: us, by rw [List.mapM_cons, table_eq_ok_iff.mpr hu, hus]; rfl⟩

/-- Sources that may be read are written with their locations. -/
theorem finds_sourceLines : ∀ {rs : List TableRef}, rs.flatMap (sourceObstacles env.lookup) = [] →
    Finds (rs.flatMap (locationObstacles env.settings env.lookup))
      (rs.mapM env.table >>= fun us => us.mapM (Step.sourceLine env))
  | [], _ => ⟨[], rfl⟩
  | r :: rs, h => by
    obtain ⟨hr, hrs⟩ := List.append_eq_nil_iff.mp h
    obtain ⟨u, hu⟩ := known_of_readable hr
    obtain ⟨us, hus⟩ := mapM_table_of_readable hrs
    have ih := finds_sourceLines hrs
    rw [hus] at ih
    have hhead : Finds (locationObstacles env.settings env.lookup r) (Step.sourceLine env u) := by
      rw [sourceLine_eq_map]
      exact (finds_location? hu).map _
    -- All tables are looked up ahead of the first location, which changes nothing as they are known.
    have hall : ((r :: rs).mapM env.table >>= fun us => us.mapM (Step.sourceLine env)) =
        (Step.sourceLine env u >>= fun text => List.cons text <$> us.mapM (Step.sourceLine env)) := by
      rw [List.mapM_cons, table_eq_ok_iff.mpr hu, hus]
      show (u :: us).mapM (Step.sourceLine env) = _
      rw [List.mapM_cons]
      simp only [map_eq_pure_bind]
    rw [List.flatMap_cons, hall]
    exact hhead.bind fun text _ => Finds.map ih (List.cons text)

end Tables

end StepScript
