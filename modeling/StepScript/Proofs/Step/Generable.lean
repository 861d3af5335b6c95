import StepScript.Proofs.Step.Outcome

/-! The conditions under which a transformation is generated (`Generable`), said of its tables, names and
    ordering keys. A transformation that meets them is generated; any other one is refused, for the first
    condition in order that it does not meet. -/

namespace StepScript
variable {g : Generation} {lookup : String → Option Table} {t : Transform}

/-- A table that may be read: it is managed, or a permanent view. -/
def Table.Readable (u : Table) : Prop :=
  u.storage = .managed ∨ u.permanentView = true

/-- A transformation that meets every condition of its generation. -/
structure Generable (g : Generation) (lookup : String → Option Table) (t : Transform) : Prop where
  registered : ∃ generator, g.registry.get? t.kind = some generator
  sources : t.sources ≠ []
  target : ∃ r u, t.targets = [r] ∧ r ∉ t.sources ∧ lookup r.tableId = some u ∧ u.storage = .managed ∧
    u.HasValidNames g.settings
  readable : ∀ r ∈ t.sources, ∃ u, lookup r.tableId = some u ∧ u.Readable
  /-- An append step reads every source, a sort step the first one. -/
  inputs : ∀ r ∈ inputRefs t.kind t, ∀ u, lookup r.tableId = some u → u.HasValidNames g.settings
  ordered : t.kind = .sort → t.orderBy ≠ []

theorem shapeObstacles_eq_nil : shapeObstacles t = [] ↔ t.sources ≠ [] ∧ ∃ r, t.targets = [r] ∧ r ∉ t.sources := by
  refine ⟨targets_of_shape, fun ⟨hsources, r, hr, hmem⟩ => ?_⟩
  simp [shapeObstacles, hsources, hr, hmem]

theorem targetObstacles_eq_nil {r : TableRef} :
    targetObstacles lookup r = [] ↔ ∃ u, lookup r.tableId = some u ∧ u.storage = .managed := by
  unfold targetObstacles tableObstacles
  cases lookup r.tableId with
  | none => simp
  | some u => cases hstorage : u.storage <;> simp [Table.isExternal, hstorage]

theorem sourceObstacles_eq_nil {r : TableRef} :
    sourceObstacles lookup r = [] ↔ ∃ u, lookup r.tableId = some u ∧ u.Readable := by
  unfold sourceObstacles tableObstacles Table.Readable
  cases lookup r.tableId with
  | none => simp
  | some u => cases hstorage : u.storage <;> simp [Table.isExternal, hstorage]

theorem nameObstacles_eq_nil {u : Table} {kind : NameKind} {name : String} :
    nameObstacles u kind name = [] ↔ Name.check kind name = .ok () := by
  unfold nameObstacles
  cases Name.check kind name <;> simp

theorem locationObstacles_eq_nil {s : Settings} {r : TableRef} :
    locationObstacles s lookup r = [] ↔ ∀ u, lookup r.tableId = some u → u.HasValidNames s := by
  unfold locationObstacles Table.HasValidNames
  cases lookup r.tableId <;> simp [nameObstacles_eq_nil]

theorem orderObstacles_eq_nil : orderObstacles t = [] ↔ t.orderBy ≠ [] := by
  unfold orderObstacles
  split <;> simp_all

theorem obstacles_eq_nil : obstacles g lookup t = [] ↔ Generable g lookup t := by
  unfold obstacles stepObstacles
  simp only [List.append_eq_nil_iff, List.flatMap_eq_nil_iff, shapeObstacles_eq_nil, targetObstacles_eq_nil,
    sourceObstacles_eq_nil, locationObstacles_eq_nil]
  constructor
  · rintro ⟨⟨hregistered, ⟨⟨⟨⟨hsources, r, hr, hmem⟩, htarget⟩, hreadable⟩, hinputs⟩, hlocated⟩, hordered⟩
    have hin : r ∈ t.targets := by simp [hr]
    obtain ⟨u, hu, hmanaged⟩ := htarget r hin
    refine ⟨?_, hsources, ⟨r, u, hr, hmem, hu, hmanaged, hlocated r hin u hu⟩, hreadable, hinputs, fun hsort => ?_⟩
    · exact Option.ne_none_iff_exists'.mp fun hnone => by simp [hnone] at hregistered
    · rw [if_pos hsort] at hordered
      exact orderObstacles_eq_nil.mp hordered
  · rintro ⟨⟨generator, hget⟩, hsources, ⟨r, u, hr, hmem, hu, hmanaged, hnames⟩, hreadable, hinputs, hordered⟩
    refine ⟨⟨by simp [hget], ⟨⟨⟨⟨hsources, r, hr, hmem⟩, ?_⟩, hreadable⟩, hinputs⟩, ?_⟩, ?_⟩
    · simpa [hr] using ⟨u, hu, hmanaged⟩
    · simpa [hr, hu] using hnames
    · split
      · exact orderObstacles_eq_nil.mpr (hordered ‹_›)
      · rfl

theorem generates_iff : (∃ buffer, g.generate lookup t = .ok buffer) ↔ Generable g lookup t := by
  rw [← obstacles_eq_nil]
  cases h : obstacles g lookup t with
  | nil =>
    obtain ⟨-, s, -, -, hok⟩ := generate_of_no_obstacle h
    simp [hok]
  | cons o os => simp [generate_of_obstacle h]

/-- A transformation is generated if it meets every condition; otherwise it fails, for the first condition in
    order that it does not meet, and with the class of that one. -/
theorem generate_outcome (g : Generation) (lookup : String → Option Table) (t : Transform) :
    ((∃ buffer, g.generate lookup t = .ok buffer) ↔ Generable g lookup t) ∧
    ∀ halt, g.generate lookup t = .error halt ↔
      ∃ o, (obstacles g lookup t).head? = some o ∧ halt = .failure ⟨t.name, o.cause⟩ ∧
        o.cause.concern = o.concern := by
  refine ⟨generates_iff, fun halt => ?_⟩
  cases h : obstacles g lookup t with
  | nil =>
    obtain ⟨-, s, -, -, hok⟩ := generate_of_no_obstacle h
    simp [hok]
  | cons o os => simp [generate_of_obstacle h, o.concern_cause, eq_comm]

end StepScript
