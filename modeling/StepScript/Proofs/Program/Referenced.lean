import StepScript.Proofs.Program.Alike
import StepScript.Proofs.Table.Location

/-! Tables that are referred to. A transformation looks up the tables of its own references and no others, so
    two lookups that agree on these give it one result. A catalog finds the last table that was given for an
    identifier; where only one was, neither the order of the tables nor the tables of other identifiers matter. -/

namespace StepScript

/-! ### Catalogs -/

namespace Catalog
variable {ts us : List Table} {id : String}

theorem find?_insertInto_self (t : Table) (us : List Table) :
    (insertInto t us).find? (·.id == t.id) = some t := by
  induction us with
  | nil => exact List.find?_cons_of_pos (by simp)
  | cons u us ih =>
    rw [insertInto]
    split
    · exact List.find?_cons_of_pos (by simp)
    · rename_i hu
      rw [List.find?_cons_of_neg (by simpa using hu), ih]

theorem find?_insertInto_of_ne {t : Table} (h : t.id ≠ id) (us : List Table) :
    (insertInto t us).find? (·.id == id) = us.find? (·.id == id) := by
  induction us with
  | nil => exact List.find?_cons_of_neg (by simpa using h)
  | cons u us ih =>
    rw [insertInto]
    split
    · rename_i hu
      rw [List.find?_cons_of_neg (by simpa using h), List.find?_cons_of_neg (by simpa [hu] using h)]
    · rw [List.find?_cons, List.find?_cons, ih]

theorem get?_insert (c : Catalog) (t : Table) (id : String) :
    (c.insert t).get? id = if t.id = id then some t else c.get? id := by
  split
  · rename_i ht
    subst ht
    exact find?_insertInto_self t c.tables
  · rename_i ht
    exact find?_insertInto_of_ne ht c.tables

theorem get?_foldl_insert (ts : List Table) (c : Catalog) (id : String) :
    (ts.foldl insert c).get? id = ((ts.filter (·.id == id)).getLast?).or (c.get? id) := by
  induction ts generalizing c with
  | nil => rfl
  | cons t ts ih =>
    rw [List.foldl_cons, ih, get?_insert]
    by_cases ht : t.id = id
    · have hfilter : (t :: ts).filter (·.id == id) = t :: ts.filter (·.id == id) := by simp [ht]
      rw [hfilter, if_pos ht, List.getLast?_cons]
      cases (ts.filter (·.id == id)).getLast? <;> rfl
    · have hfilter : (t :: ts).filter (·.id == id) = ts.filter (·.id == id) := by simp [ht]
      rw [hfilter, if_neg ht]

/-- Of the tables with an identifier, the last one is found. -/
theorem get?_ofTables (ts : List Table) (id : String) :
    (ofTables ts).get? id = (ts.filter (·.id == id)).getLast? := by
  rw [ofTables, get?_foldl_insert]
  exact Option.or_none

theorem length_filter_id_le_one (h : (ts.map (·.id)).Nodup) (id : String) :
    (ts.filter (·.id == id)).length ≤ 1 := by
  have hcount := List.nodup_iff_count_le_one.mp h id
  rwa [List.count, List.countP_map, List.countP_eq_length_filter] at hcount

/-- Tables in another order, and tables of other identifiers, leave what is found for an identifier. -/
theorem get?_ofTables_of_perm {added : List Table} (hids : (ts.map (·.id)).Nodup)
    (hadded : ∀ u ∈ added, u.id ≠ id) (hperm : us.Perm (ts ++ added)) :
    (ofTables us).get? id = (ofTables ts).get? id := by
  have hnone : added.filter (·.id == id) = [] := by
    rw [List.filter_eq_nil_iff]
    intro u hu
    simpa using hadded u hu
  have hfilter : (us.filter (·.id == id)).Perm (ts.filter (·.id == id)) := by
    have h := hperm.filter (·.id == id)
    rwa [List.filter_append, hnone, List.append_nil] at h
  have hone := length_filter_id_le_one hids id
  rw [get?_ofTables, get?_ofTables]
  generalize ts.filter (·.id == id) = found at hfilter hone
  match found, hone with
  | [], _ => rw [hfilter.eq_nil]
  | [u], _ => rw [hfilter.eq_singleton]

end Catalog

/-! ### Transformations and jobs -/

/-- A source or a target of the transformation is the table with an identifier. -/
def Transform.RefersTo (t : Transform) (id : String) : Prop :=
  ∃ r ∈ t.sources ++ t.targets, r.tableId = id

instance (t : Transform) (id : String) : Decidable (t.RefersTo id) :=
  inferInstanceAs (Decidable (∃ r ∈ t.sources ++ t.targets, r.tableId = id))

theorem LookupAlike.of_eq {lookup lookup' : String → Option Table} {r : TableRef}
    (h : lookup' r.tableId = lookup r.tableId) : LookupAlike lookup lookup' r := by
  unfold LookupAlike
  rw [h]
  exact LookupAlike.refl lookup r

theorem Settings.Alike.refl (s : Settings) : s.Alike s := ⟨rfl, rfl, rfl⟩

section Referenced
variable {g : Generation} {lookup lookup' : String → Option Table} {t : Transform} {job job' : Job}

theorem lookupAlike_of_refersTo (h : ∀ id, t.RefersTo id → lookup' id = lookup id) :
    ∀ r ∈ t.sources ++ t.targets, LookupAlike lookup lookup' r := by
  intro r hr
  exact .of_eq (h r.tableId ⟨r, hr, rfl⟩)

theorem generate_eq_of_lookup (h : ∀ id, t.RefersTo id → lookup' id = lookup id) :
    g.generate lookup' t = g.generate lookup t := by
  rcases generate_alike g.registry (.refl g.settings) (.refl t) (lookupAlike_of_refersTo h) with
    ⟨f, hfailed, hfailed'⟩ | ⟨-, script, -, hok, hok'⟩
  · exact hfailed'.trans hfailed.symm
  · exact hok'.trans hok.symm

/-- A job has one program with all tables for which its transformations find what they refer to. -/
theorem program_eq_of_lookup {tables : List Table} (m : Messages) (generatedAt : String)
    (h : ∀ t ∈ job.transforms, ∀ id, t.RefersTo id →
      (Catalog.ofTables tables).get? id = job.catalog.get? id) :
    g.program m generatedAt { job with tables } = g.program m generatedAt job := by
  have halike : job.Alike { job with tables } :=
    ⟨List.forall₂_same.mpr fun t _ => .refl t, fun t ht => lookupAlike_of_refersTo (h t ht)⟩
  exact program_alike (φ := id) rfl (fun _ _ => rfl) (.refl g.settings) halike rfl m generatedAt rfl
    (fun _ _ => rfl) fun _ _ _ _ _ => rfl

end Referenced

/-- A transformation has one result with all lookups that agree on the tables it refers to, be it code or a
    failure. So the program of a job with distinct tables stays as it is, in the code, the generated
    transformations and the reported failures, if its tables are put in another order and tables are added to
    which no transformation refers. -/
theorem generation_looks_at_references (g : Generation) :
    (∀ (t : Transform) (lookup lookup' : String → Option Table),
      (∀ id, t.RefersTo id → lookup' id = lookup id) → g.generate lookup' t = g.generate lookup t) ∧
    ∀ (m : Messages) (generatedAt : String) (job : Job) (added tables : List Table),
      (job.tables.map (·.id)).Nodup → (∀ u ∈ added, ∀ t ∈ job.transforms, ¬t.RefersTo u.id) →
      tables.Perm (job.tables ++ added) →
      g.program m generatedAt { job with tables } = g.program m generatedAt job := by
  refine ⟨fun t lookup lookup' h => generate_eq_of_lookup h, ?_⟩
  intro m generatedAt job added tables hids hadded hperm
  refine program_eq_of_lookup m generatedAt fun t ht id hid => ?_
  refine Catalog.get?_ofTables_of_perm hids (fun u hu huid => ?_) hperm
  exact hadded u hu t ht (huid ▸ hid)

/-- An external table to which no step of the job refers. -/
def spareTable : Table := { Table.ofName "SPARE" with libref := some "STAGE", storage := .external }

def reorderedTables : List Table := [.ofName "ALL", spareTable, .ofName "SRC", .ofName "MID", .ofName "OUT"]

/-- The job with a failing sort keeps its program with its tables in another order and one more table, and its
    first step is generated alike from both catalogs. -/
theorem partialJob_reordered :
    (withHeader.program .english "now" { partialJob with tables := reorderedTables } =
      withHeader.program .english "now" partialJob ∧
    (withHeader.program .english "now" partialJob).generated = ["sorted", "all"]) ∧
    withHeader.generate (Catalog.ofTables reorderedTables).get? partialJob.transforms[0] =
      withHeader.generate partialJob.catalog.get? partialJob.transforms[0] := by
  obtain ⟨hgenerate, hprogram⟩ := generation_looks_at_references withHeader
  refine ⟨⟨?_, rfl⟩, hgenerate _ _ _ ?_⟩
  · exact hprogram .english "now" partialJob [spareTable] reorderedTables (by decide) (by decide) (by decide)
  · rintro id ⟨r, hr, rfl⟩
    simp only [partialJob, List.getElem_cons_zero, List.cons_append, List.nil_append, List.mem_cons,
      List.not_mem_nil, or_false] at hr
    rcases hr with rfl | rfl <;> rfl

end StepScript
