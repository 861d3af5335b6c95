import StepScript.Source
import StepScript.Proofs.Results
import StepScript.Proofs.Table.Location

/-! Jobs with duplicates. A job that was read is refused exactly if two of its tables have one identifier or two of
    its transformations one name, and the refusal names the first that repeats an earlier one. The catalog of a job
    that is not refused holds all of its tables. -/

namespace StepScript

/-! ### The first text that repeats an earlier one -/

/-- The first element of a list that repeats an earlier one. -/
def FirstRepeat (x : String) (xs : List String) : Prop :=
  ∃ ahead rest, xs = ahead ++ x :: rest ∧ ahead.Nodup ∧ x ∈ ahead

/-- The search stops at an element that repeats a seen or an earlier one, if no element ahead of it does. -/
theorem firstRepeated?_append {seen ahead rest : List String} {x : String} (hnodup : ahead.Nodup)
    (hunseen : ∀ y ∈ ahead, y ∉ seen) (hx : x ∈ seen ∨ x ∈ ahead) :
    firstRepeated? seen (ahead ++ x :: rest) = some x := by
  induction ahead generalizing seen with
  | nil =>
    have hseen : seen.contains x = true := List.contains_iff_mem.mpr (hx.resolve_right List.not_mem_nil)
    rw [List.nil_append, firstRepeated?, if_pos hseen]
  | cons y ys ih =>
    have hy : ¬seen.contains y = true := mt List.contains_iff_mem.mp (hunseen y List.mem_cons_self)
    rw [List.nodup_cons] at hnodup
    rw [List.cons_append, firstRepeated?, if_neg hy]
    refine ih hnodup.2 (fun z hz => ?_) ?_
    · rw [List.mem_cons, not_or]
      exact ⟨ne_of_mem_of_not_mem hz hnodup.1, hunseen z (List.mem_cons_of_mem y hz)⟩
    · rcases hx with hx | hx
      · exact .inl (List.mem_cons_of_mem y hx)
      · rcases List.mem_cons.mp hx with rfl | hx
        · exact .inl List.mem_cons_self
        · exact .inr hx

theorem exists_of_firstRepeated? {seen xs : List String} {x : String} (h : firstRepeated? seen xs = some x) :
    ∃ ahead rest, xs = ahead ++ x :: rest ∧ ahead.Nodup ∧ (∀ y ∈ ahead, y ∉ seen) ∧ (x ∈ seen ∨ x ∈ ahead) := by
  induction xs generalizing seen with
  | nil => cases h
  | cons y ys ih =>
    rw [firstRepeated?] at h
    split at h
    next hy =>
      obtain rfl := Option.some.inj h
      exact ⟨[], ys, rfl, .nil, fun _ h => absurd h List.not_mem_nil, .inl (List.contains_iff_mem.mp hy)⟩
    next hy =>
      obtain ⟨ahead, rest, rfl, hnodup, hunseen, hx⟩ := ih h
      have hahead : y ∉ ahead := fun h => hunseen y h List.mem_cons_self
      refine ⟨y :: ahead, rest, rfl, List.nodup_cons.mpr ⟨hahead, hnodup⟩, ?_, ?_⟩
      · rw [List.forall_mem_cons]
        exact ⟨mt List.contains_iff_mem.mpr hy, fun z hz => mt (List.mem_cons_of_mem y) (hunseen z hz)⟩
      · rcases hx with hx | hx
        · rcases List.mem_cons.mp hx with rfl | hx
          · exact .inr List.mem_cons_self
          · exact .inl hx
        · exact .inr (List.mem_cons_of_mem y hx)

theorem firstRepeated?_nil_eq_some_iff {xs : List String} {x : String} :
    firstRepeated? [] xs = some x ↔ FirstRepeat x xs := by
  constructor
  · intro h
    obtain ⟨ahead, rest, hxs, hnodup, -, hx⟩ := exists_of_firstRepeated? h
    exact ⟨ahead, rest, hxs, hnodup, hx.resolve_left List.not_mem_nil⟩
  · rintro ⟨ahead, rest, rfl, hnodup, hx⟩
    exact firstRepeated?_append hnodup (fun _ _ => List.not_mem_nil) (.inr hx)

theorem firstRepeated?_nil_eq_none_iff {xs : List String} : firstRepeated? [] xs = none ↔ xs.Nodup := by
  rw [firstRepeated?_eq_none_iff]
  simp

/-- A list repeats an element exactly if its elements are not distinct. -/
theorem exists_firstRepeat_iff {xs : List String} : (∃ x, FirstRepeat x xs) ↔ ¬xs.Nodup := by
  rw [← firstRepeated?_nil_eq_none_iff, ← ne_eq, Option.ne_none_iff_exists']
  exact exists_congr fun x => firstRepeated?_nil_eq_some_iff.symm

/-! ### Catalogs of distinct tables -/

namespace Catalog
variable {c : Catalog} {t : Table} {ts us : List Table}

theorem insertInto_eq_append (h : t.id ∉ us.map (·.id)) : insertInto t us = us ++ [t] := by
  induction us with
  | nil => rfl
  | cons u us ih =>
    rw [List.map_cons, List.mem_cons, not_or] at h
    rw [insertInto, if_neg (Ne.symm h.1), ih h.2, List.cons_append]

theorem tables_foldl_insert (h : (c.tables.map (·.id) ++ ts.map (·.id)).Nodup) :
    (ts.foldl insert c).tables = c.tables ++ ts := by
  induction ts generalizing c with
  | nil => rw [List.foldl_nil, List.append_nil]
  | cons t ts ih =>
    have hnew : t.id ∉ c.tables.map (·.id) := fun hmem =>
      (List.nodup_append.mp h).2.2 t.id hmem t.id (List.mem_map_of_mem List.mem_cons_self) rfl
    have htables : (c.insert t).tables = c.tables ++ [t] := insertInto_eq_append hnew
    rw [List.foldl_cons, ih, htables, List.append_assoc, List.singleton_append]
    rw [htables, List.map_append, List.map_singleton, List.append_assoc, List.singleton_append]
    exact h

/-- A catalog of tables with distinct identifiers holds them all, in their order. -/
theorem tables_ofTables (h : (ts.map (·.id)).Nodup) : (ofTables ts).tables = ts :=
  tables_foldl_insert h

end Catalog

/-! ### Jobs -/

namespace Job
variable {job : Job} {format : Format} {text : String}

theorem check_eq_duplicateTable_iff {id : String} :
    job.check = .error (.duplicateTable id) ↔ FirstRepeat id (job.tables.map (·.id)) := by
  rw [← firstRepeated?_nil_eq_some_iff, check]
  cases firstRepeated? [] (job.tables.map (·.id)) with
  | some _ => simp
  | none => cases firstRepeated? [] (job.transforms.map (·.name)) <;> simp

theorem check_eq_duplicateTransform_iff {name : String} :
    job.check = .error (.duplicateTransform name) ↔
      (job.tables.map (·.id)).Nodup ∧ FirstRepeat name (job.transforms.map (·.name)) := by
  rw [← firstRepeated?_nil_eq_some_iff, ← firstRepeated?_nil_eq_none_iff, check]
  cases firstRepeated? [] (job.tables.map (·.id)) with
  | some _ => simp
  | none => cases firstRepeated? [] (job.transforms.map (·.name)) <;> simp

theorem check_eq_ok_iff :
    job.check = .ok () ↔ (job.tables.map (·.id)).Nodup ∧ (job.transforms.map (·.name)).Nodup := by
  rw [← firstRepeated?_nil_eq_none_iff, ← firstRepeated?_nil_eq_none_iff, check]
  cases firstRepeated? [] (job.tables.map (·.id)) with
  | some _ => simp
  | none => cases firstRepeated? [] (job.transforms.map (·.name)) <;> simp

theorem parse_eq_refused_iff (h : readText Job.read format text = .ok job) {e : JobError} :
    Job.parse format text = .error (.refused e) ↔ job.check = .error e := by
  rw [Job.parse, h]
  dsimp only
  cases job.check <;> simp

theorem parse_eq_ok_iff {job' : Job} :
    Job.parse format text = .ok job' ↔ readText Job.read format text = .ok job' ∧ job'.check = .ok () := by
  rw [Job.parse]
  cases readText Job.read format text with
  | error e => simp
  | ok job =>
    dsimp only
    cases hcheck : job.check with
    | error e =>
      refine ⟨fun h => (nomatch h), fun ⟨h, hok⟩ => ?_⟩
      cases h
      cases hcheck.symm.trans hok
    | ok u =>
      refine ⟨fun h => ?_, fun ⟨h, _⟩ => h⟩
      cases h
      exact ⟨rfl, hcheck⟩

theorem size_catalog (h : (job.tables.map (·.id)).Nodup) : job.catalog.size = job.tables.length :=
  congrArg List.length (Catalog.tables_ofTables h)

theorem get?_catalog_eq_some_iff (h : (job.tables.map (·.id)).Nodup) {r : TableRef} {t : Table} :
    job.catalog.get? r.tableId = some t ↔ t ∈ job.tables ∧ t.id = r.tableId := by
  rw [Catalog.get?_eq_some_iff, catalog, Catalog.tables_ofTables h]

/-- Of a job that was read, the first table that repeats an identifier is refused, or else the first transformation
    that repeats a name; without duplicates the job is loaded, and each reference finds the table that it names. -/
theorem parse_refuses_duplicates (h : readText Job.read format text = .ok job) :
    ((∃ id, Job.parse format text = .error (.refused (.duplicateTable id))) ↔ ¬(job.tables.map (·.id)).Nodup) ∧
      (∀ id, Job.parse format text = .error (.refused (.duplicateTable id)) ↔
        FirstRepeat id (job.tables.map (·.id))) ∧
      ((∃ name, Job.parse format text = .error (.refused (.duplicateTransform name))) ↔
        (job.tables.map (·.id)).Nodup ∧ ¬(job.transforms.map (·.name)).Nodup) ∧
      (∀ name, Job.parse format text = .error (.refused (.duplicateTransform name)) ↔
        (job.tables.map (·.id)).Nodup ∧ FirstRepeat name (job.transforms.map (·.name))) ∧
      (Job.parse format text = .ok job ↔
        (job.tables.map (·.id)).Nodup ∧ (job.transforms.map (·.name)).Nodup) ∧
      (Job.parse format text = .ok job → job.catalog.size = job.tables.length ∧
        ∀ (r : TableRef) (t : Table), job.catalog.get? r.tableId = some t ↔ t ∈ job.tables ∧ t.id = r.tableId) := by
  have htable : ∀ id, Job.parse format text = .error (.refused (.duplicateTable id)) ↔
      FirstRepeat id (job.tables.map (·.id)) := fun _ => (parse_eq_refused_iff h).trans check_eq_duplicateTable_iff
  have htransform : ∀ name, Job.parse format text = .error (.refused (.duplicateTransform name)) ↔
      (job.tables.map (·.id)).Nodup ∧ FirstRepeat name (job.transforms.map (·.name)) := fun _ =>
    (parse_eq_refused_iff h).trans check_eq_duplicateTransform_iff
  have hok : Job.parse format text = .ok job ↔
      (job.tables.map (·.id)).Nodup ∧ (job.transforms.map (·.name)).Nodup := by
    rw [parse_eq_ok_iff, check_eq_ok_iff]
    exact and_iff_right h
  refine ⟨?_, htable, ?_, htransform, hok, fun hparse => ?_⟩
  · rw [exists_congr htable, exists_firstRepeat_iff]
  · rw [exists_congr htransform, exists_and_left, exists_firstRepeat_iff]
  · have hids := (hok.mp hparse).1
    exact ⟨size_catalog hids, fun r t => get?_catalog_eq_some_iff hids⟩

/-- The text of a job whose table has an invalid name and whose two steps have one name. -/
def twinStepsText : String :=
  "name: j\ntables:\n- id: A\n  name: 1 a\n" ++
    "transformations:\n- name: s\n  kind: sort\n- name: s\n  kind: append\n"

theorem twinSteps_refused : ∃ job, readText Job.read .yaml twinStepsText = .ok job ∧
    FirstRepeat "s" (job.transforms.map (·.name)) ∧
      Job.parse .yaml twinStepsText = .error (.refused (.duplicateTransform "s")) := by
  have hread : (readText Job.read .yaml twinStepsText).toOption.any
      (fun job => job.tables.map (·.id) = ["A"] ∧ job.transforms.map (·.name) = ["s", "s"]) = true := by
    decide +kernel
  obtain ⟨job, h, hjob⟩ := exists_ok_of_any hread
  obtain ⟨hids, hnames⟩ := of_decide_eq_true hjob
  have hrepeat : FirstRepeat "s" (job.transforms.map (·.name)) := by
    rw [hnames]
    exact ⟨["s"], [], rfl, by decide, by decide⟩
  refine ⟨job, h, hrepeat, ((Job.parse_refuses_duplicates h).2.2.2.1 "s").mpr ⟨?_, hrepeat⟩⟩
  rw [hids]
  decide

end Job

end StepScript
