import StepScript.Table

/-!
Catalogs of tables.

A catalog holds tables by their identifiers, no two of one identifier: inserting a table takes the
place of the one that had its identifier.
-/

namespace StepScript

/-- Tables with distinct identifiers. -/
structure Catalog where
  tables : List Table
  ids_nodup : (tables.map (·.id)).Nodup

namespace Catalog

def empty : Catalog := ⟨[], List.nodup_nil⟩

/-- A table put in the place of the one of its identifier, or at the end. -/
def insertInto (t : Table) : List Table → List Table
  | [] => [t]
  | u :: us => if u.id = t.id then t :: us else u :: insertInto t us

theorem mem_ids_insertInto {t : Table} {us : List Table} {x : String} :
    x ∈ (insertInto t us).map (·.id) ↔ x = t.id ∨ x ∈ us.map (·.id) := by
  induction us with
  | nil => simp [insertInto]
  | cons u us ih =>
    by_cases h : u.id = t.id
    · simp [insertInto, h]
    · simp only [insertInto, h, if_false, List.map_cons, List.mem_cons, ih]
      constructor
      · rintro (h | h | h) <;> simp [h]
      · rintro (h | h | h) <;> simp [h]

theorem nodup_ids_insertInto {t : Table} {us : List Table} (h : (us.map (·.id)).Nodup) :
    ((insertInto t us).map (·.id)).Nodup := by
  induction us with
  | nil => simp [insertInto]
  | cons u us ih =>
    rw [List.map_cons, List.nodup_cons] at h
    by_cases hu : u.id = t.id
    · simp only [insertInto, hu, if_true, List.map_cons, List.nodup_cons]
      exact hu ▸ h
    · simp only [insertInto, hu, if_false, List.map_cons, List.nodup_cons]
      refine ⟨fun hmem => ?_, ih h.2⟩
      rcases mem_ids_insertInto.1 hmem with e | hmem
      · exact hu e
      · exact h.1 hmem

/-- The catalog with a table, which takes the place of the one of its identifier. -/
def insert (c : Catalog) (t : Table) : Catalog :=
  ⟨insertInto t c.tables, nodup_ids_insertInto c.ids_nodup⟩

/-- The catalog of tables inserted one after another. -/
def ofTables (ts : List Table) : Catalog :=
  ts.foldl insert empty

def get? (c : Catalog) (id : String) : Option Table :=
  c.tables.find? (·.id == id)

def size (c : Catalog) : Nat := c.tables.length

def isEmpty (c : Catalog) : Bool := c.tables.isEmpty

end Catalog

end StepScript
