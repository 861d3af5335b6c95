import StepScript.Catalog
import StepScript.Transform

/-!
Jobs.

A job names tables and transformations. In an accepted job no two tables have one identifier and no
two transformations one name; the physical names of tables are not looked at, since an invalid one
only fails the transformations that use the table.
-/

namespace StepScript

structure Job where
  name : String
  tables : List Table := []
  transforms : List Transform := []

inductive JobError where
  | duplicateTable (id : String)
  | duplicateTransform (name : String)
  deriving DecidableEq

def JobError.message : JobError → String
  | .duplicateTable id => "Duplicate table id: " ++ id
  | .duplicateTransform name => "Duplicate transformation name: " ++ name

/-- The first text of a list that stands among the seen ones or earlier in the list. -/
def firstRepeated? (seen : List String) : List String → Option String
  | [] => none
  | x :: xs => if seen.contains x then some x else firstRepeated? (x :: seen) xs

theorem firstRepeated?_eq_none_iff {seen xs : List String} :
    firstRepeated? seen xs = none ↔ xs.Nodup ∧ ∀ x ∈ xs, x ∉ seen := by
  induction xs generalizing seen with
  | nil => simp [firstRepeated?]
  | cons x xs ih =>
    simp only [firstRepeated?]
    by_cases h : x ∈ seen
    · simp [h]
    · simp only [List.contains_iff_mem, h, if_false, ih, List.nodup_cons, List.mem_cons]
      grind

namespace Job

def fieldNames : List String := ["name", "tables", "transformations"]

def read : Document → Except DecodeError Job :=
  WrittenRecord.read fieldNames fun r =>
    Job.mk
      <$> r.required "name" Document.text
      <*> r.withDefault "tables" (Document.list Table.read) []
      <*> r.withDefault "transformations" (Document.list Transform.read) []

def value (j : Job) : Value :=
  .record [
    ("name", .text j.name),
    ("tables", .list (j.tables.map Table.value)),
    ("transformations", .list (j.transforms.map Transform.value))]

/-- Refuses a job with two tables of one identifier or two transformations of one name. -/
def check (j : Job) : Except JobError Unit :=
  match firstRepeated? [] (j.tables.map (·.id)) with
  | some id => .error (.duplicateTable id)
  | none =>
    match firstRepeated? [] (j.transforms.map (·.name)) with
    | some name => .error (.duplicateTransform name)
    | none => .ok ()

def catalog (j : Job) : Catalog :=
  Catalog.ofTables j.tables

/-- The first transformation that has a text for its name or for the text of its identifier. -/
def transform? (j : Job) (key : String) : Option Transform :=
  j.transforms.find? fun t => t.name == key || t.id.text == key

end Job

end StepScript
