import StepScript.Job
import StepScript.Settings
import StepScript.Proofs.Document.Spelling
import StepScript.Proofs.Text.Uuid

/-! Jobs and settings read back. Each kind of record says for its fields when they may be left out; a record is
    read from its written form as it was, and from every rewriting of that form. -/

namespace StepScript

/-! ### What is read from the written form of a field -/

theorem list_read_back {α : Type} {read : Document → Except DecodeError α} {value : α → Value}
    (h : ∀ a, read (value a).document = .ok a) (as : List α) :
    Document.list read (Value.list (as.map value)).document = .ok as := by
  rw [list_document_eq_ok_iff, List.forall₂_map_left_iff]
  exact List.forall₂_same.mpr fun a _ => h a

theorem texts_read_back (ss : List String) : Document.list Document.text (Value.texts ss).document = .ok ss :=
  list_read_back (fun _ => rfl) ss

theorem Uuid.read_text (id : Uuid) : Uuid.read (Value.text id.text).document = .ok id := by
  have htext : (Value.text id.text).document.text = .ok id.text := rfl
  rw [Uuid.read, htext]
  dsimp only [bind, Except.bind]
  rw [Uuid.parse?_text]

theorem Properties.read_value (p : Properties) : Properties.read p.value.document = .ok p := by
  obtain ⟨entries, hcanonical⟩ := p
  have hfields : (Value.record entries).document.freeForm = .ok entries := by
    have hcanonical' := hcanonical
    rw [Value.isCanonical, Bool.and_eq_true] at hcanonical'
    rw [Value.document, Document.freeForm, fields_entryDocuments entries hcanonical'.2]
    exact congrArg Except.ok (gatherFields_of_isAscending hcanonical'.1)
  unfold Properties.read Properties.value
  split
  next fs h =>
    obtain rfl : entries = fs := Except.ok.inj (hfields.symm.trans h)
    rfl
  next e h => cases hfields.symm.trans h

namespace Reading
variable {α β : Type}

theorem map_found {f : α → β} {x : Reading α} {a : α} (h : x = found a) : f <$> x = found (f a) :=
  map_eq_found_iff.mpr ⟨a, h, rfl⟩

theorem seq_found {x : Reading (α → β)} {y : Reading α} {f : α → β} {a : α} (hx : x = found f) (hy : y = found a) :
    x <*> y = found (f a) :=
  seq_eq_found_iff.mpr ⟨f, a, hx, hy, rfl⟩

end Reading

namespace WrittenRecord
variable {α : Type} {names : List String} {fields : List (String × Value)} {name : String}
  {read : Document → Except DecodeError α} {a d : α}

theorem required_found (v : Value) (h : fieldValues name fields = [v]) (hv : read v.document = .ok a) :
    (ofFields names fields).required name read = .found a :=
  required_ofFields.mpr (.inr ⟨v, h, hv⟩)

theorem withDefault_found (v : Value) (h : fieldValues name fields = [v]) (hv : read v.document = .ok a) :
    (ofFields names fields).withDefault name read d = .found a :=
  withDefault_ofFields.mpr (.inr ⟨v, h, hv⟩)

theorem optional_found (text : α → String) (o : Option α)
    (h : fieldValues name fields = (o.map text).toList.map Value.text)
    (hread : ∀ a, read (Value.text (text a)).document = .ok a) :
    (ofFields names fields).withDefault name (Document.optional read) none = .found o := by
  refine withDefault_ofFields.mpr ?_
  cases o with
  | none => exact .inl ⟨h, rfl⟩
  | some a =>
    refine .inr ⟨_, h, ?_⟩
    have hoptional : Document.optional read (Value.text (text a)).document
        = some <$> read (Value.text (text a)).document := rfl
    rw [hoptional, hread]
    rfl

theorem optionalText_found (o : Option String) (h : fieldValues name fields = o.toList.map Value.text) :
    (ofFields names fields).optionalText name = .found o := by
  refine optional_found id o ?_ fun _ => rfl
  rw [h, Option.map_id, id_eq]

end WrittenRecord

open Reading WrittenRecord

/-! ### Parts of tables and transformations -/

namespace Column

def forms : List FieldForm := [.required "name", .optional "label", .optional "format"]

theorem keeps : Keeps Column.read (Respelled forms) :=
  .record (by decide) fun _ _ h =>
    (h.required (by simp [forms])).map Column.mk
      |>.seq (h.optional (by simp [forms]))
      |>.seq (h.optional (by simp [forms]))

theorem read_value (c : Column) : Column.read c.value.document = .ok c := by
  obtain ⟨name, label, format⟩ := c
  refine read_record.mpr (seq_found (seq_found (map_found ?_) ?_) ?_)
  · exact required_found (.text name) (by simp) rfl
  · exact optionalText_found label (by simp)
  · exact optionalText_found format (by simp)

end Column

namespace ColumnRename

def forms : List FieldForm := [.required "from", .required "to"]

theorem keeps : Keeps ColumnRename.read (Respelled forms) :=
  .record (by decide) fun _ _ h =>
    (h.required (by simp [forms])).map ColumnRename.mk
      |>.seq (h.required (by simp [forms]))

theorem read_value (c : ColumnRename) : ColumnRename.read c.value.document = .ok c := by
  refine read_record.mpr (seq_found (map_found ?_) ?_)
  · exact required_found (.text c.source) (by simp) rfl
  · exact required_found (.text c.target) (by simp) rfl

end ColumnRename

namespace TableRef

def forms : List FieldForm := [.required "table_id"]

theorem keeps : Keeps TableRef.read (Respelled forms) :=
  .record (by decide) fun _ _ h => (h.required (by simp [forms])).map TableRef.mk

theorem read_value (r : TableRef) : TableRef.read r.value.document = .ok r :=
  read_record.mpr (map_found (required_found (.text r.tableId) (by simp) rfl))

end TableRef

namespace SortKey

def forms : List FieldForm := [.required "name", .default "descending" (.flag false)]

theorem keeps : Keeps SortKey.read (Respelled forms) :=
  .record (by decide) fun _ _ h =>
    (h.required (by simp [forms])).map SortKey.mk
      |>.seq (h.withDefault (v := .flag false) (by simp [forms]) rfl)

theorem read_value (k : SortKey) : SortKey.read k.value.document = .ok k := by
  refine read_record.mpr (seq_found (map_found ?_) ?_)
  · exact required_found (.text k.name) (by simp) rfl
  · exact withDefault_found (.flag k.descending) (by simp) rfl

end SortKey

namespace ColumnMapping

def forms : List FieldForm := [.required "source", .required "target"]

theorem keeps : Keeps ColumnMapping.read (Respelled forms) :=
  .record (by decide) fun _ _ h =>
    (h.required (by simp [forms])).map ColumnMapping.mk
      |>.seq (h.required (by simp [forms]))

theorem read_value (m : ColumnMapping) : ColumnMapping.read m.value.document = .ok m := by
  refine read_record.mpr (seq_found (map_found ?_) ?_)
  · exact required_found (.text m.source) (by simp) rfl
  · exact required_found (.text m.target) (by simp) rfl

end ColumnMapping

/-! ### Tables, transformations, jobs and settings -/

namespace Table

def forms : List FieldForm :=
  [.required "id", .required "name", .optional "libref", .default "storage" (.text "managed"),
    .default "permanent_view" (.flag false), .optional "label", .list "columns" (Respelled Column.forms),
    .list "keep" Eq, .list "rename" (Respelled ColumnRename.forms), .optional "where", .optional "read_options",
    .optional "write_options"]

theorem keeps : Keeps Table.read (Respelled forms) :=
  .record (by decide) fun _ _ h =>
    (h.required (by simp [forms])).map Table.mk
      |>.seq (h.required (by simp [forms]))
      |>.seq (h.optional (by simp [forms]))
      |>.seq (h.withDefault (v := .text "managed") (by simp [forms]) rfl)
      |>.seq (h.withDefault (v := .flag false) (by simp [forms]) rfl)
      |>.seq (h.optional (by simp [forms]))
      |>.seq (h.list (by simp [forms]) Column.keeps)
      |>.seq (h.list (by simp [forms]) (.eq _))
      |>.seq (h.list (by simp [forms]) ColumnRename.keeps)
      |>.seq (h.optional (by simp [forms]))
      |>.seq (h.optional (by simp [forms]))
      |>.seq (h.optional (by simp [forms]))

theorem read_storage (s : Storage) : Document.choice Storage.choices (Value.text s.name).document = .ok s := by
  cases s <;> rfl

theorem read_value (t : Table) : Table.read t.value.document = .ok t := by
  obtain ⟨id, name, libref, storage, view, label, columns, keep, renames, condition, readOptions, writeOptions⟩ := t
  refine read_record.mpr (seq_found (seq_found (seq_found (seq_found (seq_found (seq_found (seq_found (seq_found
    (seq_found (seq_found (seq_found (map_found ?_) ?_) ?_) ?_) ?_) ?_) ?_) ?_) ?_) ?_) ?_) ?_)
  · exact required_found (.text id) (by simp) rfl
  · exact required_found (.text name) (by simp) rfl
  · exact optionalText_found libref (by simp)
  · exact withDefault_found (.text storage.name) (by simp) (read_storage storage)
  · exact withDefault_found (.flag view) (by simp) rfl
  · exact optionalText_found label (by simp)
  · exact withDefault_found (.list (columns.map Column.value)) (by simp) (list_read_back Column.read_value columns)
  · exact withDefault_found (.texts keep) (by simp) (texts_read_back keep)
  · exact withDefault_found (.list (renames.map ColumnRename.value)) (by simp)
      (list_read_back ColumnRename.read_value renames)
  · exact optionalText_found condition (by simp)
  · exact optionalText_found readOptions (by simp)
  · exact optionalText_found writeOptions (by simp)

end Table

namespace Transform

def forms : List FieldForm :=
  [.optional "id", .required "name", .required "kind", .list "sources" (Respelled TableRef.forms),
    .list "targets" (Respelled TableRef.forms), .list "order_by" (Respelled SortKey.forms),
    .list "column_mappings" (Respelled ColumnMapping.forms), .default "properties" (.record [])]

theorem keeps : Keeps Transform.read (Respelled forms) :=
  .record (by decide) fun _ _ h =>
    (h.optional (by simp [forms])).map Transform.mk
      |>.seq (h.required (by simp [forms]))
      |>.seq (h.required (by simp [forms]))
      |>.seq (h.list (by simp [forms]) TableRef.keeps)
      |>.seq (h.list (by simp [forms]) TableRef.keeps)
      |>.seq (h.list (by simp [forms]) SortKey.keeps)
      |>.seq (h.list (by simp [forms]) ColumnMapping.keeps)
      |>.seq (h.withDefault (v := .record []) (by simp [forms]) (Properties.read_value .empty))

theorem read_kind (k : Kind) : Document.choice Kind.choices (Value.text k.name).document = .ok k := by
  cases k <;> rfl

theorem read_value (t : Transform) : Transform.read t.value.document = .ok t := by
  obtain ⟨id?, name, kind, sources, targets, orderBy, mappings, properties⟩ := t
  refine read_record.mpr (seq_found (seq_found (seq_found (seq_found (seq_found (seq_found (seq_found (map_found ?_)
    ?_) ?_) ?_) ?_) ?_) ?_) ?_)
  · exact optional_found Uuid.text id? (by simp) Uuid.read_text
  · exact required_found (.text name) (by simp) rfl
  · exact required_found (.text kind.name) (by simp) (read_kind kind)
  · exact withDefault_found (.list (sources.map TableRef.value)) (by simp) (list_read_back TableRef.read_value sources)
  · exact withDefault_found (.list (targets.map TableRef.value)) (by simp) (list_read_back TableRef.read_value targets)
  · exact withDefault_found (.list (orderBy.map SortKey.value)) (by simp) (list_read_back SortKey.read_value orderBy)
  · exact withDefault_found (.list (mappings.map ColumnMapping.value)) (by simp)
      (list_read_back ColumnMapping.read_value mappings)
  · exact withDefault_found properties.value (by simp) (Properties.read_value properties)

end Transform

namespace Job

def forms : List FieldForm :=
  [.required "name", .list "tables" (Respelled Table.forms), .list "transformations" (Respelled Transform.forms)]

theorem keeps : Keeps Job.read (Respelled forms) :=
  .record (by decide) fun _ _ h =>
    (h.required (by simp [forms])).map Job.mk
      |>.seq (h.list (by simp [forms]) Table.keeps)
      |>.seq (h.list (by simp [forms]) Transform.keeps)

theorem read_value (j : Job) : Job.read j.value.document = .ok j := by
  refine read_record.mpr (seq_found (seq_found (map_found ?_) ?_) ?_)
  · exact required_found (.text j.name) (by simp) rfl
  · exact withDefault_found (.list (j.tables.map Table.value)) (by simp) (list_read_back Table.read_value j.tables)
  · exact withDefault_found (.list (j.transforms.map Transform.value)) (by simp)
      (list_read_back Transform.read_value j.transforms)

end Job

namespace Settings

def forms : List FieldForm :=
  [.default "indent_width" (.natural 3), .default "line_ending" (.text "lf"), .default "default_libref" (.text "WORK"),
    .default "work_libref" (.text "WORK"), .default "global_options" (.list []), .default "emit_header" (.flag false),
    .default "emit_step_comments" (.flag true)]

theorem keeps : Keeps Settings.read (Respelled forms) := by
  rw [Settings.read]
  refine .record (by decide) fun _ _ h =>
    (h.withDefault (v := .natural 3) (by simp [forms]) (by rfl)).map Settings.mk
      |>.seq (h.withDefault (v := .text "lf") (by simp [forms]) (by rfl))
      |>.seq (h.withDefault (v := .text "WORK") (by simp [forms]) (by rfl))
      |>.seq (h.withDefault (v := .text "WORK") (by simp [forms]) (by rfl))
      |>.seq (h.withDefault (v := .list []) (by simp [forms]) (by rfl))
      |>.seq (h.withDefault (v := .flag false) (by simp [forms]) (by rfl))
      |>.seq (h.withDefault (v := .flag true) (by simp [forms]) (by rfl))

theorem read_lineEnding (e : LineEnding) :
    Document.choice LineEnding.choices (Value.text e.name).document = .ok e := by
  cases e <;> rfl

theorem read_natural {n : Nat} (h : n < wordBound) : (Value.natural n).document.natural = .ok n := by
  have hnatural : Amount.natural? (.whole n) = some n := if_pos h
  have hscalar : (Value.natural n).document.natural = Document.orMalformed (Amount.natural? (.whole n)) := rfl
  rw [hscalar, hnatural]
  rfl

theorem read_value (s : Settings) (h : s.indentWidth < wordBound) : Settings.read s.value.document = .ok s := by
  rw [Settings.read]
  refine read_record.mpr (seq_found (seq_found (seq_found (seq_found (seq_found (seq_found (map_found ?_) ?_) ?_) ?_)
    ?_) ?_) ?_)
  · exact withDefault_found (.natural s.indentWidth) (by simp) (read_natural h)
  · exact withDefault_found (.text s.lineEnding.name) (by simp) (read_lineEnding s.lineEnding)
  · exact withDefault_found (.text s.defaultLibref) (by simp) rfl
  · exact withDefault_found (.text s.workLibref) (by simp) rfl
  · exact withDefault_found (.texts s.globalOptions) (by simp) (texts_read_back s.globalOptions)
  · exact withDefault_found (.flag s.emitHeader) (by simp) rfl
  · exact withDefault_found (.flag s.emitStepComments) (by simp) rfl

end Settings

/-- From its written form something is read back as it was, and from every rewriting of that form. -/
def ReadsBack {α : Type} (read : Document → Except DecodeError α) (forms : List FieldForm) (written : Value) (a : α) :
    Prop :=
  read written.document = .ok a ∧ ∀ v, Respelled forms written v → read v.document = .ok a

theorem Keeps.readsBack {α : Type} {read : Document → Except DecodeError α} {forms : List FieldForm} {written : Value}
    {a : α} (hread : Keeps read (Respelled forms)) (h : read written.document = .ok a) :
    ReadsBack read forms written a :=
  ⟨h, fun _ hv => hread hv h⟩

/-- Tables, transformations, jobs and settings are read back from every rewriting of their written forms. -/
theorem written_forms_read_back :
    (∀ t : Table, ReadsBack Table.read Table.forms t.value t) ∧
      (∀ t : Transform, ReadsBack Transform.read Transform.forms t.value t) ∧
      (∀ j : Job, ReadsBack Job.read Job.forms j.value j) ∧
      ∀ s : Settings, s.indentWidth < wordBound → ReadsBack Settings.read Settings.forms s.value s := by
  refine ⟨fun t => ?_, fun t => ?_, fun j => ?_, fun s hs => ?_⟩
  · exact Table.keeps.readsBack t.read_value
  · exact Transform.keeps.readsBack t.read_value
  · exact Job.keeps.readsBack j.read_value
  · exact Settings.keeps.readsBack (s.read_value hs)

/-- A job with one table, which has no library. -/
def loadJob : Job := { name := "load", tables := [.ofName "SRC"] }

/-- The table of the job, with its fields in another order, null for the library and without the storage. -/
def rewrittenTable : Value :=
  .record [("id", .text "SRC"), ("libref", .null), ("name", .text "SRC"), ("permanent_view", .flag false),
    ("columns", .list []), ("keep", .list []), ("rename", .list [])]

/-- The job with that table, an owner and no transformations. -/
def rewrittenJob : Value :=
  .record [("owner", .text "etl"), ("name", .text "load"), ("tables", .list [rewrittenTable])]

theorem respelled_rewrittenTable : Respelled Table.forms (Table.ofName "SRC").value rewrittenTable := by
  refine ⟨_, _, rfl, rfl, ?_⟩
  refine .head (.drop (f := .default "storage" (.text "managed")) [("id", .text "SRC"), ("name", .text "SRC")] _
    (by simp [Table.forms]) rfl) ?_
  refine .head (.null (f := .optional "libref") (by simp [Table.forms]) rfl (by decide)) ?_
  exact .single (.reorder (List.Perm.swap _ _ _))

theorem respelled_rewrittenJob : Respelled Job.forms loadJob.value rewrittenJob := by
  have htables : EachRespelled (Respelled Table.forms) (.list [(Table.ofName "SRC").value]) (.list [rewrittenTable]) :=
    ⟨_, _, rfl, rfl, .cons respelled_rewrittenTable .nil⟩
  refine ⟨_, _, rfl, rfl, ?_⟩
  refine .head (.inside (f := .list "tables" (Respelled Table.forms)) [("name", .text "load")] _
    (by simp [Job.forms]) htables) ?_
  refine .head (.drop (f := .list "transformations" (Respelled Transform.forms))
    [("name", .text "load"), ("tables", .list [rewrittenTable])] [] (by simp [Job.forms]) rfl) ?_
  exact .single (.unknown "owner" (.text "etl") (by decide))

theorem loadJob_read_back :
    Job.read rewrittenJob.document = .ok loadJob ∧
      (3 < wordBound ∧ Settings.read (Settings.value {}).document = .ok {}) :=
  ⟨(written_forms_read_back.2.2.1 loadJob).2 _ respelled_rewrittenJob,
    by decide, (written_forms_read_back.2.2.2 {} (by decide)).1⟩

end StepScript
