import StepScript.Document.Canonical
import StepScript.Document.OfValue
import StepScript.Proofs.Results

/-! Values read as documents. A canonical value is read as itself. A record that is written as a value is read
    field by field: what a field gives depends on the values that stand under its name, and on nothing else that
    is in the record. -/

namespace StepScript

/-! ### Data values -/

theorem putField_eq_append {key : String} {v : Value} {fs : List (String × Value)}
    (h : ∀ k ∈ fs.map (·.1), k < key) : putField key v fs = fs ++ [(key, v)] := by
  induction fs with
  | nil => rfl
  | cons f fs ih =>
    obtain ⟨k, w⟩ := f
    rw [List.map_cons, List.forall_mem_cons] at h
    rw [putField, if_neg (String.lt_asymm h.1), if_pos h.1, ih h.2, List.cons_append]

theorem foldl_putField {entries fs : List (String × Value)} (h : isAscending (entries.map (·.1)) = true)
    (hafter : ∀ k ∈ fs.map (·.1), ∀ k' ∈ entries.map (·.1), k < k') :
    entries.foldl (fun fields (k, v) => putField k v fields) fs = fs ++ entries := by
  induction entries generalizing fs with
  | nil => rw [List.foldl_nil, List.append_nil]
  | cons e es ih =>
    obtain ⟨k, v⟩ := e
    simp only [List.map_cons, isAscending, Bool.and_eq_true, List.all_eq_true, decide_eq_true_eq] at h
    obtain ⟨hfirst, hrest⟩ := h
    have hput : putField k v fs = fs ++ [(k, v)] := putField_eq_append fun k' hk' => hafter k' hk' k List.mem_cons_self
    rw [List.foldl_cons]
    dsimp only
    rw [hput, ih hrest, List.append_assoc, List.singleton_append]
    intro k' hk' k'' hk''
    rw [List.map_append, List.mem_append] at hk'
    rcases hk' with hk' | hk'
    · exact hafter k' hk' k'' (List.mem_cons_of_mem _ hk'')
    · obtain rfl := List.mem_singleton.mp hk'
      exact hfirst k'' hk''

theorem gatherFields_of_isAscending {entries : List (String × Value)} (h : isAscending (entries.map (·.1)) = true) :
    gatherFields entries = entries :=
  foldl_putField h fun _ hk => absurd hk List.not_mem_nil

mutual

/-- A canonical value is read as itself. -/
theorem Value.value_document : ∀ v : Value, v.isCanonical = true → v.document.value = .ok v
  | .atom a, _ => by cases a <;> rfl
  | .list items, h => by
    rw [Value.isCanonical] at h
    rw [Value.document, Document.value, if_pos rfl, values_documents items h]
    rfl
  | .record fs, h => by
    rw [Value.isCanonical, Bool.and_eq_true] at h
    rw [Value.document, Document.value, if_pos rfl, fields_entryDocuments fs h.2]
    exact congrArg (fun fs => Except.ok (Value.record fs)) (gatherFields_of_isAscending h.1)

theorem values_documents : ∀ vs : List Value, areCanonical vs = true → Document.values (documents vs) = .ok vs
  | [], _ => rfl
  | v :: vs, h => by
    rw [areCanonical, Bool.and_eq_true] at h
    rw [documents, Document.values, Value.value_document v h.1, values_documents vs h.2]

theorem fields_entryDocuments : ∀ fs : List (String × Value), haveCanonical fs = true →
    Document.fields (entryDocuments fs) = .ok fs
  | [], _ => rfl
  | (k, v) :: fs, h => by
    rw [haveCanonical, Bool.and_eq_true] at h
    rw [entryDocuments, Document.fields, Value.value_document v h.1, fields_entryDocuments fs h.2]

end

theorem Value.isWhole_document (v : Value) : v.document.isWhole = true := by
  cases v <;> rfl

theorem documents_eq_map (vs : List Value) : documents vs = vs.map Value.document := by
  induction vs with
  | nil => rfl
  | cons v vs ih => rw [documents, ih, List.map_cons]

theorem entryDocuments_eq_map (fs : List (String × Value)) :
    entryDocuments fs = fs.map fun f => (some f.1, f.2.document) := by
  induction fs with
  | nil => rfl
  | cons f fs ih => rw [entryDocuments, ih, List.map_cons]

/-- A list that is written as a value is read if each of its values is. -/
theorem list_document_eq_ok_iff {α : Type} {read : Document → Except DecodeError α} {vs : List Value} {as : List α} :
    Document.list read (Value.list vs).document = .ok as ↔ List.Forall₂ (fun v a => read v.document = .ok a) vs as := by
  have hended : ∀ r : Except DecodeError (List α),
      (r >>= Document.ended { positional := true }) = .ok as ↔ r = .ok as := by
    intro r
    cases r <;> rfl
  rw [Value.document, documents_eq_map, Document.list, hended, mapM_eq_ok_iff, List.forall₂_map_left_iff]

/-! ### Fields -/

/-- The values that stand in a record under a name. -/
def fieldValues (name : String) (fields : List (String × Value)) : List Value :=
  fields.filterMap fun f => if f.1 = name then some f.2 else none

section Values
variable {name k : String} {v : Value} {fs gs : List (String × Value)}

@[simp] theorem fieldValues_nil : fieldValues name [] = [] := rfl

@[simp] theorem fieldValues_append : fieldValues name (fs ++ gs) = fieldValues name fs ++ fieldValues name gs :=
  List.filterMap_append

theorem fieldValues_cons_self : fieldValues name ((name, v) :: fs) = v :: fieldValues name fs := by
  unfold fieldValues
  rw [List.filterMap_cons, if_pos rfl]

theorem fieldValues_cons_of_ne (h : k ≠ name) : fieldValues name ((k, v) :: fs) = fieldValues name fs := by
  unfold fieldValues
  rw [List.filterMap_cons, if_neg h]

@[simp] theorem fieldValues_cons :
    fieldValues name ((k, v) :: fs) = (if k = name then [v] else []) ++ fieldValues name fs := by
  by_cases h : k = name
  · subst h
    rw [fieldValues_cons_self, if_pos rfl, List.singleton_append]
  · rw [fieldValues_cons_of_ne h, if_neg h, List.nil_append]

@[simp] theorem fieldValues_optionalField (o : Option String) :
    fieldValues name (optionalField k o) = if k = name then o.toList.map Value.text else [] := by
  cases o with
  | none => simp [optionalField]
  | some s => simp [optionalField]

theorem fieldValues_eq_nil (h : name ∉ fs.map (·.1)) : fieldValues name fs = [] := by
  refine List.filterMap_eq_nil_iff.mpr fun f hf => if_neg ?_
  rintro rfl
  exact h (List.mem_map_of_mem hf)

theorem map_entriesOf (name : String) (entries : List (Option String × Document)) :
    (entriesOf name entries).map (·.2) = (entries.filter (·.1 == some name)).map (·.2) := by
  have hfst : entries.zipIdx.map Prod.fst = entries := List.zipIdx_map_fst 0 entries
  calc (entriesOf name entries).map (·.2)
      = ((entries.zipIdx.filter ((·.1 == some name) ∘ Prod.fst)).map Prod.fst).map (·.2) := by
        rw [entriesOf, List.map_map, List.map_map]
        rfl
    _ = ((entries.zipIdx.map Prod.fst).filter (·.1 == some name)).map (·.2) := by rw [List.filter_map]
    _ = (entries.filter (·.1 == some name)).map (·.2) := by rw [hfst]

/-- The documents of a name are those of the values that stand under it. -/
theorem map_entriesOf_entryDocuments (name : String) (fs : List (String × Value)) :
    (entriesOf name (entryDocuments fs)).map (·.2) = (fieldValues name fs).map Value.document := by
  rw [map_entriesOf, entryDocuments_eq_map]
  induction fs with
  | nil => rfl
  | cons f fs ih =>
    obtain ⟨k, v⟩ := f
    by_cases hk : k = name
    · subst hk
      rw [fieldValues_cons_self, List.map_cons, List.filter_cons_of_pos (by simp), List.map_cons, ih, List.map_cons]
    · rw [fieldValues_cons_of_ne hk, List.map_cons, List.filter_cons_of_neg (by simp [hk]), ih]

end Values

/-- A field with some values under its name gives a result: it is not there and has a default, or it has one value,
    which is read. -/
def Gives {α : Type} (read : Document → Except DecodeError α) (default? : Option α) (values : List Value) (a : α) :
    Prop :=
  (values = [] ∧ default? = some a) ∨ ∃ v, values = [v] ∧ read v.document = .ok a

namespace WrittenRecord

/-- A record whose fields are written as values. -/
def ofFields (names : List String) (fields : List (String × Value)) : WrittenRecord :=
  ⟨names, .named (entryDocuments fields) true⟩

section Fields
variable {α : Type} {names : List String} {fields : List (String × Value)} {name : String}
  {read : Document → Except DecodeError α} {absent : Reading α} {default a : α}

theorem field_ofFields : (ofFields names fields).field name read absent = .found a ↔
    (fieldValues name fields = [] ∧ absent = .found a) ∨
      ∃ v, fieldValues name fields = [v] ∧ read v.document = .ok a := by
  have hdocuments := map_entriesOf_entryDocuments name fields
  unfold field ofFields
  dsimp only
  cases hentries : entriesOf name (entryDocuments fields) with
  | nil =>
    rw [hentries] at hdocuments
    have hvalues : fieldValues name fields = [] := List.map_eq_nil_iff.mp hdocuments.symm
    simp [hvalues]
  | cons e more =>
    obtain ⟨i, d⟩ := e
    rw [hentries, List.map_cons] at hdocuments
    obtain ⟨v, vs, hvalues, rfl, hmore⟩ := List.map_eq_cons_iff.mp hdocuments.symm
    dsimp only
    cases hread : read v.document with
    | error e => simp [hvalues, hread]
    | ok b =>
      cases more with
      | nil =>
        obtain rfl := List.map_eq_nil_iff.mp hmore
        simp [hvalues, hread]
      | cons e' more =>
        -- The name stands there again.
        obtain ⟨w, ws, rfl, -, -⟩ := List.map_eq_cons_iff.mp hmore
        simp [hvalues]

theorem required_ofFields : (ofFields names fields).required name read = .found a ↔
    Gives read none (fieldValues name fields) a := by
  rw [required, field_ofFields, Gives]
  simp [missing, ofFields]

theorem withDefault_ofFields : (ofFields names fields).withDefault name read default = .found a ↔
    Gives read (some default) (fieldValues name fields) a := by
  rw [withDefault, field_ofFields, Gives]
  simp

theorem rest_ofFields : (ofFields names fields).rest = .found () := by
  have hclear : (entryDocuments fields).findIdx? (obstructs names) = none := by
    rw [entryDocuments_eq_map, List.findIdx?_eq_none_iff]
    intro e he
    obtain ⟨f, -, rfl⟩ := List.mem_map.mp he
    rw [obstructs, Value.isWhole_document, Bool.not_true, Bool.and_false]
  unfold rest ofFields
  dsimp only
  rw [hclear]
  rfl

/-- A record that is written as a value is read if its fields are. -/
theorem read_record {body : WrittenRecord → Reading α} :
    WrittenRecord.read names body (Value.record fields).document = .ok a ↔ body (ofFields names fields) = .found a := by
  have hmembers : (Value.record fields).document.members? = some (.named (entryDocuments fields) true) := rfl
  have hrest : WrittenRecord.rest ⟨names, .named (entryDocuments fields) true⟩ = .found () := rest_ofFields
  rw [WrittenRecord.read, hmembers]
  dsimp only
  rw [Reading.result_eq_ok_iff, Reading.seq_eq_found_iff, hrest]
  simp [Reading.map_eq_found_iff, ofFields]

end Fields

end WrittenRecord

end StepScript
