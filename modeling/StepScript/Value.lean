import StepScript.Number.Notation

/-!
Data values: the free-form settings of a transformation and the written form of every record.

A value is null, a flag, a number, a text, a list or a record. In a canonical value the names of each
record strictly ascend in the order of their characters, so a name stands once and two canonical
records with the same fields are equal. `putField` keeps that order (`isAscending_putField`).
-/

namespace StepScript

open Number

/-- A number: whole, or a 64-bit float that was written with a point or an exponent. -/
inductive Amount where
  | whole (i : Int)
  | float (x : Binary64)
  deriving DecidableEq

/-- The text of a number, as it stands in options. -/
def Amount.text : Amount → String
  | .whole i => toString i
  | .float x => x.text

inductive Atom where
  | null
  | flag (b : Bool)
  | number (a : Amount)
  | text (s : String)
  deriving DecidableEq

inductive Value where
  | atom (a : Atom)
  | list (items : List Value)
  | record (fields : List (String × Value))

abbrev Value.text (s : String) : Value := .atom (.text s)

abbrev Value.flag (b : Bool) : Value := .atom (.flag b)

abbrev Value.natural (n : Nat) : Value := .atom (.number (.whole n))

abbrev Value.null : Value := .atom .null

/-- The data value of a list of texts. -/
def Value.texts (ss : List String) : Value := .list (ss.map Value.text)

/-- Names that strictly ascend. -/
def isAscending : List String → Bool
  | [] => true
  | k :: ks => ks.all (fun k' => decide (k < k')) && isAscending ks

mutual

/-- Whether the names of every record in the value strictly ascend. -/
def Value.isCanonical : Value → Bool
  | .atom _ => true
  | .list items => areCanonical items
  | .record fields => isAscending (fields.map (·.1)) && haveCanonical fields

/-- Whether every value of a list is canonical. -/
def areCanonical : List Value → Bool
  | [] => true
  | v :: vs => v.isCanonical && areCanonical vs

/-- Whether every value of a record is canonical. -/
def haveCanonical : List (String × Value) → Bool
  | [] => true
  | (_, v) :: fs => v.isCanonical && haveCanonical fs

end

/-- The fields with one field set: at its place in the order of names, in place of an earlier field
of that name. -/
def putField (key : String) (v : Value) : List (String × Value) → List (String × Value)
  | [] => [(key, v)]
  | (k, w) :: fs =>
    if key < k then (key, v) :: (k, w) :: fs
    else if k < key then (k, w) :: putField key v fs
    else (key, v) :: fs

/-- The fields of a record given one after another; the last one of a name counts. -/
def gatherFields (entries : List (String × Value)) : List (String × Value) :=
  entries.foldl (fun fields (k, v) => putField k v fields) []

/-! ### Canonical values -/

theorem mem_keys_putField {key x : String} {v : Value} {fs : List (String × Value)} :
    x ∈ (putField key v fs).map (·.1) → x = key ∨ x ∈ fs.map (·.1) := by
  induction fs with
  | nil => simp [putField]
  | cons f fs ih =>
    obtain ⟨k, w⟩ := f
    simp only [putField]
    split
    · simp
    · split
      · simp only [List.map_cons, List.mem_cons]
        rintro (rfl | h)
        · simp
        · rcases ih h with rfl | h
          · simp
          · simp [h]
      · simp only [List.map_cons, List.mem_cons]
        rintro (rfl | h)
        · simp
        · simp [h]

theorem isAscending_putField {key : String} {v : Value} {fs : List (String × Value)}
    (h : isAscending (fs.map (·.1)) = true) : isAscending ((putField key v fs).map (·.1)) = true := by
  induction fs with
  | nil => simp [putField, isAscending]
  | cons f fs ih =>
    obtain ⟨k, w⟩ := f
    simp only [List.map_cons, isAscending, Bool.and_eq_true, List.all_eq_true,
      decide_eq_true_eq] at h
    simp only [putField]
    split
    next hlt =>
      simp only [List.map_cons, isAscending, Bool.and_eq_true, List.all_eq_true,
        decide_eq_true_eq, List.mem_cons]
      refine ⟨?_, h.1, h.2⟩
      rintro x (rfl | hx)
      · exact hlt
      · exact String.lt_trans hlt (h.1 x hx)
    next hnlt =>
      split
      next hgt =>
        simp only [List.map_cons, isAscending, Bool.and_eq_true, List.all_eq_true,
          decide_eq_true_eq]
        refine ⟨?_, ih h.2⟩
        intro x hx
        rcases mem_keys_putField hx with rfl | hx
        · exact hgt
        · exact h.1 x hx
      next hngt =>
        have hk : key = k := String.le_antisymm (String.not_lt.1 hngt) (String.not_lt.1 hnlt)
        subst hk
        simp only [List.map_cons, isAscending, Bool.and_eq_true, List.all_eq_true,
          decide_eq_true_eq]
        exact h

theorem haveCanonical_putField {key : String} {v : Value} {fs : List (String × Value)}
    (hv : v.isCanonical = true) (h : haveCanonical fs = true) :
    haveCanonical (putField key v fs) = true := by
  induction fs with
  | nil => simp [putField, haveCanonical, hv]
  | cons f fs ih =>
    obtain ⟨k, w⟩ := f
    simp only [haveCanonical, Bool.and_eq_true] at h
    simp only [putField]
    split
    · simp [haveCanonical, hv, h.1, h.2]
    · split
      · simp [haveCanonical, h.1, ih h.2]
      · simp [haveCanonical, hv, h.2]

/-- Setting a field of a canonical record to a canonical value keeps the record canonical. -/
theorem isCanonical_putField {key : String} {v : Value} {fs : List (String × Value)}
    (hv : v.isCanonical = true) (h : (Value.record fs).isCanonical = true) :
    (Value.record (putField key v fs)).isCanonical = true := by
  simp only [Value.isCanonical, Bool.and_eq_true] at h ⊢
  exact ⟨isAscending_putField h.1, haveCanonical_putField hv h.2⟩

/-- Fields with canonical values gather into a canonical record. -/
theorem isCanonical_gatherFields {entries : List (String × Value)}
    (h : haveCanonical entries = true) :
    (Value.record (gatherFields entries)).isCanonical = true := by
  have go : ∀ (entries : List (String × Value)) (fs : List (String × Value)),
      haveCanonical entries = true → (Value.record fs).isCanonical = true →
        (Value.record (entries.foldl (fun fields (k, v) => putField k v fields) fs)).isCanonical
          = true := by
    intro entries
    induction entries with
    | nil => exact fun _ _ h => h
    | cons e es ih =>
      intro fs he hfs
      simp only [haveCanonical, Bool.and_eq_true] at he
      exact ih _ he.2 (isCanonical_putField he.1 hfs)
  exact go entries [] h rfl

end StepScript
