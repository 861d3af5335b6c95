import StepScript.Document

/-!
What is read as a data value is canonical: the names of each record ascend, whatever the order and
the repetitions of the written entries (`isCanonical_of_value`, `isCanonical_of_freeForm`).
-/

namespace StepScript.Document

theorem eq_of_ended {α : Type} {c : Collection} {a b : α} (h : ended c a = .ok b) : a = b := by
  unfold ended at h
  split at h
  · exact Except.ok.inj h
  · cases h

mutual

/-- A document that reads as a data value reads as a canonical one. -/
theorem isCanonical_of_value :
    ∀ (d : Document) (v : Value), d.value = .ok v → v.isCanonical = true
  | .scalar s, v, h => by
    rw [value] at h
    cases hs : s.atom? with
    | none => simp [hs, orMalformed, Except.map] at h
    | some a =>
      simp only [hs, orMalformed, Except.map, Except.ok.injEq] at h
      subst h
      rfl
  | .sequence c items, v, h => by
    rw [value] at h
    split at h
    · cases hi : values items with
      | error e => simp [hi, bind, Except.bind] at h
      | ok vs =>
        simp only [hi, bind, Except.bind] at h
        rw [← eq_of_ended h, Value.isCanonical]
        exact areCanonical_of_values items vs hi
    · cases h
  | .mapping c entries, v, h => by
    rw [value] at h
    split at h
    · cases hi : fields entries with
      | error e => simp [hi, bind, Except.bind] at h
      | ok fs =>
        simp only [hi, bind, Except.bind] at h
        rw [← eq_of_ended h]
        exact isCanonical_gatherFields (haveCanonical_of_fields entries fs hi)
    · cases h
  | .cut, v, h => by
    rw [value] at h
    cases h

/-- Documents that read as data values read as canonical ones. -/
theorem areCanonical_of_values :
    ∀ (ds : List Document) (vs : List Value), values ds = .ok vs → areCanonical vs = true
  | [], vs, h => by
    rw [values] at h
    cases h
    rfl
  | d :: ds, vs, h => by
    rw [values] at h
    split at h
    · cases h
    next v hv =>
      split at h
      · cases h
      next ws hw =>
        cases h
        simp [areCanonical, isCanonical_of_value d v hv, areCanonical_of_values ds ws hw]

/-- Entries that read as data values read as canonical ones. -/
theorem haveCanonical_of_fields :
    ∀ (es : List (Option String × Document)) (fs : List (String × Value)),
      fields es = .ok fs → haveCanonical fs = true
  | [], fs, h => by
    rw [fields] at h
    cases h
    rfl
  | (none, d) :: es, fs, h => by
    rw [fields] at h
    cases h
  | (some k, d) :: es, fs, h => by
    rw [fields] at h
    split at h
    · cases h
    next v hv =>
      split at h
      · cases h
      next gs hg =>
        cases h
        simp [haveCanonical, isCanonical_of_value d v hv, haveCanonical_of_fields es gs hg]

end

/-- A document that reads as a free-form record gives the fields of a canonical record. -/
theorem isCanonical_of_freeForm {d : Document} {fs : List (String × Value)}
    (h : d.freeForm = .ok fs) : (Value.record fs).isCanonical = true := by
  unfold freeForm at h
  split at h
  next c entries =>
    cases hi : fields entries with
    | error e => simp [hi, bind, Except.bind] at h
    | ok gs =>
      simp only [hi, bind, Except.bind] at h
      rw [← eq_of_ended h]
      exact isCanonical_gatherFields (haveCanonical_of_fields entries gs hi)
  next s =>
    split at h
    · cases h
      rfl
    · cases h
  next => cases h

end StepScript.Document
