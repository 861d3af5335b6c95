import Mathlib.Data.List.DropRight
import StepScript.Text.Blank

/-! Trimming. A trimmed text neither starts nor ends with a blank, so to trim it again changes nothing, and
    a setting counts the same whether it is given as it is, or trimmed, or left out where it is blank. -/

namespace StepScript.Text

variable {cs : List Char} {c : Char} {s t : String}

theorem dropBlanksRight_eq (cs : List Char) : dropBlanksRight cs = cs.rdropWhile isBlank := rfl

/-- What stays is a part of the text, without the blanks ahead of it and with those after it left out. -/
theorem exists_trimChars_append (cs : List Char) : ∃ rest, trimChars cs ++ rest = cs.dropWhile isBlank := by
  rw [trimChars, dropBlanksRight_eq]
  exact List.rdropWhile_prefix _ _

theorem mem_of_mem_trimChars (h : c ∈ trimChars cs) : c ∈ cs := by
  obtain ⟨rest, hrest⟩ := exists_trimChars_append cs
  exact (List.dropWhile_sublist isBlank).subset (hrest ▸ List.mem_append_left rest h)

theorem dropWhile_trimChars (cs : List Char) : (trimChars cs).dropWhile isBlank = trimChars cs := by
  obtain ⟨rest, hrest⟩ := exists_trimChars_append cs
  have hhead := List.head?_dropWhile_not isBlank cs
  cases htrim : trimChars cs with
  | nil => rfl
  | cons d ds =>
    -- The first character is the first one of the text that is not blank.
    rw [htrim] at hrest
    rw [← hrest] at hhead
    have hblank : ¬isBlank d = true := by simpa using hhead
    exact List.dropWhile_cons_of_neg hblank

theorem isBlank_eq_false_of_trimChars_eq_cons {ds : List Char} (h : trimChars cs = c :: ds) : isBlank c = false := by
  have hdrop := dropWhile_trimChars cs
  rw [h] at hdrop
  cases hc : isBlank c with
  | false => rfl
  | true =>
    rw [List.dropWhile_cons_of_pos hc] at hdrop
    have hlength := (List.dropWhile_sublist (l := ds) isBlank).length_le
    rw [hdrop, List.length_cons] at hlength
    exact absurd hlength (Nat.not_succ_le_self _)

theorem trimChars_trimChars (cs : List Char) : trimChars (trimChars cs) = trimChars cs := by
  calc trimChars (trimChars cs) = dropBlanksRight (trimChars cs) := by rw [trimChars, dropWhile_trimChars]
    _ = trimChars cs := by rw [trimChars, dropBlanksRight_eq, dropBlanksRight_eq, List.rdropWhile_idempotent]

theorem trim_trim (s : String) : trim (trim s) = trim s := by
  rw [trim, toList_trim, trimChars_trimChars, ← trim]

/-- A text is trimmed exactly if it neither starts nor ends with a blank. -/
theorem trimChars_eq_self_iff : trimChars cs = cs ↔
    (∀ c ∈ cs.head?, isBlank c = false) ∧ ∀ c ∈ cs.getLast?, isBlank c = false := by
  have hboth : trimChars cs = cs ↔ cs.dropWhile isBlank = cs ∧ cs.rdropWhile isBlank = cs := by
    constructor
    · intro h
      have hleft : cs.dropWhile isBlank = cs := by
        rw [← h]
        exact dropWhile_trimChars cs
      rw [trimChars, hleft, dropBlanksRight_eq] at h
      exact ⟨hleft, h⟩
    · rintro ⟨hleft, hright⟩
      rw [trimChars, hleft, dropBlanksRight_eq, hright]
  rw [hboth, List.dropWhile_eq_self_iff, List.rdropWhile_eq_self_iff]
  cases cs with
  | nil => simp
  | cons c cs => simp [List.getLast?_eq_some_getLast]

theorem trim_eq_self_iff : trim s = s ↔ trimChars s.toList = s.toList := by
  rw [← String.toList_inj, toList_trim]

theorem nonBlank_eq (s : String) : nonBlank s = if trim s = "" then none else some (trim s) := by
  unfold nonBlank
  simp only [String.isEmpty_iff]

theorem nonBlank_eq_some_iff : nonBlank s = some t ↔ trim s = t ∧ t ≠ "" := by
  rw [nonBlank_eq]
  split
  next hempty =>
    simp only [reduceCtorEq, false_iff, not_and, not_not]
    exact fun ht => ht.symm.trans hempty
  next hnonempty =>
    rw [Option.some.injEq]
    exact ⟨fun ht => ⟨ht, ht ▸ hnonempty⟩, fun h => h.1⟩

theorem nonBlank_of_nonBlank (h : nonBlank s = some t) : nonBlank t = some t := by
  obtain ⟨rfl, ht⟩ := nonBlank_eq_some_iff.mp h
  exact nonBlank_eq_some_iff.mpr ⟨trim_trim s, ht⟩

@[simp] theorem nonBlank?_some (s : String) : nonBlank? (some s) = nonBlank s := by
  rw [nonBlank?, Option.bind_some]

theorem nonBlank?_nonBlank (s : String) : nonBlank? (nonBlank s) = nonBlank s := by
  cases h : nonBlank s with
  | none => rfl
  | some t => rw [nonBlank?_some, nonBlank_of_nonBlank h]

theorem nonBlank?_nonBlank? (o : Option String) : nonBlank? (nonBlank? o) = nonBlank? o := by
  cases o with
  | none => rfl
  | some s => rw [nonBlank?_some, nonBlank?_nonBlank]

end StepScript.Text
