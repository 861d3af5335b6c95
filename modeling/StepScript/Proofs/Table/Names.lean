import StepScript.Proofs.Table.Location
import StepScript.Text.Blank

/-! The rule of physical names. Length is counted in bytes, but a name has characters of one byte only, so it is the
    number of characters that is bounded. No character of a name is a point, so the one in a location stands between
    its two names, and both can be told from it. -/

namespace StepScript
open Text

/-- A physical name has between one and a greatest number of characters. They are letters, digits and underscores of
    ASCII, and the first one is no digit. -/
structure Name.FollowsRule (limit : Nat) (s : String) : Prop where
  nonempty : 1 ≤ s.length
  fits : s.length ≤ limit
  characters : ∀ c ∈ s.toList, c.isAlphanum = true ∨ c = '_'
  start : ∀ c ∈ s.toList.head?, c.isDigit = false

/-! ### Characters -/

section Characters
variable {c : Char}

theorem Text.isDigit_eq (c : Char) : isDigit c = c.isDigit := rfl

theorem Text.isWordChar_iff : isWordChar c = true ↔ c.isAlphanum = true ∨ c = '_' := by
  unfold isWordChar Char.isAlphanum Char.isAlpha Char.isUpper Char.isLower Char.isDigit
  simp only [Bool.or_eq_true, Bool.and_eq_true, decide_eq_true_eq, beq_iff_eq]
  rfl

theorem Text.toNat_lt_of_isWordChar (h : isWordChar c = true) : c.toNat < 128 := by
  have hascii : c.val ≤ 127 := Char.utf8Size_eq_one_iff.mp (Name.utf8Size_of_isWordChar h)
  exact Nat.lt_succ_of_le (UInt32.le_iff_toNat_le.mp hascii)

theorem Text.isBlank_of_isWordChar (h : isWordChar c = true) : isBlank c = false := by
  have hplain : ∀ n < 128, isWordChar (Char.ofNat n) = true → isBlank (Char.ofNat n) = false := by decide
  have hc := hplain c.toNat (toNat_lt_of_isWordChar h)
  rw [Char.ofNat_toNat] at hc
  exact hc h

end Characters

/-! ### Names -/

namespace Name
variable {kind : NameKind} {s : String} {c : Char}

theorem utf8ByteSize_le_of_check (h : check kind s = .ok ()) : s.utf8ByteSize ≤ kind.limit := by
  unfold check at h
  split at h
  · cases h
  · split at h
    · cases h
    · rename_i hfits
      exact Nat.le_of_not_lt hfits

theorem check_eq_ok_iff : check kind s = .ok () ↔ FollowsRule kind.limit s := by
  constructor
  · intro h
    have hword := isWordChar_of_check h
    have hshape := hasNameShape_of_check h
    have hsize : s.utf8ByteSize = s.length := by
      have hlist := utf8ByteSize_of_isWordChar hword
      rwa [String.ofList_toList, String.length_toList] at hlist
    have hfits := utf8ByteSize_le_of_check h
    cases hchars : s.toList with
    | nil =>
      rw [hchars] at hshape
      cases hshape
    | cons first rest =>
      rw [hchars, hasNameShape, Bool.and_eq_true, Bool.not_eq_true'] at hshape
      refine ⟨?_, hsize ▸ hfits, fun c hc => isWordChar_iff.mp (hword c hc), fun c hc => ?_⟩
      · rw [← String.length_toList, hchars]
        exact Nat.succ_pos _
      · rw [hchars] at hc
        obtain rfl := Option.some.inj hc
        exact hshape.1
  · rintro ⟨hnonempty, hfits, hchars, hstart⟩
    rw [← String.length_toList] at hnonempty hfits
    rw [← String.ofList_toList (s := s)]
    obtain ⟨first, rest, hs⟩ := List.exists_cons_of_length_pos hnonempty
    rw [hs] at hfits hchars hstart ⊢
    exact check_ofList_cons (hstart first rfl) (fun c hc => isWordChar_iff.mpr (hchars c hc)) hfits

/-- A text with any other character is refused. -/
theorem check_error_of_mem (hc : c ∈ s.toList) (h : isWordChar c = false) : ∃ e, check kind s = .error e := by
  cases hcheck : check kind s with
  | ok a =>
    rw [isWordChar_of_check hcheck c hc] at h
    cases h
  | error e => exact ⟨e, rfl⟩

end Name

/-! ### Locations -/

section Locations
variable {s : Settings} {u v : Table} {l l' : Location}

theorem Location.count_point (h : u.location? s = .ok l) : l.text.toList.count '.' = 1 := by
  obtain ⟨⟨hlibref, hmember⟩, rfl⟩ := Table.location?_eq_ok_iff.mp h
  rw [toList_text, List.count_append, List.count_eq_zero_of_not_mem (Name.point_notMem hlibref), List.count_cons_self,
    List.count_eq_zero_of_not_mem (Name.point_notMem hmember)]

theorem Location.text_eq_iff (h : u.location? s = .ok l) (h' : v.location? s = .ok l') :
    l.text = l'.text ↔ u.effectiveLibref s = v.effectiveLibref s ∧ u.name = v.name := by
  obtain ⟨-, hl⟩ := Table.location?_eq_ok_iff.mp h
  obtain ⟨-, hl'⟩ := Table.location?_eq_ok_iff.mp h'
  have hparts : l = l' ↔ u.effectiveLibref s = v.effectiveLibref s ∧ u.name = v.name := by
    rw [hl, hl', Location.mk.injEq]
  exact ⟨fun htext => hparts.mp (eq_of_text_eq h' htext), fun hnames => congrArg text (hparts.mpr hnames)⟩

end Locations

/-- A library reference has up to eight characters, and a member name up to thirty-two, by the rule of names; so a
    text with a line break, a blank, a point or a character outside ASCII is refused. A location has one point, and
    two tables have the same location exactly if their effective libraries and their names are the same. -/
theorem names_follow_rule_and_locate :
    (∀ s, Name.check .libref s = .ok () ↔ Name.FollowsRule 8 s) ∧
    (∀ s, Name.check .member s = .ok () ↔ Name.FollowsRule 32 s) ∧
    (∀ (kind : NameKind) (s : String), ∀ c ∈ s.toList,
      (c = '\n' ∨ c = '\r' ∨ isBlank c = true ∨ c = '.' ∨ 128 ≤ c.toNat) → ∃ e, Name.check kind s = .error e) ∧
    ∀ (s : Settings) (u v : Table) (l l' : Location), u.location? s = .ok l → v.location? s = .ok l' →
      l.text.toList.count '.' = 1 ∧
      (l.text = l'.text ↔ u.effectiveLibref s = v.effectiveLibref s ∧ u.name = v.name) := by
  refine ⟨fun _ => Name.check_eq_ok_iff, fun _ => Name.check_eq_ok_iff, fun kind s c hc hother => ?_,
    fun s u v l l' h h' => ⟨Location.count_point h, Location.text_eq_iff h h'⟩⟩
  refine Name.check_error_of_mem hc (Bool.eq_false_iff.mpr fun hword => ?_)
  rcases hother with rfl | rfl | hblank | rfl | hwide
  · exact absurd hword (by decide)
  · exact absurd hword (by decide)
  · rw [isBlank_of_isWordChar hword] at hblank
    cases hblank
  · exact absurd hword (by decide)
  · exact absurd (toNat_lt_of_isWordChar hword) (Nat.not_lt.mpr hwide)

/-- A table in the default library and one that is said to be there have one location, another name a second one. -/
theorem defaultLibrary_locations :
    (∃ e, Name.check .member "ÄGE" = .error e) ∧
    (∃ l l', (Table.ofName "CLASS").location? {} = .ok l ∧
      Table.location? {} { id := "copy", name := "CLASS", libref := some "WORK" } = .ok l' ∧ l.text = l'.text) ∧
    ∃ l l', (Table.ofName "CLASS").location? {} = .ok l ∧ (Table.ofName "CLASS_").location? {} = .ok l' ∧
      l.text.toList.count '.' = 1 ∧ l.text ≠ l'.text := by
  obtain ⟨-, -, hrefused, hlocations⟩ := names_follow_rule_and_locate
  refine ⟨hrefused .member "ÄGE" 'Ä' (by decide) (by decide), ⟨_, _, rfl, rfl, ?_⟩, ⟨_, _, rfl, rfl, ?_⟩⟩
  · exact (hlocations {} (.ofName "CLASS") { id := "copy", name := "CLASS", libref := some "WORK" } _ _ rfl rfl).2.mpr
      ⟨rfl, rfl⟩
  · obtain ⟨hpoint, htexts⟩ := hlocations {} (.ofName "CLASS") (.ofName "CLASS_") _ _ rfl rfl
    exact ⟨hpoint, mt htexts.mp (by decide)⟩

end StepScript
