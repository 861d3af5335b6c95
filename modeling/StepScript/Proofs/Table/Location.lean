import Mathlib.Data.List.Nodup
import StepScript.Catalog
import StepScript.Table.Clause

/-! Where tables are stored. A table has a location if both of its physical names are valid, and the
    location then consists of these names. As there is no point in a valid name, the text of a location
    determines the location. -/

namespace StepScript
open Text

namespace Name
variable {kind : NameKind} {name : String}

theorem hasNameShape_of_check (h : check kind name = .ok ()) : hasNameShape name.toList = true := by
  unfold check at h
  split at h
  · cases h
  · split at h
    · cases h
    · split at h
      · assumption
      · cases h

theorem isWordChar_of_check (h : check kind name = .ok ()) : ∀ ch ∈ name.toList, isWordChar ch = true := by
  have hshape := hasNameShape_of_check h
  cases hchars : name.toList with
  | nil => simp
  | cons first rest =>
    rw [hchars, hasNameShape, Bool.and_eq_true] at hshape
    exact List.all_eq_true.mp hshape.2

theorem point_notMem (h : check kind name = .ok ()) : '.' ∉ name.toList := fun hmem =>
  absurd (isWordChar_of_check h '.' hmem) (by decide)

theorem utf8Size_of_isWordChar {c : Char} (h : isWordChar c = true) : c.utf8Size = 1 := by
  have hascii : c.val ≤ 127 := by
    simp only [isWordChar, Bool.or_eq_true, Bool.and_eq_true, decide_eq_true_eq, beq_iff_eq] at h
    rcases h with ((⟨-, h⟩ | ⟨-, h⟩) | ⟨-, h⟩) | rfl
    · exact UInt32.le_trans h (by decide)
    · exact UInt32.le_trans h (by decide)
    · exact UInt32.le_trans h (by decide)
    · decide
  exact Char.utf8Size_eq_one_iff.mpr hascii

/-- A text of word characters has as many bytes as characters. -/
theorem utf8ByteSize_of_isWordChar {cs : List Char} (h : ∀ c ∈ cs, isWordChar c = true) :
    (String.ofList cs).utf8ByteSize = cs.length := by
  induction cs with
  | nil => rfl
  | cons c cs ih =>
    obtain ⟨hc, hcs⟩ := List.forall_mem_cons.mp h
    rw [String.ofList_cons, String.utf8ByteSize_append, String.utf8ByteSize_singleton, utf8Size_of_isWordChar hc,
      ih hcs, List.length_cons, Nat.add_comm]

/-- A text that starts with a letter or an underscore and goes on with word characters is a name, unless it is
    too long. -/
theorem check_ofList_cons {c : Char} {cs : List Char} (hc : isDigit c = false)
    (hword : ∀ d ∈ c :: cs, isWordChar d = true) (hlength : cs.length < kind.limit) :
    check kind (String.ofList (c :: cs)) = .ok () := by
  have hshape : hasNameShape (c :: cs) = true := by
    rw [hasNameShape, hc, List.all_eq_true.mpr hword]
    rfl
  have hsize := utf8ByteSize_of_isWordChar hword
  have hfits : ¬kind.limit < (c :: cs).length := Nat.not_lt.mpr hlength
  have hnonempty : (String.ofList (c :: cs)).isEmpty = false := by
    rw [String.isEmpty_eq_utf8ByteSize_beq_zero, hsize]
    rfl
  rw [check, hnonempty, hsize, if_neg (by decide), if_neg hfits, String.toList_ofList, if_pos hshape]

end Name

namespace Table
variable {s : Settings} {u : Table} {l : Location}

/-- Both physical names of a table are valid. -/
def HasValidNames (s : Settings) (u : Table) : Prop :=
  Name.check .libref (u.effectiveLibref s) = .ok () ∧ Name.check .member u.name = .ok ()

theorem HasValidNames.of_names_eq {v : Table} (h : v.HasValidNames s)
    (hlibref : u.effectiveLibref s = v.effectiveLibref s) (hname : u.name = v.name) : u.HasValidNames s := by
  unfold HasValidNames
  rw [hlibref, hname]
  exact h

theorem checkedName_eq_ok_iff {kind : NameKind} {name text : String} :
    u.checkedName kind name = .ok text ↔ Name.check kind name = .ok () ∧ text = name := by
  unfold checkedName
  cases Name.check kind name with
  | ok a => simp [eq_comm]
  | error e => simp

theorem location?_eq_bind (s : Settings) (u : Table) :
    u.location? s = (u.libref? s >>= fun libref => Location.mk libref <$> u.member?) := by
  unfold location?
  cases u.libref? s with
  | error e => rfl
  | ok libref => cases u.member? <;> rfl

theorem names_of_location? (h : u.location? s = .ok l) :
    u.libref? s = .ok l.libref ∧ u.member? = .ok l.member := by
  unfold location? at h
  split at h
  · cases h
  · rename_i libref hlibref
    split at h
    · cases h
    · rename_i member hmember
      cases h
      exact ⟨hlibref, hmember⟩

theorem names_of_location?_error {e : Cause} (h : u.location? s = .error e) :
    u.libref? s = .error e ∨ ∃ libref, u.libref? s = .ok libref ∧ u.member? = .error e := by
  unfold location? at h
  split at h
  · rename_i hlibref
    cases h
    exact .inl hlibref
  · rename_i libref hlibref
    split at h
    · rename_i hmember
      cases h
      exact .inr ⟨libref, hlibref, hmember⟩
    · cases h

theorem location?_eq_ok_iff :
    u.location? s = .ok l ↔ u.HasValidNames s ∧ l = ⟨u.effectiveLibref s, u.name⟩ := by
  constructor
  · intro h
    obtain ⟨hlibref, hmember⟩ := names_of_location? h
    obtain ⟨hvalid, hlibref⟩ := checkedName_eq_ok_iff.mp hlibref
    obtain ⟨hvalid', hmember⟩ := checkedName_eq_ok_iff.mp hmember
    exact ⟨⟨hvalid, hvalid'⟩, by rw [← hlibref, ← hmember]⟩
  · rintro ⟨⟨hlibref, hmember⟩, rfl⟩
    have hlibref' : u.libref? s = .ok (u.effectiveLibref s) := checkedName_eq_ok_iff.mpr ⟨hlibref, rfl⟩
    have hmember' : u.member? = .ok u.name := checkedName_eq_ok_iff.mpr ⟨hmember, rfl⟩
    rw [location?_eq_bind, hlibref', hmember']
    rfl

end Table

theorem Location.toList_text (l : Location) : l.text.toList = l.libref.toList ++ '.' :: l.member.toList := by
  simp [Location.text]

/-- The text of a location of a table determines the location. -/
theorem Location.eq_of_text_eq {s : Settings} {u : Table} {l l' : Location} (hl : u.location? s = .ok l)
    (h : l'.text = l.text) : l' = l := by
  obtain ⟨⟨hlibref, hmember⟩, rfl⟩ := Table.location?_eq_ok_iff.mp hl
  have hlist := congrArg String.toList h.symm
  rw [toList_text, toList_text] at hlist
  have hlibref' := Name.point_notMem hlibref
  have hmember' := Name.point_notMem hmember
  obtain ⟨h₁, -, h₂⟩ := (List.append_cons_inj_of_notMem hlibref' hmember').mp hlist
  cases l'
  simp_all [String.toList_inj]

/-! ### Tables of a catalog -/

namespace Catalog
variable {c : Catalog} {u v : Table}

theorem eq_of_id_eq (hu : u ∈ c.tables) (hv : v ∈ c.tables) (h : u.id = v.id) : u = v :=
  List.inj_on_of_nodup_map c.ids_nodup hu hv h

theorem get?_eq_some_iff {id : String} : c.get? id = some u ↔ u ∈ c.tables ∧ u.id = id := by
  unfold get?
  constructor
  · intro h
    exact ⟨List.mem_of_find?_eq_some h, by simpa using List.find?_some h⟩
  · rintro ⟨hu, rfl⟩
    have hfound : (c.tables.find? (·.id == u.id)).isSome := List.find?_isSome.mpr ⟨u, hu, by simp⟩
    obtain ⟨v, hv⟩ := Option.isSome_iff_exists.mp hfound
    have hid : v.id = u.id := by simpa using List.find?_some hv
    rw [hv, eq_of_id_eq (List.mem_of_find?_eq_some hv) hu hid]

theorem mem_of_mem_insertInto {us : List Table} (h : v ∈ insertInto u us) : v = u ∨ v ∈ us := by
  induction us with
  | nil => exact .inl (List.mem_singleton.mp h)
  | cons w us ih =>
    unfold insertInto at h
    split at h <;> rcases List.mem_cons.mp h with rfl | h
    · exact .inl rfl
    · exact .inr (List.mem_cons_of_mem _ h)
    · exact .inr List.mem_cons_self
    · exact (ih h).imp_right (List.mem_cons_of_mem _)

theorem mem_of_mem_foldl_insert {us : List Table} (h : v ∈ (us.foldl insert c).tables) : v ∈ c.tables ∨ v ∈ us := by
  induction us generalizing c with
  | nil => exact .inl h
  | cons u us ih =>
    rcases ih h with h | h
    · rcases mem_of_mem_insertInto h with rfl | h
      · exact .inr List.mem_cons_self
      · exact .inl h
    · exact .inr (List.mem_cons_of_mem _ h)

/-- A catalog of tables has no other tables than those. -/
theorem mem_of_mem_ofTables {us : List Table} (h : v ∈ (ofTables us).tables) : v ∈ us := by
  rcases mem_of_mem_foldl_insert h with h | h
  · cases h
  · exact h

end Catalog

end StepScript
