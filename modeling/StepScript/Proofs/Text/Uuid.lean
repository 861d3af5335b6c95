import Mathlib.Tactic.Ring
import StepScript.Uuid

/-! Texts of identifiers. The digits of an identifier are the numeral of its bits, and hyphens stand between
    groups of them at fixed places. So the text of an identifier is read as this identifier again, and two
    identifiers have two texts. -/

namespace StepScript.Uuid
open Text

/-! ### Digits -/

theorem length_hexDigits (count n : Nat) : (hexDigits count n).length = count := by
  induction count with
  | zero => rfl
  | succ count ih => exact congrArg (· + 1) ih

theorem exists_of_mem_hexDigits {count n : Nat} {c : Char} (h : c ∈ hexDigits count n) :
    ∃ d < 16, c = hexDigit d := by
  induction count with
  | zero => cases h
  | succ count ih =>
    rcases List.mem_cons.mp h with rfl | h
    · exact ⟨_, Nat.mod_lt _ (by decide), rfl⟩
    · exact ih h

theorem digitValue?_hexDigit : ∀ d < 16, digitValue? 16 (hexDigit d) = some d := by decide

/-- The digits of a number, read after digits that stand for another one. -/
theorem foldl_hexDigits (count n ahead : Nat) :
    (hexDigits count n).foldl (fun acc c => acc.bind fun n => (digitValue? 16 c).map (n * 16 + ·)) (some ahead) =
      some (ahead * 16 ^ count + n % 16 ^ count) := by
  induction count generalizing ahead with
  | zero =>
    have hnil : hexDigits 0 n = [] := rfl
    rw [hnil, List.foldl_nil, Nat.pow_zero, Nat.mul_one, Nat.mod_one, Nat.add_zero]
  | succ count ih =>
    have hcons : hexDigits (count + 1) n = hexDigit (n / 16 ^ count % 16) :: hexDigits count n := rfl
    have hdigit : n / 16 ^ count % 16 < 16 := Nat.mod_lt _ (by decide)
    -- The first digit is what the number has above the places of the others.
    have hsplit : n % 16 ^ (count + 1) = 16 ^ count * (n / 16 ^ count % 16) + n % 16 ^ count := by
      rw [Nat.pow_succ, Nat.mod_mul, Nat.add_comm]
    rw [hcons, List.foldl_cons, Option.bind_some, digitValue?_hexDigit _ hdigit, Option.map_some, ih, hsplit,
      Nat.pow_succ]
    congr 1
    ring

theorem numeral?_hexDigits (count n : Nat) : numeral? 16 (hexDigits count n) = some (n % 16 ^ count) := by
  rw [numeral?, foldl_hexDigits, Nat.zero_mul, Nat.zero_add]

theorem length_digits (id : Uuid) : id.digits.length = 32 :=
  length_hexDigits 32 _

theorem ofDigits?_digits (id : Uuid) : ofDigits? id.digits = some id := by
  have hbits : id.bits.toNat % 16 ^ 32 = id.bits.toNat := Nat.mod_eq_of_lt id.bits.isLt
  rw [ofDigits?, if_pos id.length_digits, digits, numeral?_hexDigits, hbits, Option.map_some, BitVec.ofNat_toNat,
    BitVec.setWidth_eq]

/-! ### Hyphens -/

theorem drop_eq_append (ds : List Char) (i n : Nat) : ds.drop i = (ds.drop i).take n ++ ds.drop (i + n) := by
  rw [← List.drop_drop, List.take_append_drop]

/-- Thirty-two digits fall into the groups between which hyphens stand. -/
theorem exists_groups {ds : List Char} (h : ds.length = 32) : ∃ a b c d e : List Char,
    ds = a ++ (b ++ (c ++ (d ++ e))) ∧ a.length = 8 ∧ b.length = 4 ∧ c.length = 4 ∧ d.length = 4 := by
  refine ⟨ds.take 8, (ds.drop 8).take 4, (ds.drop 12).take 4, (ds.drop 16).take 4, ds.drop 20, ?_, ?_, ?_, ?_, ?_⟩
  · rw [← drop_eq_append ds 16 4, ← drop_eq_append ds 12 4, ← drop_eq_append ds 8 4, List.take_append_drop]
  all_goals simp [h]

theorem hyphenate_groups {a b c d : List Char} (e : List Char) (ha : a.length = 8) (hb : b.length = 4)
    (hc : c.length = 4) (hd : d.length = 4) : hyphenate (a ++ (b ++ (c ++ (d ++ e)))) =
      a ++ '-' :: b ++ '-' :: c ++ '-' :: d ++ '-' :: e := by
  unfold hyphenate
  simp (disch := omega) [List.drop_append, List.drop_eq_nil_of_le, ha, hb, hc]

theorem length_hyphenate {ds : List Char} (h : ds.length = 32) : (hyphenate ds).length = 36 := by
  obtain ⟨a, b, c, d, e, rfl, ha, hb, hc, hd⟩ := exists_groups h
  rw [hyphenate_groups e ha hb hc hd]
  simp only [List.length_append, List.length_cons] at h ⊢
  omega

/-- Hyphens are taken out again where they were put in. -/
theorem ofHyphenated?_hyphenate {ds : List Char} (h : ds.length = 32) :
    ofHyphenated? (hyphenate ds) = ofDigits? ds := by
  have hgroups : (hyphenate ds).take 8 ++ ((hyphenate ds).drop 9).take 4 ++ ((hyphenate ds).drop 14).take 4 ++
      ((hyphenate ds).drop 19).take 4 ++ (hyphenate ds).drop 24 = ds := by
    obtain ⟨a, b, c, d, e, rfl, ha, hb, hc, hd⟩ := exists_groups h
    rw [hyphenate_groups e ha hb hc hd]
    simp (disch := omega) [List.drop_append, List.drop_eq_nil_of_le, ha, hb, hc, hd]
  rw [ofHyphenated?, hgroups, if_pos ⟨length_hyphenate h, rfl⟩]

/-- The text of an identifier is read as this identifier. -/
theorem parse?_text (id : Uuid) : parse? id.text = some id := by
  have hlength := length_hyphenate id.length_digits
  rw [parse?, text, String.toList_ofList, hlength, if_neg (by decide), if_pos rfl,
    ofHyphenated?_hyphenate id.length_digits, ofDigits?_digits]

theorem text_injective : Function.Injective text := fun id id' h => by
  have hparse := id.parse?_text
  rw [h, parse?_text] at hparse
  exact (Option.some.inj hparse).symm

end StepScript.Uuid
