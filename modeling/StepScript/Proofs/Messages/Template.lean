import Mathlib.Data.List.Forall2
import Mathlib.Data.List.Induction
import Mathlib.Data.Nat.Digits.Defs
import StepScript.Messages
import StepScript.Proofs.Results

/-! Templates. A template is read once, from its start to its end: literal texts are copied, a group in braces
    is replaced if its inside is the position of an argument and copied if not, and what follows the last closing
    brace is copied. The text of an argument is written, not read, so whatever it looks like it stays as it is. -/

namespace StepScript.Messages
open Text

/-! ### Numbers in decimal digits -/

section Digits
variable {c : Char} {cs : List Char} {digit n : Nat}

theorem digitValue?_ten_iff : digitValue? 10 c = some digit ↔ digit < 10 ∧ c = Nat.digitChar digit := by
  constructor
  · intro h
    unfold digitValue? at h
    simp only [Option.filter_eq_some_iff, decide_eq_true_eq] at h
    obtain ⟨hvalue, hlt⟩ := h
    refine ⟨hlt, ?_⟩
    split at hvalue
    · rename_i hc
      obtain ⟨hlow, hhigh⟩ : 48 ≤ c.toNat ∧ c.toNat ≤ 57 := hc
      have hdigit : c.toNat - 48 = digit := Option.some.inj hvalue
      have hcode : c.toNat = 48 + digit := by omega
      have hchar : ∀ d < 10, Char.ofNat (48 + d) = Nat.digitChar d := by decide
      rw [← hchar digit hlt, ← hcode, Char.ofNat_toNat]
    · split at hvalue
      · cases hvalue
        omega
      · split at hvalue
        · cases hvalue
          omega
        · cases hvalue
  · rintro ⟨hlt, rfl⟩
    have hvalues : ∀ d < 10, digitValue? 10 (Nat.digitChar d) = some d := by decide
    exact hvalues digit hlt

theorem numeral?_append_singleton (cs : List Char) (c : Char) :
    numeral? 10 (cs ++ [c]) = (numeral? 10 cs).bind fun n => (digitValue? 10 c).map (n * 10 + ·) := by
  rw [numeral?, List.foldl_append, ← numeral?]
  rfl

/-- A text is read as a number exactly if it consists of decimal digits, of which the number has the value. -/
theorem numeral?_ten_iff : numeral? 10 cs = some n ↔
    ∃ digits : List Nat, (∀ d ∈ digits, d < 10) ∧ cs = digits.map Nat.digitChar ∧
      Nat.ofDigits 10 digits.reverse = n := by
  -- The last digit is the one that is read last, so the induction is from the end of the text.
  induction cs using List.reverseRecOn generalizing n with
  | nil =>
    constructor
    · intro h
      exact ⟨[], by simp, rfl, Option.some.inj h⟩
    · rintro ⟨digits, -, hdigits, rfl⟩
      rw [List.map_eq_nil_iff.mp hdigits.symm]
      rfl
  | append_singleton cs c ih =>
    rw [numeral?_append_singleton, Option.bind_eq_some_iff]
    constructor
    · rintro ⟨m, hm, hc⟩
      obtain ⟨digits, hlt, rfl, rfl⟩ := ih.mp hm
      obtain ⟨d, hd, rfl⟩ := Option.map_eq_some_iff.mp hc
      obtain ⟨hten, rfl⟩ := digitValue?_ten_iff.mp hd
      refine ⟨digits ++ [d], ?_, by simp, ?_⟩
      · rw [List.forall_mem_append, List.forall_mem_singleton]
        exact ⟨hlt, hten⟩
      · rw [List.reverse_append, List.reverse_singleton, List.singleton_append, Nat.ofDigits_cons]
        omega
    · rintro ⟨digits, hlt, hcs, rfl⟩
      obtain ⟨ds, last, rfl, hds, hlast⟩ := List.map_eq_append_iff.mp hcs.symm
      obtain ⟨d, rfl, rfl⟩ := List.map_eq_singleton_iff.mp hlast
      rw [List.forall_mem_append, List.forall_mem_singleton] at hlt
      refine ⟨_, ih.mpr ⟨ds, hlt.1, hds.symm, rfl⟩, ?_⟩
      rw [digitValue?_ten_iff.mpr ⟨hlt.2, rfl⟩, Option.map_some, List.reverse_append, List.reverse_singleton,
        List.singleton_append, Nat.ofDigits_cons, Nat.add_comm, Nat.mul_comm]

end Digits

/-! ### Parts of templates -/

/-- A part of a template ahead of its tail: a literal text, or a group in braces. -/
inductive Part where
  | literal (text : String)
  | group (inside : String)
  deriving DecidableEq

/-- A text is decimal digits, with a plus sign ahead of them or without one, and their value is a position. -/
def Names (inside : String) (position : Nat) : Prop :=
  ∃ digits : List Nat, digits ≠ [] ∧ (∀ d ∈ digits, d < 10) ∧
    (inside.toList = digits.map Nat.digitChar ∨ inside.toList = '+' :: digits.map Nat.digitChar) ∧
    Nat.ofDigits 10 digits.reverse = position

namespace Part

def text : Part → String
  | .literal text => text
  | .group inside => "\x7b" ++ inside ++ "\x7d"

/-- A literal has no opening brace, and a group no brace within. -/
def WellFormed : Part → Prop
  | .literal text => '\x7b' ∉ text.toList
  | .group inside => '\x7b' ∉ inside.toList ∧ '\x7d' ∉ inside.toList

instance : DecidablePred WellFormed
  | .literal text => inferInstanceAs (Decidable ('\x7b' ∉ text.toList))
  | .group inside => inferInstanceAs (Decidable ('\x7b' ∉ inside.toList ∧ '\x7d' ∉ inside.toList))

/-- What a part becomes: a group that names the position of an argument becomes the argument, and every other
    part stays as it is. -/
inductive Becomes (args : List String) : Part → String → Prop
  | literal (text : String) : Becomes args (.literal text) text
  | argument {inside arg : String} {position : Nat} : Names inside position → args[position]? = some arg →
      Becomes args (.group inside) arg
  | kept {inside : String} : (∀ position < args.length, ¬Names inside position) →
      Becomes args (.group inside) (text (.group inside))

end Part

/-! ### Positions -/

section Positions
variable {args : List String} {cs rest : List Char} {inside : String} {position : Nat}

theorem position?_eq_some_iff : position? inside.toList = some position ↔ Names inside position := by
  have hplus : ∀ digits : List Nat, (∀ d ∈ digits, d < 10) → (digits.map Nat.digitChar).head? ≠ some '+' := by
    intro digits hlt hhead
    cases digits with
    | nil => cases hhead
    | cons d ds =>
      have hdigit : ∀ d < 10, Nat.digitChar d ≠ '+' := by decide
      exact hdigit d (hlt d List.mem_cons_self) (Option.some.inj hhead)
  -- The digits are what is left without a plus sign.
  obtain ⟨cs, hcs⟩ : ∃ cs, (if inside.toList.head? = some '+' then inside.toList.drop 1 else inside.toList) = cs :=
    ⟨_, rfl⟩
  have hposition : position? inside.toList = if cs.isEmpty then none else numeral? 10 cs := by
    rw [position?, hcs]
  rw [hposition]
  constructor
  · intro h
    split at h
    · cases h
    · rename_i hne
      obtain ⟨digits, hlt, rfl, hvalue⟩ := numeral?_ten_iff.mp h
      rw [List.isEmpty_map, List.isEmpty_iff] at hne
      refine ⟨digits, hne, hlt, ?_, hvalue⟩
      split at hcs
      · rename_i hsign
        obtain ⟨ds, hds⟩ := List.head?_eq_some_iff.mp hsign
        rw [hds, List.drop_one, List.tail_cons] at hcs
        exact .inr (hcs ▸ hds)
      · exact .inl hcs
  · rintro ⟨digits, hne, hlt, hinside, hvalue⟩
    have hdigits : cs = digits.map Nat.digitChar := by
      rcases hinside with hplain | hsigned
      · rw [← hcs, hplain, if_neg (hplus digits hlt)]
      · rw [← hcs, hsigned, List.head?_cons, if_pos rfl, List.drop_one, List.tail_cons]
    rw [hdigits, if_neg (by simpa using hne)]
    exact numeral?_ten_iff.mpr ⟨digits, hlt, rfl, hvalue⟩

instance (inside : String) (position : Nat) : Decidable (Names inside position) :=
  decidable_of_iff _ position?_eq_some_iff

theorem Names.unique {position' : Nat} (h : Names inside position) (h' : Names inside position') :
    position = position' := by
  rw [← position?_eq_some_iff] at h h'
  exact Option.some.inj (h.symm.trans h')

/-- Up to the closing brace of a group stands its inside, which is what is looked at. -/
theorem argument?_of_closed (hinside : '\x7d' ∉ cs) (rest : List Char) :
    argument? args (cs ++ '\x7d' :: rest) =
      ((position? cs).bind (args[·]?)).map (·, cs.length + 1) := by
  have hlength : cs.length < (cs ++ '\x7d' :: rest).length := by simp
  unfold argument?
  rw [takeWhile_ne_append hinside]
  simp only [hlength, if_true]
  cases position? cs with
  | none => rfl
  | some position =>
    simp only [Option.bind_eq_bind, Option.bind_some]
    cases args[position]? <;> rfl

theorem argument?_of_open (h : '\x7d' ∉ cs) : argument? args cs = none := by
  unfold argument?
  rw [takeWhile_ne_eq_self h]
  simp only [lt_irrefl, if_false]
  cases position? cs with
  | none => rfl
  | some position =>
    simp only [Option.bind_eq_bind, Option.bind_some]
    cases args[position]? <;> rfl

end Positions

/-! ### Filling in arguments -/

section Filling
variable {args : List String} {cs rest : List Char} {p : Part} {text : String}

theorem fill_append_of_not_mem (h : '\x7b' ∉ cs) (rest : List Char) :
    fill args 0 (cs ++ rest) = cs ++ fill args 0 rest := by
  induction cs with
  | nil => rfl
  | cons c cs ih =>
    obtain ⟨hc, hcs⟩ := not_or.mp (mt List.mem_cons.mpr h)
    rw [List.cons_append, fill, if_neg (Ne.symm hc), ih hcs, List.cons_append]

theorem fill_skip (cs rest : List Char) : fill args cs.length (cs ++ rest) = fill args 0 rest := by
  induction cs with
  | nil => rfl
  | cons c cs ih => rw [List.length_cons, List.cons_append, fill, ih]

/-- Without a closing brace nothing is the place of an argument. -/
theorem fill_of_open (h : '\x7d' ∉ cs) : fill args 0 cs = cs := by
  induction cs with
  | nil => rfl
  | cons c cs ih =>
    have hcs : '\x7d' ∉ cs := fun hmem => h (List.mem_cons_of_mem _ hmem)
    rw [fill, argument?_of_open hcs, ih hcs, ite_self]

/-- A group is read up to its closing brace, and the reading goes on after it. -/
theorem fill_group {inside : String} (hopen : '\x7b' ∉ inside.toList) (hclose : '\x7d' ∉ inside.toList)
    (h : Part.Becomes args (.group inside) text) (rest : List Char) :
    fill args 0 ((Part.text (.group inside)).toList ++ rest) = text.toList ++ fill args 0 rest := by
  have hgroup : (Part.text (.group inside)).toList ++ rest = '\x7b' :: (inside.toList ++ '\x7d' :: rest) := by
    simp [Part.text]
  have hargument : argument? args (inside.toList ++ '\x7d' :: rest) = _ := argument?_of_closed hclose rest
  rw [hgroup, fill, if_pos rfl, hargument]
  cases h with
  | argument hnames harg =>
    have hsplit : inside.toList ++ '\x7d' :: rest = (inside.toList ++ ['\x7d']) ++ rest := by simp
    have hlength : inside.toList.length + 1 = (inside.toList ++ ['\x7d']).length := by simp
    rw [position?_eq_some_iff.mpr hnames, Option.bind_some, harg, Option.map_some]
    dsimp only
    rw [hsplit, hlength, fill_skip]
  | kept hnone =>
    have hno : (position? inside.toList).bind (args[·]?) = none := by
      rw [Option.bind_eq_none_iff]
      intro position hposition
      rw [List.getElem?_eq_none_iff]
      exact Nat.le_of_not_lt fun hlt => hnone position hlt (position?_eq_some_iff.mp hposition)
    have hkept : '\x7b' ∉ inside.toList ++ ['\x7d'] := by simpa using hopen
    have hrest : inside.toList ++ '\x7d' :: rest = (inside.toList ++ ['\x7d']) ++ rest := by simp
    rw [hno, Option.map_none]
    dsimp only
    rw [hrest, fill_append_of_not_mem hkept]
    simp [Part.text]

theorem fill_part (hp : p.WellFormed) (h : p.Becomes args text) (rest : List Char) :
    fill args 0 (p.text.toList ++ rest) = text.toList ++ fill args 0 rest := by
  cases p with
  | literal literal =>
    cases h
    exact fill_append_of_not_mem hp rest
  | group inside => exact fill_group hp.1 hp.2 h rest

/-- Each part is replaced by what it becomes, one after another. -/
theorem fill_parts {parts : List Part} {texts : List String} (hparts : ∀ p ∈ parts, p.WellFormed)
    (h : List.Forall₂ (Part.Becomes args) parts texts) (rest : List Char) :
    fill args 0 ((String.join (parts.map Part.text)).toList ++ rest) =
      (String.join texts).toList ++ fill args 0 rest := by
  induction h with
  | nil => rfl
  | cons hp _ ih =>
    obtain ⟨hwell, hparts⟩ := List.forall_mem_cons.mp hparts
    rw [List.map_cons, String.join_cons, String.join_cons, String.toList_append, String.toList_append,
      List.append_assoc, List.append_assoc, fill_part hwell hp, ih hparts]

end Filling

/-! ### Templates -/

section Templates
variable {args : List String} {p : Part} {text text' : String}

theorem Part.exists_becomes (args : List String) (p : Part) : ∃ text, p.Becomes args text := by
  cases p with
  | literal text => exact ⟨text, .literal text⟩
  | group inside =>
    by_cases h : ∃ position < args.length, Names inside position
    · obtain ⟨position, hlt, hnames⟩ := h
      exact ⟨args[position], .argument hnames (List.getElem?_eq_getElem hlt)⟩
    · exact ⟨_, .kept fun position hlt hnames => h ⟨position, hlt, hnames⟩⟩

theorem Part.Becomes.unique (h : p.Becomes args text) (h' : p.Becomes args text') : text = text' := by
  cases h with
  | literal => cases h'; rfl
  | argument hnames harg =>
    cases h' with
    | argument hnames' harg' =>
      rw [hnames.unique hnames'] at harg
      exact Option.some.inj (harg.symm.trans harg')
    | kept hnone =>
      obtain ⟨hlt, -⟩ := List.getElem?_eq_some_iff.mp harg
      exact absurd hnames (hnone _ hlt)
  | kept hnone =>
    cases h' with
    | argument hnames harg =>
      obtain ⟨hlt, -⟩ := List.getElem?_eq_some_iff.mp harg
      exact absurd hnames (hnone _ hlt)
    | kept => rfl

theorem Part.existsUnique_becomes (args : List String) (parts : List Part) :
    ∃! texts, List.Forall₂ (Part.Becomes args) parts texts := by
  induction parts with
  | nil => exact ⟨[], .nil, fun _ h => List.forall₂_nil_left_iff.mp h⟩
  | cons p parts ih =>
    obtain ⟨text, htext⟩ := p.exists_becomes args
    obtain ⟨texts, htexts, hunique⟩ := ih
    refine ⟨text :: texts, .cons htext htexts, fun texts' h => ?_⟩
    obtain ⟨text', rest, htext', hrest, rfl⟩ := List.forall₂_cons_left_iff.mp h
    rw [htext'.unique htext, hunique rest hrest]

end Templates

/-- The message under a template is the template with each part replaced by the one text that it becomes: a group
    that names the position of an argument by the argument, and every other group and each literal by itself. The
    tail is kept, and no argument is looked at again. -/
theorem text_replaces_parts {m : Messages} {key tail : String} {parts : List Part} (args : List String)
    (hparts : ∀ p ∈ parts, p.WellFormed) (htail : '\x7d' ∉ tail.toList)
    (htemplate : m.template? key = some (String.join (parts.map Part.text) ++ tail)) :
    (∃! texts, List.Forall₂ (Part.Becomes args) parts texts) ∧
    ∀ texts, List.Forall₂ (Part.Becomes args) parts texts → m.text key args = String.join texts ++ tail := by
  refine ⟨Part.existsUnique_becomes args parts, fun texts h => ?_⟩
  unfold Messages.text
  rw [htemplate]
  dsimp only
  rw [substitute, String.toList_append, fill_parts hparts h, fill_of_open htail, ← String.toList_append,
    String.ofList_toList]

/-- Places of two arguments, the second with a sign and a zero ahead, and groups that are no such places. -/
def oddParts : List Part :=
  [.group "0", .literal " \x7d ", .group "x", .group "+01", .group "2", .group "-0", .group ""]

theorem text_oddParts : (∀ p ∈ oddParts, p.WellFormed) ∧ '\x7d' ∉ " \x7b0".toList ∧
    (empty.withTemplate "odd" (String.join (oddParts.map Part.text) ++ " \x7b0")).text "odd" ["\x7b1\x7d", "b"] =
      "\x7b1\x7d \x7d \x7bx\x7db\x7b2\x7d\x7b-0\x7d\x7b\x7d \x7b0" := by
  have hwell : ∀ p ∈ oddParts, p.WellFormed := by decide
  have htail : '\x7d' ∉ " \x7b0".toList := by decide
  have htemplate : (empty.withTemplate "odd" (String.join (oddParts.map Part.text) ++ " \x7b0")).template? "odd" =
      some (String.join (oddParts.map Part.text) ++ " \x7b0") := rfl
  have hfirst : Names "0" 0 := by decide
  have hsecond : Names "+01" 1 := by decide
  have hbecomes : List.Forall₂ (Part.Becomes ["\x7b1\x7d", "b"]) oddParts
      ["\x7b1\x7d", " \x7d ", "\x7bx\x7d", "b", "\x7b2\x7d", "\x7b-0\x7d", "\x7b\x7d"] :=
    .cons (.argument hfirst rfl) <| .cons (.literal _) <| .cons (.kept (by decide)) <|
      .cons (.argument hsecond rfl) <| .cons (.kept (by decide)) <| .cons (.kept (by decide)) <|
      .cons (.kept (by decide)) .nil
  obtain ⟨-, htext⟩ := text_replaces_parts ["\x7b1\x7d", "b"] hwell htail htemplate
  exact ⟨hwell, htail, (htext _ hbecomes).trans rfl⟩

end StepScript.Messages
