import StepScript.OptionText
import StepScript.Proofs.Results
import StepScript.Proofs.Text.ByteOrder
import StepScript.Proofs.Text.Trim

/-! The option text of a category, said without regard to how it is put together. A property belongs to a category
    by its name, and gives at most one text, for the options or for the literal part. The texts that properties
    give are gathered in the order of their names, so the properties of other categories do not matter. -/

namespace StepScript.OptionText
open Text

/-! ### Texts gathered from a list -/

/-- The texts that the members of a list give, in their order, where a member may give none. -/
inductive Gathers {α : Type} (Gives : α → String → Prop) : List α → List String → Prop
  | nil : Gathers Gives [] []
  | skip {a : α} {as : List α} {texts : List String} (h : ∀ text, ¬Gives a text) (hrest : Gathers Gives as texts) :
    Gathers Gives (a :: as) texts
  | give {a : α} {as : List α} {text : String} {texts : List String} (h : Gives a text)
    (hrest : Gathers Gives as texts) : Gathers Gives (a :: as) (text :: texts)

section Gathers
variable {α : Type} {Gives : α → String → Prop} {f : α → Option String} {as : List α} {texts : List String}

/-- What is gathered is what a function finds, if it finds what the members give. -/
theorem gathers_iff (hf : ∀ a text, f a = some text ↔ Gives a text) :
    Gathers Gives as texts ↔ as.filterMap f = texts := by
  constructor
  · intro h
    induction h with
    | nil => rfl
    | skip h _ ih =>
      rw [List.filterMap_cons_none (Option.eq_none_iff_forall_ne_some.mpr fun text ht => h text ((hf _ text).mp ht)), ih]
    | give h _ ih => rw [List.filterMap_cons_some ((hf _ _).mpr h), ih]
  · rintro rfl
    induction as with
    | nil => exact .nil
    | cons a as ih =>
      cases ha : f a with
      | none =>
        rw [List.filterMap_cons_none ha]
        refine .skip (fun text ht => ?_) ih
        rw [(hf a text).mpr ht] at ha
        cases ha
      | some text =>
        rw [List.filterMap_cons_some ha]
        exact .give ((hf a text).mp ha) ih

end Gathers

/-! ### What a property gives -/

/-- A name that is a category, a point and an option. The category has no point, and the case of its letters does
    not matter. -/
def Sets (category name option : String) : Prop :=
  ∃ c, name = c ++ "." ++ option ∧ '.' ∉ c.toList ∧ lower c = lower category ∧ option ≠ ""

/-- The texts within the list of an option. -/
inductive GivesItem : Value → String → Prop
  | text {s : String} (h : trim s ≠ "") : GivesItem (.text s) (trim s)
  | number (n : Amount) : GivesItem (.atom (.number n)) n.text

/-- The text of an option with its value. -/
inductive Renders (option : String) : Value → String → Prop
  | flag : Renders option (.atom (.flag true)) option
  | number (n : Amount) : Renders option (.atom (.number n)) (option ++ "=" ++ n.text)
  | text {s : String} (h : trim s ≠ "") : Renders option (.text s) (option ++ "=" ++ trim s)
  | list {items : List Value} {texts : List String} (h : Gathers GivesItem items texts) (hne : texts ≠ []) :
    Renders option (.list items) (option ++ "=(" ++ String.intercalate " " texts ++ ")")

/-- A property of a category that sets an option. -/
def GivesOption (category : String) (entry : String × Value) (text : String) : Prop :=
  ∃ option, Sets category entry.1 option ∧ lower option ≠ lower literalOption ∧ Renders option entry.2 text

/-- A property of a category whose text stands in the literal part. -/
def GivesLiteral (category : String) (entry : String × Value) (text : String) : Prop :=
  ∃ option, Sets category entry.1 option ∧ lower option = lower literalOption ∧
    ∃ s, entry.2 = .text s ∧ trim s = text ∧ text ≠ ""

/-! ### What the properties of a category are found to give -/

section Found
variable {category category' name option text : String} {v : Value}

theorem sameLetters_iff {s t : String} : sameLetters s t = true ↔ lower s = lower t := by
  rw [sameLetters, beq_iff_eq, lower, lower, String.ofList_inj]

theorem isLiteral_iff : isLiteral option = true ↔ lower option = lower literalOption := sameLetters_iff

theorem splitName?_append {c : String} (h : '.' ∉ c.toList) (option : String) :
    splitName? (c ++ "." ++ option) = some (c, option) := by
  have hname : (c ++ "." ++ option).toList = c.toList ++ '.' :: option.toList := by simp
  unfold splitName?
  dsimp only
  rw [hname, takeWhile_ne_append h, if_pos (by simp)]
  simp

theorem splitName?_eq_none (h : '.' ∉ name.toList) : splitName? name = none := by
  unfold splitName?
  dsimp only
  rw [takeWhile_ne_eq_self h, if_neg (Nat.lt_irrefl _)]

theorem splitName?_eq_some_iff {c : String} :
    splitName? name = some (c, option) ↔ name = c ++ "." ++ option ∧ '.' ∉ c.toList := by
  constructor
  · intro h
    by_cases hpoint : '.' ∈ name.toList
    · obtain ⟨as, bs, hname, has⟩ := List.eq_append_cons_of_mem hpoint
      have hname' : name = String.ofList as ++ "." ++ String.ofList bs := by
        rw [← String.toList_inj, hname]
        simp
      have has' : '.' ∉ (String.ofList as).toList := by rwa [String.toList_ofList]
      rw [hname', splitName?_append has', Option.some.injEq, Prod.mk.injEq] at h
      obtain ⟨rfl, rfl⟩ := h
      exact ⟨hname', has'⟩
    · rw [splitName?_eq_none hpoint] at h
      cases h
  · rintro ⟨rfl, hc⟩
    exact splitName?_append hc option

theorem optionOf?_eq_some_iff : optionOf? category name = some option ↔ Sets category name option := by
  have hfound : optionOf? category name = some option ↔
      ∃ c, splitName? name = some (c, option) ∧ sameLetters c category = true ∧ option ≠ "" := by
    unfold optionOf?
    split
    next c option' hsplit =>
      rw [Option.ite_none_right_eq_some, Option.some.injEq]
      constructor
      · rintro ⟨⟨hc, hne⟩, rfl⟩
        exact ⟨c, hsplit, hc, hne⟩
      · rintro ⟨c', hsplit', hc, hne⟩
        obtain ⟨rfl, rfl⟩ : c = c' ∧ option' = option := by simpa [hsplit] using hsplit'
        exact ⟨⟨hc, hne⟩, rfl⟩
    next hsplit => simp [hsplit]
  simp only [hfound, splitName?_eq_some_iff, sameLetters_iff, and_assoc, Sets]

theorem itemText?_eq_some_iff : itemText? v = some text ↔ GivesItem v text := by
  constructor
  · intro h
    unfold itemText? at h
    split at h
    · obtain ⟨rfl, hne⟩ := nonBlank_eq_some_iff.mp h
      exact .text hne
    · cases h
      exact .number _
    · cases h
  · rintro (hne | n)
    · have hnonBlank := nonBlank_eq_some_iff.mpr ⟨rfl, hne⟩
      exact hnonBlank
    · rfl

theorem render?_eq_some_iff : render? option v = some text ↔ Renders option v text := by
  constructor
  · intro h
    unfold render? at h
    split at h
    · cases h
    next flag =>
      cases flag with
      | false => cases h
      | true =>
        cases h
        exact .flag
    · cases h
      exact .number _
    · obtain ⟨t, ht, rfl⟩ := Option.map_eq_some_iff.mp h
      obtain ⟨rfl, hne⟩ := nonBlank_eq_some_iff.mp ht
      exact .text hne
    next items =>
      obtain ⟨hne, rfl⟩ : items.filterMap itemText? ≠ [] ∧ _ = text := by simpa using h
      exact .list ((gathers_iff fun _ _ => itemText?_eq_some_iff).mpr rfl) hne
    · cases h
  · intro h
    cases h with
    | flag => rfl
    | number n => rfl
    | text hne =>
      have hnonBlank := nonBlank_eq_some_iff.mpr ⟨rfl, hne⟩
      exact Option.map_eq_some_iff.mpr ⟨_, hnonBlank, rfl⟩
    | list hitems hne =>
      have htexts := (gathers_iff fun _ _ => itemText?_eq_some_iff).mp hitems
      unfold render?
      simp [htexts, hne]

theorem literal?_eq_some_iff : literal? v = some text ↔ ∃ s, v = .text s ∧ trim s = text ∧ text ≠ "" := by
  constructor
  · intro h
    unfold literal? at h
    split at h
    · exact ⟨_, rfl, nonBlank_eq_some_iff.mp h⟩
    · cases h
  · rintro ⟨s, rfl, htext⟩
    have hnonBlank := nonBlank_eq_some_iff.mpr htext
    exact hnonBlank

end Found

/-! ### The option text -/

theorem isAscending_iff {ks : List String} : isAscending ks = true ↔ ks.Pairwise (· < ·) := by
  induction ks with
  | nil => simp [isAscending]
  | cons k ks ih => simp [isAscending, ih]

/-- The names of properties ascend. -/
theorem pairwise_entries (p : Properties) : p.entries.Pairwise fun e e' => e.1 < e'.1 := by
  have hcanonical := p.canonical
  rw [Value.isCanonical, Bool.and_eq_true, isAscending_iff] at hcanonical
  exact List.pairwise_map.mp hcanonical.1

section Resolved
variable {category category' : String} {entries : List (String × Value)} {texts : List String} {p p' : Properties}

/-- What is made of a property, if its option belongs to the category and passes a test. -/
def ofEntry (category : String) (passes : String → Bool) (f : String → Value → Option String)
    (e : String × Value) : Option String :=
  (optionOf? category e.1).bind fun option => if passes option then f option e.2 else none

theorem filterMap_optionsOf (category : String) (passes : String → Bool) (f : String → Value → Option String)
    (entries : List (String × Value)) :
    ((optionsOf category entries).filter (passes ·.1)).filterMap (fun (option, v) => f option v) =
      entries.filterMap (ofEntry category passes f) := by
  unfold optionsOf
  rw [List.filterMap_filter, List.filterMap_filterMap]
  refine congrArg (List.filterMap · entries) (funext fun e => ?_)
  unfold ofEntry
  dsimp only
  cases optionOf? category e.1 <;> rfl

theorem gathers_ofEntry_iff {passes : String → Bool} {f : String → Value → Option String}
    {Gives : String × Value → String → Prop} (hgives : ∀ e text, Gives e text ↔
      ∃ option, Sets category e.1 option ∧ passes option = true ∧ f option e.2 = some text) :
    Gathers Gives entries texts ↔
      ((optionsOf category entries).filter (passes ·.1)).filterMap (fun (option, v) => f option v) = texts := by
  rw [filterMap_optionsOf]
  refine gathers_iff fun e text => ?_
  simp only [hgives, ofEntry, Option.bind_eq_some_iff, optionOf?_eq_some_iff, Option.ite_none_right_eq_some]

theorem givesOption_iff (e : String × Value) (text : String) : GivesOption category e text ↔
    ∃ option, Sets category e.1 option ∧ (!isLiteral option) = true ∧ render? option e.2 = some text := by
  simp only [GivesOption, render?_eq_some_iff, Bool.not_eq_true', Bool.eq_false_iff, ne_eq, isLiteral_iff]

theorem givesLiteral_iff (e : String × Value) (text : String) : GivesLiteral category e text ↔
    ∃ option, Sets category e.1 option ∧ isLiteral option = true ∧ literal? e.2 = some text := by
  simp only [GivesLiteral, literal?_eq_some_iff, isLiteral_iff]

/-- The options of a category are those of the properties that belong to it. -/
theorem optionsOf_filter (entries : List (String × Value)) :
    optionsOf category (entries.filter fun e => (optionOf? category e.1).isSome) = optionsOf category entries := by
  unfold optionsOf
  rw [List.filterMap_filter]
  congr 1
  funext ⟨name, v⟩
  cases hname : optionOf? category name <;> simp [hname]

/-- Entries that ascend are known by their members, so those of a category are known by its properties. -/
theorem optionsOf_congr (h : ∀ e, (∃ option, Sets category e.1 option) → (e ∈ p.entries ↔ e ∈ p'.entries)) :
    optionsOf category p.entries = optionsOf category p'.entries := by
  -- Lists in a strict order are equal if they have the same members.
  have : Std.Irrefl fun e e' : String × Value => e.1 < e'.1 := ⟨fun e => String.lt_irrefl e.1⟩
  have : Std.Antisymm fun e e' : String × Value => e.1 < e'.1 :=
    ⟨fun _ _ hlt hgt => absurd hgt (String.lt_asymm hlt)⟩
  have hsame : (p.entries.filter fun e => (optionOf? category e.1).isSome) =
      p'.entries.filter fun e => (optionOf? category e.1).isSome := by
    refine ((pairwise_entries p).filter _).eq_of_mem_iff ((pairwise_entries p').filter _) fun e => ?_
    rw [List.mem_filter, List.mem_filter]
    refine and_congr_left fun hsome => h e ?_
    obtain ⟨option, hoption⟩ := Option.isSome_iff_exists.mp hsome
    exact ⟨option, optionOf?_eq_some_iff.mp hoption⟩
  rw [← optionsOf_filter, hsame, optionsOf_filter]

theorem optionsOf_of_lower_eq (h : lower category = lower category') (entries : List (String × Value)) :
    optionsOf category entries = optionsOf category' entries := by
  have hfound : ∀ name, optionOf? category name = optionOf? category' name := fun name =>
    Option.ext fun option => by rw [optionOf?_eq_some_iff, optionOf?_eq_some_iff, Sets, Sets, h]
  unfold optionsOf
  simp only [hfound]

/-- The option text of a category is put together from the texts that its properties give, in the order of the bytes
    of their names. It depends on no other property, and not on the case of the letters of the category. -/
theorem resolve_gathers (p : Properties) (category : String) :
    p.entries.Pairwise (fun e e' => bytes e.1 < bytes e'.1) ∧
    (∃ rendered literal, (∀ texts, Gathers (GivesOption category) p.entries texts ↔ texts = rendered) ∧
      (∀ texts, Gathers (GivesLiteral category) p.entries texts ↔ texts = literal) ∧
      resolve p category = trim (String.intercalate " " (rendered ++ literal))) ∧
    (∀ p' : Properties, (∀ e, (∃ option, Sets category e.1 option) → (e ∈ p.entries ↔ e ∈ p'.entries)) →
      resolve p category = resolve p' category) ∧
    ∀ category', lower category = lower category' → resolve p category = resolve p category' := by
  refine ⟨(pairwise_entries p).imp bytes_lt_iff.mpr, ⟨_, _, fun texts => ?_, fun texts => ?_, rfl⟩, fun p' h => ?_,
    fun category' h => ?_⟩
  · exact (gathers_ofEntry_iff givesOption_iff).trans eq_comm
  · exact (gathers_ofEntry_iff givesLiteral_iff).trans eq_comm
  · unfold resolve
    rw [optionsOf_congr h]
  · unfold resolve
    rw [optionsOf_of_lower_eq h]

end Resolved

/-- Properties of one category, in letters of either case. -/
def sortProperties : Properties :=
  ⟨[("SORT.KEYS", .list [.text " a ", .null, .natural 2]), ("Sort.options", .text " force ")], by decide +kernel⟩

/-- The same properties among others with similar names. -/
def mixedProperties : Properties :=
  ⟨[("SORT", .flag true), ("SORT.", .text "x"), ("SORT.KEYS", .list [.text " a ", .null, .natural 2]),
    ("SORTED.X", .flag true), ("Sort.options", .text " force ")], by decide +kernel⟩

theorem mixedProperties_resolved : resolve mixedProperties "SORT" = resolve sortProperties "sort" ∧
    resolve sortProperties "sort" = "KEYS=(a 2) force" := by
  obtain ⟨-, -, hother, -⟩ := resolve_gathers mixedProperties "SORT"
  obtain ⟨-, -, -, hcase⟩ := resolve_gathers sortProperties "SORT"
  have hagree : ∀ e, (∃ option, Sets "SORT" e.1 option) →
      (e ∈ mixedProperties.entries ↔ e ∈ sortProperties.entries) := by
    rintro e ⟨option, hoption⟩
    have hfound : (optionOf? "SORT" e.1).isSome :=
      Option.isSome_iff_exists.mpr ⟨option, optionOf?_eq_some_iff.mpr hoption⟩
    have hfilter : (mixedProperties.entries.filter fun e => (optionOf? "SORT" e.1).isSome) = sortProperties.entries :=
      rfl
    rw [← hfilter, List.mem_filter]
    exact (and_iff_left hfound).symm
  exact ⟨(hother sortProperties hagree).trans (hcase "sort" (by decide)), by decide +kernel⟩

end StepScript.OptionText
