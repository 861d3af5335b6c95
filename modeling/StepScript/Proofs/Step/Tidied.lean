import StepScript.Proofs.OptionText
import StepScript.Proofs.Step.Alike
import StepScript.Proofs.Text.Trim

/-! Tidying. A setting may be trimmed, or left out where it is blank, and a property may be removed where it
    sets nothing. Any of this may be done to some settings and left undone for others. A step goes as before,
    since it looks at settings only after trimming them, and at properties only through their option texts. -/

namespace StepScript
open Text

/-! ### Edited lists -/

/-- Lists of which the second one has, in their order, what a relation allows for the elements of the first
    one: an element in its place, or none. -/
inductive Edited {α : Type} (R : α → Option α → Prop) : List α → List α → Prop
  | nil : Edited R [] []
  | kept {a b : α} {as bs : List α} : R a (some b) → Edited R as bs → Edited R (a :: as) (b :: bs)
  | dropped {a : α} {as bs : List α} : R a none → Edited R as bs → Edited R (a :: as) bs

theorem Edited.filterMap_eq {α β : Type} {R : α → Option α → Prop} {f : α → Option β} {as bs : List α}
    (hf : ∀ a o, R a o → o.bind f = f a) (h : Edited R as bs) : bs.filterMap f = as.filterMap f := by
  induction h with
  | nil => rfl
  | kept hR _ ih =>
    have hsame := hf _ _ hR
    rw [Option.bind_some] at hsame
    rw [List.filterMap_cons, List.filterMap_cons, hsame, ih]
  | dropped hR _ ih =>
    have hnone := hf _ _ hR
    rw [Option.bind_none] at hnone
    rw [List.filterMap_cons, ← hnone, ih]

/-! ### Tidied settings -/

/-- A text that is kept, or trimmed, or left out if it is blank. -/
def Text.Tidied (s : String) (o : Option String) : Prop := o = some s ∨ o = nonBlank s

/-- An optional text that is kept, or trimmed, or left out if it is blank. -/
def Text.OptionTidied (o o' : Option String) : Prop := o' = o ∨ o' = nonBlank? o

structure Column.Tidied (c c' : Column) : Prop where
  name : c'.name = c.name
  label : OptionTidied c.label c'.label
  format : OptionTidied c.format c'.format

/-- Tables that differ at most in how their texts for reading and writing, and their labels and formats, are
    given. -/
structure Table.Tidied (u u' : Table) : Prop where
  rest : u' = { u with
    label := u'.label, columns := u'.columns, condition := u'.condition, readOptions := u'.readOptions,
    writeOptions := u'.writeOptions }
  label : OptionTidied u.label u'.label
  columns : List.Forall₂ Column.Tidied u.columns u'.columns
  condition : OptionTidied u.condition u'.condition
  readOptions : OptionTidied u.readOptions u'.readOptions
  writeOptions : OptionTidied u.writeOptions u'.writeOptions

/-- A value that is kept, with its texts tidied, or left out if it is a blank text. -/
inductive Value.Tidied : Value → Option Value → Prop
  | same (v : Value) : Tidied v (some v)
  | text {s : String} {o : Option String} : Text.Tidied s o → Tidied (.text s) (o.map .text)
  | list {items items' : List Value} : Edited Tidied items items' → Tidied (.list items) (some (.list items'))

/-- Whether a value is a text that is not blank or a number. -/
def Value.isItem : Value → Bool
  | .atom (.text s) => (nonBlank s).isSome
  | .atom (.number _) => true
  | _ => false

/-- Whether a value is false, null, a record, or a list of nothing but blank texts and of values that are
    neither texts nor numbers. -/
def Value.setsNothing : Value → Bool
  | .atom .null => true
  | .atom (.flag b) => !b
  | .atom _ => false
  | .list items => !items.any isItem
  | .record _ => true

/-- A property whose value is tidied, or that is removed as it sets nothing. -/
def Properties.EntryTidied (e : String × Value) (o : Option (String × Value)) : Prop :=
  (∃ v, e.2.Tidied v ∧ o = v.map (e.1, ·)) ∨ (e.2.setsNothing = true ∧ o = none)

structure Transform.Tidied (t t' : Transform) : Prop where
  rest : t' = { t with properties := t'.properties }
  properties : Edited Properties.EntryTidied t.properties.entries t'.properties.entries

structure Settings.Tidied (s s' : Settings) : Prop where
  rest : s' = { s with globalOptions := s'.globalOptions }
  globalOptions : Edited Text.Tidied s.globalOptions s'.globalOptions

/-! ### What is read of them -/

theorem Text.Tidied.bind_nonBlank {s : String} {o : Option String} (h : Text.Tidied s o) :
    o.bind nonBlank = nonBlank s := by
  rcases h with rfl | rfl
  · rw [Option.bind_some]
  · exact nonBlank?_nonBlank s

theorem Text.OptionTidied.nonBlank?_eq {o o' : Option String} (h : OptionTidied o o') :
    nonBlank? o' = nonBlank? o := by
  rcases h with rfl | rfl
  · rfl
  · exact nonBlank?_nonBlank? o

section Tables
variable {u u' : Table}

theorem Table.Tidied.readText (h : u.Tidied u') : u'.readText = u.readText := by
  obtain ⟨hrest, -, -, hcondition, hread, -⟩ := h
  have hkeep : u'.keep = u.keep := by rw [hrest]
  have hrenames : u'.renames = u.renames := by rw [hrest]
  unfold Table.readText Table.readParts
  rw [hkeep, hrenames, hcondition.nonBlank?_eq, hread.nonBlank?_eq]

theorem Table.Tidied.writeText (h : u.Tidied u') (withLabel : Bool) :
    u'.writeText withLabel = u.writeText withLabel := by
  unfold Table.writeText
  rw [h.label.nonBlank?_eq, h.writeOptions.nonBlank?_eq]

theorem Table.Tidied.columnStatements (h : u.Tidied u') (withLabels : Bool) :
    u'.columnStatements withLabels = u.columnStatements withLabels := by
  have hlabels : u'.labelItems = u.labelItems :=
    filterMap_eq_of_forall₂ (fun c c' hc => by rw [hc.label.nonBlank?_eq, hc.name]) h.columns
  have hformats : u'.formatItems = u.formatItems :=
    filterMap_eq_of_forall₂ (fun c c' hc => by rw [hc.format.nonBlank?_eq, hc.name]) h.columns
  unfold Table.columnStatements
  rw [hlabels, hformats]

theorem Table.Tidied.alike (h : u.Tidied u') : u.Alike u' where
  id := by rw [h.rest]
  name := by rw [h.rest]
  libref := by rw [h.rest]
  storage := by rw [h.rest]
  permanentView := by rw [h.rest]
  read := h.readText
  written := h.writeText true
  columns := h.columnStatements true

end Tables

theorem Settings.Tidied.alike {s s' : Settings} (h : s.Tidied s') : s.Alike s' where
  defaultLibref := by rw [h.rest]
  workLibref := by rw [h.rest]
  options := h.globalOptions.filterMap_eq fun _ _ htext => htext.bind_nonBlank

/-! ### Properties -/

namespace OptionText
variable {v : Value} {o : Option Value}

theorem itemText?_tidied (h : v.Tidied o) : o.bind itemText? = itemText? v := by
  cases h with
  | same => rfl
  | text htext =>
    rename_i s o
    have hblank := htext.bind_nonBlank
    cases o <;> exact hblank
  | list => rfl

theorem render?_tidied (option : String) (h : v.Tidied o) : o.bind (render? option) = render? option v := by
  cases h with
  | same => rfl
  | text htext =>
    rename_i s o
    have hrender : (o.map Value.text).bind (render? option) = (o.bind nonBlank).map fun t => option ++ "=" ++ t := by
      cases o <;> simp only [Option.map_none, Option.map_some, Option.bind_none, Option.bind_some, render?]
    rw [hrender, htext.bind_nonBlank, render?]
  | list hitems =>
    have htexts := hitems.filterMap_eq fun _ _ => itemText?_tidied
    simp only [Option.bind_some, render?, htexts]

theorem literal?_tidied (h : v.Tidied o) : o.bind literal? = literal? v := by
  cases h with
  | same => rfl
  | text htext =>
    rename_i s o
    have hblank := htext.bind_nonBlank
    cases o <;> exact hblank
  | list => rfl

theorem itemText?_of_not_isItem (h : v.isItem = false) : itemText? v = none := by
  unfold Value.isItem at h
  split at h
  · rw [itemText?, ← Option.not_isSome_iff_eq_none, h]
    exact Bool.false_ne_true
  · cases h
  · unfold itemText?
    split <;> simp_all

theorem render?_of_setsNothing (option : String) (h : v.setsNothing = true) : render? option v = none := by
  cases v with
  | atom a =>
    cases a with
    | null => rfl
    | flag b =>
      have hb : b = false := by simpa [Value.setsNothing] using h
      rw [hb]
      rfl
    | number n => cases h
    | text s => cases h
  | list items =>
    have hitems : ∀ item ∈ items, item.isItem = false := by simpa [Value.setsNothing] using h
    have htexts : items.filterMap itemText? = [] :=
      List.filterMap_eq_nil_iff.mpr fun item hitem => itemText?_of_not_isItem (hitems item hitem)
    simp only [render?, htexts, List.isEmpty_nil, if_true]
  | record fields => rfl

theorem literal?_of_setsNothing (h : v.setsNothing = true) : literal? v = none := by
  cases v with
  | atom a => cases a with
    | text s => cases h
    | _ => rfl
  | list items => rfl
  | record fields => rfl

section Entries
variable (category : String) (passes : String → Bool) {f : String → Value → Option String}
  (hf : ∀ option v o, v.Tidied o → o.bind (f option) = f option v)
  (hnothing : ∀ option v, v.setsNothing = true → f option v = none)
include hf hnothing

/-- What is made of values that are tidied, and of values that set nothing, says what is made of properties. -/
theorem ofEntry_tidied (e : String × Value) (o : Option (String × Value)) (h : Properties.EntryTidied e o) :
    o.bind (ofEntry category passes f) = ofEntry category passes f e := by
  rcases h with ⟨v, hv, rfl⟩ | ⟨hv, rfl⟩
  · rw [Option.bind_map]
    unfold ofEntry
    cases hoption : optionOf? category e.1 with
    | none => cases v <;> simp [hoption]
    | some option =>
      cases hpasses : passes option with
      | true => simpa [Function.comp_def, hoption, hpasses] using hf option e.2 v hv
      | false => cases v <;> simp [hoption, hpasses]
  · unfold ofEntry
    cases optionOf? category e.1 with
    | none => rfl
    | some option => simp [hnothing option e.2 hv]

theorem filterMap_optionsOf_tidied {entries entries' : List (String × Value)}
    (h : Edited Properties.EntryTidied entries entries') :
    ((optionsOf category entries').filter (passes ·.1)).filterMap (fun (option, v) => f option v) =
      ((optionsOf category entries).filter (passes ·.1)).filterMap (fun (option, v) => f option v) := by
  rw [filterMap_optionsOf, filterMap_optionsOf]
  exact h.filterMap_eq (ofEntry_tidied category passes hf hnothing)

end Entries

theorem resolve_tidied {p p' : Properties} (h : Edited Properties.EntryTidied p.entries p'.entries)
    (category : String) : resolve p' category = resolve p category := by
  have hrendered := filterMap_optionsOf_tidied category (!isLiteral ·) (fun option _ _ => render?_tidied option)
    (fun option _ => render?_of_setsNothing option) h
  have hliteral := filterMap_optionsOf_tidied category isLiteral (f := fun _ => literal?)
    (fun _ _ _ => literal?_tidied) (fun _ _ => literal?_of_setsNothing) h
  unfold resolve
  dsimp only at hrendered hliteral ⊢
  rw [hrendered, hliteral]

end OptionText

theorem Transform.Tidied.alike {t t' : Transform} (h : t.Tidied t') : t.Alike t' :=
  ⟨t'.properties, h.rest, OptionText.resolve_tidied h.properties⟩

end StepScript
