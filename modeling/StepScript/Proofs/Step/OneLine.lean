import StepScript.Job
import StepScript.Proofs.Step.Script
import StepScript.Proofs.Text.OneLine

/-! Steps without line feeds of their own. If no string of a job and of its settings contains a line feed, then
    no text of a statement does. The strings are those of the written forms of the job and of the settings. -/

namespace StepScript
open Text

/-! ### Strings of values -/

mutual

/-- All strings in a value: its texts and the names of fields in its records. -/
def Value.strings : Value → List String
  | .atom (.text s) => [s]
  | .atom _ => []
  | .list items => itemStrings items
  | .record fields => fieldStrings fields

/-- All strings in the values of a list. -/
def itemStrings : List Value → List String
  | [] => []
  | v :: vs => v.strings ++ itemStrings vs

/-- All strings in the fields of a record. -/
def fieldStrings : List (String × Value) → List String
  | [] => []
  | (k, v) :: fs => k :: v.strings ++ fieldStrings fs

end

/-- No string in the value has a line feed. -/
def Value.OneLine (v : Value) : Prop := ∀ s ∈ v.strings, Text.OneLine s

instance : DecidablePred Value.OneLine := fun v => inferInstanceAs (Decidable (∀ s ∈ v.strings, Text.OneLine s))

namespace Value

@[simp] theorem oneLine_text {s : String} : (Value.text s).OneLine ↔ Text.OneLine s := by
  simp [Value.OneLine, strings]

@[simp] theorem oneLine_list {items : List Value} : (Value.list items).OneLine ↔ ∀ v ∈ items, v.OneLine := by
  unfold Value.OneLine
  rw [strings]
  induction items with
  | nil => simp [itemStrings]
  | cons v vs ih => rw [itemStrings, List.forall_mem_append, ih, List.forall_mem_cons]

@[simp] theorem oneLine_record {fields : List (String × Value)} :
    (Value.record fields).OneLine ↔ ∀ f ∈ fields, Text.OneLine f.1 ∧ f.2.OneLine := by
  unfold Value.OneLine
  rw [strings]
  induction fields with
  | nil => simp [fieldStrings]
  | cons f fs ih =>
    obtain ⟨k, v⟩ := f
    rw [fieldStrings, List.cons_append, List.forall_mem_cons, List.forall_mem_append, ih, List.forall_mem_cons,
      and_assoc]

@[simp] theorem oneLine_texts {ss : List String} : (Value.texts ss).OneLine ↔ ∀ s ∈ ss, Text.OneLine s := by
  simp [Value.texts]

end Value

theorem Value.OneLine.field {fields : List (String × Value)} (h : (Value.record fields).OneLine) {k : String}
    {v : Value} (hf : (k, v) ∈ fields) : v.OneLine :=
  (oneLine_record.mp h (k, v) hf).2

theorem mem_optionalField {name s : String} {o : Option String} (h : s ∈ o) :
    (name, Value.text s) ∈ optionalField name o := by
  obtain rfl := Option.mem_def.mp h
  exact List.mem_singleton_self _

/-! ### Strings of a job and of settings -/

/-- No text of a table has a line feed; its names are left out, which are checked before they are written. -/
structure Table.IsOneLine (u : Table) : Prop where
  label : ∀ s ∈ u.label, OneLine s
  columns : ∀ c ∈ u.columns, OneLine c.name ∧ (∀ s ∈ c.label, OneLine s) ∧ ∀ s ∈ c.format, OneLine s
  keep : ∀ s ∈ u.keep, OneLine s
  renames : ∀ r ∈ u.renames, OneLine r.source ∧ OneLine r.target
  condition : ∀ s ∈ u.condition, OneLine s
  readOptions : ∀ s ∈ u.readOptions, OneLine s
  writeOptions : ∀ s ∈ u.writeOptions, OneLine s

structure Transform.IsOneLine (t : Transform) : Prop where
  name : OneLine t.name
  orderBy : ∀ k ∈ t.orderBy, OneLine k.name
  mappings : ∀ m ∈ t.mappings, OneLine m.source ∧ OneLine m.target
  properties : ∀ e ∈ t.properties.entries, OneLine e.1 ∧ e.2.OneLine

structure Settings.IsOneLine (s : Settings) : Prop where
  workLibref : OneLine s.workLibref
  globalOptions : ∀ text ∈ s.globalOptions, OneLine text

theorem Column.oneLine_of_value {c : Column} (h : c.value.OneLine) :
    OneLine c.name ∧ (∀ s ∈ c.label, OneLine s) ∧ ∀ s ∈ c.format, OneLine s := by
  refine ⟨?_, fun s hs => ?_, fun s hs => ?_⟩
  · exact Value.oneLine_text.mp (h.field (k := "name") (by simp))
  · exact Value.oneLine_text.mp (h.field (k := "label") (by simp [mem_optionalField hs]))
  · exact Value.oneLine_text.mp (h.field (k := "format") (by simp [mem_optionalField hs]))

theorem Table.isOneLine_of_value {u : Table} (h : u.value.OneLine) : u.IsOneLine where
  label s hs := Value.oneLine_text.mp (h.field (k := "label") (by simp [mem_optionalField hs]))
  columns c hc :=
    Column.oneLine_of_value (Value.oneLine_list.mp (h.field (k := "columns") (by simp)) _ (List.mem_map_of_mem hc))
  keep := Value.oneLine_texts.mp (h.field (k := "keep") (by simp))
  renames r hr := by
    have hvalue : r.value.OneLine :=
      Value.oneLine_list.mp (h.field (k := "rename") (by simp)) _ (List.mem_map_of_mem hr)
    exact ⟨Value.oneLine_text.mp (hvalue.field (k := "from") (by simp)),
      Value.oneLine_text.mp (hvalue.field (k := "to") (by simp))⟩
  condition s hs := Value.oneLine_text.mp (h.field (k := "where") (by simp [mem_optionalField hs]))
  readOptions s hs := Value.oneLine_text.mp (h.field (k := "read_options") (by simp [mem_optionalField hs]))
  writeOptions s hs := Value.oneLine_text.mp (h.field (k := "write_options") (by simp [mem_optionalField hs]))

theorem Transform.isOneLine_of_value {t : Transform} (h : t.value.OneLine) : t.IsOneLine where
  name := Value.oneLine_text.mp (h.field (k := "name") (by simp))
  orderBy k hk := by
    have hvalue : k.value.OneLine :=
      Value.oneLine_list.mp (h.field (k := "order_by") (by simp)) _ (List.mem_map_of_mem hk)
    exact Value.oneLine_text.mp (hvalue.field (k := "name") (by simp))
  mappings m hm := by
    have hvalue : m.value.OneLine :=
      Value.oneLine_list.mp (h.field (k := "column_mappings") (by simp)) _ (List.mem_map_of_mem hm)
    exact ⟨Value.oneLine_text.mp (hvalue.field (k := "source") (by simp)),
      Value.oneLine_text.mp (hvalue.field (k := "target") (by simp))⟩
  properties := Value.oneLine_record.mp (h.field (k := "properties") (v := t.properties.value) (by simp))

theorem Settings.isOneLine_of_value {s : Settings} (h : s.value.OneLine) : s.IsOneLine where
  workLibref := Value.oneLine_text.mp (h.field (k := "work_libref") (by simp))
  globalOptions := Value.oneLine_texts.mp (h.field (k := "global_options") (by simp))

namespace Job
variable {job : Job} (h : job.value.OneLine)
include h

theorem oneLine_name : OneLine job.name :=
  Value.oneLine_text.mp (h.field (k := "name") (by simp))

theorem isOneLine_of_mem_tables {u : Table} (hu : u ∈ job.tables) : u.IsOneLine :=
  Table.isOneLine_of_value
    (Value.oneLine_list.mp (h.field (k := "tables") (by simp)) _ (List.mem_map_of_mem hu))

theorem isOneLine_of_mem_transforms {t : Transform} (ht : t ∈ job.transforms) : t.IsOneLine :=
  Transform.isOneLine_of_value
    (Value.oneLine_list.mp (h.field (k := "transformations") (by simp)) _ (List.mem_map_of_mem ht))

end Job

/-! ### Texts of clauses -/

namespace Table.IsOneLine
variable {u : Table} (h : u.IsOneLine)
include h

theorem readText : OneLine u.readText := by
  refine oneLine_intercalate fun part hpart => ?_
  simp only [readParts, List.mem_append] at hpart
  rcases hpart with ((hkeep | hrenames) | hcondition) | hread
  · split at hkeep
    · cases hkeep
    · rw [List.mem_singleton.mp hkeep]
      exact oneLine_append.mpr ⟨by decide, oneLine_intercalate h.keep⟩
  · split at hrenames
    · cases hrenames
    · have hitems : ∀ item ∈ u.renames.map fun r => r.source ++ "=" ++ r.target, OneLine item := by
        intro item hitem
        obtain ⟨r, hr, rfl⟩ := List.mem_map.mp hitem
        obtain ⟨hsource, htarget⟩ := h.renames r hr
        simp +decide [hsource, htarget]
      rw [List.mem_singleton.mp hrenames]
      simp +decide [inParens, oneLine_intercalate hitems]
  · obtain ⟨condition, hcondition', rfl⟩ := Option.map_eq_some_iff.mp (Option.mem_toList.mp hcondition)
    simp +decide [inParens, OneLine.nonBlank? h.condition hcondition']
  · exact OneLine.nonBlank? h.readOptions (Option.mem_toList.mp hread)

theorem writeText (withLabel : Bool) : OneLine (u.writeText withLabel) := by
  refine oneLine_intercalate fun part hpart => ?_
  rcases List.mem_append.mp hpart with hlabel | hwrite
  · split at hlabel
    · obtain ⟨label, hlabel', rfl⟩ := Option.map_eq_some_iff.mp (Option.mem_toList.mp hlabel)
      exact oneLine_append.mpr ⟨by decide, (OneLine.nonBlank? h.label hlabel').quoted⟩
    · cases hlabel
  · exact OneLine.nonBlank? h.writeOptions (Option.mem_toList.mp hwrite)

theorem labelItems : ∀ item ∈ u.labelItems, OneLine item := by
  intro item hitem
  obtain ⟨c, hc, hitem⟩ := List.mem_filterMap.mp hitem
  obtain ⟨label, hlabel, rfl⟩ := Option.map_eq_some_iff.mp hitem
  obtain ⟨hname, hlabels, -⟩ := h.columns c hc
  simp +decide [hname, (OneLine.nonBlank? hlabels hlabel).quoted]

theorem formatItems : ∀ item ∈ u.formatItems, OneLine item := by
  intro item hitem
  obtain ⟨c, hc, hitem⟩ := List.mem_filterMap.mp hitem
  obtain ⟨format, hformat, rfl⟩ := Option.map_eq_some_iff.mp hitem
  obtain ⟨hname, -, hformats⟩ := h.columns c hc
  simp +decide [hname, OneLine.nonBlank? hformats hformat]

end Table.IsOneLine

theorem Table.oneLine_statement {keyword : String} {items : List String} (hkeyword : OneLine keyword)
    (h : ∀ item ∈ items, OneLine item) : ∀ text ∈ statement keyword items, OneLine text := by
  intro text htext
  unfold statement at htext
  split at htext
  · cases htext
  · rw [List.mem_singleton.mp htext]
    simp +decide [hkeyword, oneLine_intercalate h]

theorem Table.IsOneLine.columnStatements {u : Table} (h : u.IsOneLine) (withLabels : Bool) :
    ∀ text ∈ u.columnStatements withLabels, OneLine text := by
  intro text htext
  rcases List.mem_append.mp htext with hlabels | hformats
  · split at hlabels
    · exact oneLine_statement (by decide) h.labelItems text hlabels
    · cases hlabels
  · exact oneLine_statement (by decide) h.formatItems text hformats

/-! ### Texts of options -/

namespace OptionText
variable {v : Value} {text option category : String}

theorem oneLine_optionOf? {name : String} (h : Text.OneLine name) (hoption : optionOf? category name = some option) :
    Text.OneLine option := by
  obtain ⟨⟨c, rest⟩, hsplit, hrest⟩ : ∃ parts, splitName? name = some parts ∧ parts.2 = option := by
    unfold optionOf? at hoption
    split at hoption
    · split at hoption <;> cases hoption
      exact ⟨_, ‹_›, rfl⟩
    · cases hoption
  unfold splitName? at hsplit
  dsimp only at hsplit
  split at hsplit <;> cases hsplit
  obtain rfl := hrest
  exact oneLine_ofList fun hmem => h (List.mem_of_mem_drop hmem)

theorem oneLine_itemText? (h : v.OneLine) (ht : itemText? v = some text) : Text.OneLine text := by
  unfold itemText? at ht
  split at ht
  · exact (Value.oneLine_text.mp h).nonBlank ht
  · cases ht
    exact Amount.oneLine_text _
  · cases ht

theorem oneLine_render? (hoption : Text.OneLine option) (h : v.OneLine) (ht : render? option v = some text) :
    Text.OneLine text := by
  unfold render? at ht
  split at ht
  · cases ht
  · split at ht <;> cases ht
    exact hoption
  · cases ht
    simp +decide [hoption, Amount.oneLine_text]
  · obtain ⟨t, hblank, rfl⟩ := Option.map_eq_some_iff.mp ht
    simp +decide [hoption, (Value.oneLine_text.mp h).nonBlank hblank]
  · rename_i items
    have hitems : ∀ t ∈ items.filterMap itemText?, Text.OneLine t := by
      intro t hmem
      obtain ⟨item, hitem, hmem⟩ := List.mem_filterMap.mp hmem
      exact oneLine_itemText? (Value.oneLine_list.mp h item hitem) hmem
    dsimp only at ht
    split at ht <;> cases ht
    simp +decide [hoption, oneLine_intercalate hitems]
  · cases ht

theorem oneLine_literal? (h : v.OneLine) (ht : literal? v = some text) : Text.OneLine text := by
  unfold literal? at ht
  split at ht
  · exact (Value.oneLine_text.mp h).nonBlank ht
  · cases ht

theorem oneLine_optionsOf (category : String) {entries : List (String × Value)}
    (h : ∀ e ∈ entries, Text.OneLine e.1 ∧ e.2.OneLine) :
    ∀ e ∈ optionsOf category entries, Text.OneLine e.1 ∧ e.2.OneLine := by
  intro e he
  obtain ⟨⟨name, v⟩, hentry, he⟩ := List.mem_filterMap.mp he
  obtain ⟨option, hoption, rfl⟩ := Option.map_eq_some_iff.mp he
  obtain ⟨hname, hv⟩ := h _ hentry
  exact ⟨oneLine_optionOf? hname hoption, hv⟩

theorem oneLine_resolve {p : Properties} (h : ∀ e ∈ p.entries, Text.OneLine e.1 ∧ e.2.OneLine) (category : String) :
    Text.OneLine (resolve p category) := by
  have hoptions := oneLine_optionsOf category h
  refine (oneLine_intercalate fun text htext => ?_).trim
  rcases List.mem_append.mp htext with hrendered | hliteral
  · obtain ⟨e, he, htext⟩ := List.mem_filterMap.mp hrendered
    obtain ⟨hoption, hv⟩ := hoptions e (List.mem_of_mem_filter he)
    exact oneLine_render? hoption hv htext
  · obtain ⟨e, he, htext⟩ := List.mem_filterMap.mp hliteral
    exact oneLine_literal? (hoptions e (List.mem_of_mem_filter he)).2 htext

end OptionText

theorem Settings.IsOneLine.systemOptions {s : Settings} (hs : s.IsOneLine) {t : Transform} (ht : t.IsOneLine) :
    ∀ text ∈ Step.systemOptions s t, OneLine text := by
  intro text htext
  rcases List.mem_append.mp htext with hglobal | hsystem
  · obtain ⟨option, hoption, hglobal⟩ := List.mem_filterMap.mp hglobal
    exact (hs.globalOptions option hoption).nonBlank hglobal
  · split at hsystem
    · cases hsystem
    · rw [List.mem_singleton.mp hsystem]
      exact OptionText.oneLine_resolve ht.properties _

theorem Transform.IsOneLine.orderByStatement? {t : Transform} (h : t.IsOneLine) {text : String}
    (ht : Step.orderByStatement? t = some text) : OneLine text := by
  have hkeys : ∀ key ∈ t.orderBy.map Step.sortKeyText, OneLine key := by
    intro key hkey
    obtain ⟨k, hk, rfl⟩ := List.mem_map.mp hkey
    unfold Step.sortKeyText
    split
    · exact oneLine_append.mpr ⟨by decide, h.orderBy k hk⟩
    · exact h.orderBy k hk
  unfold Step.orderByStatement? at ht
  split at ht <;> cases ht
  simp +decide [oneLine_intercalate hkeys]

end StepScript
