import Mathlib.Data.List.Infix
import StepScript.Proofs.Text.Trim
import StepScript.Table.Clause

/-! Labels of tables and columns. A label is written as a literal, and after the closing quote of a literal comes
    something else than a quote, so the literals of a list of labels are told apart, whatever quotes the labels have. -/

namespace StepScript
open Text

/-! ### Reading -/

namespace LabelText

/-- Reads the label of a column: the name of the column, an equals sign and a literal. -/
def readItem (name : String) (cs : List Char) : Option (String × List Char) := do
  let literal ← cs.dropPrefix? (name ++ "=").toList
  let (label, rest) ← Quoted.read literal
  return (String.ofList label, rest)

/-- Reads the labels of columns, one after another with a blank between them. -/
def readItems : (names : List String) → List Char → Option (List String × List Char)
  | [], cs => some ([], cs)
  | [name], cs => do
    let (label, rest) ← readItem name cs
    return ([label], rest)
  | name :: next :: names, cs => do
    let (label, rest) ← readItem name cs
    let items ← rest.dropPrefix? [' ']
    let (labels, rest) ← readItems (next :: names) items
    return (label :: labels, rest)

/-- Reads a label statement for columns up to its end. -/
def readStatement (names : List String) (statement : String) : Option (List String) := do
  let items ← statement.toList.dropPrefix? "label ".toList
  let (labels, rest) ← readItems names items
  if rest = [';'] then some labels else none

/-- Reads the label that stands first in the options of a table, with what follows it. -/
def readOption (options : String) : Option (String × String) := do
  let literal ← options.toList.dropPrefix? "label=".toList
  let (label, rest) ← Quoted.read literal
  return (String.ofList label, String.ofList rest)

/-- What the label of a column is written as. -/
def itemText (item : String × String) : String := item.1 ++ "=" ++ Quoted.write item.2

section Reading
variable {item : String × String} {rest : List Char}

theorem dropPrefix?_append (ahead rest : List Char) : (ahead ++ rest).dropPrefix? ahead = some rest :=
  List.dropPrefix?_append_of_beq rest (beq_self_eq_true ahead)

theorem readItem_itemText (h : rest.head? ≠ some '"') :
    readItem item.1 ((itemText item).toList ++ rest) = some (item.2, rest) := by
  have hread := Quoted.read_write item.2 rest h
  unfold readItem itemText
  rw [String.toList_append, List.append_assoc, dropPrefix?_append, Option.bind_eq_bind, Option.bind_some, hread]
  simp

/-- Labels that are written are read back, if no quote follows them. -/
theorem readItems_itemTexts (items : List (String × String)) (h : rest.head? ≠ some '"') :
    readItems (items.map (·.1)) ((String.intercalate " " (items.map itemText)).toList ++ rest) =
      some (items.map (·.2), rest) := by
  induction items with
  | nil => simp [readItems]
  | cons item items ih =>
    cases items with
    | nil =>
      simp only [List.map_cons, List.map_nil, String.intercalate_singleton, readItems, readItem_itemText h]
      rfl
    | cons next items =>
      have htext : (String.intercalate " " ((item :: next :: items).map itemText)).toList ++ rest =
          (itemText item).toList ++
            ([' '] ++ ((String.intercalate " " ((next :: items).map itemText)).toList ++ rest)) := by
        simp
      rw [htext]
      simp only [List.map_cons] at ih ⊢
      -- A blank follows the first literal, so its last quote ends it.
      rw [readItems, readItem_itemText (by simp), Option.bind_eq_bind, Option.bind_some]
      dsimp only
      rw [dropPrefix?_append, Option.bind_eq_bind, Option.bind_some, ih]
      rfl

theorem readStatement_itemTexts (items : List (String × String)) :
    readStatement (items.map (·.1)) ("label " ++ String.intercalate " " (items.map itemText) ++ ";") =
      some (items.map (·.2)) := by
  have hend : ";".toList = [';'] := rfl
  unfold readStatement
  rw [String.toList_append, String.toList_append, List.append_assoc, dropPrefix?_append, Option.bind_eq_bind,
    Option.bind_some, hend, readItems_itemTexts items (by decide), Option.bind_eq_bind, Option.bind_some]
  exact if_pos rfl

theorem readOption_write (label rest : String) (h : rest.toList.head? ≠ some '"') :
    readOption ("label=" ++ Quoted.write label ++ rest) = some (label, rest) := by
  unfold readOption
  rw [String.toList_append, String.toList_append, List.append_assoc, dropPrefix?_append, Option.bind_eq_bind,
    Option.bind_some, Quoted.read_write label rest.toList h]
  simp

end Reading
end LabelText

/-! ### Labels of columns -/

/-- The label of a column without the blanks around it, unless nothing is left. -/
def Column.trimmedLabel? (c : Column) : Option String := (c.label.map trim).filter (· ≠ "")

/-- The names of the columns that have a label, each with the label. -/
def Table.columnLabels (u : Table) : List (String × String) :=
  u.columns.filterMap fun c => c.trimmedLabel?.map (c.name, ·)

/-- A statement that starts as those for labels do. -/
def IsLabelStatement (statement : String) : Prop := "label ".toList <+: statement.toList

instance : DecidablePred IsLabelStatement := fun statement =>
  inferInstanceAs (Decidable ("label ".toList <+: statement.toList))

section Columns
variable {u : Table} {st : String}

theorem Column.trimmedLabel?_eq (c : Column) : c.trimmedLabel? = nonBlank? c.label := by
  unfold trimmedLabel?
  cases c.label with
  | none => rfl
  | some text =>
    rw [nonBlank?_some, nonBlank_eq, Option.map_some]
    by_cases h : trim text = "" <;> simp [h]

theorem Table.labelItems_eq (u : Table) : u.labelItems = u.columnLabels.map LabelText.itemText := by
  unfold labelItems columnLabels
  rw [List.map_filterMap]
  simp only [Column.trimmedLabel?_eq, Option.map_map]
  rfl

theorem Table.columnLabels_ne_nil_iff : u.columnLabels ≠ [] ↔ ∃ c ∈ u.columns, ∃ text ∈ c.label, trim text ≠ "" := by
  have hlabel : ∀ c : Column, c.trimmedLabel? ≠ none ↔ ∃ text ∈ c.label, trim text ≠ "" := fun c => by
    unfold Column.trimmedLabel?
    cases c.label <;> simp
  unfold columnLabels
  rw [Ne, List.filterMap_eq_nil_iff]
  simp only [Option.map_eq_none_iff, not_forall, exists_prop]
  exact exists_congr fun c => and_congr_right fun _ => hlabel c

theorem Table.not_isLabelStatement (h : st ∈ u.columnStatements false) : ¬IsLabelStatement st := by
  unfold columnStatements statement at h
  rw [if_neg (by decide), List.nil_append] at h
  split at h
  · cases h
  · rw [List.mem_singleton.mp h]
    unfold IsLabelStatement
    simp +decide [String.toList_append]

/-- The statement for labels, if there are any. -/
theorem Table.labelStatement_eq (u : Table) : statement "label" u.labelItems =
    if u.columnLabels = [] then []
    else ["label " ++ String.intercalate " " (u.columnLabels.map LabelText.itemText) ++ ";"] := by
  rw [statement, labelItems_eq]
  simp only [List.isEmpty_iff, List.map_eq_nil_iff]
  rfl

theorem Table.filter_columnStatements (u : Table) :
    (u.columnStatements true).filter (IsLabelStatement ·) = statement "label" u.labelItems := by
  have hformats : (u.columnStatements false).filter (IsLabelStatement ·) = [] :=
    List.filter_eq_nil_iff.mpr fun st hst => by simpa using not_isLabelStatement hst
  have hall : u.columnStatements true = statement "label" u.labelItems ++ u.columnStatements false := rfl
  rw [hall, List.filter_append, hformats, List.append_nil, List.filter_eq_self, labelStatement_eq]
  intro st hst
  split at hst
  · cases hst
  · rw [List.mem_singleton.mp hst, decide_eq_true_iff, IsLabelStatement, String.append_assoc, String.toList_append]
    exact List.prefix_append _ _

end Columns

/-! ### Options of a table that is written -/

namespace Table
variable {u : Table} {label : String}

theorem writeText_false (u : Table) : u.writeText false = (nonBlank? u.writeOptions).getD "" := by
  unfold writeText
  cases nonBlank? u.writeOptions <;> simp

/-- A labelled table is written with its label, and then with its other options, if it has any. -/
theorem writeText_of_label (h : nonBlank? u.label = some label) :
    u.writeText true =
      "label=" ++ Quoted.write label ++ if u.writeText false = "" then "" else " " ++ u.writeText false := by
  rw [writeText_false]
  unfold writeText
  rw [h]
  cases hoptions : nonBlank? u.writeOptions with
  | none => simp
  | some text =>
    obtain ⟨s, -, htext⟩ := Option.bind_eq_some_iff.mp hoptions
    have hne : text ≠ "" := (nonBlank_eq_some_iff.mp htext).2
    simp [hne, String.intercalate_cons_of_ne_nil, String.append_assoc]

end Table

/-! ### Labels read back -/

/-- A table has a statement for labels exactly if one of its columns has a label that is not blank. It is the only
    one, and what is read of it, up to its end, are the labels of the columns in order without the blanks around
    them. The options of a labelled table start with its label, and go on with the options that it has without. -/
theorem quoted_labels_read_back (u : Table) :
    ((∃ st ∈ u.columnStatements true, IsLabelStatement st) ↔ ∃ c ∈ u.columns, ∃ text ∈ c.label, trim text ≠ "") ∧
    (∀ st ∈ u.columnStatements true, IsLabelStatement st →
      (u.columnStatements true).filter (IsLabelStatement ·) = [st] ∧
      LabelText.readStatement (u.columnLabels.map (·.1)) st = some (u.columnLabels.map (·.2))) ∧
    ∀ text ∈ u.label, trim text ≠ "" →
      LabelText.readOption (u.writeText true) =
        some (trim text, if u.writeText false = "" then "" else " " ++ u.writeText false) := by
  have hfilter := (Table.filter_columnStatements u).trans u.labelStatement_eq
  have hmem : ∀ st, (st ∈ u.columnStatements true ∧ IsLabelStatement st) ↔
      st ∈ if u.columnLabels = [] then []
        else ["label " ++ String.intercalate " " (u.columnLabels.map LabelText.itemText) ++ ";"] := fun st => by
    rw [← hfilter, List.mem_filter, decide_eq_true_iff]
  refine ⟨?_, fun st hst hlabel => ?_, fun text htext hne => ?_⟩
  · rw [← Table.columnLabels_ne_nil_iff, exists_congr hmem]
    by_cases h : u.columnLabels = [] <;> simp [h]
  · have hst' := (hmem st).mp ⟨hst, hlabel⟩
    rw [hfilter]
    split at hst'
    · cases hst'
    · rename_i hnonempty
      rw [if_neg hnonempty, List.mem_singleton.mp hst']
      exact ⟨rfl, LabelText.readStatement_itemTexts _⟩
  · have hlabel : nonBlank? u.label = some (trim text) := by
      rw [htext, nonBlank?_some, nonBlank_eq, if_neg hne]
    rw [Table.writeText_of_label hlabel]
    refine LabelText.readOption_write _ _ ?_
    split
    · simp
    · simp

/-- A table with quotes at the ends of its labels, and a column whose label is blank. -/
def quotedTable : Table :=
  { id := "OUT", name := "OUT", label := some " \"all\"\" ", writeOptions := some "compress=yes",
    columns := [{ name := "A", label := some "\"" }, { name := "B", label := some "  " },
      { name := "C", label := some "\"\" D=\"\"", format := some "8." }] }

theorem quotedTable_labels :
    (∃ st ∈ quotedTable.columnStatements true, IsLabelStatement st ∧
      LabelText.readStatement ["A", "C"] st = some ["\"", "\"\" D=\"\""]) ∧
    LabelText.readOption (quotedTable.writeText true) = some ("\"all\"\"", " compress=yes") := by
  obtain ⟨hsome, hread, hoption⟩ := quoted_labels_read_back quotedTable
  obtain ⟨st, hst, hlabel⟩ := hsome.mpr ⟨_, List.mem_cons_self, "\"", rfl, by decide⟩
  exact ⟨⟨st, hst, hlabel, (hread st hst hlabel).2⟩, hoption " \"all\"\" " rfl (by decide)⟩

end StepScript
