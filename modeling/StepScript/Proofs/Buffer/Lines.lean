import StepScript.Proofs.Buffer.Render
import StepScript.Proofs.Text.OneLine

/-! Code as lines. Fragments without line feeds of their own are rendered to lines: one at a line start opens a
    line at its level, those after it go on with the line, whatever their levels, and one with a line break closes
    it. So what fragments are rendered to is known from the lines that they close and the one that they leave open
    (`Lays`). -/

namespace StepScript
open Text

/-- A text with more than carriage returns and line feeds. -/
def Text.Visible (s : String) : Prop := Buffer.Shows s.toList

instance : DecidablePred Visible := fun s => inferInstanceAs (Decidable (Buffer.Shows s.toList))

@[simp] theorem Text.visible_append {s t : String} : Visible (s ++ t) ↔ Visible s ∨ Visible t := by
  simp only [Visible, Buffer.Shows, String.toList_append, List.mem_append, or_and_right, exists_or]

/-- A line of code behind its indentation. -/
structure Line where
  level : Nat
  text : String
  deriving DecidableEq

/-- A line without line feeds that is visible if it is indented. -/
structure Line.Proper (l : Line) : Prop where
  oneLine : OneLine l.text
  visible : l.level = 0 ∨ Visible l.text

@[simp] theorem Line.proper_mk {level : Nat} {text : String} :
    Line.Proper ⟨level, text⟩ ↔ OneLine text ∧ (level = 0 ∨ Visible text) :=
  ⟨fun h => ⟨h.oneLine, h.visible⟩, fun h => ⟨h.1, h.2⟩⟩

/-- Lines with a semicolon at the end of the last one. -/
def withSemicolon : List Line → List Line
  | [] => []
  | [l] => [⟨l.level, l.text ++ ";"⟩]
  | l :: l' :: ls => l :: withSemicolon (l' :: ls)

namespace Settings
variable (s : Settings)

def layoutLine (l : Line) : String := String.join (List.replicate l.level s.indentUnit) ++ l.text

/-- Lines, each with a line break. -/
def layout (lines : List Line) : String := String.join (lines.map fun l => s.layoutLine l ++ s.lineBreak)

theorem layout_append (lines lines' : List Line) : s.layout (lines ++ lines') = s.layout lines ++ s.layout lines' := by
  rw [layout, List.map_append, String.join_append, ← layout, ← layout]

theorem layout_singleton (l : Line) : s.layout [l] = s.layoutLine l ++ s.lineBreak := by
  simp [layout]

theorem toList_layoutLine (l : Line) :
    (s.layoutLine l).toList = Buffer.indentation s.indentUnit.toList l.level ++ l.text.toList := by
  simp [layoutLine, Buffer.indentation, String.toList_join, List.flatMap]

end Settings

/-! ### Texts of one line -/

namespace Buffer
variable {cs : List Char} {s : Settings} {text : String}

/-- A text whose only line feed, if any, is its last character is a piece. -/
theorem pieces_of_not_mem_dropLast (hcs : cs ≠ []) (h : '\n' ∉ cs.dropLast) : pieces cs = [cs] := by
  induction cs with
  | nil => exact absurd rfl hcs
  | cons c cs ih =>
    cases cs with
    | nil => by_cases hc : c = '\n' <;> simp [pieces, hc]
    | cons d ds =>
      rw [List.dropLast_cons_cons, List.mem_cons, not_or] at h
      obtain ⟨hc, hds⟩ := h
      rw [pieces, if_neg (Ne.symm hc), ih (List.cons_ne_nil d ds) hds]

theorem renderPieces_of_not_mem_dropLast (ind : List Char) (atLineStart : Bool) (h : '\n' ∉ cs.dropLast) :
    (renderPieces ind atLineStart (pieces cs)).1 = if atLineStart && !isBlankPiece cs then ind ++ cs else cs := by
  by_cases hcs : cs = []
  · simp [hcs, pieces, renderPieces, isBlankPiece]
  · simp [pieces_of_not_mem_dropLast hcs h, renderPieces_cons, renderPieces]

theorem not_mem_dropLast_of_oneLine (h : OneLine text) : '\n' ∉ text.toList.dropLast :=
  fun hmem => h ((List.dropLast_sublist _).subset hmem)

theorem not_mem_dropLast_line (h : OneLine text) (s : Settings) : '\n' ∉ (text ++ s.lineBreak).toList.dropLast := by
  have hbreak : s.lineBreak.toList ≠ [] ∧ '\n' ∉ s.lineBreak.toList.dropLast := by
    unfold Settings.lineBreak LineEnding.text
    cases s.lineEnding <;> decide
  rw [String.toList_append, List.dropLast_append_of_ne_nil hbreak.1, List.mem_append, not_or]
  exact ⟨h, hbreak.2⟩

theorem lineStartAfter_lineBreak (atLineStart : Bool) (s : Settings) (text : String) :
    lineStartAfter atLineStart (text ++ s.lineBreak).toList = true := by
  rw [String.toList_append, lineStartAfter_append]
  unfold Settings.lineBreak LineEnding.text
  cases s.lineEnding <;> rfl

theorem lineStartAfter_of_oneLine {atLineStart : Bool} (h : OneLine text)
    (hstart : atLineStart = false ∨ Visible text) : lineStartAfter atLineStart text.toList = false := by
  unfold lineStartAfter
  split
  · rename_i hnone
    rcases hstart with hfalse | ⟨c, hc, -⟩
    · exact hfalse
    · rw [List.getLast?_eq_none_iff.mp hnone] at hc
      cases hc
  · rename_i c hlast
    have hc : c ≠ '\n' := fun e => h (e ▸ List.mem_of_getLast? hlast)
    exact beq_eq_false_iff_ne.mpr hc

theorem isBlankPiece_line (h : Visible text) (br : String) : isBlankPiece (text ++ br).toList = false :=
  isBlankPiece_eq_false_iff.mpr (visible_append.mpr (.inl h))

end Buffer

/-! ### Fragments as lines -/

/-- Fragments that are rendered from a line start to whole lines, and then to a line that is left open, if any. -/
structure Lays (s : Settings) (fs : List Fragment) (lines : List Line) (current : Option Line) : Prop where
  rendered : Buffer.renderFragments s.indentUnit.toList true fs =
    (s.layout lines).toList ++ (current.elim "" s.layoutLine).toList
  lineStart : Buffer.lineStartAfter true (Buffer.textOf fs) = current.isNone

namespace Lays
open Buffer
variable {s : Settings} {fs gs : List Fragment} {lines lines' : List Line} {current : Option Line} {l : Line}
  {text : String}

theorem nil : Lays s [] [] none := ⟨rfl, rfl⟩

theorem append (h : Lays s fs lines none) (h' : Lays s gs lines' current) :
    Lays s (fs ++ gs) (lines ++ lines') current where
  rendered := by
    have hempty : (none.elim "" s.layoutLine).toList = [] := rfl
    have hstart : lineStartAfter true (textOf fs) = true := h.lineStart
    rw [renderFragments_append, hstart, h.rendered, h'.rendered, hempty, List.append_nil, s.layout_append,
      String.toList_append, List.append_assoc]
  lineStart := by
    have hstart : lineStartAfter true (textOf fs) = true := h.lineStart
    rw [textOf, List.flatMap_append, lineStartAfter_append, ← textOf, ← textOf, hstart, h'.lineStart]

theorem renderFragments_concat (unit : List Char) (fs : List Fragment) (f : Fragment)
    (h : '\n' ∉ f.text.toList.dropLast) :
    renderFragments unit true (fs ++ [f]) = renderFragments unit true fs ++
      if lineStartAfter true (textOf fs) && !isBlankPiece f.text.toList
      then indentation unit f.level ++ f.text.toList else f.text.toList := by
  have hnil : ∀ atLineStart, renderFragments unit atLineStart [] = [] := fun _ => rfl
  rw [renderFragments_append, renderFragments_cons, hnil, List.append_nil, renderPieces_of_not_mem_dropLast _ _ h]

theorem lineStartAfter_concat (fs : List Fragment) (f : Fragment) :
    lineStartAfter true (textOf (fs ++ [f])) = lineStartAfter (lineStartAfter true (textOf fs)) f.text.toList := by
  rw [textOf, List.flatMap_append, lineStartAfter_append, ← textOf, List.flatMap_singleton]

theorem opening (level : Nat) (text : String) (hone : OneLine text) (hvisible : Visible text) :
    Lays s [⟨level, text⟩] [] (some ⟨level, text⟩) where
  rendered := by
    have hrendered := renderFragments_concat s.indentUnit.toList [] ⟨level, text⟩
      (not_mem_dropLast_of_oneLine hone)
    rw [isBlankPiece_eq_false_iff.mpr hvisible] at hrendered
    rw [Option.elim_some, s.toList_layoutLine]
    exact hrendered
  lineStart := (lineStartAfter_concat [] _).trans (lineStartAfter_of_oneLine hone (.inr hvisible))

theorem more (h : Lays s fs lines (some l)) (level : Nat) (text : String) (hone : OneLine text) :
    Lays s (fs ++ [⟨level, text⟩]) lines (some ⟨l.level, l.text ++ text⟩) where
  rendered := by
    have hstart : lineStartAfter true (textOf fs) = false := h.lineStart
    rw [renderFragments_concat _ _ ⟨level, text⟩ (not_mem_dropLast_of_oneLine hone), hstart, h.rendered]
    simp [s.toList_layoutLine]
  lineStart := by
    have hstart : lineStartAfter true (textOf fs) = false := h.lineStart
    rw [lineStartAfter_concat, hstart]
    exact lineStartAfter_of_oneLine hone (.inl rfl)

theorem close (h : Lays s fs lines (some l)) (level : Nat) (text : String) (hone : OneLine text) :
    Lays s (fs ++ [Step.line s.lineBreak level text]) (lines ++ [⟨l.level, l.text ++ text⟩]) none where
  rendered := by
    have hstart : lineStartAfter true (textOf fs) = false := h.lineStart
    rw [renderFragments_concat _ _ (Step.line s.lineBreak level text) (not_mem_dropLast_line hone s), hstart,
      h.rendered, s.layout_append, s.layout_singleton]
    simp [s.toList_layoutLine, Step.line]
  lineStart := (lineStartAfter_concat fs _).trans (lineStartAfter_lineBreak _ s text)

theorem lineBreak (h : Lays s fs lines (some l)) (level : Nat) :
    Lays s (fs ++ [Step.line s.lineBreak level ""]) (lines ++ [l]) none := by
  have hclosed := h.close level "" (by decide)
  rwa [String.append_empty] at hclosed

/-- A fragment that is a line of its own; a blank one is not indented. -/
theorem line (h : l.Proper) : Lays s [Step.line s.lineBreak l.level l.text] [l] none where
  rendered := by
    have hrendered := renderFragments_concat s.indentUnit.toList [] (Step.line s.lineBreak l.level l.text)
      (not_mem_dropLast_line h.oneLine s)
    rw [s.layout_singleton, Option.elim_none, String.toList_append, s.toList_layoutLine]
    refine hrendered.trans ?_
    rcases h.visible with hzero | hvisible
    · rw [Step.line, hzero, indentation, List.replicate_zero, List.flatten_nil]
      split <;> simp [renderFragments]
    · rw [Step.line, isBlankPiece_line hvisible]
      simp [renderFragments, lineStartAfter, textOf]
  lineStart := (lineStartAfter_concat [] _).trans (lineStartAfter_lineBreak _ s l.text)

theorem ofLines (h : ∀ l ∈ lines, l.Proper) :
    Lays s (lines.map fun l => Step.line s.lineBreak l.level l.text) lines none := by
  induction lines with
  | nil => exact nil
  | cons l lines ih =>
    obtain ⟨hl, hlines⟩ := List.forall_mem_cons.mp h
    exact (line hl).append (ih hlines)

/-- A line that goes on with others below it, after the last of which a semicolon is written. -/
theorem withSemicolon (h : Lays s fs lines (some l)) (level broken : Nat) (texts : List String)
    (htexts : ∀ text ∈ texts, OneLine text ∧ Visible text) :
    Lays s (fs ++ (texts.flatMap fun text => [Step.line s.lineBreak broken "", ⟨level, text⟩]) ++
      [Step.line s.lineBreak broken ";"]) (lines ++ withSemicolon (l :: texts.map fun text => ⟨level, text⟩)) none := by
  -- Each text closes the line ahead of it and leaves its own line open, so that line is not fixed.
  induction texts generalizing fs lines l with
  | nil =>
    rw [List.flatMap_nil, List.append_nil]
    exact h.close broken ";" (by decide)
  | cons text texts ih =>
    obtain ⟨⟨hone, hvisible⟩, htexts⟩ := List.forall_mem_cons.mp htexts
    have hopened := (h.lineBreak broken).append (opening level text hone hvisible)
    have hrest := ih hopened htexts
    rw [List.append_nil] at hrest
    simpa [StepScript.withSemicolon] using hrest

end Lays

end StepScript
