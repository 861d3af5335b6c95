import StepScript.Proofs.Step.Writes

/-! What a buffer is rendered to. The fragments are rendered one after another, and all that a fragment
    needs to know of those ahead of it is whether a line starts after them. Nothing is added to what is
    written at level zero, so lines of that level are rendered as they are, whatever stands ahead of them. -/

namespace StepScript

/-! ### Whole lines -/

/-- A text that is empty or ends with a line feed, so that what comes after it starts a line. -/
def Text.WholeLines (s : String) : Prop :=
  s = "" ∨ ∃ t, s = t ++ "\n"

section WholeLines
open Text
variable {s t : String}

theorem Text.WholeLines.append (hs : WholeLines s) (ht : WholeLines t) : WholeLines (s ++ t) := by
  rcases ht with rfl | ⟨t', rfl⟩
  · rw [String.append_empty]
    exact hs
  · exact .inr ⟨s ++ t', (String.append_assoc ..).symm⟩

theorem Text.WholeLines.join {l : List String} (h : ∀ s ∈ l, WholeLines s) : WholeLines (String.join l) := by
  induction l with
  | nil => exact .inl rfl
  | cons s l ih =>
    rw [String.join_cons]
    exact (h s List.mem_cons_self).append (ih fun t ht => h t (List.mem_cons_of_mem _ ht))

theorem Settings.wholeLines_lineBreak (settings : Settings) (s : String) : WholeLines (s ++ settings.lineBreak) := by
  refine .inr ?_
  unfold Settings.lineBreak LineEnding.text
  cases settings.lineEnding with
  | lf => exact ⟨s, rfl⟩
  | crlf =>
    have hbreak : "\r\n" = "\r" ++ "\n" := rfl
    exact ⟨s ++ "\r", by rw [String.append_assoc, ← hbreak]⟩

end WholeLines

namespace Buffer

/-! ### Pieces of a text -/

theorem flatten_pieces (cs : List Char) : (pieces cs).flatten = cs := by
  induction cs with
  | nil => rfl
  | cons c cs ih =>
    unfold pieces
    split
    · simp [ih]
    · cases hps : pieces cs with
      | nil =>
        rw [hps] at ih
        simp [← ih]
      | cons p ps =>
        rw [hps] at ih
        simp [← ih]

theorem ne_nil_of_mem_pieces {cs : List Char} : ∀ p ∈ pieces cs, p ≠ [] := by
  induction cs with
  | nil => simp [pieces]
  | cons c cs ih =>
    unfold pieces
    split
    · simpa using ih
    · cases hps : pieces cs with
      | nil => simp
      | cons p ps =>
        rw [hps] at ih
        simpa using fun q hq => ih q (List.mem_cons_of_mem _ hq)

/-- Whether a line starts after a text that itself starts a line or not. -/
def lineStartAfter (atLineStart : Bool) (cs : List Char) : Bool :=
  match cs.getLast? with
  | none => atLineStart
  | some c => c == '\n'

theorem lineStartAfter_append (atLineStart : Bool) (cs ds : List Char) :
    lineStartAfter atLineStart (cs ++ ds) = lineStartAfter (lineStartAfter atLineStart cs) ds := by
  unfold lineStartAfter
  rw [List.getLast?_append]
  cases ds.getLast? <;> rfl

theorem lineStartAfter_of_ne_nil {cs : List Char} (h : cs ≠ []) (atLineStart : Bool) :
    lineStartAfter atLineStart cs = endsLine cs := by
  unfold lineStartAfter endsLine
  rw [List.getLast?_eq_some_getLast h]
  simp

/-- A piece of a line has more characters than carriage returns and line feeds. -/
def Shows (p : List Char) : Prop := ∃ c ∈ p, c ≠ '\r' ∧ c ≠ '\n'

theorem isBlankPiece_eq_false_iff {p : List Char} : isBlankPiece p = false ↔ Shows p := by
  simp [isBlankPiece, Shows]

instance : DecidablePred Shows := fun _ => decidable_of_iff _ isBlankPiece_eq_false_iff

theorem renderPieces_cons (indentation : List Char) (atLineStart : Bool) (p : List Char) (ps : List (List Char)) :
    renderPieces indentation atLineStart (p :: ps) =
      ((if atLineStart && !isBlankPiece p then indentation ++ p else p) ++
        (renderPieces indentation (endsLine p) ps).1, (renderPieces indentation (endsLine p) ps).2) := by
  cases h : atLineStart && !isBlankPiece p <;> simp [renderPieces, h]

theorem lineStart_renderPieces (indentation : List Char) (atLineStart : Bool) (ps : List (List Char))
    (hps : ∀ p ∈ ps, p ≠ []) :
    (renderPieces indentation atLineStart ps).2 = lineStartAfter atLineStart ps.flatten := by
  induction ps generalizing atLineStart with
  | nil => rfl
  | cons p ps ih =>
    have hrest := ih (endsLine p) fun q hq => hps q (List.mem_cons_of_mem _ hq)
    rw [List.flatten_cons, lineStartAfter_append, lineStartAfter_of_ne_nil (hps p List.mem_cons_self), ← hrest,
      renderPieces_cons]

theorem renderPieces_no_indentation (atLineStart : Bool) (ps : List (List Char)) :
    (renderPieces [] atLineStart ps).1 = ps.flatten := by
  induction ps generalizing atLineStart with
  | nil => rfl
  | cons p ps ih => simp [renderPieces_cons, ih]

/-! ### Fragments -/

/-- The text of fragments, without indentation. -/
def textOf (fs : List Fragment) : List Char :=
  fs.flatMap fun f => f.text.toList

theorem renderFragments_cons (unit : List Char) (atLineStart : Bool) (f : Fragment) (fs : List Fragment) :
    renderFragments unit atLineStart (f :: fs) =
      (renderPieces (indentation unit f.level) atLineStart (pieces f.text.toList)).1 ++
        renderFragments unit (lineStartAfter atLineStart f.text.toList) fs := by
  have hnext := lineStart_renderPieces (indentation unit f.level) atLineStart (pieces f.text.toList)
    ne_nil_of_mem_pieces
  rw [flatten_pieces] at hnext
  rw [← hnext]
  rfl

/-- Fragments are rendered after those ahead of them, from a line start or not as these leave it. -/
theorem renderFragments_append (unit : List Char) (atLineStart : Bool) (fs gs : List Fragment) :
    renderFragments unit atLineStart (fs ++ gs) =
      renderFragments unit atLineStart fs ++ renderFragments unit (lineStartAfter atLineStart (textOf fs)) gs := by
  -- A line start after the first fragment is one ahead of the rest, so the line start is not fixed.
  induction fs generalizing atLineStart with
  | nil => rfl
  | cons f fs ih =>
    have htext : textOf (f :: fs) = f.text.toList ++ textOf fs := rfl
    rw [List.cons_append, renderFragments_cons, renderFragments_cons, ih, htext, lineStartAfter_append,
      List.append_assoc]

/-- At level zero, fragments are rendered as they are. -/
theorem renderFragments_level_zero (unit : List Char) {fs : List Fragment} (h : ∀ f ∈ fs, f.level = 0)
    (atLineStart : Bool) : renderFragments unit atLineStart fs = textOf fs := by
  induction fs generalizing atLineStart with
  | nil => rfl
  | cons f fs ih =>
    have hindentation : indentation unit f.level = [] := by rw [h f List.mem_cons_self]; rfl
    rw [renderFragments_cons, hindentation, renderPieces_no_indentation, flatten_pieces,
      ih fun g hg => h g (List.mem_cons_of_mem _ hg)]
    rfl

theorem render_write_lines {b : Buffer} (h : b.level = 0) (br : String) (fs : List Fragment) (texts : List String) :
    (b.write (fs ++ texts.map (Step.line br 0))).render =
      (b.write fs).render ++ String.join (texts.map (· ++ br)) := by
  have hlines : ∀ f ∈ texts.map (Step.line br 0), f.level = 0 := by simp [Step.line]
  have htext : textOf (texts.map (Step.line br 0)) = (String.join (texts.map (· ++ br))).toList := by
    simp [textOf, Step.line, String.toList_join, List.flatMap_map]
  have hshift : ∀ fs : List Fragment, (fs.map fun f => (⟨b.level + f.level, f.text⟩ : Fragment)) = fs := by
    simp [h]
  unfold render write
  rw [← String.ofList_toList (s := String.join _), ← htext, ← String.ofList_append]
  simp only [hshift, Array.toList_append, ← List.append_assoc]
  rw [renderFragments_append, renderFragments_level_zero _ hlines]

end Buffer

end StepScript
