import StepScript.Proofs.Buffer.Indentation
import StepScript.Text.Quoted

/-! Literals in rendered code. A fragment is rendered as a whole, so a literal in it that goes over several lines
    gets the indentation of the fragment ahead of each further line, and whoever reads the literal from the code
    takes the indentation for a part of its text. -/

namespace StepScript
open Text

namespace Buffer
variable {ind cs ds rest : List Char}

/-! ### Texts within a line -/

theorem insertion_within (ind cs : List Char) : insertion ind false cs = [] :=
  if_neg fun h => Bool.false_ne_true h.1

/-- Within a line nothing is inserted ahead of a character, but ahead of what follows it if it is a line feed. -/
theorem renderPieces_within_cons (ind : List Char) (c : Char) (cs : List Char) :
    (renderPieces ind false (pieces (c :: cs))).1 =
      c :: (insertion ind (c == '\n') cs ++ (renderPieces ind false (pieces cs)).1) := by
  rw [renderPieces_pieces_cons, insertion_within, List.nil_append]
  cases cs with
  | nil => by_cases hc : c = '\n' <;> simp [pieces, renderPieces, insertion, firstPiece, Shows]
  | cons d ds => rw [renderPieces_pieces_cons, renderPieces_pieces_cons, insertion_within, List.nil_append]

theorem renderPieces_within_append (hcs : '\n' ∉ cs) (ds : List Char) :
    (renderPieces ind false (pieces (cs ++ ds))).1 = cs ++ (renderPieces ind false (pieces ds)).1 := by
  induction cs with
  | nil => rfl
  | cons c cs ih =>
    obtain ⟨hc, hcs⟩ := not_or.mp (mt List.mem_cons.mpr hcs)
    have hnext : (c == '\n') = false := beq_false_of_ne (Ne.symm hc)
    rw [List.cons_append, renderPieces_within_cons, hnext, insertion_within, List.nil_append, ih hcs, List.cons_append]

theorem head?_renderPieces_within (ind cs : List Char) :
    (renderPieces ind false (pieces cs)).1.head? = cs.head? := by
  cases cs with
  | nil => rfl
  | cons c cs => rw [renderPieces_within_cons, List.head?_cons, List.head?_cons]

/-! ### Literals -/

/-- A text ahead of a quote, with an indentation at each line start in it, unless the line is blank. -/
def indentLines (ind : List Char) : List Char → List Char
  | [] => []
  | c :: cs => c :: (insertion ind (c == '\n') (cs ++ ['"']) ++ indentLines ind cs)

/-- To double quotes does not make a line blank or visible. -/
theorem shows_doubleQuotes (cs rest : List Char) :
    Shows (firstPiece (Quoted.doubleQuotes cs ++ '"' :: rest)) ↔ Shows (firstPiece (cs ++ ['"'])) := by
  have hquote : ∀ ds, Shows (firstPiece ('"' :: ds)) := fun ds => ⟨'"', List.mem_cons_self, by decide⟩
  induction cs with
  | nil => exact iff_of_true (hquote _) (hquote _)
  | cons c cs ih =>
    by_cases hc : c = '"'
    · subst hc
      exact iff_of_true (hquote _) (hquote _)
    · have hcons : ∀ p : List Char, Shows (c :: p) ↔ (c ≠ '\r' ∧ c ≠ '\n') ∨ Shows p := by simp [Shows]
      simp only [Quoted.doubleQuotes, hc, if_false, List.cons_append, firstPiece]
      split
      · rfl
      · rw [hcons, hcons]
        exact or_congr_right ih

theorem insertion_doubleQuotes (ind : List Char) (atLineStart : Bool) (cs rest : List Char) :
    insertion ind atLineStart (Quoted.doubleQuotes cs ++ '"' :: rest) = insertion ind atLineStart (cs ++ ['"']) := by
  unfold insertion
  simp only [shows_doubleQuotes]

end Buffer

theorem Text.Quoted.readInside_append {cs : List Char} (h : '"' ∉ cs) (ds : List Char) :
    readInside (cs ++ ds) = (readInside ds).map fun (text, rest) => (cs ++ text, rest) := by
  induction cs with
  | nil => simp
  | cons c cs ih =>
    obtain ⟨hc, hcs⟩ := not_or.mp (mt List.mem_cons.mpr h)
    have hcons : readInside (c :: (cs ++ ds)) = (readInside (cs ++ ds)).map fun (text, rest) => (c :: text, rest) := by
      rw [readInside]
      · exact fun _ e => absurd e (Ne.symm hc)
      · exact fun e => Ne.symm hc e
    rw [List.cons_append, hcons, ih hcs, Option.map_map]
    rfl

namespace Buffer
variable {ind cs : List Char}

theorem not_mem_insertion {c : Char} (hind : c ∉ ind) (atLineStart : Bool) (cs : List Char) :
    c ∉ insertion ind atLineStart cs := by
  unfold insertion
  split
  · exact hind
  · exact List.not_mem_nil

/-- What is read of a literal, whose opening quote has been read, is its text with the lines indented. -/
theorem readInside_renderPieces (hind : '"' ∉ ind) (cs : List Char) {rest ds : List Char}
    (hrest : (rest ++ ds).head? ≠ some '"') :
    Quoted.readInside ((renderPieces ind false (pieces (Quoted.doubleQuotes cs ++ '"' :: rest))).1 ++ ds) =
      some (indentLines ind cs, (renderPieces ind false (pieces rest)).1 ++ ds) := by
  have hquote : ∀ es, (renderPieces ind false (pieces ('"' :: es))).1 = '"' :: (renderPieces ind false (pieces es)).1 :=
    renderPieces_within_append (by decide : '\n' ∉ ['"'])
  induction cs with
  | nil =>
    have hhead : ((renderPieces ind false (pieces rest)).1 ++ ds).head? ≠ some '"' := by
      rw [List.head?_append, head?_renderPieces_within, ← List.head?_append]
      exact hrest
    have hread := Quoted.readInside_doubleQuotes [] _ hhead
    rw [Quoted.doubleQuotes, List.nil_append, hquote]
    exact hread
  | cons c cs ih =>
    -- Two quotes stay together, since nothing is inserted but after a line feed.
    by_cases hc : c = '"'
    · subst hc
      have hdouble : Quoted.doubleQuotes ('"' :: cs) ++ '"' :: rest =
          '"' :: '"' :: (Quoted.doubleQuotes cs ++ '"' :: rest) := by simp [Quoted.doubleQuotes]
      rw [hdouble, hquote, hquote, List.cons_append, List.cons_append, Quoted.readInside, ih]
      rfl
    · have hsingle : Quoted.doubleQuotes (c :: cs) ++ '"' :: rest = c :: (Quoted.doubleQuotes cs ++ '"' :: rest) := by
        simp [Quoted.doubleQuotes, hc]
      have hahead : '"' ∉ c :: insertion ind (c == '\n') (cs ++ ['"']) := by
        rw [List.mem_cons, not_or]
        exact ⟨Ne.symm hc, not_mem_insertion hind _ _⟩
      rw [hsingle, renderPieces_within_cons, insertion_doubleQuotes, ← List.cons_append, List.append_assoc,
        Quoted.readInside_append hahead, ih]
      rfl

/-! ### Texts that stay as they are -/

theorem indentLines_nil (cs : List Char) : indentLines [] cs = cs := by
  induction cs with
  | nil => rfl
  | cons c cs ih =>
    have hnone : insertion [] (c == '\n') (cs ++ ['"']) = [] := ite_self _
    rw [indentLines, hnone, List.nil_append, ih]

theorem length_le_indentLines (ind cs : List Char) : cs.length ≤ (indentLines ind cs).length := by
  induction cs with
  | nil => exact Nat.le_refl 0
  | cons c cs ih =>
    rw [indentLines, List.length_cons, List.length_cons, List.length_append]
    omega

theorem firstPiece_of_not_mem (h : '\n' ∉ cs) : firstPiece cs = cs := by
  induction cs with
  | nil => rfl
  | cons c cs ih =>
    obtain ⟨hc, hcs⟩ := not_or.mp (mt List.mem_cons.mpr h)
    rw [firstPiece, if_neg (Ne.symm hc), ih hcs]

/-- After the last line feed of the text comes a line that is not blank, for the quote stands in it. -/
theorem length_lt_indentLines (hind : ind ≠ []) (h : '\n' ∈ cs) : cs.length < (indentLines ind cs).length := by
  induction cs with
  | nil => cases h
  | cons c cs ih =>
    rw [indentLines, List.length_cons, List.length_cons, List.length_append]
    by_cases hcs : '\n' ∈ cs
    · have := ih hcs
      omega
    · obtain rfl : '\n' = c := (List.mem_cons.mp h).resolve_right hcs
      have hlast : '\n' ∉ cs ++ ['"'] := by simpa using hcs
      have hshows : Shows (firstPiece (cs ++ ['"'])) := by
        rw [firstPiece_of_not_mem hlast]
        exact ⟨'"', by simp, by decide⟩
      have hinserted : insertion ind ('\n' == '\n') (cs ++ ['"']) = ind := if_pos ⟨rfl, hshows⟩
      have hpos := List.length_pos_iff.mpr hind
      have hle := length_le_indentLines ind cs
      rw [hinserted]
      omega

/-- A text stays as it is exactly if it has no line feed, or there is no indentation. -/
theorem indentLines_eq_self_iff : indentLines ind cs = cs ↔ ind = [] ∨ '\n' ∉ cs := by
  constructor
  · intro h
    by_contra hnot
    obtain ⟨hind, hmem⟩ := not_or.mp hnot
    have hlt := length_lt_indentLines hind (not_not.mp hmem)
    rw [h] at hlt
    exact Nat.lt_irrefl _ hlt
  · rintro (rfl | h)
    · exact indentLines_nil cs
    · induction cs with
      | nil => rfl
      | cons c cs ih =>
        obtain ⟨hc, hcs⟩ := not_or.mp (mt List.mem_cons.mpr h)
        have hnext : (c == '\n') = false := beq_false_of_ne (Ne.symm hc)
        rw [indentLines, hnext, insertion_within, List.nil_append, ih hcs]

end Buffer

end StepScript
