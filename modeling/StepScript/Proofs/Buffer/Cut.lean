import StepScript.Proofs.Buffer.Literal

/-! Texts that are appended in two parts. Where the one fragment ends and the other one starts makes no difference
    to what is rendered, then or later, with one exception. If the first part ends with carriage returns that open
    a line, they count as a blank line by themselves, and the second part no longer starts the line, so a line that
    goes on with more than a line break loses its indentation. -/

namespace StepScript.Buffer

variable {ind cs ds ahead returns : List Char} {atLineStart : Bool}

/-! ### The exception -/

/-- A text ends with carriage returns that open a line, and the text after it goes on with more than a line break. -/
def CutsOpening (atLineStart : Bool) (cs ds : List Char) : Prop :=
  Shows (firstPiece ds) ∧ ∃ ahead returns, cs = ahead ++ returns ∧ returns ≠ [] ∧ (∀ c ∈ returns, c = '\r') ∧
    lineStartAfter atLineStart ahead = true

/-- No text at a line start follows carriage returns that open a line. -/
theorem not_cutsOpening_of_lineStart (h : lineStartAfter atLineStart cs = true) (ds : List Char) :
    ¬CutsOpening atLineStart cs ds := by
  rintro ⟨-, ahead, returns, rfl, hne, hreturns, -⟩
  have hlast := hreturns _ (List.getLast_mem hne)
  rw [lineStartAfter_append, lineStartAfter_of_ne_nil hne, endsLine, List.getLast?_eq_some_getLast hne, hlast] at h
  exact absurd h (by decide)

theorem CutsOpening.cons (h : CutsOpening (c == '\n') cs ds) : CutsOpening atLineStart (c :: cs) ds := by
  obtain ⟨hds, ahead, returns, rfl, hne, hreturns, hstart⟩ := h
  refine ⟨hds, c :: ahead, returns, rfl, hne, hreturns, ?_⟩
  rw [lineStartAfter_cons]
  exact hstart

theorem newline_not_mem_returns (h : ∀ c ∈ returns, c = '\r') : '\n' ∉ returns := fun hmem =>
  absurd (h _ hmem) (by decide)

theorem not_shows_returns (h : ∀ c ∈ returns, c = '\r') : ¬Shows returns := by
  rintro ⟨c, hc, hreturn, -⟩
  exact hreturn (h c hc)

theorem returns_of_not_shows (h : ¬Shows cs) (hcs : '\n' ∉ cs) : ∀ c ∈ cs, c = '\r' := by
  intro c hc
  by_contra hreturn
  exact h ⟨c, hc, hreturn, fun hline => hcs (hline ▸ hc)⟩

theorem shows_append : Shows (cs ++ ds) ↔ Shows cs ∨ Shows ds := by
  simp only [Shows, List.mem_append, or_and_right, exists_or]

/-! ### Pieces -/

theorem firstPiece_append_of_mem (h : '\n' ∈ cs) (ds : List Char) : firstPiece (cs ++ ds) = firstPiece cs := by
  induction cs with
  | nil => cases h
  | cons c cs ih =>
    rw [List.cons_append, firstPiece, firstPiece]
    by_cases hc : c = '\n'
    · rw [if_pos hc, if_pos hc]
    · rw [if_neg hc, if_neg hc, ih ((List.mem_cons.mp h).resolve_left (Ne.symm hc))]

theorem firstPiece_append_of_not_mem (h : '\n' ∉ cs) (ds : List Char) :
    firstPiece (cs ++ ds) = cs ++ firstPiece ds := by
  induction cs with
  | nil => rfl
  | cons c cs ih =>
    obtain ⟨hc, hcs⟩ := not_or.mp (mt List.mem_cons.mpr h)
    rw [List.cons_append, firstPiece, if_neg (Ne.symm hc), ih hcs, List.cons_append]

/-- What comes after a text changes nothing ahead of it, but for the exception. -/
theorem insertion_append (ind : List Char) (h : ¬CutsOpening atLineStart cs ds) (hcs : cs ≠ []) :
    insertion ind atLineStart (cs ++ ds) = insertion ind atLineStart cs := by
  cases atLineStart with
  | false => rw [insertion_within, insertion_within]
  | true =>
    have hshows : Shows (firstPiece (cs ++ ds)) ↔ Shows (firstPiece cs) := by
      by_cases hmem : '\n' ∈ cs
      · rw [firstPiece_append_of_mem hmem]
      · rw [firstPiece_append_of_not_mem hmem, firstPiece_of_not_mem hmem, shows_append, or_iff_left_iff_imp]
        intro hds
        by_contra hblank
        exact h ⟨hds, [], cs, rfl, hcs, returns_of_not_shows hblank hmem, rfl⟩
    unfold insertion
    simp only [hshows]

/-- Two texts are rendered one after the other as they are together, but for the exception. -/
theorem renderPieces_append (ind : List Char) (h : ¬CutsOpening atLineStart cs ds) :
    (renderPieces ind atLineStart (pieces (cs ++ ds))).1 = (renderPieces ind atLineStart (pieces cs)).1 ++
      (renderPieces ind (lineStartAfter atLineStart cs) (pieces ds)).1 := by
  induction cs generalizing atLineStart with
  | nil => rfl
  | cons c cs ih =>
    have hinsertion := insertion_append ind h (List.cons_ne_nil c cs)
    rw [List.cons_append] at hinsertion ⊢
    rw [renderPieces_pieces_cons, renderPieces_pieces_cons, hinsertion, ih (mt CutsOpening.cons h), lineStartAfter_cons,
      List.append_assoc, List.cons_append]

theorem renderPieces_returns (ind : List Char) (hreturns : ∀ c ∈ returns, c = '\r') (hne : returns ≠ [])
    (ds : List Char) :
    (renderPieces ind true (pieces (returns ++ ds))).1 =
      (if Shows (firstPiece ds) then ind else []) ++ returns ++ (renderPieces ind false (pieces ds)).1 := by
  obtain ⟨c, cs, rfl⟩ := List.exists_cons_of_ne_nil hne
  have hc : (c == '\n') = false := by
    rw [hreturns c List.mem_cons_self]
    rfl
  have hcs : '\n' ∉ cs := fun hmem => newline_not_mem_returns hreturns (List.mem_cons_of_mem c hmem)
  have hshows : Shows (firstPiece (c :: (cs ++ ds))) ↔ Shows (firstPiece ds) := by
    rw [← List.cons_append, firstPiece_append_of_not_mem (newline_not_mem_returns hreturns), shows_append,
      or_iff_right (not_shows_returns hreturns)]
  have hinsertion : insertion ind true (c :: (cs ++ ds)) = if Shows (firstPiece ds) then ind else [] := by
    unfold insertion
    simp only [hshows, true_and]
  rw [List.cons_append, renderPieces_pieces_cons, hinsertion, hc, renderPieces_within_append hcs, List.append_assoc,
    List.cons_append]

/-- In the exception the indentation of the line is there only if the two texts are together. -/
theorem CutsOpening.length_renderPieces (ind : List Char) (h : CutsOpening atLineStart cs ds) :
    (renderPieces ind atLineStart (pieces (cs ++ ds))).1.length = ((renderPieces ind atLineStart (pieces cs)).1 ++
      (renderPieces ind (lineStartAfter atLineStart cs) (pieces ds)).1).length + ind.length := by
  obtain ⟨hds, ahead, returns, rfl, hne, hreturns, hstart⟩ := h
  have hwithin : lineStartAfter true returns = false := by
    rw [lineStartAfter_of_ne_nil hne, endsLine, List.getLast?_eq_some_getLast hne, hreturns _ (List.getLast_mem hne)]
    rfl
  have hahead := fun es => renderPieces_append ind (not_cutsOpening_of_lineStart hstart es)
  have hblank : (renderPieces ind true (pieces returns)).1 = returns := by
    have halone := renderPieces_returns ind hreturns hne []
    rw [List.append_nil, if_neg (by rintro ⟨c, hc, -⟩; cases hc)] at halone
    simpa [pieces, renderPieces] using halone
  rw [List.append_assoc, hahead, hahead, hstart, renderPieces_returns ind hreturns hne, if_pos hds, hblank,
    lineStartAfter_append, hstart, hwithin]
  simp only [List.length_append]
  omega

theorem renderPieces_append_iff : (renderPieces ind atLineStart (pieces (cs ++ ds))).1 =
    (renderPieces ind atLineStart (pieces cs)).1 ++ (renderPieces ind (lineStartAfter atLineStart cs) (pieces ds)).1 ↔
      ind = [] ∨ ¬CutsOpening atLineStart cs ds := by
  constructor
  · intro hsame
    by_contra hnot
    obtain ⟨hind, hcut⟩ := not_or.mp hnot
    have hlength := (not_not.mp hcut).length_renderPieces ind
    have hpos := List.length_pos_iff.mpr hind
    rw [hsame] at hlength
    omega
  · rintro (rfl | hcut)
    · simp only [renderPieces_no_indentation, flatten_pieces]
    · exact renderPieces_append ind hcut

/-! ### Buffers -/

/-- What edits add to a buffer, and the level at which they leave it, follow from its level and its line break. -/
theorem exists_edits?_eq (level : Nat) (br : String) (es : List Edit) : ∃ o : Option (List Fragment × Nat),
    ∀ b : Buffer, b.level = level → b.lineBreak = br →
      b.edits? es = o.map fun (fs, level') => { b with fragments := b.fragments ++ fs.toArray, level := level' } := by
  induction es generalizing level with
  | nil =>
    refine ⟨some ([], level), fun b hlevel _ => ?_⟩
    subst hlevel
    simp [edits?]
  | cons e es ih =>
    have happend : ∀ text, ∃ o : Option (List Fragment × Nat), ∀ b : Buffer, b.level = level → b.lineBreak = br →
        (b.append text).edits? es =
          o.map fun (fs, level') => { b with fragments := b.fragments ++ fs.toArray, level := level' } := by
      intro text
      obtain ⟨o, ho⟩ := ih level
      refine ⟨o.map fun (fs, level') => (⟨level, text⟩ :: fs, level'), fun b hlevel hbr => ?_⟩
      rw [ho (b.append text) hlevel hbr, Option.map_map]
      simp [append, hlevel, Function.comp_def]
    cases e with
    | append text => exact happend text
    | appendLine text =>
      obtain ⟨o, ho⟩ := happend (text ++ br)
      refine ⟨o, fun b hlevel hbr => ?_⟩
      have hline : b.appendLine text = b.append (text ++ br) := by rw [appendLine, hbr]
      have hadded := ho b hlevel hbr
      rwa [← hline] at hadded
    | indent =>
      obtain ⟨o, ho⟩ := ih (level + 1)
      exact ⟨o, fun b hlevel hbr => ho b.indent (congrArg Nat.succ hlevel) hbr⟩
    | unindent =>
      cases level with
      | zero =>
        refine ⟨none, fun b hlevel _ => ?_⟩
        rw [edits?_cons, edit?, unindent?, hlevel]
        rfl
      | succ level =>
        obtain ⟨o, ho⟩ := ih level
        refine ⟨o, fun b hlevel hbr => ?_⟩
        rw [edits?_cons, edit?, unindent?, hlevel]
        exact ho { b with level } rfl hbr

/-- Ahead of the same fragments, a text is rendered as its two parts are, but for the exception. -/
theorem renderFragments_cut_iff {unit : List Char} {level : Nat} {text rest : String} {fs : List Fragment} :
    renderFragments unit atLineStart (⟨level, text⟩ :: ⟨level, rest⟩ :: fs) =
        renderFragments unit atLineStart (⟨level, text ++ rest⟩ :: fs) ↔
      indentation unit level = [] ∨ ¬CutsOpening atLineStart text.toList rest.toList := by
  rw [renderFragments_cons, renderFragments_cons, renderFragments_cons, String.toList_append, lineStartAfter_append,
    ← List.append_assoc, List.append_left_inj, eq_comm, renderPieces_append_iff]

theorem indentation_eq_nil_iff {unit : String} {level : Nat} :
    indentation unit.toList level = [] ↔ level = 0 ∨ unit = "" := by
  simp [indentation, or_iff_not_imp_left]

/-- Where a text is cut that is appended in two parts does not show, now or after further edits, unless a line that
    is indented is cut behind carriage returns that open it. Then its indentation is missing. -/
theorem cut_invisible_iff (b : Buffer) (text rest : String) (es : List Edit) :
    ((∃ b₁, b.edits? (.append text :: .append rest :: es) = some b₁) ↔
      ∃ b₂, b.edits? (.append (text ++ rest) :: es) = some b₂) ∧
    ∀ b₁ b₂, b.edits? (.append text :: .append rest :: es) = some b₁ →
      b.edits? (.append (text ++ rest) :: es) = some b₂ →
      (b₁.render = b₂.render ↔ b.level = 0 ∨ b.indentUnit = "" ∨
        ¬CutsOpening (lineStartAfter true (textOf b.fragments.toList)) text.toList rest.toList) := by
  have hparts : b.edits? (.append text :: .append rest :: es) = ((b.append text).append rest).edits? es := rfl
  have hwhole : b.edits? (.append (text ++ rest) :: es) = (b.append (text ++ rest)).edits? es := rfl
  obtain ⟨o, ho⟩ := exists_edits?_eq b.level b.lineBreak es
  rw [hparts, hwhole, ho ((b.append text).append rest) rfl rfl, ho (b.append (text ++ rest)) rfl rfl]
  cases o with
  | none => simp
  | some added =>
    obtain ⟨fs, level⟩ := added
    refine ⟨iff_of_true ⟨_, rfl⟩ ⟨_, rfl⟩, fun b₁ b₂ h₁ h₂ => ?_⟩
    cases h₁
    cases h₂
    have hcut : ((b.append text).append rest).fragments.toList ++ fs =
        b.fragments.toList ++ ⟨b.level, text⟩ :: ⟨b.level, rest⟩ :: fs := by simp
    have htogether : (b.append (text ++ rest)).fragments.toList ++ fs =
        b.fragments.toList ++ ⟨b.level, text ++ rest⟩ :: fs := by simp
    have hunit : ∀ (b' : Buffer) text, (b'.append text).indentUnit = b'.indentUnit := fun _ _ => rfl
    unfold render
    rw [String.ofList_inj, Array.toList_append, Array.toList_append, hcut, htogether, renderFragments_append,
      renderFragments_append, hunit, hunit, hunit, List.append_right_inj, renderFragments_cut_iff,
      indentation_eq_nil_iff, or_assoc]

/-- A line break may be cut, for the line feed behind the carriage return is all that its line goes on with. -/
theorem line_break_cut : ∃ b₁ b₂,
    (ofSettings {}).indent.edits? [.append "\r", .append "\nb;", .unindent, .append "c"] = some b₁ ∧
    (ofSettings {}).indent.edits? [.append ("\r" ++ "\nb;"), .unindent, .append "c"] = some b₂ ∧
    b₁.render = b₂.render := by
  obtain ⟨-, hsame⟩ := cut_invisible_iff (ofSettings {}).indent "\r" "\nb;" [.unindent, .append "c"]
  refine ⟨_, _, rfl, rfl, (hsame _ _ rfl rfl).mpr (.inr (.inr ?_))⟩
  rintro ⟨hshows, -⟩
  exact absurd hshows (by decide)

/-- A carriage return by itself is no line break, so the line that it opens is to be indented, but it is not. -/
theorem lone_return_cut :
    (((ofSettings {}).indent.append "\r").append "x").render = "\rx" ∧
    ((ofSettings {}).indent.append ("\r" ++ "x")).render = "   \rx" ∧
    (((ofSettings {}).indent.append "\r").append "x").render ≠
      ((ofSettings {}).indent.append ("\r" ++ "x")).render := by
  have hcut : (((ofSettings {}).indent.append "\r").append "x").render = "\rx" := rfl
  have htogether : ((ofSettings {}).indent.append ("\r" ++ "x")).render = "   \rx" := rfl
  refine ⟨hcut, htogether, ?_⟩
  rw [hcut, htogether]
  decide

end StepScript.Buffer
