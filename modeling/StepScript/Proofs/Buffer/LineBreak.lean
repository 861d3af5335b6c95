import StepScript.Proofs.Buffer.Render
import StepScript.Proofs.Text.OneLine

/-! Line breaks of two kinds. To put a carriage return ahead of every line feed of a text changes neither where
    its lines start nor which of them are blank. So fragments may be rendered first and have their line feeds
    replaced then, or the other way round. -/

namespace StepScript

/-! ### Line feeds replaced -/

namespace Text

/-- Characters with a carriage return ahead of every line feed. -/
def crlfChars (cs : List Char) : List Char :=
  cs.flatMap fun c => if c = '\n' then ['\r', '\n'] else [c]

/-- A text with every line feed replaced by a carriage return and a line feed. -/
def crlf (s : String) : String := String.ofList (crlfChars s.toList)

/-- Every line feed of a text comes right after a carriage return. -/
def BreaksWithCrlf (s : String) : Prop :=
  ∀ ahead rest, s.toList = ahead ++ '\n' :: rest → ahead.getLast? = some '\r'

section LineFeeds
variable {s t : String} {c : Char} {cs : List Char}

theorem crlfChars_newline_cons (cs : List Char) : crlfChars ('\n' :: cs) = '\r' :: '\n' :: crlfChars cs := rfl

theorem crlfChars_cons_of_ne (h : c ≠ '\n') (cs : List Char) : crlfChars (c :: cs) = c :: crlfChars cs := by
  simp [crlfChars, h]

theorem crlfChars_append (cs ds : List Char) : crlfChars (cs ++ ds) = crlfChars cs ++ crlfChars ds :=
  List.flatMap_append

theorem crlfChars_of_not_mem (h : '\n' ∉ cs) : crlfChars cs = cs := by
  induction cs with
  | nil => rfl
  | cons c cs ih =>
    have hc : c ≠ '\n' := fun e => h (e ▸ List.mem_cons_self)
    rw [crlfChars_cons_of_ne hc, ih fun hmem => h (List.mem_cons_of_mem _ hmem)]

theorem crlf_empty : crlf "" = "" := rfl

theorem crlf_append (s t : String) : crlf (s ++ t) = crlf s ++ crlf t := by
  rw [crlf, String.toList_append, crlfChars_append, String.ofList_append, ← crlf, ← crlf]

theorem crlf_of_oneLine (h : OneLine s) : crlf s = s := by
  rw [crlf, crlfChars_of_not_mem h, String.ofList_toList]

theorem crlf_line (h : OneLine s) : crlf (s ++ "\n") = s ++ "\r\n" := by
  have hbreak : crlf "\n" = "\r\n" := rfl
  rw [crlf_append, crlf_of_oneLine h, hbreak]

theorem getLast?_of_crlfChars_eq {ahead rest : List Char} (h : crlfChars cs = ahead ++ '\n' :: rest) :
    ahead.getLast? = some '\r' := by
  induction cs generalizing ahead with
  | nil => simp [crlfChars] at h
  | cons c cs ih =>
    by_cases hc : c = '\n'
    · subst hc
      rw [crlfChars_newline_cons] at h
      match ahead, h with
      | [], h => simp at h
      | [a], h =>
        obtain ⟨rfl, -⟩ := List.cons.inj h
        rfl
      | a :: b :: ahead, h =>
        simp only [List.cons_append, List.cons.injEq] at h
        rw [List.getLast?_cons_cons, List.getLast?_cons, ih h.2.2]
        rfl
    · rw [crlfChars_cons_of_ne hc] at h
      match ahead, h with
      | [], h => exact absurd (List.cons.inj h).1 hc
      | a :: ahead, h =>
        rw [List.getLast?_cons, ih (List.cons.inj h).2]
        rfl

/-- The only line feeds of the text are those that were put after a carriage return. -/
theorem breaksWithCrlf_crlf (s : String) : BreaksWithCrlf (crlf s) := fun ahead rest h => by
  rw [crlf, String.toList_ofList] at h
  exact getLast?_of_crlfChars_eq h

end LineFeeds

end Text

/-- A fragment with every line feed of its text replaced. -/
def Fragment.crlf (f : Fragment) : Fragment := ⟨f.level, Text.crlf f.text⟩

/-! ### Rendering -/

namespace Buffer
open Text

theorem pieces_crlfChars (cs : List Char) : pieces (crlfChars cs) = (pieces cs).map crlfChars := by
  induction cs with
  | nil => rfl
  | cons c cs ih =>
    by_cases hc : c = '\n'
    · subst hc
      have hreturn : '\r' ≠ '\n' := by decide
      rw [crlfChars_newline_cons]
      simp only [pieces, if_true, hreturn, if_false, ih, List.map_cons]
      rfl
    · rw [crlfChars_cons_of_ne hc]
      simp only [pieces, hc, if_false, ih]
      cases pieces cs with
      | nil => simp [crlfChars, hc]
      | cons p ps => simp [crlfChars_cons_of_ne hc]

theorem isBlankPiece_crlfChars (p : List Char) : isBlankPiece (crlfChars p) = isBlankPiece p := by
  unfold isBlankPiece
  induction p with
  | nil => rfl
  | cons c p ih =>
    by_cases hc : c = '\n'
    · subst hc
      rw [crlfChars_newline_cons]
      simp [ih]
    · rw [crlfChars_cons_of_ne hc, List.all_cons, List.all_cons, ih]

theorem lineStartAfter_crlfChars (atLineStart : Bool) (cs : List Char) :
    lineStartAfter atLineStart (crlfChars cs) = lineStartAfter atLineStart cs := by
  induction cs generalizing atLineStart with
  | nil => rfl
  | cons c cs ih =>
    have hchars : crlfChars (c :: cs) = crlfChars [c] ++ crlfChars cs := crlfChars_append [c] cs
    have hfirst : lineStartAfter atLineStart (crlfChars [c]) = lineStartAfter atLineStart [c] := by
      by_cases hc : c = '\n'
      · subst hc
        rfl
      · rw [crlfChars_cons_of_ne hc]
        rfl
    rw [hchars, lineStartAfter_append, hfirst, ih, ← lineStartAfter_append]
    rfl

theorem renderPieces_crlfChars {indentation : List Char} (h : '\n' ∉ indentation) (atLineStart : Bool)
    {ps : List (List Char)} (hps : ∀ p ∈ ps, p ≠ []) :
    (renderPieces indentation atLineStart (ps.map crlfChars)).1 =
      crlfChars (renderPieces indentation atLineStart ps).1 := by
  induction ps generalizing atLineStart with
  | nil => rfl
  | cons p ps ih =>
    obtain ⟨hp, hps⟩ := List.forall_mem_cons.mp hps
    have hne : crlfChars p ≠ [] := by
      cases p with
      | nil => exact absurd rfl hp
      | cons c p => simp only [crlfChars, List.flatMap_cons]; split <;> simp
    have hends : endsLine (crlfChars p) = endsLine p := by
      rw [← lineStartAfter_of_ne_nil hne false, lineStartAfter_crlfChars, lineStartAfter_of_ne_nil hp]
    rw [List.map_cons, renderPieces_cons, renderPieces_cons, hends, isBlankPiece_crlfChars, ih _ hps]
    split <;> simp only [crlfChars_append, crlfChars_of_not_mem h]

theorem newline_not_mem_indentation {unit : List Char} (h : '\n' ∉ unit) (level : Nat) :
    '\n' ∉ indentation unit level := fun hmem => by
  obtain ⟨text, htext, hmem⟩ := List.mem_flatten.mp hmem
  rw [List.eq_of_mem_replicate htext] at hmem
  exact h hmem

/-- Fragments whose line feeds were replaced are rendered to what they were rendered to, with its line feeds
    replaced. -/
theorem renderFragments_crlf {unit : List Char} (h : '\n' ∉ unit) (atLineStart : Bool) (fs : List Fragment) :
    renderFragments unit atLineStart (fs.map Fragment.crlf) = crlfChars (renderFragments unit atLineStart fs) := by
  induction fs generalizing atLineStart with
  | nil => rfl
  | cons f fs ih =>
    have hindentation := newline_not_mem_indentation h f.level
    have htext : f.crlf.text.toList = crlfChars f.text.toList := String.toList_ofList
    rw [List.map_cons, renderFragments_cons, renderFragments_cons, htext, pieces_crlfChars, lineStartAfter_crlfChars,
      ih, crlfChars_append]
    exact congrArg (· ++ _) (renderPieces_crlfChars hindentation atLineStart ne_nil_of_mem_pieces)

end Buffer

end StepScript
