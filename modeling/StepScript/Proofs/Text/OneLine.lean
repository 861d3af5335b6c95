import StepScript.Number.Notation
import StepScript.Proofs.Text.Trim
import StepScript.Text.Quoted
import StepScript.Value

/-! Texts without a line feed. What is put together from them, trimmed or quoted is again such a text, and so is
    the text of every number. -/

namespace StepScript
namespace Text

/-- A text without a line feed. -/
def OneLine (s : String) : Prop := '\n' ∉ s.toList

instance : DecidablePred OneLine := fun s => inferInstanceAs (Decidable ('\n' ∉ s.toList))

section OneLine
variable {s t : String} {texts : List String} {cs : List Char}

@[simp] theorem oneLine_append : OneLine (s ++ t) ↔ OneLine s ∧ OneLine t := by
  simp [OneLine]

theorem oneLine_ofList (h : '\n' ∉ cs) : OneLine (String.ofList cs) := by
  simpa [OneLine] using h

/-- Texts without line feeds, with blanks between them. -/
theorem oneLine_intercalate (h : ∀ t ∈ texts, OneLine t) : OneLine (String.intercalate " " texts) := by
  induction texts with
  | nil =>
    rw [String.intercalate_nil]
    decide
  | cons t texts ih =>
    obtain ⟨ht, htexts⟩ := List.forall_mem_cons.mp h
    cases texts with
    | nil => rwa [String.intercalate_singleton]
    | cons t' texts =>
      rw [String.intercalate_cons_of_ne_nil (List.cons_ne_nil t' texts), oneLine_append, oneLine_append]
      exact ⟨⟨ht, by decide⟩, ih htexts⟩

theorem OneLine.trim (h : OneLine s) : OneLine (trim s) := fun hmem => by
  rw [toList_trim] at hmem
  exact h (mem_of_mem_trimChars hmem)

theorem OneLine.nonBlank (h : OneLine s) (ht : nonBlank s = some t) : OneLine t := by
  obtain ⟨rfl, -⟩ := nonBlank_eq_some_iff.mp ht
  exact h.trim

theorem OneLine.nonBlank? {o : Option String} (h : ∀ s ∈ o, OneLine s) (ht : nonBlank? o = some t) : OneLine t := by
  obtain ⟨s, hs, ht⟩ := Option.bind_eq_some_iff.mp ht
  exact (h s hs).nonBlank ht

theorem Quoted.mem_of_mem_doubleQuotes {c : Char} (h : c ∈ Quoted.doubleQuotes cs) : c = '"' ∨ c ∈ cs := by
  induction cs with
  | nil => cases h
  | cons d cs ih =>
    rw [doubleQuotes] at h
    split at h <;> simp only [List.mem_cons] at h ⊢ <;> tauto

theorem OneLine.quoted (h : OneLine s) : OneLine (Quoted.write s) := by
  refine oneLine_ofList fun hmem => ?_
  simp only [List.cons_append, List.mem_cons, List.mem_append, List.not_mem_nil, or_false] at hmem
  rcases hmem with hmem | hmem | hmem
  · cases hmem
  · rcases Quoted.mem_of_mem_doubleQuotes hmem with hmem | hmem
    · cases hmem
    · exact h hmem
  · cases hmem

end OneLine

end Text

/-! ### Numbers -/

section Numbers
open Text Number

theorem newline_not_mem_toDigits (n : Nat) : '\n' ∉ Nat.toDigits 10 n := fun h => by
  have hdigit := Nat.isDigit_of_mem_toDigits (by decide) (by decide) h
  cases hdigit

theorem oneLine_toString_nat (n : Nat) : OneLine (toString n) := by
  have hrepr : toString n = n.repr := rfl
  rw [OneLine, hrepr, Nat.toList_repr]
  exact newline_not_mem_toDigits n

theorem oneLine_toString_int (i : Int) : OneLine (toString i) := by
  have hrepr : toString i = i.repr := rfl
  rw [hrepr, Int.repr_eq_if]
  split
  · exact oneLine_toString_nat _
  · exact oneLine_append.mpr ⟨by decide, oneLine_toString_nat _⟩

theorem newline_not_mem_plainText {digits : List Char} (h : '\n' ∉ digits) (exponent : Int) :
    '\n' ∉ plainText digits exponent := by
  have htake : ∀ n, '\n' ∉ digits.take n := fun n hmem => h (List.mem_of_mem_take hmem)
  have hdrop : ∀ n, '\n' ∉ digits.drop n := fun n hmem => h (List.mem_of_mem_drop hmem)
  unfold plainText
  dsimp only
  split
  · simp [h]
  · split <;> simp [htake, hdrop]

theorem newline_not_mem_scientificText {digits : List Char} (h : '\n' ∉ digits) (exponent : Int) :
    '\n' ∉ scientificText .standard digits exponent := by
  have hfirst : '\n' ∉ digits.take 1 := fun hmem => h (List.mem_of_mem_take hmem)
  have hfraction : '\n' ∉ (if (digits.drop 1).isEmpty then [] else '.' :: digits.drop 1) := by
    split
    · exact List.not_mem_nil
    · rw [List.mem_cons, not_or]
      exact ⟨by decide, fun hmem => h (List.mem_of_mem_drop hmem)⟩
  have hmark : '\n' ∉ (if exponent < 0 then Layout.standard.negativeMark else Layout.standard.positiveMark).toList := by
    split <;> decide
  unfold scientificText
  simp only [List.mem_append, not_or]
  exact ⟨⟨⟨hfirst, hfraction⟩, hmark⟩, oneLine_toString_nat _⟩

theorem Number.Binary64.oneLine_text (x : Binary64) : OneLine x.text := by
  have hmagnitude : '\n' ∉ magnitudeText .standard x := by
    unfold magnitudeText
    dsimp only
    split
    · exact newline_not_mem_plainText (oneLine_toString_nat _) _
    · exact newline_not_mem_scientificText (oneLine_toString_nat _) _
  have hbody : OneLine (if x.isZero then "0.0" else String.ofList (magnitudeText .standard x)) := by
    split
    · decide
    · exact oneLine_ofList hmagnitude
  unfold Binary64.text
  dsimp only
  split
  · exact oneLine_append.mpr ⟨by decide, hbody⟩
  · exact hbody

theorem Amount.oneLine_text (n : Amount) : OneLine n.text := by
  cases n with
  | whole i => exact oneLine_toString_int i
  | float x => exact x.oneLine_text

end Numbers

end StepScript
