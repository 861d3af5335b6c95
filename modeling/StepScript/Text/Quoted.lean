/-!
Double-quoted literals of the generated language.

A literal stands between double quotes and writes a quote of its text twice. `read` takes a literal
off the front of a text: the first quote that is not doubled ends it. Reading what was written gives
the text back, whatever follows, as long as that does not start with a quote (`read_write`).
-/

namespace StepScript.Text.Quoted

/-- The characters of a literal's inside: every quote twice. -/
def doubleQuotes : List Char → List Char
  | [] => []
  | c :: cs => if c = '"' then '"' :: '"' :: doubleQuotes cs else c :: doubleQuotes cs

def write (s : String) : String :=
  String.ofList ('"' :: doubleQuotes s.toList ++ ['"'])

/-- The text of a literal whose opening quote has been read, and what follows the closing one. -/
def readInside : List Char → Option (List Char × List Char)
  | [] => none
  | '"' :: '"' :: cs => (readInside cs).map fun (text, rest) => ('"' :: text, rest)
  | '"' :: cs => some ([], cs)
  | c :: cs => (readInside cs).map fun (text, rest) => (c :: text, rest)

/-- The text of the literal at the front of a text, and what follows it. -/
def read : List Char → Option (List Char × List Char)
  | '"' :: cs => readInside cs
  | _ => none

theorem readInside_doubleQuotes (cs rest : List Char) (h : rest.head? ≠ some '"') :
    readInside (doubleQuotes cs ++ '"' :: rest) = some (cs, rest) := by
  induction cs with
  | nil =>
    cases rest with
    | nil => rfl
    | cons r rest =>
      have hr : r ≠ '"' := fun e => h (by simp [e])
      simp only [doubleQuotes, List.nil_append]
      rw [readInside]
      intro cs e
      cases e
      exact hr rfl
  | cons c cs ih =>
    by_cases hc : c = '"'
    · subst hc
      simp [doubleQuotes, readInside, ih]
    · simp only [doubleQuotes, hc, if_false, List.cons_append]
      rw [readInside]
      · simp [ih]
      · exact fun _ e => absurd e hc
      · exact fun e => hc e

/-- A written literal is read back, if no quote follows it. -/
theorem read_write (s : String) (rest : List Char) (h : rest.head? ≠ some '"') :
    read ((write s).toList ++ rest) = some (s.toList, rest) := by
  have := readInside_doubleQuotes s.toList rest h
  simpa [write, read] using this

end StepScript.Text.Quoted
