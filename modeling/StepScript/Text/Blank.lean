/-!
White space and trimming.

A blank character is one with the Unicode property `White_Space`, a set of twenty-five characters.
`trim` takes blanks off both ends of a text and touches nothing else; a setting whose trimmed text is
empty counts as not given (`nonBlank`).
-/

namespace StepScript.Text

/-- The characters with the Unicode property `White_Space`. -/
def isBlank (c : Char) : Bool :=
  let n := c.toNat
  (9 ≤ n && n ≤ 13) || n == 0x20 || n == 0x85 || n == 0xA0 || n == 0x1680 ||
    (0x2000 ≤ n && n ≤ 0x200A) || n == 0x2028 || n == 0x2029 || n == 0x202F || n == 0x205F ||
    n == 0x3000

/-- A list of characters without the blanks at its end. -/
def dropBlanksRight (cs : List Char) : List Char :=
  (cs.reverse.dropWhile isBlank).reverse

/-- A list of characters without the blanks at either end. -/
def trimChars (cs : List Char) : List Char :=
  dropBlanksRight (cs.dropWhile isBlank)

/-- A text without the blanks at either end. -/
def trim (s : String) : String :=
  String.ofList (trimChars s.toList)

/-- The trimmed text of a setting, if that is not empty. -/
def nonBlank (s : String) : Option String :=
  let t := trim s
  if t.isEmpty then none else some t

/-- The trimmed text of an optional setting, if there is one and it is not empty. -/
def nonBlank? (s : Option String) : Option String :=
  s.bind nonBlank

@[simp] theorem toList_trim (s : String) : (trim s).toList = trimChars s.toList := by
  simp [trim]

theorem isBlank_of_isWhitespace {c : Char} (h : c.isWhitespace = true) : isBlank c = true := by
  simp only [Char.isWhitespace, Bool.or_eq_true, decide_eq_true_eq] at h
  rcases h with ((h | h) | h) | h <;> subst h <;> decide

end StepScript.Text
