import StepScript.Text.Blank
import StepScript.Transform

/-!
The option text of a category.

The name of a property is a category and an option with a point between. The options of a category are
written in the order of the properties' names: an option alone for true, `option=text` for a text or a
number, `option=(items)` for a list, nothing for false, null, a record or a blank text. After them
stand the texts of the properties whose option is `OPTIONS`, as they are. Categories and the name
`OPTIONS` are compared without regard to case.
-/

namespace StepScript.OptionText

open Text

abbrev sort := "SORT"
abbrev append := "APPEND"
abbrev system := "SYSTEM"

def literalOption := "OPTIONS"

/-- The parts of a name before and after its first point. -/
def splitName? (name : String) : Option (String × String) :=
  let cs := name.toList
  let category := cs.takeWhile (· != '.')
  if category.length < cs.length then
    some (String.ofList category, String.ofList (cs.drop (category.length + 1)))
  else none

/-- The option that a property sets in a category, if it belongs to it. -/
def optionOf? (category name : String) : Option String :=
  match splitName? name with
  | some (c, option) => if sameLetters c category ∧ option ≠ "" then some option else none
  | none => none

/-- The text of an atom within a list, if it is a text that is not blank or a number. -/
def itemText? : Value → Option String
  | .atom (.text s) => nonBlank s
  | .atom (.number n) => some n.text
  | _ => none

/-- The text of an option with its value, if the value sets it. -/
def render? (option : String) : Value → Option String
  | .atom .null => none
  | .atom (.flag b) => if b then some option else none
  | .atom (.number n) => some (option ++ "=" ++ n.text)
  | .atom (.text s) => (nonBlank s).map fun t => option ++ "=" ++ t
  | .list items =>
    let texts := items.filterMap itemText?
    if texts.isEmpty then none else some (option ++ "=(" ++ String.intercalate " " texts ++ ")")
  | .record _ => none

def literal? : Value → Option String
  | .atom (.text s) => nonBlank s
  | _ => none

/-- The options that properties set in a category, with their values. -/
def optionsOf (category : String) (entries : List (String × Value)) : List (String × Value) :=
  entries.filterMap fun (name, v) => (optionOf? category name).map (·, v)

def isLiteral (option : String) : Bool :=
  sameLetters option literalOption

/-- The option text of a category; empty if nothing is set. -/
def resolve (p : Properties) (category : String) : String :=
  let options := optionsOf category p.entries
  let rendered := (options.filter (!isLiteral ·.1)).filterMap fun (option, v) => render? option v
  let literal := (options.filter (isLiteral ·.1)).filterMap fun (_, v) => literal? v
  trim (String.intercalate " " (rendered ++ literal))

end StepScript.OptionText
