import StepScript.Text.Ascii

/-!
Localized messages.

A bundle holds message templates by key. A template names its arguments by position in braces, from
`{0}` on; each such place is replaced by the argument's text as it is, in one pass, so that the text of
an argument is never looked at again. A brace that starts no place of an argument is kept. A key without
a template gives the key itself, followed by the arguments.
-/

namespace StepScript

open Text

/-- Message templates by key; of two templates of one key the first counts. -/
structure Messages where
  templates : List (String × String)

namespace Messages

def empty : Messages := ⟨[]⟩

/-- The keys of the messages about failed transformations. -/
abbrev noSources := "structure.no_sources"
abbrev targetCount := "structure.target_count"
abbrev externalTarget := "structure.external_target"
abbrev externalSource := "structure.external_source"
abbrev sourceIsTarget := "structure.source_is_target"
abbrev unresolvedTable := "resolution.unresolved_table"
abbrev invalidLocation := "resolution.invalid_location"
abbrev missingOrderBy := "configuration.missing_order_by"
abbrev unsupportedKind := "configuration.unsupported_kind"

/-- The place of the argument at a position, as it stands in a template. -/
def place (i : Nat) : String := "\x7b" ++ toString i ++ "\x7d"

def english : Messages where
  templates := [
    (noSources, "Transformation '" ++ place 0 ++ "' has no source tables"),
    (targetCount, "Transformation '" ++ place 0 ++ "' must have exactly one target table, found " ++
      place 1),
    (externalTarget, "Target table '" ++ place 1 ++ "' of transformation '" ++ place 0 ++
      "' is an external table and cannot be replaced"),
    (externalSource, "Source table '" ++ place 1 ++ "' of transformation '" ++ place 0 ++
      "' is an external table that is not a permanent view"),
    (sourceIsTarget, "Transformation '" ++ place 0 ++ "' reads table '" ++ place 1 ++
      "' and also replaces it as its target"),
    (unresolvedTable, "Table '" ++ place 1 ++ "' referenced by transformation '" ++ place 0 ++
      "' could not be found"),
    (invalidLocation, "Table '" ++ place 1 ++ "' referenced by transformation '" ++ place 0 ++
      "' has no valid physical location: " ++ place 2),
    (missingOrderBy, "Transformation '" ++ place 0 ++
      "' requires at least one order-by column (" ++ place 1 ++ " options)"),
    (unsupportedKind, "No code generator is registered for transformation kind '" ++ place 1 ++
      "' of transformation '" ++ place 0 ++ "'")]

def withTemplate (m : Messages) (key template : String) : Messages :=
  ⟨(key, template) :: m.templates⟩

/-- The bundle with the templates of another one laid over it. -/
def mergedWith (m other : Messages) : Messages :=
  ⟨other.templates ++ m.templates⟩

def template? (m : Messages) (key : String) : Option String :=
  m.templates.lookup key

/-- The position that the inside of a pair of braces names: digits, with or without a plus sign. -/
def position? (cs : List Char) : Option Nat :=
  let digits := if cs.head? = some '+' then cs.drop 1 else cs
  if digits.isEmpty then none else numeral? 10 digits

/-- The argument whose place starts after an opening brace, with the length of the place up to its
closing brace. -/
def argument? (args : List String) (cs : List Char) : Option (String × Nat) := do
  let inside := cs.takeWhile (· != '\x7d')
  let position ← position? inside
  let arg ← args[position]?
  if inside.length < cs.length then some (arg, inside.length + 1) else none

/-- The characters of a template after `skip` further ones, with the arguments in their places. -/
def fill (args : List String) : (skip : Nat) → List Char → List Char
  | _, [] => []
  | skip + 1, _ :: cs => fill args skip cs
  | 0, c :: cs =>
    if c = '\x7b' then
      match argument? args cs with
      | some (arg, length) => arg.toList ++ fill args length cs
      | none => c :: fill args 0 cs
    else c :: fill args 0 cs

/-- A template with the arguments in their places. -/
def substitute (template : String) (args : List String) : String :=
  String.ofList (fill args 0 template.toList)

def text (m : Messages) (key : String) (args : List String) : String :=
  match m.template? key with
  | some template => substitute template args
  | none => if args.isEmpty then key else key ++ ": " ++ String.intercalate ", " args

end Messages

end StepScript
