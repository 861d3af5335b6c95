import StepScript.Toml.Item

/-!
TOML text as a document. The whole text has to be well formed before anything of it is read.
-/

namespace StepScript.Toml

/-- How deep arrays and inline tables may be nested, and how many parts a key may have. -/
def depthLimit : Nat := 80

/-- A key with dots, of a limited number of parts, and the text after the blanks that follow it. -/
def path? (cs : List Char) : Option (List String × List Char) := do
  let (path, rest) ← key? (cs.length + 1) cs
  if path.length < depthLimit then return (path, rest) else none

/-- The path of a header and the text after its closing brackets, whose opening ones have been read. -/
def headerPath? (brackets : Nat) (cs : List Char) : Option (List String × List Char) := do
  let (path, rest) ← path? cs
  if rest.take brackets = List.replicate brackets ']' then
    return (path, ← lineEnd? (rest.drop brackets))
  else none

/-- A key, the equals sign after it and the blanks after that. -/
def keyAndSign? (cs : List Char) : Option (List String × List Char) := do
  let (path, rest) ← path? cs
  return (path, skipBlanks (← expect? '=' rest))

mutual

/-- A value in collections nested `depth` deep. -/
def value? (depth : Nat) : (fuel : Nat) → List Char → Option (Item × List Char)
  | 0, _ => none
  | fuel + 1, cs =>
    match cs with
    | '[' :: cs =>
      if depth + 1 < depthLimit then
        (arrayItems? (depth + 1) fuel (skipLines (cs.length + 1) cs)).map
          fun (items, rest) => (.array items, rest)
      else none
    | '\x7b' :: cs =>
      if depth + 1 < depthLimit then
        match skipBlanks cs with
        | '\x7d' :: rest => some (.inline false [], rest)
        | cs => (inlineEntries? (depth + 1) fuel [] cs).map fun (es, rest) => (.inline false es, rest)
      else none
    | cs => (scalar? cs).map fun (s, rest) => (.scalar s, rest)

/-- The items of an array from the next one on; a comma may stand after the last one. -/
def arrayItems? (depth : Nat) : (fuel : Nat) → List Char → Option (List Item × List Char)
  | 0, _ => none
  | fuel + 1, cs =>
    match cs with
    | ']' :: rest => some ([], rest)
    | cs =>
      match value? depth fuel cs with
      | none => none
      | some (i, rest) =>
        match skipLines (rest.length + 1) rest with
        | ']' :: rest => some ([i], rest)
        | ',' :: rest =>
          (arrayItems? depth fuel (skipLines (rest.length + 1) rest)).map
            fun (is, rest) => (i :: is, rest)
        | _ => none

/-- The entries of an inline table: those read before and those from the next one on. -/
def inlineEntries? (depth : Nat) : (fuel : Nat) → Entries → List Char → Option (Entries × List Char)
  | 0, _, _ => none
  | fuel + 1, es, cs =>
    match keyAndSign? cs with
    | none => none
    | some (path, cs) =>
      match value? depth fuel cs with
      | none => none
      | some (i, rest) =>
        match addInline path i es with
        | none => none
        | some es =>
          match skipBlanks rest with
          | '\x7d' :: rest => some (es, rest)
          | ',' :: rest => inlineEntries? depth fuel es rest
          | _ => none

end

/-- The draft after one line that is not blank, and the text after that line. -/
def line? (d : Draft) (cs : List Char) : Option (Draft × List Char) :=
  match cs with
  | '[' :: '[' :: cs => do
    let (path, rest) ← headerPath? 2 cs
    return ((← d.repeatedHeader? path), rest)
  | '[' :: cs => do
    let (path, rest) ← headerPath? 1 cs
    return ((← d.header? path), rest)
  | cs => do
    let (path, rest) ← keyAndSign? cs
    let (i, rest) ← value? 0 (2 * rest.length + 2) rest
    return ((← d.add? path i), ← lineEnd? rest)

def lines? : (fuel : Nat) → Draft → List Char → Option Draft
  | 0, _, _ => none
  | fuel + 1, d, cs =>
    match skipLines (cs.length + 1) cs with
    | [] => some d
    | cs =>
      match line? d cs with
      | none => none
      | some (d, rest) => lines? fuel d rest

/-- The root table of a text. A byte order mark at its start does not count. -/
def root? (text : String) : Option Table := do
  let cs := text.toList
  let cs := if cs.head? = some '\uFEFF' then cs.drop 1 else cs
  (← lines? (cs.length + 1) {} cs).settle?

def read {α : Type} (readItem : Document → Except DecodeError α) (text : String) :
    Except DecodeError α :=
  match root? text with
  | none => .error .malformed
  | some root => readItem root.item.document

end StepScript.Toml
