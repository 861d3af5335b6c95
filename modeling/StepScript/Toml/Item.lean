import StepScript.Toml.Lexeme

/-!
What TOML text is made of: scalars, arrays, inline tables, tables with headers, and arrays of tables.

A table comes into being by its header, by the header of a table within it, or by a key with dots. One
that exists only for a table within it may still get a header of its own; one that a key with dots made
may be extended by such keys only. A name is given once.
-/

namespace StepScript.Toml

/-- A part of TOML text. -/
inductive Item where
  | scalar (s : Scalar)
  | array (items : List Item)
  /-- An inline table, made by keys with dots or written as such. -/
  | inline (dotted : Bool) (entries : List (String × Item))
  /-- A table: whether it has no header of its own, and whether it was made by keys with dots. -/
  | table (implicit dotted : Bool) (entries : List (String × Item))
  /-- Tables that share a header in double brackets. -/
  | tables (elements : List (List (String × Item)))

abbrev Entries := List (String × Item)

structure Table where
  implicit : Bool := false
  dotted : Bool := false
  entries : Entries := []

def Table.item (t : Table) : Item := .table t.implicit t.dotted t.entries

/-- The entries with one of them replaced, or added at the end. -/
def putEntry (name : String) (i : Item) : Entries → Entries
  | [] => [(name, i)]
  | (n, j) :: es => if n = name then (n, i) :: es else (n, j) :: putEntry name i es

def dropEntry (name : String) (es : Entries) : Entries :=
  es.filter (·.1 != name)

/-! ### Inline tables -/

/-- The entries of an inline table with one more, whose key may have dots. -/
def addInline : (path : List String) → Item → Entries → Option Entries
  | [], _, _ => none
  | [name], i, es => if (es.lookup name).isSome then none else some (es ++ [(name, i)])
  | name :: path, i, es =>
    match es.lookup name with
    | none => (addInline path i []).map fun inner => es ++ [(name, .inline true inner)]
    | some (.inline true inner) =>
      (addInline path i inner).map fun inner => putEntry name (.inline true inner) es
    | some _ => none

/-! ### Tables -/

/-- Changes the table at a path. Tables on the way that are not there are made, by a header or by a key
with dots; a key with dots does not lead into a table that has a header. The last table counts of
those that share a header. -/
def changeAt {α : Type} (dotted : Bool) (change : Table → Option (Table × α)) :
    (path : List String) → Table → Option (Table × α)
  | [], t => change t
  | name :: path, t =>
    match t.entries.lookup name with
    | none => do
      let (inner, a) ← changeAt dotted change path { implicit := true, dotted }
      return ({ t with entries := t.entries ++ [(name, inner.item)] }, a)
    | some (.table implicit innerDotted entries) =>
      if dotted && !implicit then none
      else do
        let (inner, a) ← changeAt dotted change path ⟨implicit, innerDotted, entries⟩
        return ({ t with entries := putEntry name inner.item t.entries }, a)
    | some (.tables elements) =>
      match elements.getLast? with
      | none => none
      | some last => do
        let (inner, a) ← changeAt dotted change path { entries := last }
        return ({ t with
          entries := putEntry name (.tables (elements.dropLast ++ [inner.entries])) t.entries }, a)
    | some _ => none

/-- Adds an entry to a table, whose key may have dots. -/
def addEntry (path : List String) (i : Item) (t : Table) : Option Table := do
  let name ← path.getLast?
  let within := path.dropLast
  let add (u : Table) : Option (Table × Unit) :=
    if u.dotted == within.isEmpty then none
    else if (u.entries.lookup name).isSome then none
    else some ({ u with entries := u.entries ++ [(name, i)] }, ())
  let (t, ()) ← changeAt true add within t
  return t

/-- A document being read: the tables that are complete, and the current one with its place. -/
structure Draft where
  root : Table := {}
  /-- The path of the current table; empty for the entries before the first header. -/
  path : List String := []
  /-- Whether the current table is one of several that share a header. -/
  repeated : Bool := false
  current : Table := {}

namespace Draft

/-- Puts the current table in its place. -/
def settle? (d : Draft) : Option Table := do
  match d.path.getLast? with
  | none => return d.current
  | some name =>
    let put (u : Table) : Option (Table × Unit) :=
      if d.repeated then
        match u.entries.lookup name with
        | none => some ({ u with entries := u.entries ++ [(name, .tables [d.current.entries])] }, ())
        | some (.tables elements) =>
          some ({ u with
            entries := putEntry name (.tables (elements ++ [d.current.entries])) u.entries }, ())
        | some _ => none
      else some ({ u with entries := putEntry name d.current.item u.entries }, ())
    let (root, ()) ← changeAt false put d.path.dropLast d.root
    return root

/-- Starts the table of a header: a new one, or one that is there only for a table within it. -/
def header? (d : Draft) (path : List String) : Option Draft := do
  let root ← d.settle?
  let name ← path.getLast?
  let take (u : Table) : Option (Table × Table) :=
    match u.entries.lookup name with
    | none => some (u, {})
    | some (.table true false entries) =>
      some ({ u with entries := dropEntry name u.entries }, { entries })
    | some _ => none
  let (root, current) ← changeAt false take path.dropLast root
  return { root, path, repeated := false, current }

/-- Starts a further table of a header in double brackets. -/
def repeatedHeader? (d : Draft) (path : List String) : Option Draft := do
  let root ← d.settle?
  let name ← path.getLast?
  let check (u : Table) : Option (Table × Unit) :=
    match u.entries.lookup name with
    | none => some ({ u with entries := u.entries ++ [(name, .tables [])] }, ())
    | some (.tables _) => some (u, ())
    | some _ => none
  let (root, ()) ← changeAt false check path.dropLast root
  return { root, path, repeated := true, current := {} }

def add? (d : Draft) (path : List String) (i : Item) : Option Draft := do
  return { d with current := ← addEntry path i d.current }

end Draft

/-! ### Documents -/

/-- Whether an item is a collection without items. -/
def Item.isEmptyCollection : Item → Bool
  | .array items => items.isEmpty
  | .inline _ entries => entries.isEmpty
  | .table _ _ entries => entries.isEmpty
  | .tables elements => elements.isEmpty
  | .scalar _ => false

/-- What a table is besides its entries: a table with one entry may stand for a choice. -/
def tableCollection (es : Entries) : Collection :=
  let variant? :=
    match es with
    | [(name, i)] => some ⟨name, i.isEmptyCollection⟩
    | _ => none
  { variant? }

mutual

def Item.document : Item → Document
  | .scalar s => .scalar s
  | .array items => .sequence { positional := true } (itemDocuments items)
  | .inline _ entries => .mapping (tableCollection entries) (entryDocuments entries)
  | .table _ _ entries => .mapping (tableCollection entries) (entryDocuments entries)
  | .tables elements => .sequence { positional := true } (elementDocuments elements)

/-- The documents of the items of an array. -/
def itemDocuments : List Item → List Document
  | [] => []
  | i :: is => i.document :: itemDocuments is

/-- The documents of the entries of a table. -/
def entryDocuments : List (String × Item) → List (Option String × Document)
  | [] => []
  | (name, i) :: es => (some name, i.document) :: entryDocuments es

/-- The documents of tables that share a header. -/
def elementDocuments : List (List (String × Item)) → List Document
  | [] => []
  | es :: rest => .mapping (tableCollection es) (entryDocuments es) :: elementDocuments rest

end

end StepScript.Toml
