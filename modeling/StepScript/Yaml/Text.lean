import StepScript.Yaml.Scalar

/-!
YAML text as a document.

An alias stands for the node of its slot, wherever that is. Collections may be nested to a limited depth
and aliases be followed a limited number of times; what is beyond these limits reads in no place. Text
holds one document; text that holds none stands for an empty record.
-/

namespace StepScript.Yaml

def depthLimit : Nat := 128

/-- How often aliases may be followed, for each event of the document. -/
def followsPerEvent : Nat := 100

mutual

/-- The nodes that hold slots, in the order in which they start. -/
def slotHolders : Node → List (Nat × Node)
  | .scalar slot? tag? style text => (slot?.map (·, .scalar slot? tag? style text)).toList
  | .sequence slot? tag? items whole =>
    (slot?.map (·, .sequence slot? tag? items whole)).toList ++ slotHoldersOfItems items
  | .mapping slot? tag? entries whole =>
    (slot?.map (·, .mapping slot? tag? entries whole)).toList ++ slotHoldersOfEntries entries
  | .alias _ | .broken => []

/-- The nodes that hold slots in the items of a sequence. -/
def slotHoldersOfItems : List Node → List (Nat × Node)
  | [] => []
  | n :: ns => slotHolders n ++ slotHoldersOfItems ns

/-- The nodes that hold slots in the entries of a mapping. -/
def slotHoldersOfEntries : List (Node × Node) → List (Nat × Node)
  | [] => []
  | (k, v) :: es => slotHolders k ++ slotHolders v ++ slotHoldersOfEntries es

end

mutual

/-- How many events a node is read in: one for a scalar or an alias, and one for each end of a
collection. -/
def eventCount : Node → Nat
  | .scalar _ _ _ _ | .alias _ => 1
  | .sequence _ _ items whole => eventCountOfItems items + (if whole then 2 else 1)
  | .mapping _ _ entries whole => eventCountOfEntries entries + (if whole then 2 else 1)
  | .broken => 0

def eventCountOfItems : List Node → Nat
  | [] => 0
  | n :: ns => eventCount n + eventCountOfItems ns

def eventCountOfEntries : List (Node × Node) → Nat
  | [] => 0
  | (k, v) :: es => eventCount k + eventCount v + eventCountOfEntries es

end

/-- A computation that may follow aliases as often as the state says. -/
abbrev Following (α : Type) := StateM Nat α

/-- The node that an alias stands for, if it may still be followed. -/
def follow (holders : List (Nat × Node)) (slot : Nat) : Following (Option Node) := do
  match ← get with
  | 0 => return none
  | left + 1 =>
    set left
    return (holders.reverse.lookup slot)

/-- The key of an entry as a text, if it is one. -/
def keyText (holders : List (Nat × Node)) (key : Node) : Following (Option String) := do
  match key with
  | .scalar _ _ _ text => return some text
  | .alias slot =>
    match ← follow holders slot with
    | some (.scalar _ _ _ text) => return some text
    | _ => return none
  | _ => return none

def tooDeep (whole : Bool) : Document :=
  if whole then .scalar .unreadable else .cut

def collection (tag? : Option String) (whole : Bool) : Collection :=
  let name? := localTag? tag?
  { whole, untyped := name?.isNone, variant? := name?.map fun name => ⟨name, false⟩ }

/-- The document of a node that is no alias, with the documents of the nodes in it given by `inner`. -/
def document (inner : Option (Node → Following Document)) (holders : List (Nat × Node)) (n : Node) :
    Following Document :=
  match n, inner with
  | .scalar _ tag? style text, _ => return .scalar (scalar tag? style text)
  | .sequence _ _ _ whole, none => return tooDeep whole
  | .mapping _ _ _ whole, none => return tooDeep whole
  | .sequence _ tag? items whole, some inner => do
    return .sequence (collection tag? whole) (← items.mapM inner)
  | .mapping _ tag? entries whole, some inner => do
    let es ← entries.mapM fun (k, v) => do
      let key ← keyText holders k
      return (key, ← inner v)
    return .mapping (collection tag? whole) es
  | _, _ => return .cut

/-- The document of a node in collections that leave room for `depth` further ones. -/
def expand (holders : List (Nat × Node)) : (depth : Nat) → Node → Following Document
  | 0, n => resolve none n
  | depth + 1, n => resolve (some (expand holders depth)) n
where
  /-- The document of a node or of the node that it is an alias of. -/
  resolve (inner : Option (Node → Following Document)) (n : Node) : Following Document := do
    match n with
    | .alias slot =>
      match ← follow holders slot with
      | some target => document inner holders target
      | none => return .scalar .unreadable
    | n => document inner holders n

def ofRoot (root : Node) : Document :=
  ((expand (slotHolders root) depthLimit root).run (followsPerEvent * eventCount root)).1

/-- The document of a text that holds none. -/
def nothing : Document :=
  .scalar { present? := some false, isEmptyCollection := true }

/-- Reads YAML text that holds one document of the given form. -/
def read {α : Type} (readItem : Document → Except DecodeError α) (text : String) :
    Except DecodeError α :=
  match streamOf (tokens text) with
  | .empty => readItem nothing
  | .document root ends => do
    let a ← readItem (ofRoot root)
    if ends then return a else .error .malformed

end StepScript.Yaml
