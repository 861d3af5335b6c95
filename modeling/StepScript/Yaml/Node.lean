import StepScript.Yaml.Token

/-!
The nodes of a YAML document.

Tokens form nodes: scalars, sequences, mappings, and aliases of nodes that have an anchor. An anchor is
given a slot, numbered by how many anchor names were in use before it; an alias stands for the node
that holds the slot of its name. A collection within which the tokens stop being a document has no
end, and the node at that point is `broken`.
-/

namespace StepScript.Yaml

inductive Node where
  | scalar (slot? : Option Nat) (tag? : Option String) (style : ScalarStyle) (text : String)
  | sequence (slot? : Option Nat) (tag? : Option String) (items : List Node) (whole : Bool)
  | mapping (slot? : Option Nat) (tag? : Option String) (entries : List (Node × Node)) (whole : Bool)
  | alias (slot : Nat)
  | broken

/-- What is left to read of a document. -/
structure Tokens where
  rest : List Token
  /-- The slots of the anchor names in use. -/
  anchors : List (String × Nat) := []
  /-- The meanings of handles of tags. -/
  handles : List (String × String) := []
  /-- Whether the tokens stopped being a document. -/
  failed : Bool := false

namespace Tokens

def peek (s : Tokens) : Token := s.rest.head?.getD .broken

def skip (s : Tokens) : Tokens := { s with rest := s.rest.drop 1 }

def fail (s : Tokens) : Tokens := { s with failed := true }

/-- The handles that have a meaning without a directive. -/
def standardHandles : List (String × String) :=
  [("!", "!"), ("!!", "tag:yaml.org,2002:")]

/-- The tag that a written tag stands for, if its handle has a meaning. -/
def resolve? (s : Tokens) (t : WrittenTag) : Option String :=
  if t.handle = "" then some t.suffix
  else ((s.handles ++ standardHandles).lookup t.handle).map (· ++ t.suffix)

def define (s : Tokens) (name : String) : Nat × Tokens :=
  let slot := s.anchors.length
  (slot, { s with anchors := if (s.anchors.lookup name).isSome
    then s.anchors.map fun (n, i) => (n, if n = name then slot else i)
    else s.anchors ++ [(name, slot)] })

end Tokens

/-- What stands before the content of a node. -/
structure Properties where
  anchor? : Option String := none
  tag? : Option WrittenTag := none

/-- The anchor and the tag here, in either order. -/
def properties (s : Tokens) : Properties × Tokens :=
  match s.rest with
  | .anchor a :: .tag t :: _ => (⟨some a, some t⟩, s.skip.skip)
  | .tag t :: .anchor a :: _ => (⟨some a, some t⟩, s.skip.skip)
  | .anchor a :: _ => (⟨some a, none⟩, s.skip)
  | .tag t :: _ => (⟨none, some t⟩, s.skip)
  | _ => ({}, s)

/-- The slot of a node's anchor, if it has one. -/
def slotOf (anchor? : Option String) (s : Tokens) : Option Nat × Tokens :=
  match anchor? with
  | none => (none, s)
  | some a =>
    let (slot, s) := s.define a
    (some slot, s)

def emptyNode : Node := .scalar none none .plain ""

/-- The tag of a scalar: one that is a single exclamation mark does not count. -/
def scalarTag? (tag? : Option String) : Option String :=
  tag?.filter (· != "!")

mutual

/-- The node here, in block or flow context, where a sequence may stand without indentation or not. -/
def node (block indentless : Bool) : (fuel : Nat) → Tokens → Node × Tokens
  | 0, s => (.broken, s.fail)
  | fuel + 1, s =>
    match s.peek with
    | .alias name =>
      match s.anchors.lookup name with
      | some slot => (.alias slot, s.skip)
      | none => (.broken, s.fail)
    | _ =>
      let (p, s) := properties s
      let resolved? :=
        match p.tag? with
        | none => some none
        | some t => (s.resolve? t).map some
      match resolved? with
      | none => (.broken, s.fail)
      | some tag? =>
        match s.peek with
        | .scalar style text =>
          let (slot?, s) := slotOf p.anchor? s
          (.scalar slot? (scalarTag? tag?) style text, s.skip)
        | .flowSequenceStart =>
          let (slot?, s) := slotOf p.anchor? s
          let (items, s) := flowItems true fuel s.skip
          (.sequence slot? tag? items !s.failed, s)
        | .flowMappingStart =>
          let (slot?, s) := slotOf p.anchor? s
          let (entries, s) := flowEntries true fuel s.skip
          (.mapping slot? tag? entries !s.failed, s)
        | token =>
          if indentless && token == .blockEntry then
            let (slot?, s) := slotOf p.anchor? s
            let (items, s) := indentlessItems fuel s
            (.sequence slot? tag? items !s.failed, s)
          else if block && token == .blockSequenceStart then
            let (slot?, s) := slotOf p.anchor? s
            let (items, s) := blockItems fuel s.skip
            (.sequence slot? tag? items !s.failed, s)
          else if block && token == .blockMappingStart then
            let (slot?, s) := slotOf p.anchor? s
            let (entries, s) := blockEntries fuel s.skip
            (.mapping slot? tag? entries !s.failed, s)
          else if (p.anchor?.isSome || tag?.isSome) && token != .broken then
            let (slot?, s) := slotOf p.anchor? s
            (.scalar slot? tag? .plain "", s)
          else (.broken, s.fail)

/-- The node here, or an empty one before a token that ends its place. -/
def nodeUnless (ends : List Token) (block indentless : Bool) : (fuel : Nat) → Tokens → Node × Tokens
  | 0, s => (.broken, s.fail)
  | fuel + 1, s =>
    if s.peek == .broken then (.broken, s.fail)
    else if ends.contains s.peek then (emptyNode, s)
    else node block indentless fuel s

/-- The items of a block sequence from here on. -/
def blockItems : (fuel : Nat) → Tokens → List Node × Tokens
  | 0, s => ([], s.fail)
  | fuel + 1, s =>
    match s.peek with
    | .blockEntry =>
      let (item, s) := nodeUnless [.blockEntry, .blockEnd] true false fuel s.skip
      if s.failed then ([item], s)
      else
        let (items, s) := blockItems fuel s
        (item :: items, s)
    | .blockEnd => ([], s.skip)
    | _ => ([], s.fail)

/-- The items of a sequence without indentation from here on. -/
def indentlessItems : (fuel : Nat) → Tokens → List Node × Tokens
  | 0, s => ([], s.fail)
  | fuel + 1, s =>
    match s.peek with
    | .blockEntry =>
      let (item, s) := nodeUnless [.blockEntry, .key, .value, .blockEnd] true false fuel s.skip
      if s.failed then ([item], s)
      else
        let (items, s) := indentlessItems fuel s
        (item :: items, s)
    | .broken => ([], s.fail)
    | _ => ([], s)

/-- The entries of a block mapping from here on. -/
def blockEntries : (fuel : Nat) → Tokens → List (Node × Node) × Tokens
  | 0, s => ([], s.fail)
  | fuel + 1, s =>
    match s.peek with
    | .key =>
      let (key, s) := nodeUnless [.key, .value, .blockEnd] true true fuel s.skip
      if s.failed then ([(key, .broken)], s) else entryValue key fuel s
    | .value => ([], s.fail)
    | .blockEnd => ([], s.skip)
    | _ => ([], s.fail)

/-- The value of a block mapping's entry and the entries after it. -/
def entryValue (key : Node) : (fuel : Nat) → Tokens → List (Node × Node) × Tokens
  | 0, s => ([(key, .broken)], s.fail)
  | fuel + 1, s =>
    let (value, s) :=
      match s.peek with
      | .value => nodeUnless [.key, .value, .blockEnd] true true fuel s.skip
      | .broken => (.broken, s.fail)
      | _ => (emptyNode, s)
    if s.failed then ([(key, value)], s)
    else
      let (entries, s) := blockEntries fuel s
      ((key, value) :: entries, s)

/-- The items of a flow sequence from here on; before each but the first stands a comma. -/
def flowItems (first : Bool) : (fuel : Nat) → Tokens → List Node × Tokens
  | 0, s => ([], s.fail)
  | fuel + 1, s =>
    if s.peek == .flowSequenceEnd then ([], s.skip)
    else if !first && s.peek != .flowEntry then ([], s.fail)
    else
      let s := if first then s else s.skip
      if s.peek == .flowSequenceEnd then ([], s.skip)
      else
        let (item, s) := if s.peek == .key then flowPair fuel s.skip else node false false fuel s
        if s.failed then ([item], s)
        else
          let (items, s) := flowItems false fuel s
          (item :: items, s)

/-- The mapping of one entry that stands as an item of a flow sequence. -/
def flowPair : (fuel : Nat) → Tokens → Node × Tokens
  | 0, s => (.broken, s.fail)
  | fuel + 1, s =>
    let (key, s) :=
      if s.peek == .broken then (.broken, s.fail)
      else if [Token.value, .flowEntry, .flowSequenceEnd].contains s.peek then (emptyNode, s.skip)
      else node false false fuel s
    if s.failed then (.mapping none none [(key, .broken)] false, s)
    else
      let (value, s) :=
        match s.peek with
        | .value => nodeUnless [.flowEntry, .flowSequenceEnd] false false fuel s.skip
        | .broken => (.broken, s.fail)
        | _ => (emptyNode, s)
      (.mapping none none [(key, value)] !s.failed, s)

/-- The entries of a flow mapping from here on; before each but the first stands a comma. -/
def flowEntries (first : Bool) : (fuel : Nat) → Tokens → List (Node × Node) × Tokens
  | 0, s => ([], s.fail)
  | fuel + 1, s =>
    if s.peek == .flowMappingEnd then ([], s.skip)
    else if !first && s.peek != .flowEntry then ([], s.fail)
    else
      let s := if first then s else s.skip
      if s.peek == .flowMappingEnd then ([], s.skip)
      else
        let hasKey := s.peek == .key
        let (key, s) :=
          if hasKey then nodeUnless [.value, .flowEntry, .flowMappingEnd] false false fuel s.skip
          else node false false fuel s
        if s.failed then ([(key, .broken)], s)
        else
          let (value, s) :=
            if !hasKey then (emptyNode, s)
            else
              match s.peek with
              | .value => nodeUnless [.flowEntry, .flowMappingEnd] false false fuel s.skip
              | .broken => (.broken, s.fail)
              | _ => (emptyNode, s)
          if s.failed then ([(key, value)], s)
          else
            let (entries, s) := flowEntries false fuel s
            ((key, value) :: entries, s)

end

/-- The handles of directives ahead of a document, and the tokens after them; none for a version that
is not known or a repeated directive. -/
def directives? : (versioned : Bool) → List (String × String) → List Token →
    Option (List (String × String) × List Token)
  | versioned, handles, .directive (.version major minor) :: ts =>
    if versioned || major != 1 || !(minor == 1 || minor == 2) then none
    else directives? true handles ts
  | versioned, handles, .directive (.handle name meaning) :: ts =>
    if (handles.lookup name).isSome then none
    else directives? versioned (handles ++ [(name, meaning)]) ts
  | _, handles, ts => some (handles, ts)

/-- What a stream of tokens holds: nothing, or the root of its first document with whether the stream
goes on well and ends after it. -/
inductive Stream where
  | empty
  | document (root : Node) (ends : Bool)

/-- Whether nothing but marks of ended documents is left. -/
def endsStream (s : Tokens) : Bool :=
  !s.failed && s.rest.dropWhile (· == .documentEnd) == [.streamEnd]

def streamOf (ts : List Token) : Stream :=
  let explicit := ts.head?.any fun t => t == .documentStart || t matches .directive _
  match ts with
  | [.streamEnd] => .empty
  | _ =>
    match directives? false [] ts with
    | none => .document .broken false
    | some (handles, rest) =>
      let s : Tokens := { rest, handles }
      let fuel := 3 * ts.length + 8
      if !explicit then
        let (root, s) := node true false fuel s
        .document root (endsStream s)
      else if s.peek != .documentStart then .document .broken false
      else
        let s := s.skip
        let isEmpty :=
          match s.peek with
          | .directive _ | .documentStart | .documentEnd | .streamEnd => true
          | _ => false
        let (root, s) := if isEmpty then (emptyNode, s) else node true false fuel s
        .document root (endsStream s)

end StepScript.Yaml
