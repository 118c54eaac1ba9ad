import Argumentation.Markup.Token

/-!
# The structure of a document

The tokens of a document make one tree of nodes. A node is a scalar, a sequence, a mapping, or the
name of another node, and it may carry a tag and a name of its own. Where a key or a value is left
out, an empty scalar stands in its place. The functions follow the grammar of the format, one per
construct; each gives the node that it has read and the tokens behind it.
-/

namespace Argumentation.Markup

/-- The name and the tag that a node carries. -/
structure Properties where
  anchor : Option String
  tag : Option String
  deriving DecidableEq, Repr

/-- A node without a name and without a tag. -/
def Properties.none : Properties := ⟨.none, .none⟩

/-- A node of a document, with all below it. -/
inductive Tree where
  /-- The node of that name. -/
  | aliasOf (name : String)
  /-- A scalar, and whether it is written without quotes and block marks. -/
  | scalar (properties : Properties) (plain : Bool) (text : String)
  | sequence (properties : Properties) (items : List Tree)
  | mapping (properties : Properties) (entries : List (Tree × Tree))
  deriving Inhabited

namespace Tree

/-- What stands where nothing is written. -/
def empty : Tree := .scalar .none true ""

/-! ### Tags -/

/-- What the handles of tags stand for. -/
abbrev Handles := List (String × String)

/-- The handles that need no declaration. -/
def standardHandles : Handles := [("!", "!"), ("!!", "tag:yaml.org,2002:")]

/-- The tag in full. -/
def resolveTag (handles : Handles) : WrittenTag → Except Fault String
  | .verbatim tag => .ok tag
  | .shorthand handle suffix =>
    match handles.lookup handle with
    | some front => .ok (front ++ suffix)
    | none => .error .malformed

/-- The properties that stand here, name and tag in either order. -/
def readProperties (handles : Handles) : List Token → Except Fault (Properties × List Token)
  | .tag _ :: .fault f :: _ => .error f
  | .anchor name :: .tag t :: ts | .tag t :: .anchor name :: ts => do
    return (⟨some name, some (← resolveTag handles t)⟩, ts)
  | .anchor name :: ts => .ok (⟨some name, none⟩, ts)
  | .tag t :: ts => do return (⟨none, some (← resolveTag handles t)⟩, ts)
  | ts => .ok (.none, ts)

/-! ### Nodes -/

/-- The fault that arises at a token that does not fit: its own, if it is one. -/
def misfit : List Token → Fault
  | .fault f :: _ => f
  | _ => .malformed

/-- Whether the next token ends a member of a sequence before anything is written. -/
def endsMember : List Token → Bool
  | .blockEntry :: _ | .blockEnd :: _ => true
  | _ => false

/-- Whether the next token ends a key or a value of a mapping before anything is written. -/
def endsEntry : List Token → Bool
  | .key :: _ | .value :: _ | .blockEnd :: _ => true
  | _ => false

/-- Whether the next token ends a key between brackets before anything is written. -/
def endsFlowKey : List Token → Bool
  | .value :: _ | .flowEntry :: _ | .flowSequenceEnd :: _ | .flowMappingEnd :: _ => true
  | _ => false

/-- Whether the next token ends a value between brackets before anything is written. -/
def endsFlowValue : List Token → Bool
  | .flowEntry :: _ | .flowSequenceEnd :: _ | .flowMappingEnd :: _ => true
  | _ => false

/-- The most nodes that may lie inside each other. -/
def nestingLimit : Nat := 485

/-- The room that is left inside a node. -/
def enter : (room : Nat) → Except Fault Nat
  | 0 => .error .nesting
  | room + 1 => .ok room

/-- Where a node stands, which decides what it may be. -/
inductive Position where
  /-- Between brackets: no blocks. -/
  | flow
  /-- In a block. -/
  | block
  /-- In an entry of a block mapping, where a sequence need not be indented. -/
  | entry
  deriving DecidableEq

mutual

/-- Reads a node. It and the nodes inside it may lie `room` deep inside each other. -/
def readNode (handles : Handles) (position : Position) (room : Nat) :
    (fuel : Nat) → List Token → Except Fault (Tree × List Token)
  | 0, _ => .error .malformed
  | _ + 1, .aliasOf name :: ts => do
    let _ ← enter room
    return (.aliasOf name, ts)
  | fuel + 1, ts => do
    let room ← enter room
    let (properties, ts) ← readProperties handles ts
    match ts with
    | .scalar plain text :: ts => return (.scalar properties plain text, ts)
    | .flowSequenceStart :: ts =>
      let (items, ts) ← readFlowItems handles room true fuel ts
      return (.sequence properties items, ts)
    | .flowMappingStart :: ts =>
      let (entries, ts) ← readFlowEntries handles room true fuel ts
      return (.mapping properties entries, ts)
    | .blockEntry :: _ =>
      if position = .entry then
        let (items, ts) ← readLooseItems handles room fuel ts
        return (.sequence properties items, ts)
      else readNothing properties ts
    | .blockSequenceStart :: rest =>
      if position = .flow then readNothing properties ts
      else
        let (items, ts) ← readItems handles room fuel rest
        return (.sequence properties items, ts)
    | .blockMappingStart :: rest =>
      if position = .flow then readNothing properties ts
      else
        let (entries, ts) ← readEntries handles room fuel rest
        return (.mapping properties entries, ts)
    | ts => readNothing properties ts
termination_by structural fuel => fuel

/-- An empty scalar, where at least its properties are written. -/
def readNothing (properties : Properties) (ts : List Token) : Except Fault (Tree × List Token) :=
  if properties = .none then .error (misfit ts)
  else match ts with
    | .fault f :: _ => .error f
    | ts => .ok (.scalar properties true "", ts)

/-- Reads the members of a block sequence up to its end. -/
def readItems (handles : Handles) (room : Nat) : (fuel : Nat) → List Token →
    Except Fault (List Tree × List Token)
  | fuel + 1, .blockEntry :: ts => do
    let (item, ts) ←
      if endsMember ts then pure (empty, ts) else readNode handles .block room fuel ts
    let (items, ts) ← readItems handles room fuel ts
    return (item :: items, ts)
  | _, .blockEnd :: ts => .ok ([], ts)
  | _, ts => .error (misfit ts)
termination_by structural fuel => fuel

/-- Reads the members of a sequence that is not indented, up to the first token of another kind. -/
def readLooseItems (handles : Handles) (room : Nat) : (fuel : Nat) → List Token →
    Except Fault (List Tree × List Token)
  | fuel + 1, .blockEntry :: ts => do
    let (item, ts) ←
      if endsMember ts || endsEntry ts then pure (empty, ts)
      else readNode handles .block room fuel ts
    let (items, ts) ← readLooseItems handles room fuel ts
    return (item :: items, ts)
  | _, ts => .ok ([], ts)
termination_by structural fuel => fuel

/-- Reads the entries of a block mapping up to its end. -/
def readEntries (handles : Handles) (room : Nat) : (fuel : Nat) → List Token →
    Except Fault (List (Tree × Tree) × List Token)
  | fuel + 1, .key :: ts => do
    let (key, ts) ←
      if endsEntry ts then pure (empty, ts) else readNode handles .entry room fuel ts
    let (value, ts) ← readEntryValue handles room fuel ts
    let (entries, ts) ← readEntries handles room fuel ts
    return ((key, value) :: entries, ts)
  | _, .blockEnd :: ts => .ok ([], ts)
  | _, ts => .error (misfit ts)
termination_by structural fuel => fuel

/-- Reads the value of an entry of a block mapping, if one is written. -/
def readEntryValue (handles : Handles) (room : Nat) : (fuel : Nat) → List Token →
    Except Fault (Tree × List Token)
  | fuel + 1, .value :: ts =>
    if endsEntry ts then .ok (empty, ts) else readNode handles .entry room fuel ts
  | _, ts => .ok (empty, ts)
termination_by structural fuel => fuel

/-- Reads the members between square brackets. A comma stands in front of all but the first. -/
def readFlowItems (handles : Handles) (room : Nat) (first : Bool) : (fuel : Nat) → List Token →
    Except Fault (List Tree × List Token)
  | _, .flowSequenceEnd :: ts => .ok ([], ts)
  | 0, ts => .error (misfit ts)
  | fuel + 1, ts => do
    let ts ← match first, ts with
      | true, ts => pure ts
      | false, .flowEntry :: ts => pure ts
      | false, ts => throw (misfit ts)
    match ts with
    | .flowSequenceEnd :: ts => return ([], ts)
    | .key :: ts =>
      let (entry, ts) ← readFlowEntry handles room fuel ts
      let (items, ts) ← readFlowItems handles room false fuel ts
      return (.mapping .none [entry] :: items, ts)
    | ts =>
      let (item, ts) ← readNode handles .flow room fuel ts
      let (items, ts) ← readFlowItems handles room false fuel ts
      return (item :: items, ts)
termination_by structural fuel => fuel

/-- Reads the entries between braces. A comma stands in front of all but the first. -/
def readFlowEntries (handles : Handles) (room : Nat) (first : Bool) : (fuel : Nat) → List Token →
    Except Fault (List (Tree × Tree) × List Token)
  | _, .flowMappingEnd :: ts => .ok ([], ts)
  | 0, ts => .error (misfit ts)
  | fuel + 1, ts => do
    let ts ← match first, ts with
      | true, ts => pure ts
      | false, .flowEntry :: ts => pure ts
      | false, ts => throw (misfit ts)
    match ts with
    | .flowMappingEnd :: ts => return ([], ts)
    | .key :: ts =>
      let (entry, ts) ← readFlowEntry handles room fuel ts
      let (entries, ts) ← readFlowEntries handles room false fuel ts
      return (entry :: entries, ts)
    | ts =>
      let (key, ts) ← readNode handles .flow room fuel ts
      let (entries, ts) ← readFlowEntries handles room false fuel ts
      return ((key, empty) :: entries, ts)
termination_by structural fuel => fuel

/-- Reads an entry between brackets whose mark in front of the key has been read. -/
def readFlowEntry (handles : Handles) (room : Nat) : (fuel : Nat) → List Token →
    Except Fault ((Tree × Tree) × List Token)
  | 0, ts => .error (misfit ts)
  | fuel + 1, ts => do
    let (key, ts) ←
      if endsFlowKey ts then pure (empty, ts) else readNode handles .flow room fuel ts
    match ts with
    | .value :: ts =>
      if endsFlowValue ts then return ((key, empty), ts)
      else
        let (value, ts) ← readNode handles .flow room fuel ts
        return ((key, value), ts)
    | ts => return ((key, empty), ts)
termination_by structural fuel => fuel

end

/-! ### Documents -/

/-- Reads the directives at the head of a document: at most one version, which has to be of the
first kind, and at most one declaration of each handle. -/
def readDirectives (versioned : Bool) (handles : Handles) : List Token →
    Except Fault (Handles × List Token)
  | .directive (.version major) :: ts =>
    if versioned || major ≠ 1 then .error .malformed else readDirectives true handles ts
  | .directive (.tag handle front) :: ts =>
    if (handles.lookup handle).isSome then .error .malformed
    else readDirectives versioned ((handle, front) :: handles) ts
  | .directive .unknown :: ts => readDirectives versioned handles ts
  | ts => .ok (handles, ts)

/-- Whether the next token ends a document before anything is written. -/
def endsDocument : List Token → Bool
  | .directive _ :: _ | .documentStart :: _ | .documentEnd :: _ | .streamEnd :: _ => true
  | _ => false

/-- Reads the end of the only document. Directives that follow it are read before it is found that
there is no other document for them. -/
def readEnd : List Token → Except Fault Unit
  | .documentEnd :: ts => readEnd ts
  | [.streamEnd] => .ok ()
  | ts => do throw (misfit (← readDirectives false [] ts).2)

/-- Reads the node of a document that starts with a marker. -/
def readContent (handles : Handles) (fuel : Nat) (ts : List Token) :
    Except Fault (Tree × List Token) :=
  if endsDocument ts then .ok (empty, ts) else readNode handles .block nestingLimit fuel ts

/-- The tree that the tokens make. A text without a document has none, and one with several is
malformed. -/
def ofTokens (ts : List Token) : Except Fault (Option Tree) := do
  let fuel := 4 * ts.length + 4
  match ts with
  | [.streamEnd] => return none
  | .directive _ :: _ | .documentStart :: _ =>
    match ← readDirectives false [] ts with
    | (handles, .documentStart :: ts) =>
      let (tree, ts) ← readContent (handles ++ standardHandles) fuel ts
      readEnd ts
      return some tree
    | (_, ts) => throw (misfit ts)
  | ts =>
    let (tree, ts) ← readNode standardHandles .block nestingLimit fuel ts
    readEnd ts
    return some tree

end Tree

end Argumentation.Markup
