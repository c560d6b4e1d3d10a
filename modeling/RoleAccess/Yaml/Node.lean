import RoleAccess.NameMap
import RoleAccess.Yaml.Token

/-!
# Nodes of a YAML text

A node is a scalar, a sequence, a mapping, or an alias, which stands for a node with an anchor. A
text holds one document at most, and a document one node.
-/

namespace RoleAccess.Yaml

/-- What is said of a node before its content. Anchors are numbered. -/
structure Properties where
  anchor : Option Nat := none
  tag : Option Tag := none

inductive Node where
  | alias (anchor : Nat)
  | scalar (properties : Properties) (plain : Bool) (text : String)
  | sequence (properties : Properties) (items : List Node)
  | mapping (properties : Properties) (pairs : List (Node × Node))

namespace Node

instance : Inhabited Node := ⟨.scalar {} true ""⟩

/-- A node that is left out. -/
def absent : Node := scalar {} true ""

def anchor? : Node → Option Nat
  | .alias _ => none
  | scalar properties _ _ => properties.anchor
  | sequence properties _ => properties.anchor
  | mapping properties _ => properties.anchor

mutual

/-- A node and the nodes in it, in the order in which they begin. -/
def nodes : Node → List Node
  | sequence properties items => sequence properties items :: nodesOfItems items
  | mapping properties pairs => mapping properties pairs :: nodesOfPairs pairs
  | node => [node]

def nodesOfItems : List Node → List Node
  | [] => []
  | item :: items => nodes item ++ nodesOfItems items

def nodesOfPairs : List (Node × Node) → List Node
  | [] => []
  | (key, value) :: pairs => nodes key ++ (nodes value ++ nodesOfPairs pairs)

end

/-! ## Reading -/

/-- What is known while the nodes of a document are read. -/
structure Context where
  tokens : List Token
  handles : NameMap Octets
  anchors : NameMap Nat := .empty

/-- Reading that may fail. -/
abbrev Reader := StateT Context Option

namespace Reader

def peek : Reader (Option Token) := return (← get).tokens.head?

def drop : Reader Unit := modify fun c => { c with tokens := c.tokens.tail }

/-- Takes the next token if it is the given one. -/
def accept (token : Token) : Reader Bool := do
  if (← peek) = some token then
    drop
    return true
  else return false

def expect (token : Token) : Reader Unit := do
  if ← accept token then return else failure

/-- Whether the next token is one of those given. -/
def isAt (tokens : List Token) : Reader Bool := return (← peek).any tokens.contains

/-- The tag that a handle and a suffix make. -/
def resolveTag (handle : String) (suffix : Octets) : Reader (Option Tag) := do
  if handle.isEmpty then return Tag.ofOctets? suffix
  else
    match (← get).handles.get? handle with
    | some uri => return Tag.ofOctets? (uri ++ suffix)
    | none => failure

/-- The number of the anchor that the node which begins gets by its name. It is how many names there
are before; a name that is given again adds none, so the next new name gets the same number. -/
def number (name : String) : Reader Nat := do
  let anchor := (← get).anchors.size
  modify fun c => { c with anchors := c.anchors.insert name anchor }
  return anchor

def anchor? : Reader (Option Nat) := do
  match ← peek with
  | some (.anchor name) =>
    drop
    return some (← number name)
  | _ => return none

/-- The tag of a node, if one is written. -/
def tag? : Reader (Option (Option Tag)) := do
  match ← peek with
  | some (.tag handle suffix) =>
    drop
    return some (← resolveTag handle suffix)
  | _ => return none

/-- The properties of a node, in either order, and whether there are any. -/
def properties : Reader (Properties × Bool) := do
  let first ← anchor?
  let tag ← tag?
  let anchor ← if first.isSome then pure first else anchor?
  return (⟨anchor, tag.join⟩, anchor.isSome || tag.isSome)

end Reader

open Reader

mutual

/-- Reads a node. Where `block` is not set it has to be in flow style, and only where `level` is set
a sequence may stand at the column of the mapping around it. -/
def read (block level : Bool) : Nat → Reader Node
  | 0 => failure
  | fuel + 1 => do
    match ← peek with
    | some (.alias name) =>
      drop
      match (← get).anchors.get? name with
      | some anchor => return .alias anchor
      | none => failure
    | _ =>
      let (properties, optional) ← properties
      readContent block level optional properties fuel

/-- Reads a node after its properties. With `optional` it may be left out. The tag of a lone
exclamation mark says nothing about a scalar that is written. -/
def readContent (block level optional : Bool) (properties : Properties) : Nat → Reader Node
  | 0 => failure
  | fuel + 1 => do
    match ← peek with
    | some (.scalar plain text) =>
      drop
      return .scalar { properties with tag := properties.tag.filter (· ≠ .bare) } plain text
    | some .flowSequence =>
      drop
      return .sequence properties (← readItems true fuel)
    | some .flowMapping =>
      drop
      return .mapping properties (← readPairs true fuel)
    | some .entry =>
      if level then return .sequence properties (← readEntries true fuel)
      else if optional then return .scalar properties true ""
      else failure
    | some .blockSequence =>
      if block then do
        drop
        return .sequence properties (← readEntries false fuel)
      else failure
    | some .blockMapping =>
      if block then do
        drop
        return .mapping properties (← readEntryPairs fuel)
      else failure
    | _ => if optional then return .scalar properties true "" else failure

/-- Reads the entries of a block sequence. One at the `level` of a mapping ends without a mark. -/
def readEntries (level : Bool) : Nat → Reader (List Node)
  | 0 => failure
  | fuel + 1 => do
    if ← accept .entry then
      let ends := if level then [.entry, .key, .value, .blockEnd] else [.entry, .blockEnd]
      let node ← if ← isAt ends then pure absent else read true false fuel
      return node :: (← readEntries level fuel)
    else if level then return []
    else do
      expect .blockEnd
      return []

/-- Reads the pairs of a block mapping. -/
def readEntryPairs : Nat → Reader (List (Node × Node))
  | 0 => failure
  | fuel + 1 => do
    if ← accept .blockEnd then return []
    else
      let hasKey ← accept .key
      if !hasKey then failure
      let ends := [.key, .value, .blockEnd]
      let key ← if ← isAt ends then pure absent else read true true fuel
      let value ← if ← accept .value then
          if ← isAt ends then pure absent else read true true fuel
        else pure absent
      return (key, value) :: (← readEntryPairs fuel)

/-- Reads the items in brackets. An item with a key is a mapping of one pair. -/
def readItems (first : Bool) : Nat → Reader (List Node)
  | 0 => failure
  | fuel + 1 => do
    if ← accept .flowSequenceEnd then return []
    else
      if !first then expect .separator
      if ← accept .flowSequenceEnd then return []
      else if ← accept .key then
        let pair ← readPair .flowSequenceEnd fuel
        return .mapping {} [pair] :: (← readItems false fuel)
      else
        let node ← read false false fuel
        return node :: (← readItems false fuel)

/-- Reads the pairs in braces. A key without a question mark or colon has no value. -/
def readPairs (first : Bool) : Nat → Reader (List (Node × Node))
  | 0 => failure
  | fuel + 1 => do
    if ← accept .flowMappingEnd then return []
    else
      if !first then expect .separator
      if ← accept .flowMappingEnd then return []
      else if ← accept .key then
        let pair ← readPair .flowMappingEnd fuel
        return pair :: (← readPairs false fuel)
      else
        let key ← read false false fuel
        return (key, absent) :: (← readPairs false fuel)

/-- Reads a pair in flow style, up to a separator or the given end. In brackets the mark before which
a key is left out is taken in its place. -/
def readPair (close : Token) : Nat → Reader (Node × Node)
  | 0 => failure
  | fuel + 1 => do
    let key ← if ← isAt [.value, .separator, close] then do
        if close = .flowSequenceEnd then drop
        pure absent
      else read false false fuel
    let value ← if ← accept .value then
        if ← isAt [.separator, close] then pure absent else read false false fuel
      else pure absent
    return (key, value)

end

/-! ## Documents -/

/-- The handles that need no directive. -/
def standardHandles : NameMap Octets :=
  .ofList [("!", octets "!"), ("!!", octets "tag:yaml.org,2002:")]

/-- The directives before a document, each given once, and the other tokens. -/
def directives? (versioned : Bool) (handles : NameMap Octets) :
    List Token → Option (Bool × NameMap Octets × List Token)
  | .version major minor :: tokens =>
    if versioned || major ≠ 1 || minor ≠ 1 && minor ≠ 2 then none
    else directives? true handles tokens
  | .tagHandle handle uri :: tokens =>
    if handles.contains handle then none
    else directives? versioned (handles.insert handle uri) tokens
  | tokens => some (versioned || !handles.isEmpty, handles, tokens)

/-- The node of the document that a text holds, or none if it holds no document. -/
def ofText? (text : String) : Option (Option Node) := do
  let tokens ← Token.ofText? text
  if tokens.isEmpty then return none
  else
    let (directed, handles, rest) ← directives? false .empty tokens
    let handles := handles.mergeWith (fun own _ => own) standardHandles
    let explicit := rest.head? = some .documentStart
    if directed && !explicit then none
    else
      let rest := if explicit then rest.tail else rest
      let isEmpty := explicit && rest.head?.all [.documentStart, .documentEnd].contains
      let (node, context) ←
        if isEmpty then some (absent, { tokens := rest, handles })
        else (read true false (4 * rest.length + 4)).run { tokens := rest, handles }
      if context.tokens.all (· = .documentEnd) then return some node else none

end Node

end RoleAccess.Yaml
