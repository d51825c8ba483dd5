/-
  Homestead.Yaml.Node
  ───────────────────
  **A YAML TEXT AS A TREE.**

  A node is a text, a list or a mapping, each with the tag it was given.
  Aliases are replaced by the node they name, so a tree holds no names.  A
  text holds at most one document; a text without any has no node.
-/
import Homestead.Yaml.Token

namespace Homestead.Yaml

/-! ## §1. Trees. -/

/-- A node of a document. -/
inductive Node where
  /-- A text. -/
  | scalar (style : Style) (tag : Option String) (text : String)
  /-- A list. -/
  | sequence (tag : Option String) (items : List Node)
  /-- A mapping, in the order of the text. -/
  | mapping (tag : Option String) (entries : List (Node × Node))

/-- The node of a place where nothing was written. -/
def Node.absent : Node := .scalar .plain none ""

/-- How deep collections are nested in a node. -/
def Node.depth : Node → Nat
  | .scalar .. => 0
  | .sequence _ items => 1 + depthAll items
  | .mapping _ entries => 1 + depthEntries entries
where
  depthAll : List Node → Nat
    | [] => 0
    | n :: rest => max n.depth (depthAll rest)
  depthEntries : List (Node × Node) → Nat
    | [] => 0
    | (k, v) :: rest => max (max k.depth v.depth) (depthEntries rest)

/-- The deepest nesting that is read. -/
def maxDepth : Nat := 128

/-! ## §2. The state of the composition. -/

/-- What is left of the tokens, and what has been named. -/
structure Composition where
  /-- The tokens still to come. -/
  tokens : List Token
  /-- The named nodes, latest first; a node that is not finished has no tree yet. -/
  anchors : List (String × Option Node) := []
  /-- What tag handles stand for. -/
  handles : List (String × String) := []

/-- A step of the composition. -/
abbrev Compose := StateT Composition (Except Problem)

namespace Compose

/-- The token that comes next. -/
def peek : Compose (Option Token) :=
  return (← get).tokens.head?

/-- Passes one token. -/
def advance : Compose Unit :=
  modify fun c => { c with tokens := c.tokens.drop 1 }

/-- Passes the token if it comes next, and tells whether it did. -/
def accept (t : Token) : Compose Bool := do
  if (← peek) == some t then
    advance
    return true
  return false

/-- Passes the token, which must come next. -/
def expect (t : Token) (problem : Problem) : Compose Unit := do
  if !(← accept t) then throw problem

/-- The full form of a tag. -/
def resolveTag (handle suffix : String) : Compose String := do
  if handle == "" then return suffix
  match (← get).handles.lookup handle with
  | some stem => return stem ++ suffix
  | none => throw .badName

/-- Reads the anchor and the tag in front of a node, in either order. -/
def properties : Compose (Option String × Option String) := do
  let readAnchor : Compose (Option String) := do
    match ← peek with
    | some (.anchor name) => advance; return some name
    | _ => return none
  let readTag : Compose (Option String) := do
    match ← peek with
    | some (.tag handle suffix) => advance; return some (← resolveTag handle suffix)
    | _ => return none
  match ← readAnchor with
  | some name => return (some name, ← readTag)
  | none =>
    let tag ← readTag
    return (← readAnchor, tag)

/-- Whether the next token is one of the given ones. -/
def nextIn (ts : List (Option Token)) : Compose Bool :=
  return ts.contains (← peek)

/-! ## §3. Nodes. -/

mutual

/-- Reads a node.  Inside a block, block collections may stand; as a value of a block mapping, a
list that is not indented further may stand too. -/
def node (inBlock hangingList : Bool) : Nat → Compose Node
  | 0 => throw .tooDeep
  | fuel + 1 => do
    match ← peek with
    | some (.alias name) =>
      advance
      match (← get).anchors.lookup name with
      | some (some n) => return n
      | _ => throw .unknownAlias
    | _ =>
    let (anchor, tag) ← properties
    if let some name := anchor then
      modify fun c => { c with anchors := (name, none) :: c.anchors }
    let n ← content inBlock hangingList tag (anchor.isSome || tag.isSome) fuel
    if let some name := anchor then
      modify fun c => { c with anchors := (name, some n) :: c.anchors }
    return n

/-- Reads what follows the properties of a node. -/
def content (inBlock hangingList : Bool) (tag : Option String) (hasProperties : Bool) :
    Nat → Compose Node
  | 0 => throw .tooDeep
  | fuel + 1 => do
    match ← peek with
    | some (.scalar style text) =>
      advance
      return .scalar style (if tag == some "!" then none else tag) text
    | some .flowSequenceStart =>
      advance
      return .sequence tag (← flowItems true fuel)
    | some .flowMappingStart =>
      advance
      return .mapping tag (← flowEntries true fuel)
    | t =>
      if t == some .blockEntry && hangingList then
        return .sequence tag (← hangingItems fuel)
      else if t == some .blockSequenceStart && inBlock then
        advance
        return .sequence tag (← blockItems fuel)
      else if t == some .blockMappingStart && inBlock then
        advance
        return .mapping tag (← blockEntries fuel)
      else if hasProperties then
        return .scalar .plain tag ""
      else throw .missingNode

/-- Reads a node unless one of the given tokens follows, in which case nothing was written. -/
def nodeUnless (inBlock hangingList : Bool) (stops : List (Option Token)) : Nat → Compose Node
  | 0 => throw .tooDeep
  | fuel + 1 => do
    if ← nextIn stops then return .absent
    node inBlock hangingList fuel

/-- Reads the entries of an indented list and its end. -/
def blockItems : Nat → Compose (List Node)
  | 0 => throw .tooDeep
  | fuel + 1 => do
    if ← accept .blockEntry then
      let n ← nodeUnless true false [some .blockEntry, some .blockEnd] fuel
      return n :: (← blockItems fuel)
    expect .blockEnd .brokenCollection
    return []

/-- Reads the entries of a list that is not indented further than its mapping. -/
def hangingItems : Nat → Compose (List Node)
  | 0 => throw .tooDeep
  | fuel + 1 => do
    if ← accept .blockEntry then
      let n ← nodeUnless true false
        [some .blockEntry, some .key, some .value, some .blockEnd] fuel
      return n :: (← hangingItems fuel)
    return []

/-- Reads the entries of an indented mapping and its end. -/
def blockEntries : Nat → Compose (List (Node × Node))
  | 0 => throw .tooDeep
  | fuel + 1 => do
    let stops := [some Token.key, some .value, some .blockEnd]
    if ← accept .key then
      let k ← nodeUnless true true stops fuel
      let v ← if ← accept .value then nodeUnless true true stops fuel else pure .absent
      return (k, v) :: (← blockEntries fuel)
    else if ← accept .blockEnd then return []
    else throw .brokenCollection

/-- Reads the entries of a bracketed list and its end. -/
def flowItems (first : Bool) : Nat → Compose (List Node)
  | 0 => throw .tooDeep
  | fuel + 1 => do
    if ← accept .flowSequenceEnd then return []
    if !first then
      expect .flowEntry .brokenCollection
      if ← accept .flowSequenceEnd then return []
    let n ←
      if ← accept .key then
        let stops := [some Token.flowEntry, some .flowSequenceEnd]
        let k ←
          if ← nextIn (some .value :: stops) then
            -- Without a key the token that shows it is passed too, so a value behind it is lost.
            advance
            pure .absent
          else node false false fuel
        let v ← if ← accept .value then nodeUnless false false stops fuel else pure .absent
        pure (Node.mapping none [(k, v)])
      else node false false fuel
    return n :: (← flowItems false fuel)

/-- Reads the entries of a bracketed mapping and its end. -/
def flowEntries (first : Bool) : Nat → Compose (List (Node × Node))
  | 0 => throw .tooDeep
  | fuel + 1 => do
    if ← accept .flowMappingEnd then return []
    if !first then
      expect .flowEntry .brokenCollection
      if ← accept .flowMappingEnd then return []
    let stops := [some Token.flowEntry, some .flowMappingEnd]
    let (k, hasValue) ←
      if ← accept .key then
        let k ← nodeUnless false false (some .value :: stops) fuel
        pure (k, true)
      else
        let k ← node false false fuel
        pure (k, false)
    let v ←
      if hasValue then
        if ← accept .value then nodeUnless false false stops fuel else pure .absent
      else pure .absent
    return (k, v) :: (← flowEntries false fuel)

end

/-! ## §4. Documents. -/

/-- Passes the marks that end a document. -/
def skipEnds : Compose Unit :=
  modify fun c => { c with tokens := c.tokens.dropWhile (· == .documentEnd) }

/-- Reads the directives before a document. -/
def directives : Nat → Bool → List (String × String) → Compose (List (String × String) × Bool)
  | 0, seen, handles => return (handles, seen)
  | fuel + 1, seen, handles => do
    match ← peek with
    | some (.version major minor) =>
      if handles.any (·.1 == "%") || major != 1 || (minor != 1 && minor != 2) then
        throw .badName
      advance
      directives fuel true (("%", "") :: handles)
    | some (.tagHandle handle stem) =>
      if handles.any (·.1 == handle) then throw .badName
      advance
      directives fuel true ((handle, stem) :: handles)
    | _ => return (handles, seen)

/-- The handles that need no directive. -/
def standardHandles : List (String × String) :=
  [("!", "!"), ("!!", "tag:yaml.org,2002:")]

/-- Reads the only document, if there is one, and checks that nothing follows it. -/
def document (fuel : Nat) : Compose (Option Node) := do
  let (handles, directed) ← directives fuel false []
  modify fun c => { c with handles := handles ++ standardHandles }
  if (← peek).isNone && !directed then return none
  let explicit ← accept .documentStart
  if directed && !explicit then throw .missingNode
  let isVersion : Option Token → Bool
    | some (.version _ _) | some (.tagHandle _ _) => true
    | some .documentStart | some .documentEnd | none => true
    | _ => false
  let n ←
    if explicit && isVersion (← peek) then pure .absent
    else node true false fuel
  skipEnds
  if (← peek).isSome then throw .manyDocuments
  return some n

end Compose

/-- The tree of a text, or nothing when the text holds no document. -/
def Node.parse (text : String) : Except Problem (Option Node) := do
  let tokens ← Token.scan text.toList
  let (n, _) ← (Compose.document (4 * tokens.length + 16)).run { tokens }
  match n with
  | none => return none
  | some n => if n.depth > maxDepth then throw .tooDeep else return some n

end Homestead.Yaml
