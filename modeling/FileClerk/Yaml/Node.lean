import FileClerk.Yaml.Kind
import FileClerk.Yaml.TokenStream

/-!
# Nodes of YAML

The nodes of a document, read from its tokens. A node is a scalar, a sequence or a mapping, each of
a kind. The nodes are the places of a graph: a member of a collection is given by its place, and an
alias is the place of the node with its anchor. An anchor comes before its aliases and is set once;
as a collection is placed before its members, they may be aliases for it. A text holds at most one
document.

Every reader of nodes is given a bound on its depth, which the number of tokens sets.
-/

set_option autoImplicit false

namespace FileClerk.Yaml

/-- What a node holds, its members being given by their places. -/
inductive Content where
  | scalar (text : String)
  | sequence (items : List Nat)
  | mapping (entries : List (Nat × Nat))
  deriving DecidableEq, Repr

/-- A node of a document. -/
structure Node where
  kind : Kind
  content : Content
  deriving DecidableEq, Repr

/-- The nodes of a document at their places. -/
abbrev Graph := Array Node

/-! ## Reading -/

/-- What is left of the tokens, the nodes read so far, and the places of those with anchors. -/
structure Remaining where
  tokens : List Token
  graph : Graph
  anchors : List (String × Nat)

/-- A reader of nodes. -/
abbrev NodeReader := StateT Remaining (Except Fault)

/-- The text is malformed at this place. -/
def refuse {α : Type} : NodeReader α := throw .malformed

/-- The next token. -/
def nextToken? : NodeReader (Option Token) := do
  match (← get).tokens.head? with
  | some (.failure fault) => throw fault
  | token => return token

/-- The next token is passed over. -/
def dropToken : NodeReader Unit := modify fun r => { r with tokens := r.tokens.drop 1 }

/-- The next token is passed over if it is the given one. -/
def takeToken (token : Token) : NodeReader Bool := do
  if (← nextToken?) == some token then
    dropToken
    return true
  else return false

/-- The next token, which has to be the given one, is passed over. -/
def expect (token : Token) : NodeReader Unit := do
  if ← takeToken token then return else refuse

/-- The next token is among the given ones. -/
def nextIsAmong (tokens : List Token) : NodeReader Bool := do
  return (← nextToken?).any tokens.contains

/-- The handles of tags with their meanings. -/
abbrev Handles := List (String × String)

/-- The handles that need no directive. -/
def standardHandles : Handles := [("!", "!"), ("!!", tagStart)]

/-- What stands before a node: its anchor and its tag. -/
structure Properties where
  anchor : Option String
  tag : Option String

/-- A tag as it is written: its handle, if it has one, and the rest. -/
abbrev WrittenTag := Option String × String

/-- The tag at the place. -/
def takeTag : NodeReader (Option WrittenTag) := do
  match ← nextToken? with
  | some (.tag handle suffix) =>
    dropToken
    return some (handle, suffix)
  | _ => return none

/-- The anchor at the place. -/
def takeAnchor : NodeReader (Option String) := do
  match ← nextToken? with
  | some (.anchor name) =>
    dropToken
    return some name
  | _ => return none

/-- A tag in full; its handle needs a meaning. -/
def fullTag (handles : Handles) : Option WrittenTag → NodeReader (Option String)
  | none => return none
  | some (none, suffix) => return some suffix
  | some (some handle, suffix) =>
    match handles.lookup handle with
    | none => refuse
    | some meaning => return some (meaning ++ suffix)

/-- The properties of a node, in either order. -/
def takeProperties (handles : Handles) : NodeReader Properties := do
  match ← takeAnchor with
  | some anchor => return ⟨some anchor, ← fullTag handles (← takeTag)⟩
  | none =>
    match ← takeTag with
    | none => return ⟨none, none⟩
    | some tag =>
      let anchor ← takeAnchor
      return ⟨anchor, ← fullTag handles (some tag)⟩

namespace Properties

/-- The node has neither an anchor nor a tag. -/
def isEmpty (p : Properties) : Bool := p.anchor.isNone && p.tag.isNone

/-- The kind of a scalar. An exclamation mark as a tag stands for the kind of a plain scalar. -/
def scalarKind (p : Properties) (text : String) (plain : Bool) : Kind :=
  match p.tag with
  | none => if plain then .ofPlain text else .text
  | some tag => if tag == "!" then .ofPlain text else .ofAddress tag

/-- The kind of a collection whose kind without a tag is `standard`. -/
def collectionKind (p : Properties) (standard : Kind) : Kind :=
  match p.tag with
  | none => standard
  | some tag => if tag == "!" then standard else .ofAddress tag

end Properties

/-! ## Places -/

/-- The place of a new node without an anchor. -/
def place (node : Node) : NodeReader Nat := do
  let r ← get
  set { r with graph := r.graph.push node }
  return r.graph.size

/-- The place of a new node with its anchor, which must be new too. -/
def placeWith (p : Properties) (node : Node) : NodeReader Nat := do
  match p.anchor with
  | none => place node
  | some name =>
    if ((← get).anchors.lookup name).isSome then refuse
    else
      let found ← place node
      modify fun r => { r with anchors := (name, found) :: r.anchors }
      return found

/-- The place of the empty node. -/
def placeEmpty : NodeReader Nat := place ⟨.null, .scalar ""⟩

/-- The place of a scalar. -/
def placeScalar (p : Properties) (text : String) (plain : Bool) : NodeReader Nat :=
  placeWith p ⟨p.scalarKind text plain, .scalar text⟩

/-- The place of a sequence, whose items are read once it has its place. -/
def placeSequence (p : Properties) (items : NodeReader (List Nat)) : NodeReader Nat := do
  let kind := p.collectionKind .sequence
  let found ← placeWith p ⟨kind, .sequence []⟩
  let items ← items
  modify fun r => { r with graph := r.graph.setIfInBounds found ⟨kind, .sequence items⟩ }
  return found

/-- The place of a mapping, whose entries are read once it has its place. -/
def placeMapping (p : Properties) (entries : NodeReader (List (Nat × Nat))) : NodeReader Nat := do
  let kind := p.collectionKind .mapping
  let found ← placeWith p ⟨kind, .mapping []⟩
  let entries ← entries
  modify fun r => { r with graph := r.graph.setIfInBounds found ⟨kind, .mapping entries⟩ }
  return found

/-- The place of the node that an alias stands for. -/
def aliased (name : String) : NodeReader Nat := do
  match (← get).anchors.lookup name with
  | none => refuse
  | some found => return found

/-- The place of a node without content, which needs properties. -/
def placeBare (p : Properties) : NodeReader Nat :=
  if p.isEmpty then refuse else placeScalar p "" true

/-! ## Nodes -/

mutual

/-- A node. Block collections are allowed on request, and so is a block sequence that is not
indented more than the mapping it stands in. -/
def node (handles : Handles) (block bare : Bool) : Nat → NodeReader Nat
  | 0 => refuse
  | fuel + 1 => do
    if let some (.alias name) ← nextToken? then
      dropToken
      aliased name
    else
      let properties ← takeProperties handles
      content handles block bare properties fuel

/-- The content of a node behind its properties. -/
def content (handles : Handles) (block bare : Bool) (p : Properties) : Nat → NodeReader Nat
  | 0 => refuse
  | fuel + 1 => do
    match ← nextToken? with
    | some .dash =>
      if bare then placeSequence p (bareItems handles fuel) else placeBare p
    | some (.scalar text plain) =>
      dropToken
      placeScalar p text plain
    | some .openBracket =>
      dropToken
      placeSequence p (flowItems handles true fuel)
    | some .openBrace =>
      dropToken
      placeMapping p (flowEntries handles true fuel)
    | some .blockSequence =>
      if block then
        dropToken
        placeSequence p (blockItems handles fuel)
      else placeBare p
    | some .blockMapping =>
      if block then
        dropToken
        placeMapping p (blockEntries handles fuel)
      else placeBare p
    | _ => placeBare p

/-- A node, or the empty node before one of the given tokens. -/
def nodeUnless (handles : Handles) (block bare : Bool) (ends : List Token) : Nat → NodeReader Nat
  | 0 => refuse
  | fuel + 1 => do
    if ← nextIsAmong ends then placeEmpty else node handles block bare fuel

/-- The items of a block sequence up to its end. -/
def blockItems (handles : Handles) : Nat → NodeReader (List Nat)
  | 0 => refuse
  | fuel + 1 => do
    if ← takeToken .dash then
      let item ← nodeUnless handles true false [.dash, .blockEnd] fuel
      return item :: (← blockItems handles fuel)
    else
      expect .blockEnd
      return []

/-- The items of a block sequence that ends where its mapping goes on. -/
def bareItems (handles : Handles) : Nat → NodeReader (List Nat)
  | 0 => refuse
  | fuel + 1 => do
    if ← takeToken .dash then
      let item ← nodeUnless handles true false [.dash, .key, .value, .blockEnd] fuel
      return item :: (← bareItems handles fuel)
    else return []

/-- The entries of a block mapping up to its end. -/
def blockEntries (handles : Handles) : Nat → NodeReader (List (Nat × Nat))
  | 0 => refuse
  | fuel + 1 => do
    let ends := [Token.key, .value, .blockEnd]
    if ← takeToken .key then
      let key ← nodeUnless handles true true ends fuel
      let value ← if ← takeToken .value then nodeUnless handles true true ends fuel
        else placeEmpty
      return (key, value) :: (← blockEntries handles fuel)
    else
      expect .blockEnd
      return []

/-- The items of a sequence in brackets up to the closing one. An item that is a single entry of a
mapping stands for that mapping. -/
def flowItems (handles : Handles) (first : Bool) : Nat → NodeReader (List Nat)
  | 0 => refuse
  | fuel + 1 => do
    if ← takeToken .closeBracket then return []
    else
      if !first then expect .comma
      if ← takeToken .key then
        let key ← nodeUnless handles false false [.value, .comma, .closeBracket] fuel
        let value ← if ← takeToken .value then
            nodeUnless handles false false [.comma, .closeBracket] fuel
          else placeEmpty
        let item ← place ⟨.mapping, .mapping [(key, value)]⟩
        return item :: (← flowItems handles false fuel)
      else if ← takeToken .closeBracket then return []
      else
        let item ← node handles false false fuel
        return item :: (← flowItems handles false fuel)

/-- The entries of a mapping in braces up to the closing one. -/
def flowEntries (handles : Handles) (first : Bool) : Nat → NodeReader (List (Nat × Nat))
  | 0 => refuse
  | fuel + 1 => do
    if ← takeToken .closeBrace then return []
    else
      if !first then expect .comma
      if ← takeToken .key then
        let key ← nodeUnless handles false false [.value, .comma, .closeBrace] fuel
        let value ← if ← takeToken .value then
            nodeUnless handles false false [.comma, .closeBrace] fuel
          else placeEmpty
        return (key, value) :: (← flowEntries handles false fuel)
      else if ← takeToken .closeBrace then return []
      else
        let key ← node handles false false fuel
        let value ← placeEmpty
        return (key, value) :: (← flowEntries handles false fuel)

end

/-! ## Documents -/

/-- The directives of a document, as the handles they set: the version is given at most once and is
1, and a handle has one meaning. -/
def directives (versionSeen : Bool) (handles : Handles) : Nat → NodeReader Handles
  | 0 => refuse
  | fuel + 1 => do
    match ← nextToken? with
    | some (.directive (.version major)) =>
      if versionSeen || major != 1 then refuse
      else
        dropToken
        directives true handles fuel
    | some (.directive (.handle name meaning)) =>
      if (handles.lookup name).isSome then refuse
      else
        dropToken
        directives versionSeen ((name, meaning) :: handles) fuel
    | some (.directive .other) =>
      dropToken
      directives versionSeen handles fuel
    | _ => return handles

/-- The rest of the tokens are ends of documents. -/
def endText : Nat → NodeReader Unit
  | 0 => refuse
  | fuel + 1 => do
    if ← takeToken .documentEnd then endText fuel
    else if (← nextToken?).isNone then return
    else
      let _ ← directives false [] fuel
      let _ ← nextToken?
      refuse

/-- A token behind the start of a document that means that the document is empty. -/
def emptiesDocument : Token → Bool
  | .directive _ => true
  | .documentStart => true
  | .documentEnd => true
  | _ => false

/-- The place of the root of a document that starts here. -/
def root (handles : Handles) (fuel : Nat) : NodeReader Nat := do
  let found ← node handles true false fuel
  endText fuel
  return found

/-- The place of the root of the only document; there may be none. -/
def document (fuel : Nat) : NodeReader (Option Nat) := do
  match ← nextToken? with
  | none => return none
  | some (.directive _) | some .documentStart =>
    let handles ← directives false [] fuel
    expect .documentStart
    if (← nextToken?).all emptiesDocument then
      let found ← placeEmpty
      endText fuel
      return some found
    else return some (← root (handles ++ standardHandles) fuel)
  | _ => return some (← root standardHandles fuel)

/-- The nodes of the document among tokens, with the place of its root. -/
def nodesOf (tokens : List Token) : Except Fault (Graph × Option Nat) := do
  let (root, r) ← (document (4 * tokens.length + 8)).run ⟨tokens, #[], []⟩
  return (r.graph, root)

end FileClerk.Yaml
