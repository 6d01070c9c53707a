import Stencil.Settings.Yaml.Node
import Stencil.Settings.Yaml.Token

/-!
# Stencil — YAML documents

Nodes out of tokens. A node may carry an anchor and a tag, in either order; a reference stands for
the node whose anchor was read last under its name. Where a key, a value or an item has nothing of
its own, it is null.

Of the directives before a document only the last one counts, and it counts for that document alone.

* `Source.node`      — a node.
* `Source.documents` — the nodes of all documents.
-/

namespace Stencil.Yaml

/-- Tokens that are left, and the anchors read so far, the newest first. An anchor has no node until
its node is complete. -/
structure Source where
  tokens  : List Token
  anchors : List (String × Option Node) := []

/-- A reader of nodes. -/
abbrev SourceM (α : Type) := StateT Source Option α

namespace Source

/-- The next token. -/
def peek? : SourceM (Option Token) := return (← get).tokens.head?

/-- Passes over the next token. -/
def skip : SourceM Unit := modify fun s => { s with tokens := s.tokens.drop 1 }

/-- Whether one of the given tokens comes next. -/
def comes (tokens : List Token) : SourceM Bool := do
  match ← peek? with
  | some t => return tokens.contains t
  | none => return false

/-- What as many rounds give as there are. Each of them has to read something. -/
def collect {α : Type} (round : SourceM (Option α)) : SourceM (List α) := fun s =>
  match round s with
  | none => none
  | some (none, s') => some ([], s')
  | some (some a, s') =>
    if s'.tokens.length < s.tokens.length then
      (collect round s').map fun (as, s') => (a :: as, s')
    else none
termination_by s => s.tokens.length

/-! ## Anchors and tags -/

/-- Adds an anchor without a node, and gives its number. -/
def addAnchor (name : String) : SourceM Nat := do
  let s ← get
  set { s with anchors := (name, none) :: s.anchors }
  return s.anchors.length

/-- Gives the anchor of a number its node. -/
def setAnchor (number : Nat) (node : Node) : SourceM Unit :=
  modify fun s =>
    { s with
      anchors := s.anchors.modify (s.anchors.length - 1 - number) fun a => (a.1, some node) }

/-- The node that a reference stands for: that of the newest anchor of its name. -/
def referred (name : String) : SourceM Node := do
  match (← get).anchors.lookup name with
  | some node? => return node?.getD .bad
  | none => failure

/-- A directive that gives a handle a target. -/
abbrev Target := Option (String × String)

/-- The target that a handle has been given. -/
def targetOf? (given : Target) (handle : String) : Option String :=
  match given with
  | some (name, target) => if name == handle then some target else none
  | none => none

/-- A tag with the target of its handle. A handle with a name has to be given one. -/
def resolveTag? (given : Target) (handle suffix : String) : Option Tag :=
  match targetOf? given handle with
  | some target => some { target, suffix }
  | none =>
    if handle == "!!" then some { target := standardTarget, suffix }
    else if handle.length ≤ 1 then some { target := handle, suffix }
    else none

/-- What stands in front of a node. -/
structure Labels where
  anchor? : Option Nat := none
  tag?    : Option Tag := none

/-- Reads an anchor, if there is one. -/
def anchor? : SourceM (Option Nat) := do
  match ← peek? with
  | some (.anchor name) =>
    skip
    return some (← addAnchor name)
  | _ => return none

/-- Reads a tag, if there is one. -/
def tag? (given : Target) : SourceM (Option Tag) := do
  match ← peek? with
  | some (.tag handle suffix) =>
    skip
    match resolveTag? given handle suffix with
    | some tag => return some tag
    | none => failure
  | _ => return none

/-- Reads an anchor and a tag in either order, as far as there are any. -/
def labels (given : Target) : SourceM Labels := do
  match ← anchor? with
  | some anchor => return { anchor? := some anchor, tag? := ← tag? given }
  | none =>
    match ← tag? given with
    | some tag => return { anchor? := ← anchor?, tag? := some tag }
    | none => return {}

/-! ## Collections -/

/-- The places of a node, by the collections without brackets that may stand there. -/
inductive Place where
  /-- Between brackets: none. -/
  | flow
  /-- An item of a list, or a whole document: those that are indented. -/
  | block
  /-- A key or value of a table: also a list whose dashes stand in the column of the table. -/
  | entry
  deriving DecidableEq, Repr

/-- A way to read nodes, by their place. -/
abbrev NodeRule := Place → SourceM Node

/-- A node, or null where one of the given tokens comes next. -/
def nodeUnless (node : NodeRule) (place : Place) (tokens : List Token) : SourceM Node := do
  if ← comes tokens then return .null else node place

/-- A value after a key, null when there is none. -/
def valueUnless (node : NodeRule) (place : Place) (tokens : List Token) : SourceM Node := do
  if ← comes [.value] then
    skip
    nodeUnless node place tokens
  else return .null

/-- The items of an indented list, up to its end. -/
def blockItems (node : NodeRule) : SourceM (List Node) :=
  collect do
    match ← peek? with
    | some .blockEnd =>
      skip
      return none
    | some .dash =>
      skip
      return some (← nodeUnless node .block [.dash, .blockEnd])
    | _ => failure

/-- The items of a list in the column of the table around it. -/
def entryItems (node : NodeRule) : SourceM (List Node) :=
  collect do
    if ← comes [.dash] then
      skip
      return some (← nodeUnless node .block [.dash, .key, .value, .blockEnd])
    else return none

/-- The entries of an indented table, up to its end. -/
def blockEntries (node : NodeRule) : SourceM (List (Node × Node)) :=
  collect do
    match ← peek? with
    | some .blockEnd =>
      skip
      return none
    | some .key =>
      skip
      let key ← nodeUnless node .entry following
      return some (key, ← valueUnless node .entry following)
    | some .value => return some (.null, ← valueUnless node .entry following)
    | _ => failure
where
  /-- What may follow an empty key or value. -/
  following : List Token := [.key, .value, .blockEnd]

/-- Parts between commas up to a closing bracket; a comma may follow the last part. -/
def flowParts {α : Type} (part : SourceM α) (close : Token) : SourceM (List α) := do
  if ← comes [close] then
    skip
    return []
  else
    let first ← part
    let others ← collect do
      if ← comes [close] then
        skip
        return none
      else if ← comes [.comma] then
        skip
        if ← comes [close] then
          skip
          return none
        else return some (← part)
      else failure
    return first :: others

/-- An entry of a table between braces. A node that no colon follows is a key without a value. -/
def flowEntry (node : NodeRule) : SourceM (Node × Node) := do
  match ← peek? with
  | some .key =>
    skip
    let key ← nodeUnless node .flow (.value :: following)
    return (key, ← valueUnless node .flow following)
  | some .value => return (.null, ← valueUnless node .flow following)
  | _ => return (← node .flow, .null)
where
  /-- What may follow an empty key or value. -/
  following : List Token := [.comma, .flowTableEnd]

/-- A lone entry of a list, behind the mark of its key. An empty key takes the token after it
along. -/
def loneEntry (node : NodeRule) : SourceM Node := do
  let key ←
    if ← comes [.value, .comma, .flowListEnd] then do
      skip
      pure .null
    else node .flow
  let value ← valueUnless node .flow [.comma, .flowListEnd]
  match Node.ofTable? [(key, value)] with
  | some table => return table
  | none => failure

/-- An item of a list between brackets. -/
def flowItem (node : NodeRule) : SourceM Node := do
  if ← comes [.key] then
    skip
    loneEntry node
  else node .flow

/-- The table of entries. -/
def tableOf (entries : SourceM (List (Node × Node))) : SourceM Node := do
  match Node.ofTable? (← entries) with
  | some table => return table
  | none => failure

/-! ## Nodes -/

/-- The node behind its labels, read with `node` for the nodes inside it. Labels alone are an empty
scalar. -/
def content (node : NodeRule) (place : Place) (labels : Labels) : SourceM Node := do
  match ← peek? with
  | some (.scalar plain s) =>
    skip
    return .ofScalar plain labels.tag? s
  | some .flowList =>
    skip
    return .list (← flowParts (flowItem node) .flowListEnd)
  | some .flowTable =>
    skip
    tableOf (flowParts (flowEntry node) .flowTableEnd)
  | some .blockList =>
    if place == .flow then empty
    else
      skip
      return .list (← blockItems node)
  | some .blockTable =>
    if place == .flow then empty
    else
      skip
      tableOf (blockEntries node)
  | some .dash => if place == .entry then return .list (← entryItems node) else empty
  | _ => empty
where
  /-- An empty scalar, which has to have a label. -/
  empty : SourceM Node :=
    if labels.anchor?.isSome || labels.tag?.isSome then return .ofScalar true labels.tag? ""
    else failure

/-- A node, read with `node` for the nodes inside it. -/
def nodeWith (given : Target) (node : NodeRule) : NodeRule := fun place => do
  match ← peek? with
  | some (.reference name) =>
    skip
    referred name
  | _ =>
    let labels ← labels given
    let result ← content node place labels
    if let some number := labels.anchor? then setAnchor number result
    return result

/-- A node, nested at most `depth` deep. -/
def node (given : Target) : (depth : Nat) → NodeRule
  | 0 => fun _ => failure
  | depth + 1 => nodeWith given (node given depth)

/-! ## Documents -/

/-- Reads directives, of which one may be a version. -/
def directives : SourceM (List Target) := do
  let read ← collect do
    match ← peek? with
    | some .version =>
      skip
      return some none
    | some (.target handle target) =>
      skip
      return some (some (handle, target))
    | _ => return none
  if 1 < (read.filter Option.isNone).length then failure
  return read

/-- Passes over marks after documents. -/
def skipEnds : SourceM Unit := do
  let _ ← collect do
    if ← comes [.documentEnd] then
      skip
      return some ()
    else return none

/-- A document. It starts with its mark unless it is `bare`. -/
def document (bare : Bool) : SourceM Node := do
  modify fun s => { s with anchors := [] }
  let depth := (← get).tokens.length + 1
  let read ← directives
  if ← comes [.documentStart] then
    skip
    match ← peek? with
    | none | some .documentStart | some .documentEnd | some .version | some (.target ..) =>
      return .null
    | _ => node (read.getLast?.getD none) depth .block
  else
    if !bare || !read.isEmpty then failure
    node none depth .block

/-- Whether a directive comes next. -/
def atDirective : SourceM Bool := do
  match ← peek? with
  | some .version | some (.target ..) => return true
  | _ => return false

/-- The documents from here on. The first one may be bare, and so may one after an end mark; before
a directive there has to be an end mark. -/
def documentsFrom (bare : Bool) : (fuel : Nat) → SourceM (List Node)
  | 0 => failure
  | fuel + 1 => do
    skipEnds
    if (← get).tokens.isEmpty then return []
    let first ← document bare
    let ended ← comes [.documentEnd]
    if !ended && (← atDirective) then failure
    return first :: (← documentsFrom ended fuel)

/-- The documents of a text, given its tokens. -/
def documents? (tokens : List Token) : Option (List Node) :=
  ((documentsFrom true (tokens.length + 1)).run { tokens }).map Prod.fst

end Source

end Stencil.Yaml
