import Scaffold.Yaml.Tag
import Scaffold.Yaml.Token.Stream

/-!
The node graph of a YAML text.

Nodes refer to one another by number, so that two references to one node, or a
reference from within a node to itself, need nothing special.

* `Shape`, `Graph`: nodes and all nodes of a text.
* `Compose`: the reading of tokens, with the nodes read so far.
* `node`: the node ahead; the other readers are those of its parts.
* `Graph.ofTokens`: the graph of the only document of a text.
-/

namespace Scaffold.Yaml

/-- A node. -/
inductive Shape
  /-- A scalar. -/
  | scalar (tag : Tag) (text : String)
  /-- A list of nodes. -/
  | sequence (tag : Tag) (items : List Nat)
  /-- Pairs of nodes. -/
  | mapping (tag : Tag) (pairs : List (Nat × Nat))
  /-- A list or mapping that is still being read. -/
  | unfinished
  deriving Repr

/-- The nodes of a text, of which one stands for the whole. -/
structure Graph where
  /-- The nodes. -/
  nodes : Array Shape
  /-- The number of the whole. -/
  root : Nat
  deriving Repr

/-- The reading of tokens. -/
structure Compose where
  /-- The tokens that are left. -/
  tokens : List Token
  /-- The nodes read so far. -/
  nodes : Array Shape
  /-- The nodes that have names. -/
  names : List (String × Nat)
  /-- What handles stand for at the head of tags. -/
  handles : List (String × String)
  deriving Repr

namespace Compose

/-- The next token. -/
def head (s : Compose) : Token := s.tokens.headD .streamEnd

/-- The reading behind the next token. -/
def next (s : Compose) : Compose := { s with tokens := s.tokens.tail }

/-- One more node, with its number. -/
def add (shape : Shape) (s : Compose) : Nat × Compose :=
  (s.nodes.size, { s with nodes := s.nodes.push shape })

/-- One more node, which may have a name. -/
def addNamed (name : Option String) (shape : Shape) (s : Compose) : Nat × Compose :=
  let (id, s) := s.add shape
  (id, { s with names := match name with
    | some name => (name, id) :: s.names
    | none => s.names })

/-- The shape of a node that was unfinished. -/
def finish (id : Nat) (shape : Shape) (s : Compose) : Compose :=
  { s with nodes := s.nodes.setIfInBounds id shape }

/-- The reading fails: at the cause why the tokens end, if they do. -/
def unexpected {α : Type} (reason : String) (s : Compose) : Except YamlFault α :=
  match s.head with
  | .fault cause => .error cause
  | _ => .error (.malformed reason)

end Compose

/-- What stands in front of a node. -/
structure Properties where
  /-- The name of the node. -/
  anchor : Option String
  /-- The tag of the node, as written in full. -/
  tag : Option String

/-- The tag that a handle and a rest stand for. -/
def expandTag (s : Compose) : Option String → String → Except YamlFault String
  | none, rest => .ok rest
  | some handle, rest =>
    match s.handles.lookup handle with
    | some expansion => .ok (expansion ++ rest)
    | none => .error (.malformed "found undefined tag handle")

/-- The name and the tag ahead, in either order. -/
def properties (s : Compose) : Except YamlFault (Properties × Compose) := do
  match s.head with
  | .anchor name =>
    match s.next.head with
    | .tag handle rest => return (⟨some name, some (← expandTag s handle rest)⟩, s.next.next)
    | _ => return (⟨some name, none⟩, s.next)
  | .tag handle rest =>
    let tag ← expandTag s handle rest
    match s.next.head with
    | .anchor name => return (⟨some name, some tag⟩, s.next.next)
    | _ => return (⟨none, some tag⟩, s.next)
  | _ => return (⟨none, none⟩, s)

/-- The tag of a list or mapping: the written one, unless this leaves the choice. -/
def collectionTag (written : Option String) (usual : Tag) : Tag :=
  match written with
  | none => usual
  | some "!" => usual
  | some name => Tag.ofText name

/-- The tag of a scalar. -/
def scalarTag (written : Option String) (plain : Bool) (text : String) : Tag :=
  match written with
  | none => if plain then resolvePlain text else .text
  | some "!" => resolvePlain text
  | some name => Tag.ofText name

/-- The node of nothing. -/
def emptyNode (s : Compose) : Nat × Compose :=
  s.add (.scalar (resolvePlain "") "")

/-- The greatest number of lists and mappings around a node. -/
def nestingLimit : Nat := 490

/-- Where the readers of nodes may start. -/
structure Place where
  /-- Whether a block may start. -/
  block : Bool
  /-- Whether a list may start at the column of the mapping around it. -/
  indentless : Bool
  /-- The number of lists and mappings around. -/
  depth : Nat

mutual

/-- The node ahead; the first argument bounds the number of calls. -/
def node : Nat → Place → Compose → Except YamlFault (Nat × Compose)
  | 0, _, _ => .error .tooDeep
  | fuel + 1, place, s => do
    if place.depth > nestingLimit then throw .tooDeep
    match s.head with
    | .reference name =>
      match s.names.lookup name with
      | some id => return (id, s.next)
      | none => throw (.malformed "found undefined alias")
    | _ =>
      let (given, s) ← properties s
      if given.anchor.any fun name => (s.names.lookup name).isSome then
        throw (.malformed "found duplicate anchor")
      let inner (block : Bool) : Place := ⟨block, false, place.depth + 1⟩
      let open_ (s : Compose) := s.addNamed given.anchor .unfinished
      let sequence (id : Nat) (read : List Nat × Compose) : Nat × Compose :=
        (id, read.2.finish id (.sequence (collectionTag given.tag .sequence) read.1))
      let mapping (id : Nat) (read : List (Nat × Nat) × Compose) : Nat × Compose :=
        (id, read.2.finish id (.mapping (collectionTag given.tag .mapping) read.1))
      match s.head with
      | .blockEntry =>
        if place.indentless then
          let (id, s) := open_ s
          return sequence id (← indentlessItems fuel (inner true) s)
        else emptyOr given s
      | .scalar plain text =>
        return s.next.addNamed given.anchor (.scalar (scalarTag given.tag plain text) text)
      | .flowSequenceStart =>
        let (id, s) := open_ s.next
        return sequence id (← flowItems fuel (inner false) true s)
      | .flowMappingStart =>
        let (id, s) := open_ s.next
        return mapping id (← flowPairs fuel (inner false) true s)
      | .blockSequenceStart =>
        if place.block then
          let (id, s) := open_ s.next
          return sequence id (← blockItems fuel (inner true) s)
        else emptyOr given s
      | .blockMappingStart =>
        if place.block then
          let (id, s) := open_ s.next
          return mapping id (← blockPairs fuel (inner true) s)
        else emptyOr given s
      | _ => emptyOr given s

/-- The empty scalar of a name or a tag, and a fault without either. -/
def emptyOr (given : Properties) (s : Compose) : Except YamlFault (Nat × Compose) :=
  match given.anchor, given.tag with
  | none, none => s.unexpected "expected the node content"
  | _, tag => .ok (s.addNamed given.anchor (.scalar (scalarTag tag true "") ""))

/-- The items of a list with lines of its own. -/
def blockItems : Nat → Place → Compose → Except YamlFault (List Nat × Compose)
  | 0, _, _ => .error .tooDeep
  | fuel + 1, place, s =>
    match s.head with
    | .blockEntry => do
      let s := s.next
      let (item, s) ← match s.head with
        | .blockEntry => pure (emptyNode s)
        | .blockEnd => pure (emptyNode s)
        | _ => node fuel place s
      let (items, s) ← blockItems fuel place s
      return (item :: items, s)
    | .blockEnd => .ok ([], s.next)
    | _ => s.unexpected "expected the end of a block"

/-- The items of a list at the column of the mapping around it. -/
def indentlessItems : Nat → Place → Compose → Except YamlFault (List Nat × Compose)
  | 0, _, _ => .error .tooDeep
  | fuel + 1, place, s =>
    match s.head with
    | .blockEntry => do
      let s := s.next
      let (item, s) ← match s.head with
        | .blockEntry => pure (emptyNode s)
        | .key => pure (emptyNode s)
        | .value => pure (emptyNode s)
        | .blockEnd => pure (emptyNode s)
        | _ => node fuel place s
      let (items, s) ← indentlessItems fuel place s
      return (item :: items, s)
    | .fault cause => .error cause
    | _ => .ok ([], s)

/-- The key or value ahead in a mapping with lines of its own. -/
def blockPart : Nat → Place → Compose → Except YamlFault (Nat × Compose)
  | 0, _, _ => .error .tooDeep
  | fuel + 1, place, s =>
    match s.head with
    | .key => .ok (emptyNode s)
    | .value => .ok (emptyNode s)
    | .blockEnd => .ok (emptyNode s)
    | _ => node fuel ⟨true, true, place.depth⟩ s

/-- The pairs of a mapping with lines of its own. -/
def blockPairs : Nat → Place → Compose → Except YamlFault (List (Nat × Nat) × Compose)
  | 0, _, _ => .error .tooDeep
  | fuel + 1, place, s => do
    match s.head with
    | .key =>
      let (key, s) ← blockPart fuel place s.next
      let (value, s) ← match s.head with
        | .value => blockPart fuel place s.next
        | .fault cause => throw cause
        | _ => pure (emptyNode s)
      let (pairs, s) ← blockPairs fuel place s
      return ((key, value) :: pairs, s)
    | .blockEnd => return ([], s.next)
    | _ => s.unexpected "expected the end of a block"

/-- The items of a list between brackets; the flag says that none has been read. -/
def flowItems : Nat → Place → Bool → Compose → Except YamlFault (List Nat × Compose)
  | 0, _, _, _ => .error .tooDeep
  | fuel + 1, place, first, s => do
    match s.head with
    | .flowSequenceEnd => return ([], s.next)
    | head =>
      let s ← if first then pure s else match head with
        | .flowEntry => pure s.next
        | _ => s.unexpected "expected ',' or ']'"
      match s.head with
      | .flowSequenceEnd => return ([], s.next)
      | .key =>
        let (item, s) ← flowPair fuel place s.next
        let (items, s) ← flowItems fuel place false s
        return (item :: items, s)
      | _ =>
        let (item, s) ← node fuel place s
        let (items, s) ← flowItems fuel place false s
        return (item :: items, s)

/-- The mapping of a single pair in a list between brackets. -/
def flowPair : Nat → Place → Compose → Except YamlFault (Nat × Compose)
  | 0, _, _ => .error .tooDeep
  | fuel + 1, place, s => do
    let inner : Place := ⟨false, false, place.depth + 1⟩
    let (id, s) := s.add .unfinished
    let (key, s) ← match s.head with
      | .value => pure (emptyNode s)
      | .flowEntry => pure (emptyNode s)
      | .flowSequenceEnd => pure (emptyNode s)
      | _ => node fuel inner s
    let (value, s) ← match s.head with
      | .value =>
        match s.next.head with
        | .flowEntry => pure (emptyNode s.next)
        | .flowSequenceEnd => pure (emptyNode s.next)
        | _ => node fuel inner s.next
      | .fault cause => throw cause
      | _ => pure (emptyNode s)
    return (id, s.finish id (.mapping .mapping [(key, value)]))

/-- The pairs of a mapping between brackets; the flag says that none has been
read. -/
def flowPairs : Nat → Place → Bool → Compose → Except YamlFault (List (Nat × Nat) × Compose)
  | 0, _, _, _ => .error .tooDeep
  | fuel + 1, place, first, s => do
    match s.head with
    | .flowMappingEnd => return ([], s.next)
    | head =>
      let s ← if first then pure s else match head with
        | .flowEntry => pure s.next
        | _ => s.unexpected "expected ',' or a closing bracket"
      match s.head with
      | .flowMappingEnd => return ([], s.next)
      | .key =>
        let s := s.next
        let (key, s) ← match s.head with
          | .value => pure (emptyNode s)
          | .flowEntry => pure (emptyNode s)
          | .flowMappingEnd => pure (emptyNode s)
          | _ => node fuel place s
        let (value, s) ← match s.head with
          | .value =>
            match s.next.head with
            | .flowEntry => pure (emptyNode s.next)
            | .flowMappingEnd => pure (emptyNode s.next)
            | _ => node fuel place s.next
          | .fault cause => throw cause
          | _ => pure (emptyNode s)
        let (pairs, s) ← flowPairs fuel place false s
        return ((key, value) :: pairs, s)
      | _ =>
        let (key, s) ← node fuel place s
        let (value, s) := emptyNode s
        let (pairs, s) ← flowPairs fuel place false s
        return ((key, value) :: pairs, s)

end

/-! ### Documents -/

/-- The handles that need no directive. -/
def usualHandles : List (String × String) :=
  [("!", "!"), ("!!", tagHead)]

/-- The directives ahead: whether a version has been given, and the handles. -/
def directives : List Token → Bool → List (String × String) →
    Except YamlFault (List Token × List (String × String))
  | .directive .other :: tokens, versioned, handles => directives tokens versioned handles
  | .directive (.version major _) :: tokens, versioned, handles =>
    if versioned then .error (.malformed "found duplicate YAML directive")
    else if major != 1 then .error (.malformed "found incompatible YAML document")
    else directives tokens true handles
  | .directive (.handle name expansion) :: tokens, versioned, handles =>
    if (handles.lookup name).isSome then .error (.malformed "duplicate tag handle")
    else directives tokens versioned ((name, expansion) :: handles)
  | tokens, _, handles => .ok (tokens, handles)

/-- Whether a token stands between documents. -/
def isBetween : Token → Bool
  | .directive _ => true
  | .documentStart => true
  | .documentEnd => true
  | .streamEnd => true
  | _ => false

/-- The document ahead, whose start mark has been passed. -/
def content (s : Compose) : Except YamlFault (Nat × Compose) :=
  if isBetween s.head then .ok (emptyNode s)
  else node (4 * s.tokens.length + 4) ⟨true, false, 0⟩ s

/-- The document with its mark ahead, or none at the end of the text. -/
def markedDocument (s : Compose) : Except YamlFault (Option (Nat × Compose)) := do
  let rest := s.tokens.dropWhile (· == .documentEnd)
  match rest with
  | .streamEnd :: _ => return none
  | _ =>
    let (tokens, handles) ← directives rest false []
    match tokens with
    | .documentStart :: tokens =>
      return some (← content { s with tokens, handles := handles ++ usualHandles, names := [] })
    | _ => Compose.unexpected "expected the start of a document" { s with tokens }

/-- The tokens after a document: nothing but marks until the text ends. -/
def checkEnd (s : Compose) : Except YamlFault Unit :=
  match s.tokens.dropWhile (· == .documentEnd) with
  | .streamEnd :: _ => .ok ()
  | .fault cause :: _ => .error cause
  | _ => .error (.malformed "expected a single document in the stream")

/-- The graph of the only document among some tokens; a text without documents has
none. -/
def Graph.ofTokens (tokens : List Token) : Except YamlFault (Option Graph) := do
  let s : Compose := ⟨tokens, #[], [], usualHandles⟩
  let found ← match s.head with
    | .directive _ | .documentStart | .streamEnd => markedDocument s
    | _ => (node (4 * tokens.length + 4) ⟨true, false, 0⟩ s).map some
  match found with
  | none => return none
  | some (root, s) =>
    checkEnd s
    return some ⟨s.nodes, root⟩

end Scaffold.Yaml
