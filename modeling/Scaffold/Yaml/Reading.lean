import Scaffold.Yaml.Graph
import Scaffold.Yaml.Value

/-!
Reading YAML text.

The graph of a text is unfolded into a document. A node that contains itself is
unfolded a few times, and then a knot stands in its place. When several parts are
faulty the outermost counts, and of those at one depth the first.

* `flatten`: the entries of a mapping with those that are merged into it.
* `unfold`: the document of a node.
* `Yaml.read`: the document of a text.
-/

namespace Scaffold.Yaml

/-- A value, or a fault with the depth at which it lies. -/
abbrev Unfolded (α : Type) := Except (Nat × YamlFault) α

/-- Two values together; of two faults the outer one counts, or else the first. -/
def both {α β γ : Type} (f : α → β → γ) : Unfolded α → Unfolded β → Unfolded γ
  | .ok a, .ok b => .ok (f a b)
  | .error e, .ok _ => .error e
  | .ok _, .error e => .error e
  | .error e, .error e' => .error (if e'.1 < e.1 then e' else e)

/-- A fault at a depth. -/
def atDepth {α : Type} (depth : Nat) (result : Except YamlFault α) : Unfolded α :=
  result.mapError fun fault => (depth, fault)

namespace Graph

/-- The shape of a node. -/
def shape (g : Graph) (id : Nat) : Shape :=
  g.nodes.getD id .unfinished

/-- The tag of a node. -/
def tag (g : Graph) (id : Nat) : Tag :=
  match g.shape id with
  | .scalar tag _ => tag
  | .sequence tag _ => tag
  | .mapping tag _ => tag
  | .unfinished => .null

/-! ### Merged entries -/

/-- The pairs of a mapping whose keys do not ask for merging. -/
def ownPairs (g : Graph) (pairs : List (Nat × Nat)) : List (Nat × Nat) :=
  pairs.filter fun pair => g.tag pair.1 != .merge

mutual

/-- The pairs of a mapping, behind those merged into it; the nodes on the way here are
not merged again. -/
def flatten (g : Graph) : Nat → List Nat → List (Nat × Nat) → Except YamlFault (List (Nat × Nat))
  | 0, _, pairs => .ok (g.ownPairs pairs)
  | fuel + 1, path, pairs => do
    let merged ← (pairs.filter fun pair => g.tag pair.1 == .merge).mapM fun pair =>
      mergedFrom g fuel path pair.2
    return merged.flatten ++ g.ownPairs pairs

/-- The pairs that a node merges into a mapping: its own, or those of its items, the
last item first. -/
def mergedFrom (g : Graph) : Nat → List Nat → Nat → Except YamlFault (List (Nat × Nat))
  | 0, _, _ => .ok []
  | fuel + 1, path, id =>
    match g.shape id with
    | .mapping _ pairs =>
      if path.contains id then .ok (g.ownPairs pairs) else flatten g fuel (id :: path) pairs
    | .sequence _ items => do
      let parts ← items.mapM fun item =>
        match g.shape item with
        | .mapping _ pairs =>
          if path.contains item then .ok (g.ownPairs pairs) else flatten g fuel (item :: path) pairs
        | _ => .error (.malformed "expected a mapping for merging")
      return parts.reverse.flatten
    | _ => .error (.malformed "expected a mapping or list of mappings for merging")

end

/-- A bound for the depth of merging. -/
def mergeFuel (g : Graph) : Nat := 2 * g.nodes.size + 2

/-! ### Scalars -/

/-- The text of a node that is used as a scalar: a mapping stands for the value of its
default key. -/
def textOf (g : Graph) : Nat → Nat → Except YamlFault String
  | 0, _ => .error .tooDeep
  | fuel + 1, id =>
    match g.shape id with
    | .scalar _ text => .ok text
    | .mapping _ pairs =>
      match pairs.find? fun pair => g.tag pair.1 == .default with
      | some pair => textOf g fuel pair.2
      | none => .error (.malformed "expected a scalar node")
    | _ => .error (.malformed "expected a scalar node")

/-- Whether the value of a node with a tag is a list, a set or a mapping. -/
def isCompound : Tag → Bool
  | .sequence => true
  | .orderedMap => true
  | .pairs => true
  | .set => true
  | .mapping => true
  | _ => false

/-- The value of a node with the tag of a scalar. -/
def scalarAt (g : Graph) (id : Nat) : Except YamlFault Document := do
  let tag := g.tag id
  match g.shape id with
  | .scalar _ text => scalarValue tag text
  | _ =>
    match tag with
    | .merge | .default | .unknown _ => scalarValue tag ""
    | _ =>
      let text ← g.textOf (g.nodes.size + 1) id
      if tag == .moment then throw .momentKind else scalarValue tag text

/-- The value of a key. -/
def keyAt (g : Graph) (id : Nat) : Except YamlFault Document :=
  match g.shape id with
  | .scalar .default text => .ok (.text text)
  | _ => if isCompound (g.tag id) then .error (.malformed "found unhashable key") else g.scalarAt id

/-! ### Unfolding -/

/-- The number of times that a node is unfolded inside itself. -/
def knotDepth : Nat := 3

/-- The only pair of a node that is a mapping of one pair. -/
def onlyPair (g : Graph) (id : Nat) : Except YamlFault (Nat × Nat) :=
  match g.shape id with
  | .mapping _ [pair] => .ok pair
  | _ => .error (.malformed "expected a single mapping item")

/-- The document of a node below the nodes of a path; the first argument bounds the
length of the path. -/
def unfold (g : Graph) : Nat → List Nat → Nat → Unfolded Document
  | 0, _, _ => .ok .knot
  | fuel + 1, path, id =>
    let depth := path.length
    if !isCompound (g.tag id) then atDepth depth (g.scalarAt id)
    else if path.count id > knotDepth then .ok .knot
    else
      let inner := unfold g fuel (id :: path)
      let malformed (reason : String) : Unfolded Document := .error (depth + 1, .malformed reason)
      let entries (pairs : List (Nat × Nat)) : Unfolded (List (Document × Document)) :=
        pairs.foldr (fun pair rest =>
          both List.cons (both Prod.mk (atDepth (depth + 1) (g.keyAt pair.1)) (inner pair.2)) rest)
          (.ok [])
      match g.tag id, g.shape id with
      | .sequence, .sequence _ items =>
        (items.foldr (fun item rest => both List.cons (inner item) rest) (.ok [])).map .list
      | .orderedMap, .sequence _ items | .pairs, .sequence _ items =>
        (items.foldr (fun item rest =>
          both List.cons
            (match g.onlyPair item with
              | .error fault => .error (depth + 1, fault)
              | .ok pair => both (fun key value => Document.tuple [key, value])
                  (inner pair.1) (inner pair.2)) rest) (.ok [])).map .list
      | .mapping, .mapping _ pairs => do
        let pairs ← atDepth (depth + 1) (g.flatten g.mergeFuel [id] pairs)
        let found ← entries pairs
        return .mapping (found.foldl (fun done entry => Document.put entry.1 entry.2 done) [])
      | .set, .mapping _ pairs => do
        let pairs ← atDepth (depth + 1) (g.flatten g.mergeFuel [id] pairs)
        let found ← entries pairs
        let unique := found.foldl (fun done entry => Document.put entry.1 .null done) []
        return .set (unique.map (·.1))
      | .mapping, _ | .set, _ => malformed "expected a mapping node"
      | _, _ => malformed "expected a sequence node"

/-- The document of a graph. -/
def toDocument (g : Graph) : Except YamlFault Document :=
  (g.unfold ((knotDepth + 2) * (g.nodes.size + 1)) [] g.root).mapError (·.2)

end Graph

/-- The document of a text; a text without documents denotes nothing. -/
def read (text : String) : Except YamlFault Document := do
  match ← Graph.ofTokens (tokensOf text) with
  | none => return .null
  | some g => g.toDocument

end Scaffold.Yaml
