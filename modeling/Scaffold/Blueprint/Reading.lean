import Scaffold.Blueprint.Basic
import Scaffold.Shape.Decoder

/-!
Reading blueprints from their dictionary layout.

* `Field.decode`, `Relation.decode`, `Endpoint.decode`, `Surface.decode`,
  `ErrorDefinition.decode`: the parts; fields, relations and endpoints may have
  further members, the other parts may not.
* `LayoutFault`: why a document is no layout at all.
* `Blueprint.ofDocument`: the blueprint of a layout. Errors come first: each is
  read on its own, and the first bad one ends the reading.
-/

namespace Scaffold

open Shape Reading

/-- The decoder of fields. -/
def Field.decode : Decoder Field :=
  record "Field" <|
    (((((((done Field.mk).apply (required "name" text)).apply (required "type" text)).apply
      (absentAsNone "rules" text)).apply (defaulted "default" anything .null)).apply
      (defaulted "precision" anything .null)).apply (defaulted "scale" anything .null)).apply
      (defaulted "nullable" anything .null)

/-- The decoder of relations. -/
def Relation.decode : Decoder Relation :=
  record "Relation" <|
    ((((done Relation.mk).apply (required "type" text)).apply (required "target" text)).apply
      (required "field" text)).apply (absentAsNone "rules" text)

/-- The decoder of endpoints. -/
def Endpoint.decode : Decoder Endpoint :=
  record "Endpoint" <|
    (((((((done Endpoint.mk).apply (required "type" text)).apply
      (absentAsNone "name" text)).apply (absentAsNone "field" text)).apply
      (defaulted "fields" (tupleOf text) [])).apply (absentAsNone "by" text)).apply
      (absentAsNone "method" text)).apply (absentAsNone "path" text)

/-- The decoder of shown relations. -/
def Include.decode : Decoder Include :=
  strictRecord "ResourceInclude" ["relation", "alias", "resource"] <|
    (((done Include.mk).apply (required "relation" text)).apply (required "alias" text)).apply
      (absentAsNone "resource" text)

/-- The decoder of the list of shown relations. -/
def Include.decodeAll : Decoder (List Include) :=
  strictRecord "ApiResources" ["includes"] (defaulted "includes" (tupleOf Include.decode) [])

/-- The decoder of interfaces. -/
def Surface.decode : Decoder Surface :=
  strictRecord "ApiSurface" ["base_path", "middleware", "resources", "endpoints"] <|
    ((((done Surface.mk).apply (absentAsNone "base_path" text)).apply
      (defaulted "middleware" (tupleOf text) [])).apply
      (defaulted "resources" Include.decodeAll [])).apply
      (defaulted "endpoints" (tupleOf Endpoint.decode) [])

/-- The decoder of errors. -/
def ErrorDefinition.decode : Decoder ErrorDefinition :=
  strictRecord "ErrorDefinition" ["name", "key", "class_name", "exception_class", "code",
      "message", "status", "extends", "description"] <|
    (((((((((done ErrorDefinition.mk).apply (required "name" text)).apply
      (required "key" text)).apply (required "class_name" text)).apply
      (required "exception_class" text)).apply (required "code" text)).apply
      (required "message" text)).apply (defaulted "status" int 400)).apply
      (defaulted "extends" text "DomainException")).apply (absentAsNone "description" text)

/-! ### Layouts of errors -/

/-- Why a document is no layout. -/
inductive LayoutFault
  /-- A part that should hold entries holds nothing of the kind. -/
  | kind
  /-- A part that should be a pair has another length. -/
  | length
  /-- The parts are there and some are wrong; the name is that of the record. -/
  | violations (record : String) (violations : List Violation)
  deriving Repr

/-- The parts that a document has in order: items, keys or characters. -/
def partsOf? : Document → Option (List Document)
  | .list items => some items
  | .tuple items => some items
  | .set items => some items
  | .mapping entries => some (entries.map (·.1))
  | .text s => some (s.toList.map fun c => .text c.toString)
  | .bytes bs => some (bs.map fun b => .int b.toNat)
  | _ => none

/-- Whether a document can be a key. -/
def isKey : Document → Bool
  | .list _ => false
  | .set _ => false
  | .mapping _ => false
  | .knot => false
  | _ => true

/-- The entry that a document of two parts stands for. -/
def pairOf (d : Document) : Except LayoutFault (Document × Document) :=
  match partsOf? d with
  | none => .error .kind
  | some [key, value] => if isKey key then .ok (key, value) else .error .kind
  | some _ => .error .length

/-- The entries that a document stands for: its own, or those of its pairs. -/
def entriesOf (d : Document) : Except LayoutFault (List (Document × Document)) :=
  match d with
  | .mapping entries => .ok entries
  | d =>
    match partsOf? d with
    | none => .error .kind
    | some parts => do
      let pairs ← parts.mapM pairOf
      return pairs.foldl (fun entries pair => Document.put pair.1 pair.2 entries) []

/-- Entries with the value of one key moved to another key. -/
def renameKey (source target : String) (entries : List (Document × Document)) :
    List (Document × Document) :=
  match Document.lookup source entries with
  | none => entries
  | some value =>
    Document.put (.text target) value
      (entries.filter fun entry => !Document.sameKey entry.1 (.text source))

/-- The error of a layout, whose class stands under a key of its own. -/
def ErrorDefinition.ofLayout (d : Document) : Except LayoutFault ErrorDefinition := do
  let entries ← entriesOf d
  match decode (.mapping (renameKey "class" "class_name" entries)) with
  | .ok e => .ok e
  | .error vs => .error (.violations "ErrorDefinition" vs)

/-- Whether a document counts as nothing. -/
def isVoid : Document → Bool
  | .null => true
  | .bool b => !b
  | .int n => n == 0
  | .float x => x.same .zero
  | .text s => s.isEmpty
  | .bytes bs => bs.isEmpty
  | .list items => items.isEmpty
  | .tuple items => items.isEmpty
  | .set items => items.isEmpty
  | .mapping entries => entries.isEmpty
  | .date _ => false
  | .moment _ => false
  | .knot => false

/-- The errors of a layout. -/
def errorsOf (value : Option Document) : Except LayoutFault (List ErrorDefinition) :=
  let d := value.getD .null
  if isVoid d then .ok []
  else match partsOf? d with
    | none => .error .kind
    | some parts => parts.mapM ErrorDefinition.ofLayout

/-! ### Blueprints -/

namespace Blueprint

/-- The names of the members of a blueprint. -/
def memberNames : List String :=
  ["path", "module", "entity", "table", "architecture", "fields", "relations", "options", "api",
   "docs", "errors", "metadata", "tenancy"]

/-- How a blueprint is read, its errors apart. -/
def reading (errors : List ErrorDefinition) : Reading Blueprint :=
  (((((((((((((done Blueprint.mk).apply (required "path" text)).apply
    (absentAsNone "module" text)).apply (required "entity" text)).apply
    (required "table" text)).apply (required "architecture" text)).apply
    (defaulted "fields" (tupleOf Field.decode) [])).apply
    (defaulted "relations" (tupleOf Relation.decode) [])).apply
    (defaulted "options" (dictOf anything) [])).apply
    (defaulted "api" Surface.decode .empty)).apply
    (defaulted "docs" (dictOf anything) [])).apply (done errors)).apply
    (defaulted "metadata" (dictOf anything) [])).apply
    (defaulted "tenancy" (dictOf anything) [])

/-- The blueprint with the given errors whose other members are entries. -/
def ofEntries (entries : List (Document × Document)) (errors : List ErrorDefinition) :
    Checked Blueprint :=
  strictRecord "Blueprint" memberNames (reading errors) (.mapping entries)

/-- The blueprint of a layout. -/
def ofDocument (d : Document) : Except LayoutFault Blueprint := do
  let entries ← entriesOf d
  let errors ← errorsOf (Document.lookup "errors" entries)
  match ofEntries entries errors with
  | .ok b => .ok b
  | .error vs => .error (.violations "Blueprint" vs)

/-- Whether a blueprint comes back from its own layout. -/
def roundTrips (b : Blueprint) : Bool :=
  match b.toPlain with
  | .error _ => false
  | .ok plain =>
    match ofDocument (.ofJson plain) with
    | .ok again => again == b
    | .error _ => false

end Blueprint

end Scaffold
