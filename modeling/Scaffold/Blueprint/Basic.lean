import Scaffold.Document.Plain

/-!
Blueprints: the canonical description of one generated entity.

Construction enforces no rule across the parts; such rules are reported by
validation. Values that authors write freely stay documents.

* `Field`, `Relation`, `Endpoint`, `Include`, `Surface`, `ErrorDefinition`: the
  parts.
* `Blueprint`: the whole.
* `Blueprint.toPlain`: its dictionary layout, in which free values are in their
  plain form.
-/

namespace Scaffold

/-- Two documents are equal when they are equal in every part. -/
instance : BEq Document := ⟨Document.equal⟩

/-- A list of named documents. -/
abbrev Named := List (String × Document)

/-- A declared field of an entity. -/
structure Field where
  /-- The name. -/
  name : String
  /-- The type. -/
  kind : String
  /-- Validation rules of the generated program. -/
  rules : Option String
  /-- The default value. -/
  default : Document
  /-- The number of digits, as written. -/
  precision : Document
  /-- The number of digits after the point, as written. -/
  scale : Document
  /-- Whether the value may be absent, as written. -/
  nullable : Document
  deriving BEq, Repr

/-- A relation from the entity to another one through a field. -/
structure Relation where
  /-- The type of the relation. -/
  kind : String
  /-- The other entity. -/
  target : String
  /-- The field that holds the reference. -/
  field : String
  /-- Validation rules of the generated program. -/
  rules : Option String
  deriving BEq, DecidableEq, Repr

/-- An endpoint of the programming interface. -/
structure Endpoint where
  /-- The flavour of the endpoint. -/
  kind : String
  /-- The name. -/
  name : Option String
  /-- The field it works on. -/
  field : Option String
  /-- The fields it works on. -/
  fields : List String
  /-- The field or relation by which it groups. -/
  by_ : Option String
  /-- The request method. -/
  method : Option String
  /-- The request path. -/
  path : Option String
  deriving BEq, DecidableEq, Repr

/-- A relation that is shown through the resource of an entity. -/
structure Include where
  /-- The relation. -/
  relation : String
  /-- The name under which it is shown. -/
  shownAs : String
  /-- The class that shows it. -/
  resource : Option String
  deriving BEq, DecidableEq, Repr

/-- The programming interface of an entity. -/
structure Surface where
  /-- The path in front of all endpoints. -/
  basePath : Option String
  /-- What requests pass through. -/
  middleware : List String
  /-- The relations shown. -/
  includes : List Include
  /-- The endpoints. -/
  endpoints : List Endpoint
  deriving BEq, DecidableEq, Repr

/-- The interface without any part. -/
def Surface.empty : Surface := ⟨none, [], [], []⟩

/-- An error of the domain. -/
structure ErrorDefinition where
  /-- The name in snake case. -/
  name : String
  /-- The key as written. -/
  key : String
  /-- The name of the class. -/
  className : String
  /-- The name of the exception class. -/
  exceptionClass : String
  /-- The code. -/
  code : String
  /-- The message. -/
  message : String
  /-- The status of the response. -/
  status : Int
  /-- The class it extends. -/
  parent : String
  /-- A description. -/
  description : Option String
  deriving BEq, DecidableEq, Repr

/-- The description of one generated entity. -/
structure Blueprint where
  /-- Where it was read from. -/
  path : String
  /-- The module it belongs to, names joined by slashes. -/
  modulePath : Option String
  /-- The name of the entity. -/
  entity : String
  /-- The name of its table. -/
  table : String
  /-- The name of its architecture. -/
  architecture : String
  /-- Its fields. -/
  fields : List Field
  /-- Its relations. -/
  relations : List Relation
  /-- Options of the generated program. -/
  options : Named
  /-- Its programming interface. -/
  api : Surface
  /-- Documentation. -/
  docs : Named
  /-- Its errors. -/
  errors : List ErrorDefinition
  /-- Anything else. -/
  metadata : Named
  /-- To which tenants it belongs. -/
  tenancy : Named
  deriving BEq, Repr

/-! ### The dictionary layout -/

/-- The layout of a field. -/
def Field.toPlain (f : Field) : Except PlainError Json := do
  return .object [("name", .string f.name), ("type", .string f.kind),
    ("rules", .ofText? f.rules), ("default", ← f.default.toPlain),
    ("precision", ← f.precision.toPlain), ("scale", ← f.scale.toPlain),
    ("nullable", ← f.nullable.toPlain)]

/-- The layout of a relation. -/
def Relation.toPlain (r : Relation) : Json :=
  .object [("type", .string r.kind), ("target", .string r.target), ("field", .string r.field),
    ("rules", .ofText? r.rules)]

/-- The layout of an endpoint. -/
def Endpoint.toPlain (e : Endpoint) : Json :=
  .object [("type", .string e.kind), ("name", .ofText? e.name), ("field", .ofText? e.field),
    ("fields", .ofTexts e.fields), ("by", .ofText? e.by_), ("method", .ofText? e.method),
    ("path", .ofText? e.path)]

/-- The layout of a shown relation. -/
def Include.toPlain (i : Include) : Json :=
  .object [("relation", .string i.relation), ("alias", .string i.shownAs),
    ("resource", .ofText? i.resource)]

/-- The layout of an interface. -/
def Surface.toPlain (s : Surface) : Json :=
  .object [("base_path", .ofText? s.basePath), ("middleware", .ofTexts s.middleware),
    ("resources", .object [("includes", .array (s.includes.map Include.toPlain))]),
    ("endpoints", .array (s.endpoints.map Endpoint.toPlain))]

/-- The layout of an error, the class under the given key. -/
def ErrorDefinition.toPlainWith (classKey : String) (e : ErrorDefinition) : Json :=
  .object [("name", .string e.name), ("key", .string e.key), (classKey, .string e.className),
    ("exception_class", .string e.exceptionClass), ("code", .string e.code),
    ("message", .string e.message), ("status", .int e.status), ("extends", .string e.parent),
    ("description", .ofText? e.description)]

namespace Blueprint

/-- The names of the declared fields, in order. -/
def fieldNames (b : Blueprint) : List String :=
  b.fields.map (·.name)

/-- The same blueprint for another architecture. -/
def withArchitecture (architecture : String) (b : Blueprint) : Blueprint :=
  { b with architecture }

/-- The layout of a blueprint, the class of every error under the given key. -/
def toPlainWith (classKey : String) (b : Blueprint) : Except PlainError Json := do
  return .object [("path", .string b.path), ("module", .ofText? b.modulePath),
    ("entity", .string b.entity), ("table", .string b.table),
    ("architecture", .string b.architecture),
    ("fields", .array (← b.fields.mapM Field.toPlain)),
    ("relations", .array (b.relations.map Relation.toPlain)),
    ("options", ← Document.toPlainRecord b.options), ("api", b.api.toPlain),
    ("docs", ← Document.toPlainRecord b.docs), ("metadata", ← Document.toPlainRecord b.metadata),
    ("tenancy", ← Document.toPlainRecord b.tenancy),
    ("errors", .array (b.errors.map (·.toPlainWith classKey)))]

/-- The dictionary layout of a blueprint. -/
def toPlain (b : Blueprint) : Except PlainError Json :=
  b.toPlainWith "class"

end Blueprint

end Scaffold
