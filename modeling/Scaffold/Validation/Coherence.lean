import Scaffold.Blueprint.Basic
import Scaffold.Document.Display
import Scaffold.Text.Naming
import Scaffold.Validation.Finding

/-!
How the parts of a blueprint fit together.

The second stage looks at relationships: names that are declared twice or not at
all, endpoints that coincide, a tenancy that contradicts itself or the place of
the blueprint.

* `tenancyMode`: the mode that the place of a blueprint suggests.
* `Endpoint.signature`: what makes two endpoints the same.
* `tenancyFindings`, `fieldFindings`, `relationFindings`, `tableFindings`,
  `endpointFindings`, `optionFindings`, `exampleFindings`: one rule each.
* `checkCoherence`: the findings of all rules in this order.
-/

namespace Scaffold

open Text

/-! ### Tenancy -/

/-- The modes of tenancy. -/
def tenancyModes : List String := ["central", "tenant", "shared"]

/-- The first of some segments that names a mode, in lower case. -/
def modeAmong (segments : List (List Char)) : Option String :=
  (segments.map fun segment => String.ofList (lower segment)).find? tenancyModes.contains

/-- The mode that the module of a blueprint suggests, or else its path. -/
def tenancyMode (b : Blueprint) : String :=
  let ofModule := modeAmong (pieces (· == '/') (b.modulePath.getD "").toList)
  let ofPath := modeAmong (pieces (fun c => c == '/' || c == '\\') b.path.toList)
  (ofModule.or ofPath).getD "central"

/-- Whether a document counts as something. -/
def counts : Document → Bool
  | .null => false
  | .bool b => b
  | .int n => n != 0
  | .float x => !x.same .zero
  | .text s => !s.isEmpty
  | .bytes bs => !bs.isEmpty
  | .list items => !items.isEmpty
  | .tuple items => !items.isEmpty
  | .set items => !items.isEmpty
  | .mapping entries => !entries.isEmpty
  | _ => true

/-- The value of a tenancy key that is neither absent nor null. -/
def tenancyEntry (b : Blueprint) (key : String) : Option Document :=
  match b.tenancy.lookup key with
  | some .null => none
  | value => value

/-- The keys that need a mode beside them. -/
def overrideKeys : List String := ["storage", "connection", "routing_scope", "seed_scope"]

/-- The keys with a scope for value. -/
def scopeKeys : List String := ["storage", "routing_scope", "seed_scope"]

/-- The scopes. -/
def scopes : List String := ["central", "tenant", "both"]

/-- Whether a mode contradicts a scope. -/
def contradicts (mode scope : String) : Bool :=
  (mode == "central" && scope == "tenant") || (mode == "tenant" && scope == "central")

/-- The error of a scope key, if there is one. -/
def scopeError (mode : Document) (key : String) (value : Document) : Option Finding :=
  let code := "tenancy." ++ key ++ ".invalid"
  let named (rest : String) : Finding :=
    ⟨code, "Tenancy " ++ key ++ " \"" ++ value.display ++ "\" " ++ rest, some ("tenancy." ++ key)⟩
  match value.asText? with
  | none => some (named "must be one of central, tenant, both.")
  | some scope =>
    if !scopes.contains scope then some (named "must be one of central, tenant, both.")
    else if mode.asText?.any (contradicts · scope) then
      some (named ("is not compatible with mode \"" ++ mode.display ++ "\"."))
    else none

/-- What the tenancy declares against itself and the place of the blueprint. -/
def tenancyFindings (b : Blueprint) : Findings :=
  let declared := tenancyEntry b "mode"
  let inferred := tenancyMode b
  let missing :=
    if declared.isNone && overrideKeys.any fun key => (tenancyEntry b key).any counts then
      [⟨"tenancy.mode.missing", "Tenancy requires \"mode\" when other tenancy options are set.",
        some "tenancy.mode"⟩]
    else []
  let mismatch := match declared with
    | some mode =>
      if mode.asText? == some inferred then []
      else [⟨"tenancy.mode.mismatch", "Tenancy mode \"" ++ mode.display
        ++ "\" does not match the folder convention \"" ++ inferred ++ "\".",
        some "tenancy.mode"⟩]
    | none => []
  let mode := match declared with
    | some mode => if counts mode then mode else .text inferred
    | none => .text inferred
  let scopeErrors := scopeKeys.filterMap fun key =>
    (tenancyEntry b key).bind (scopeError mode key)
  ⟨missing ++ scopeErrors, mismatch⟩

/-! ### Fields, relations and the table -/

/-- The path of a member of an item. -/
def itemPath (list : String) (index : Nat) (rest : String) : String :=
  list ++ "[" ++ toString index ++ "]" ++ rest

/-- The error of every field, from an index on, whose name came before. -/
def repeatedFields (seen : List String) : Nat → List Field → List Finding
  | _, [] => []
  | i, f :: fs =>
    (if seen.contains f.name then
      [⟨"fields.duplicate", "Duplicate field: " ++ f.name, some (itemPath "fields" i ".name")⟩]
      else []) ++ repeatedFields (f.name :: seen) (i + 1) fs

/-- The errors of fields that are declared twice. -/
def fieldFindings (b : Blueprint) : Findings :=
  ⟨repeatedFields [] 0 b.fields, []⟩

/-- The error of every relation, from an index on, whose field is not declared. -/
def lostRelations (names : List String) : Nat → List Relation → List Finding
  | _, [] => []
  | i, r :: rs =>
    (if names.contains r.field then []
      else [⟨"relations.missing_field", "Relation " ++ r.target ++ " requires field \""
        ++ r.field ++ "\" in fields.", some (itemPath "relations" i ".field")⟩])
      ++ lostRelations names (i + 1) rs

/-- The errors of relations through fields that are not declared. -/
def relationFindings (b : Blueprint) : Findings :=
  ⟨lostRelations b.fieldNames 0 b.relations, []⟩

/-- The warning of a table that is not named after the entity. -/
def tableFindings (b : Blueprint) : Findings :=
  let suggested := tableName b.entity
  ⟨[], if suggested == b.table then [] else
    [⟨"naming.mismatch", "Table name \"" ++ b.table
      ++ "\" does not match the suggested convention \"" ++ suggested ++ "\".", none⟩]⟩

/-! ### Endpoints -/

/-- A text that is there and not empty. -/
def present? (s : Option String) : Option String :=
  s.filter (!·.isEmpty)

/-- What makes two endpoints the same. -/
def Endpoint.signature (e : Endpoint) : String :=
  match present? e.name with
  | some name => e.kind ++ ":" ++ name
  | none =>
    match if e.kind == "stats" then present? e.by_ else none with
    | some group => e.kind ++ ":by=" ++ group
    | none =>
      match present? e.field with
      | some field => e.kind ++ ":field=" ++ field
      | none => e.kind

/-- The findings about one endpoint at a path. -/
def endpointRules (names relationFields : List String) (place : String) (e : Endpoint) :
    Findings :=
  if e.kind == "patch" then
    match present? e.field with
    | none => ⟨[⟨"endpoints.patch.unknown_field", "Patch endpoints must declare a \"field\".",
        some (place ++ ".field")⟩], []⟩
    | some field =>
      if names.contains field then .none
      else ⟨[⟨"endpoints.patch.unknown_field", "Patch endpoint references unknown field \""
        ++ field ++ "\".", some (place ++ ".field")⟩], []⟩
  else if e.kind == "search" then
    ⟨if e.fields.isEmpty then
        [⟨"endpoints.search.missing_fields", "Search endpoints must declare at least one field.",
          some (place ++ ".fields")⟩]
      else [],
     (e.fields.filter (!names.contains ·)).map fun name =>
      ⟨"endpoints.search.unknown_field", "Search endpoint references unknown field \"" ++ name
        ++ "\".", some (place ++ ".fields")⟩⟩
  else if e.kind == "stats" then
    match present? e.by_ with
    | none => ⟨[⟨"endpoints.stats.missing_by", "Stats endpoints must declare \"by\".",
        some (place ++ ".by")⟩], []⟩
    | some group =>
      if names.contains group || relationFields.contains group then .none
      else ⟨[], [⟨"endpoints.stats.unknown_by", "Stats endpoint \"by\" references \"" ++ group
        ++ "\", which matches neither a field nor a relation.", some (place ++ ".by")⟩]⟩
  else .none

/-- The findings about endpoints from an index on, given the signatures that came
before. -/
def endpointsFrom (names relationFields seen : List String) : Nat → List Endpoint → Findings
  | _, [] => .none
  | i, e :: es =>
    let place := itemPath "api.endpoints" i ""
    let repeated : Findings :=
      ⟨if seen.contains e.signature then
          [⟨"endpoints.duplicate", "Duplicate endpoint for \"" ++ e.signature ++ "\".", some place⟩]
        else [], []⟩
    (repeated.merge (endpointRules names relationFields place e)).merge
      (endpointsFrom names relationFields (e.signature :: seen) (i + 1) es)

/-- The findings about endpoints. -/
def endpointFindings (b : Blueprint) : Findings :=
  endpointsFrom b.fieldNames (b.relations.map (·.field)) [] 0 b.api.endpoints

/-! ### Options and documentation -/

/-- The error of a versioned entity without a version. -/
def optionFindings (b : Blueprint) : Findings :=
  match b.options.lookup "versioned" with
  | some (.bool true) =>
    ⟨if b.fieldNames.contains "version" then [] else
      [⟨"options.versioned.missing_field", "Option versioned requires a \"version\" field.",
        none⟩], []⟩
  | _ => .none

/-- The warnings of one example about fields that are not declared. -/
def exampleWarnings (names : List String) (example_ : Document × Document) : List Finding :=
  match example_.2 with
  | .mapping payload =>
    let title := example_.1.display
    (payload.filter fun entry => !entry.1.asText?.any names.contains).map fun entry =>
      let name := entry.1.display
      ⟨"docs.invalid_example", "Example \"" ++ title ++ "\" references unknown field \"" ++ name
        ++ "\".", some ("docs.examples." ++ title ++ "." ++ name)⟩
  | _ => []

/-- The warnings of all examples. -/
def exampleFindings (b : Blueprint) : Findings :=
  match b.docs.lookup "examples" with
  | some (.mapping examples) => ⟨[], examples.flatMap (exampleWarnings b.fieldNames)⟩
  | _ => .none

/-! ### The stage -/

/-- The findings about how the parts of a blueprint fit together. -/
def checkCoherence (b : Blueprint) : Findings :=
  ([tenancyFindings b, fieldFindings b, relationFindings b, tableFindings b, endpointFindings b,
    optionFindings b, exampleFindings b].foldl Findings.merge .none).deduplicated

end Scaffold
