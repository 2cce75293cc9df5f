import Scaffold.Blueprint.Module
import Scaffold.Blueprint.Reading
import Scaffold.Breakdown
import Scaffold.Text.Naming

/-!
From what an author wrote to a blueprint.

Normalization fills in what was left out, trims what was written, and refuses a
document in which a section has the wrong kind. The sections are looked at in a
fixed order, and the first fault ends the work.

* `Settings`: what shapes the result besides the document.
* `basePath`, `includes`, `errors`, `tenancy`: one section each.
* `moduleOf`: the declared module, or the one of the directory.
* `normalize`: the blueprint of a document.
-/

namespace Scaffold

open Text Files

/-- What shapes the normal form of a blueprint besides the document. -/
structure Settings where
  /-- The directory of all blueprints. -/
  root : Option Path
  /-- The architecture of a blueprint that names none. -/
  defaultArchitecture : String
  /-- Options of a blueprint that does not set them. -/
  defaultOptions : Named

/-- The options of a blueprint that sets none. -/
def standardOptions : Named :=
  [("timestamps", .bool true), ("softDeletes", .bool false), ("audited", .bool false),
   ("versioned", .bool false)]

/-- The architecture of a blueprint that names none. -/
def standardArchitecture : String := "hexagonal"

/-- The settings without a root. -/
def Settings.standard : Settings := ⟨none, standardArchitecture, standardOptions⟩

/-- The decoder of settings. -/
def Settings.decode : Shape.Decoder Settings :=
  Shape.strictRecord "NormalizerSettings"
    ["blueprints_root", "default_architecture", "default_options"] <|
    (((Shape.Reading.done fun root architecture options =>
        Settings.mk (root.map Path.ofText) architecture options).apply
      (Shape.absentAsNone "blueprints_root" Shape.path)).apply
      (Shape.defaulted "default_architecture" Shape.text standardArchitecture)).apply
      (Shape.defaulted "default_options" (Shape.dictOf Shape.anything) standardOptions)

namespace Normalize

/-- A text of a document that is not blank. -/
def filled? : Option Document → Option String
  | some (.text s) => if isBlankText s then none else some s
  | _ => none

/-- The trimmed text of a document, if it is not blank. -/
def trimmed? (d : Option Document) : Option String :=
  (filled? d).map trimmed

/-! ### The programming interface -/

/-- The path in front of all endpoints, under either of its names. -/
def basePath (api : List (Document × Document)) : Option String :=
  (trimmed? (Document.lookup "base_path" api)).or (trimmed? (Document.lookup "basePath" api))

/-- The name of a class without blanks and backslashes at its ends. -/
def className? (d : Document) : Option String :=
  match d with
  | .text s =>
    let name := strippedOf '\\' (trimmed s)
    if name.isEmpty then none else some name
  | _ => none

/-- A shown relation under a key; a blank text shows nothing. -/
def include? (key : Option String) (definition : Document) :
    Except BlueprintFault (Option Include) :=
  match definition with
  | .text s =>
    let relation := trimmed s
    .ok (if relation.isEmpty then none else some ⟨relation, relation, none⟩)
  | .mapping entries =>
    let named := (Document.lookup "relation" entries).or
      ((Document.lookup "name" entries).or (key.map .text))
    match trimmed? named with
    | none => .error .includeUnnamed
    | some relation =>
      let shown := (Document.lookup "alias" entries).or (Document.lookup "as" entries)
      let shownAs := (trimmed? shown).getD relation
      match Document.lookup "resource" entries with
      | none => .ok (some ⟨relation, shownAs, none⟩)
      | some d =>
        match className? d with
        | none => .error (.resourceNotClass relation)
        | some name => .ok (some ⟨relation, shownAs, some name⟩)
  | _ => .error .includeKind

/-- The definitions of shown relations with their keys. -/
def definitions : Document → Except BlueprintFault (List (Option String × Document))
  | .text s => .ok [(none, .text s)]
  | .list items => .ok (items.map (none, ·))
  | .mapping entries => .ok (entries.map fun entry => (entry.1.asText?, entry.2))
  | _ => .error .includesKind

/-- The relations that the resources section shows. -/
def includes (resources : Option Document) : Except BlueprintFault (List Include) :=
  match resources with
  | none => .ok []
  | some .null => .ok []
  | some (.mapping entries) =>
    match (Document.lookup "includes" entries).or (Document.lookup "include" entries) with
    | none => .ok []
    | some .null => .ok []
    | some d => do
      let found ← (← definitions d).mapM fun definition => include? definition.1 definition.2
      return found.filterMap id
  | some _ => .error .resourcesNotMapping

/-! ### Errors -/

/-- The classes that errors extend, by the words for them. -/
def parentClasses : List (String × String) :=
  [("not_found", "DomainNotFoundException"), ("not_found_exception", "DomainNotFoundException"),
   ("conflict", "DomainConflictException"), ("conflict_exception", "DomainConflictException"),
   ("validation", "DomainValidationException"),
   ("validation_exception", "DomainValidationException"),
   ("base", "DomainException"), ("domain", "DomainException")]

/-- The class that errors extend without a known word. -/
def defaultParent : String := "DomainException"

/-- The status of an error without a usable one. -/
def defaultStatus : Int := 400

/-- The status of a response: a number, or a text that denotes one, cut to an
integer from 100 to 599. -/
def status (value : Option Document) : Int :=
  let whole : Option Int := match value with
    | some (.int n) => some n
    | some (.float x) => x.truncate?
    | some (.text s) => (Number.readNumber? s).bind (·.truncate?)
    | _ => none
  match whole with
  | some n => if 100 ≤ n && n ≤ 599 then n else defaultStatus
  | none => defaultStatus

/-- A text of a document that is not empty. -/
def nonEmpty? : Option Document → Option String
  | some (.text s) => if s.isEmpty then none else some s
  | _ => none

/-- The name of an exception class. -/
def exceptionName (className : String) : String :=
  if className.endsWith "Exception" then className else className ++ "Exception"

/-- The class that an error with some word for it extends. -/
def parentOf (word : Option Document) : String :=
  match word with
  | some (.text s) => (parentClasses.lookup (lowered (trimmed s))).getD defaultParent
  | _ => defaultParent

/-- The error of an entity under a key. -/
def errorOf (entity key : String) (definition : List (Document × Document)) : ErrorDefinition :=
  let name := snake key
  let className := studly key
  { name, key, className
    exceptionClass := exceptionName className
    code := (nonEmpty? (Document.lookup "code" definition)).getD
      ("domain." ++ snake entity ++ "." ++ name)
    message := (nonEmpty? (Document.lookup "message" definition)).getD (headline key ++ ".")
    status := status (Document.lookup "status" definition)
    parent := parentOf (Document.lookup "extends" definition)
    description := (Document.lookup "description" definition).bind Document.asText? }

/-- The error of an entry of the errors section; a text is its message. -/
def errorEntry (entity : String) (entry : Document × Document) :
    Except BlueprintFault ErrorDefinition :=
  match filled? (some entry.1) with
  | none => .error .errorKey
  | some key =>
    match entry.2 with
    | .text message => .ok (errorOf entity key [(.text "message", .text message)])
    | .null => .ok (errorOf entity key [])
    | .mapping definition => .ok (errorOf entity key definition)
    | _ => .error (.errorKind key)

/-- The errors of an entity. -/
def errors (entity : String) (section_ : Option Document) :
    Except BlueprintFault (List ErrorDefinition) :=
  match section_ with
  | none => .ok []
  | some .null => .ok []
  | some (.mapping entries) => entries.mapM (errorEntry entity)
  | some _ => .error .errorsNotMapping

/-! ### Tenancy -/

/-- The keys of the tenancy section. -/
def tenancyKeys : List String :=
  ["mode", "storage", "routing_scope", "seed_scope", "connection"]

/-- The value of a key of the tenancy section, trimmed and in lower case; a blank one
counts as absent. -/
def tenancyValue (entries : List (Document × Document)) (key : String) :
    Except BlueprintFault (Option (String × String)) :=
  match Document.lookup key entries with
  | none => .ok none
  | some .null => .ok none
  | some (.text s) =>
    let value := lowered (trimmed s)
    .ok (if value.isEmpty then none else some (key, value))
  | some _ => .error (.tenancyNotText key)

/-- The known keys of the tenancy section with their values. -/
def tenancy (section_ : Option Document) : Except BlueprintFault (List (String × String)) :=
  match section_ with
  | none => .ok []
  | some .null => .ok []
  | some (.mapping entries) => do
    let found ← tenancyKeys.mapM (tenancyValue entries)
    return found.filterMap id
  | some _ => .error .tenancyNotMapping

/-! ### Lists and mappings -/

/-- The items of a section, each of which is to be a mapping. -/
def checkItems (shown : String) : Nat → List Document → Except BlueprintFault (List Document)
  | _, [] => .ok []
  | index, item :: items =>
    match item with
    | .mapping _ => (checkItems shown (index + 1) items).map (item :: ·)
    | _ => .error (.itemNotMapping shown index)

/-- The mappings in a section; an absent section has none. -/
def mappings (shown : String) (section_ : Option Document) :
    Except BlueprintFault (List Document) :=
  match section_ with
  | none => .ok []
  | some .null => .ok []
  | some (.list items) => checkItems shown 0 items
  | some _ => .error (.notList shown)

/-- The entries of a section that is a mapping, and none of any other. -/
def entriesOr (section_ : Option Document) : List (Document × Document) :=
  match section_ with
  | some (.mapping entries) => entries
  | _ => []

/-- The texts of a list, other items left out. -/
def textsOf (section_ : Option Document) : List Document :=
  match section_ with
  | some (.list items) => items.filter fun item => item.asText?.isSome
  | _ => []

/-! ### The whole -/

/-- The module of a blueprint: the one declared in the document, or else the
directory of its file. -/
def moduleOf (tree : FileTree) (settings : Settings) (source : String)
    (raw : List (Document × Document)) : Except (Failure BlueprintFault) (Option String) :=
  let checked (text : String) : Except (Failure BlueprintFault) (Option String) :=
    (ModulePath.sanitize text).mapError fun segment => .refused (.badSegment source segment)
  match Document.lookup "module" raw with
  | some (.text s) => checked s
  | some .null | none =>
    match ModulePath.detect tree settings.root (.ofText source) with
    | .error _ => .error (.broken .circularPath)
    | .ok none => .ok none
    | .ok (some directory) => checked directory
  | some _ => .error (.refused (.moduleNotText source))

/-- Options with those of the document in place of the defaults. -/
def mergeOptions (defaults : Named) (own : List (Document × Document)) :
    List (Document × Document) :=
  own.foldl (fun entries entry => Document.put entry.1 entry.2 entries)
    (defaults.map fun option => (.text option.1, option.2))

/-- The parts of a blueprint that need no file tree, with the module found for
it. -/
def assemble (tree : FileTree) (settings : Settings) (raw : Document) (source : String) :
    Except (Failure BlueprintFault) (List (Document × Document) × List ErrorDefinition) := do
  let lift {α : Type} (result : Except BlueprintFault α) : Except (Failure BlueprintFault) α :=
    result.mapError .refused
  let some entries := raw.entries? | throw (.refused (.notMapping source))
  let some entity := trimmed? (Document.lookup "entity" entries)
    | throw (.refused (.noEntity source))
  let table := (filled? (Document.lookup "table" entries)).getD (tableName entity)
  let architecture :=
    (filled? (Document.lookup "architecture" entries)).getD settings.defaultArchitecture
  let fields ← lift (mappings "fields" (Document.lookup "fields" entries))
  if fields.isEmpty then throw (.refused (.noFields source))
  let options ← match Document.lookup "options" entries with
    | none => pure []
    | some .null => pure []
    | some (.mapping options) => pure options
    | some _ => throw (.refused (.optionsNotMapping source))
  let api := entriesOr (Document.lookup "api" entries)
  let modulePath ← moduleOf tree settings source entries
  let relations ← lift (mappings "relations" (Document.lookup "relations" entries))
  let shown ← lift (includes (Document.lookup "resources" api))
  let endpoints ← lift (mappings "api.endpoints" (Document.lookup "endpoints" api))
  let errors ← lift (errors entity (Document.lookup "errors" entries))
  let tenancy ← lift (tenancy (Document.lookup "tenancy" entries))
  let surface := Document.record [
    ("base_path", .ofText? (basePath api)),
    ("middleware", .list (textsOf (Document.lookup "middleware" api))),
    ("resources", .record [("includes", .ofJson (.array (shown.map Include.toPlain)))]),
    ("endpoints", .list endpoints)]
  let parts := [("path", .text source), ("module", .ofText? modulePath), ("entity", .text entity),
    ("table", .text (trimmed table)), ("architecture", .text (trimmed architecture)),
    ("fields", .list fields), ("relations", .list relations),
    ("options", .mapping (mergeOptions settings.defaultOptions options)), ("api", surface),
    ("docs", .mapping (entriesOr (Document.lookup "docs" entries))),
    ("metadata", .mapping (entriesOr (Document.lookup "metadata" entries))),
    ("tenancy", .record (tenancy.map fun entry => (entry.1, .text entry.2)))]
  return (parts.map fun part => (.text part.1, part.2), errors)

end Normalize

/-- The blueprint of a document that stands at a source. -/
def normalize (tree : FileTree) (settings : Settings) (raw : Document) (source : String) :
    Except (Failure BlueprintFault) Blueprint := do
  let (entries, errors) ← Normalize.assemble tree settings raw source
  match Blueprint.ofEntries entries errors with
  | .ok b => .ok b
  | .error vs => .error (.refused (.misshapen source vs))

end Scaffold
