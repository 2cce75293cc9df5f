import Scaffold.Blueprint.Basic
import Scaffold.Shape.Violation
import Scaffold.Validation.Finding

/-!
The structure of a blueprint.

The first stage looks at every part on its own: names have their spelling, numbers
their range, words come from their lists. Violations are listed in the order of
the parts.

* `Spelling`: a form of names, with its pattern.
* `fieldViolations`, `relationViolations`, `endpointViolations`,
  `errorViolations`: what is wrong with one part.
* `structureViolations`: what is wrong with the parts of a blueprint.
* `checkStructure`: the findings of the stage.
-/

namespace Scaffold

open Shape

/-! ### Spellings -/

/-- A form of names: one character, then any number of others. -/
structure Spelling where
  /-- The pattern in diagnostics. -/
  pattern : String
  /-- Whether a character may come first. -/
  first : Char → Bool
  /-- Whether a character may come later. -/
  later : Char → Bool

namespace Spelling

/-- A capital, then letters and digits. -/
def studly : Spelling := ⟨"^[A-Z][A-Za-z0-9]*$", Char.isUpper, Char.isAlphanum⟩

/-- A small letter, then small letters, digits and underscores. -/
def snake : Spelling :=
  ⟨"^[a-z][a-z0-9_]*$", Char.isLower, fun c => c.isLower || c.isDigit || c == '_'⟩

/-- A letter, then letters, digits and underscores. -/
def identifier : Spelling :=
  ⟨"^[A-Za-z][A-Za-z0-9_]*$", Char.isAlpha, fun c => c.isAlphanum || c == '_'⟩

/-- Whether characters have the form. -/
def matchesChars (spelling : Spelling) : List Char → Bool
  | [] => false
  | c :: cs => spelling.first c && cs.all spelling.later

/-- Whether a name has the form. -/
def accepts (spelling : Spelling) (s : String) : Bool :=
  spelling.matchesChars s.toList

/-- The violation of a name that does not have the form. -/
def violations (spelling : Spelling) (key : String) (s : String) : List Violation :=
  if spelling.accepts s then [] else [⟨[.key key], .offPattern spelling.pattern⟩]

end Spelling

/-! ### Free values -/

/-- The violation of a value that is to be an integer or absent. -/
def integerViolations (key : String) : Json → List Violation
  | .null => []
  | .int _ => []
  | _ => [⟨[.key key], .notInteger⟩]

/-- The violation of a value that is to be a truth value or absent. -/
def optionalBoolViolations (key : String) : Json → List Violation
  | .null => []
  | .bool _ => []
  | _ => [⟨[.key key], .notBool⟩]

/-- The violation of a value that is to be a truth value. -/
def boolViolations (key : String) : Json → List Violation
  | .bool _ => []
  | _ => [⟨[.key key], .notBool⟩]

/-- The violation of a value that is to be a text. -/
def textViolations (key : String) : Json → List Violation
  | .string _ => []
  | _ => [⟨[.key key], .notText⟩]

/-! ### Parts -/

/-- The rule that decimal fields break, if they do. -/
def decimalRule (precision scale : Json) : Option String :=
  let precisionRule := "decimal fields require a precision between 1 and 65"
  let scaleRule := "decimal fields require a scale between 0 and precision"
  match precision with
  | .int p =>
    if 1 ≤ p && p ≤ 65 then
      match scale with
      | .int s => if 0 ≤ s && s ≤ p then none else some scaleRule
      | _ => some scaleRule
    else some precisionRule
  | _ => some precisionRule

/-- Whether a field type means decimal numbers. -/
def isDecimal (kind : String) : Bool :=
  kind.map Char.toLower == "decimal"

/-- What is wrong with a field; the rule for decimal fields counts only when nothing
else is wrong. -/
def fieldViolations (f : Field) : Except PlainError (List Violation) := do
  let precision ← f.precision.toPlain
  let scale ← f.scale.toPlain
  let nullable ← f.nullable.toPlain
  let single := Spelling.snake.violations "name" f.name
    ++ Spelling.identifier.violations "type" f.kind
    ++ integerViolations "precision" precision ++ integerViolations "scale" scale
    ++ optionalBoolViolations "nullable" nullable
  if !single.isEmpty then return single
  if !isDecimal f.kind then return []
  return match decimalRule precision scale with
    | some rule => [⟨[], .broken rule⟩]
    | none => []

/-- The types of relations. -/
def relationKinds : List String :=
  ["belongsTo", "hasOne", "hasMany", "belongsToMany"]

/-- What is wrong with a relation. -/
def relationViolations (r : Relation) : List Violation :=
  (if relationKinds.contains r.kind then [] else [⟨[.key "type"], .notWord relationKinds⟩])
    ++ Spelling.studly.violations "target" r.target
    ++ Spelling.snake.violations "field" r.field

/-- The request methods. -/
def requestMethods : List String :=
  ["GET", "POST", "PUT", "PATCH", "DELETE"]

/-- What is wrong with an endpoint. -/
def endpointViolations (e : Endpoint) : List Violation :=
  Spelling.snake.violations "type" e.kind
    ++ (if e.method.all requestMethods.contains then []
        else [⟨[.key "method"], .notWord requestMethods⟩])

/-- What is wrong with the items of a list, from an index on. -/
def itemViolations {α : Type} (check : α → List Violation) : Nat → List α → List Violation
  | _, [] => []
  | i, item :: items =>
    (check item).map (·.within (.index i)) ++ itemViolations check (i + 1) items

/-- What is wrong with an interface. -/
def surfaceViolations (s : Surface) : List Violation :=
  (if s.basePath.all (·.startsWith "/") then []
    else [⟨[.key "base_path"], .broken "base path must start with '/'"⟩])
    ++ (itemViolations endpointViolations 0 s.endpoints).map (·.within (.key "endpoints"))

/-- The options that are truth values. -/
def truthOptions : List String :=
  ["timestamps", "softDeletes", "audited", "versioned"]

/-- What is wrong with the options. -/
def optionViolations (options : Named) : Except PlainError (List Violation) := do
  let found ← truthOptions.mapM fun key =>
    match options.lookup key with
    | none => .ok []
    | some value => value.toPlain.map (boolViolations key)
  return found.flatten

/-- The violation of an empty text. -/
def emptyViolations (key s : String) : List Violation :=
  if s.isEmpty then [⟨[.key key], .emptyText⟩] else []

/-- The violation of a status outside its range. -/
def statusViolations (status : Int) : List Violation :=
  if status < 100 then [⟨[.key "status"], .below 100⟩]
  else if status > 599 then [⟨[.key "status"], .above 599⟩]
  else []

/-- What is wrong with an error. -/
def errorViolations (e : ErrorDefinition) : List Violation :=
  emptyViolations "name" e.name ++ emptyViolations "code" e.code ++ statusViolations e.status

/-- What is wrong with the tenancy. -/
def tenancyViolations (tenancy : Named) : Except PlainError (List Violation) := do
  let found ← tenancy.mapM fun entry => entry.2.toPlain.map (textViolations entry.1)
  return found.flatten

/-- What is wrong with an architecture when only some are known. -/
def architectureViolations (known : List String) (architecture : String) : List Violation :=
  if known.isEmpty || known.contains architecture then []
  else
    let allowed := known.mergeSort fun a b => decide (a ≤ b)
    [⟨[.key "architecture"], .broken ("unknown architecture '" ++ architecture
      ++ "' (expected one of: " ++ ", ".intercalate allowed.eraseDups ++ ")")⟩]

/-! ### The stage -/

/-- What is wrong with the parts of a blueprint. -/
def structureViolations (known : List String) (b : Blueprint) :
    Except PlainError (List Violation) := do
  let fields ← b.fields.mapM fieldViolations
  let options ← optionViolations b.options
  let tenancy ← tenancyViolations b.tenancy
  return Spelling.studly.violations "entity" b.entity
    ++ Spelling.snake.violations "table" b.table
    ++ architectureViolations known b.architecture
    ++ (if b.fields.isEmpty then [⟨[.key "fields"], .emptyList⟩]
        else (itemViolations id 0 fields).map (·.within (.key "fields")))
    ++ (itemViolations relationViolations 0 b.relations).map (·.within (.key "relations"))
    ++ options.map (·.within (.key "options"))
    ++ (surfaceViolations b.api).map (·.within (.key "api"))
    ++ (itemViolations errorViolations 0 b.errors).map (·.within (.key "errors"))
    ++ tenancy.map (·.within (.key "tenancy"))

/-- The code of every finding about structure. -/
def structureCode : String := "schema.invalid"

/-- The finding of a violation. -/
def Finding.ofViolation (v : Violation) : Finding :=
  let path := v.location.render
  ⟨structureCode, path ++ ": " ++ v.complaint.reason, some path⟩

/-- The findings about the structure of a blueprint, which has to have a dictionary
layout. No name is unknown when no architecture is given. -/
def checkStructure (known : List String) (b : Blueprint) : Except PlainError Findings := do
  let _ ← b.toPlain
  let violations ← structureViolations known b
  return (Findings.mk (violations.map Finding.ofViolation) []).deduplicated

end Scaffold
