import Scaffold.Json.Basic
import Scaffold.Shape.Violation

/-!
Why a blueprint is refused.

* `BlueprintFault`: the causes.
* `BlueprintFault.code`: the stable code of a cause.
* `BlueprintFault.message`: the cause in words.
* `BlueprintFault.details`: named texts that belong to it.
* `BlueprintFault.violations`: the violations of the layout, if these are the
  cause.
-/

namespace Scaffold

/-- Why a blueprint is refused. -/
inductive BlueprintFault
  /-- No file at a path. -/
  | notFound (path : String)
  /-- A file that cannot be read as text. -/
  | unreadable (path place detail : String)
  /-- A text that is no document. -/
  | unparsable (path place detail : String)
  /-- A document in a file that is no mapping. -/
  | noStructure (path place : String)
  /-- A document that is no mapping. -/
  | notMapping (source : String)
  /-- No entity is declared. -/
  | noEntity (source : String)
  /-- No field is declared. -/
  | noFields (source : String)
  /-- A section that should be a list is none. -/
  | notList (key : String)
  /-- An item of a section is no mapping. -/
  | itemNotMapping (key : String) (index : Nat)
  /-- The options are no mapping. -/
  | optionsNotMapping (source : String)
  /-- The module is no text. -/
  | moduleNotText (source : String)
  /-- A segment of the module has a character that is not allowed. -/
  | badSegment (context segment : String)
  /-- The resources are no mapping. -/
  | resourcesNotMapping
  /-- The shown relations are neither list, mapping nor text. -/
  | includesKind
  /-- A shown relation is neither text nor mapping. -/
  | includeKind
  /-- A shown relation does not name its relation. -/
  | includeUnnamed
  /-- The class that shows a relation has no name. -/
  | resourceNotClass (relation : String)
  /-- The errors are no mapping. -/
  | errorsNotMapping
  /-- An error has no key. -/
  | errorKey
  /-- The definition of an error is neither text nor mapping. -/
  | errorKind (key : String)
  /-- The tenancy is no mapping. -/
  | tenancyNotMapping
  /-- A value of the tenancy is no text. -/
  | tenancyNotText (key : String)
  /-- Parts of the blueprint do not have their shape. -/
  | misshapen (source : String) (violations : List Shape.Violation)
  deriving DecidableEq, Repr

namespace BlueprintFault

/-- The stable code of a cause. -/
def code : BlueprintFault → String
  | notFound _ => "blueprint_not_found"
  | unreadable .. => "blueprint_invalid_source"
  | unparsable .. => "blueprint_invalid_source"
  | noStructure .. => "blueprint_invalid_structure"
  | notMapping _ => "blueprint_invalid_structure"
  | noEntity _ => "blueprint_invalid_structure"
  | noFields _ => "blueprint_invalid_structure"
  | notList _ => "blueprint_invalid_structure"
  | itemNotMapping .. => "blueprint_invalid_structure"
  | optionsNotMapping _ => "blueprint_invalid_structure"
  | moduleNotText _ => "blueprint_invalid_module"
  | badSegment .. => "blueprint_invalid_module"
  | resourcesNotMapping => "blueprint_invalid_resources"
  | includesKind => "blueprint_invalid_resources"
  | includeKind => "blueprint_invalid_resources"
  | includeUnnamed => "blueprint_invalid_resources"
  | resourceNotClass _ => "blueprint_invalid_resources"
  | errorsNotMapping => "blueprint_invalid_errors"
  | errorKey => "blueprint_invalid_errors"
  | errorKind _ => "blueprint_invalid_errors"
  | tenancyNotMapping => "blueprint_invalid_tenancy"
  | tenancyNotText _ => "blueprint_invalid_tenancy"
  | misshapen .. => "blueprint_invalid_structure"

/-- The cause in words. -/
def message : BlueprintFault → String
  | notFound path => "Blueprint not found at '" ++ path ++ "'."
  | unreadable path _ detail => "Could not read blueprint '" ++ path ++ "': " ++ detail
  | unparsable path _ detail => "Could not parse blueprint '" ++ path ++ "': " ++ detail
  | noStructure path _ => "Blueprint '" ++ path ++ "' does not contain a valid structure."
  | notMapping source => "Blueprint '" ++ source ++ "' does not contain a mapping."
  | noEntity source => "Blueprint '" ++ source ++ "' does not declare a valid entity."
  | noFields source => "Blueprint '" ++ source ++ "' must declare at least one field."
  | notList key => "Key '" ++ key ++ "' must be a list."
  | itemNotMapping key index => "Item '" ++ key ++ "[" ++ toString index ++ "]' must be a mapping."
  | optionsNotMapping _ => "Key 'options' must be a mapping."
  | moduleNotText _ => "Key 'module' must be a string."
  | badSegment context segment =>
    "Module detected for '" ++ context ++ "' contains an invalid segment '" ++ segment
      ++ "'; only [a-z0-9_] is allowed."
  | resourcesNotMapping => "Key 'api.resources' must be a mapping."
  | includesKind => "Key 'api.resources.includes' must be a list, mapping or string."
  | includeKind => "Each 'api.resources.includes' item must be a string or a mapping."
  | includeUnnamed => "Each 'api.resources.includes' item must name its relation."
  | resourceNotClass _ => "Value 'resource' in 'api.resources.includes' must be a class name."
  | errorsNotMapping => "Key 'errors' must be a mapping of error definitions."
  | errorKey => "Each error must have a non-empty key."
  | errorKind key => "Definition of error '" ++ key ++ "' must be a mapping or a message."
  | tenancyNotMapping => "Key 'tenancy' must be a mapping."
  | tenancyNotText key => "Key 'tenancy." ++ key ++ "' must be a string."
  | misshapen source violations =>
    "Blueprint '" ++ source ++ "' has an invalid structure: " ++ Shape.report "Blueprint" violations

/-- Named texts that belong to a cause. -/
def details : BlueprintFault → List (String × String)
  | notFound path => [("path", path)]
  | unreadable _ place _ => [("path", place)]
  | unparsable _ place _ => [("path", place)]
  | noStructure _ place => [("path", place)]
  | notMapping source => [("path", source)]
  | noEntity source => [("path", source)]
  | noFields source => [("path", source)]
  | optionsNotMapping source => [("path", source)]
  | moduleNotText source => [("path", source)]
  | badSegment context segment => [("path", context), ("segment", segment)]
  | resourceNotClass relation => [("relation", relation)]
  | errorKind key => [("key", key)]
  | tenancyNotText key => [("key", key)]
  | misshapen source _ => [("path", source)]
  | _ => []

/-- The violations of the layout, if these are the cause. -/
def violations : BlueprintFault → Option (List Shape.Violation)
  | misshapen _ violations => some violations
  | _ => none

end BlueprintFault

end Scaffold
