import Scaffold.Number.Shortest

/-!
Violations: what is wrong with a document that should have a certain shape, and
where.

* `Step`, `Location`: the way from the whole document to a part.
* `Complaint`: what is wrong with a part; `code` names the kind and `message` says
  it in words.
* `Violation`: a complaint about the part at a location.
* `Location.render`: a location in dotted notation.
* `report`: violations in words.
-/

namespace Scaffold.Shape

/-- A step from a value to a part of it. -/
inductive Step
  /-- The member with a name. -/
  | key (name : String)
  /-- The item at an index. -/
  | index (position : Int)
  deriving DecidableEq, Repr

/-- The way from a whole document to a part of it. -/
abbrev Location := List Step

/-- What is wrong with a part of a document. -/
inductive Complaint
  /-- A required member is absent. -/
  | missing
  /-- The value is no text. -/
  | notText
  /-- The bytes are no encoded text. -/
  | undecodableText
  /-- The value is no integer. -/
  | notInteger
  /-- The text denotes no integer. -/
  | unparsableInteger
  /-- The number is no integer. -/
  | fractional
  /-- The number is not finite. -/
  | infinite
  /-- The value is no number. -/
  | notNumber
  /-- The text denotes no number. -/
  | unparsableNumber
  /-- The value is no truth value. -/
  | notBool
  /-- The value stands for no truth value. -/
  | unparsableBool
  /-- The value is no list. -/
  | notList
  /-- The value is no list of fixed length. -/
  | notTuple
  /-- The value is no mapping. -/
  | notMapping
  /-- The value is no byte string. -/
  | notBytes
  /-- The value is no mapping that describes the named thing. -/
  | notRecord (name : String)
  /-- The member is not known. -/
  | unknownMember
  /-- The key is no text. -/
  | unnamedMember
  /-- The value is none of those listed for a fixed set of names. -/
  | notMember (expected : List String)
  /-- The value is none of the words listed. -/
  | notWord (expected : List String)
  /-- The value is no path. -/
  | notPath
  /-- The list is empty. -/
  | emptyList
  /-- The text is empty. -/
  | emptyText
  /-- The text does not have the form of a pattern. -/
  | offPattern (pattern : String)
  /-- The number is below a bound. -/
  | below (bound : Int)
  /-- The number is above a bound. -/
  | above (bound : Int)
  /-- A rule of its own is broken, in its own words. -/
  | broken (rule : String)
  deriving DecidableEq, Repr

/-- Words in quotes, with commas and a final "or". -/
def listed : List String → String
  | [] => ""
  | [word] => "'" ++ word ++ "'"
  | [first, second] => "'" ++ first ++ "' or '" ++ second ++ "'"
  | first :: rest => "'" ++ first ++ "', " ++ listed rest

namespace Complaint

/-- The name of the kind of a complaint. -/
def code : Complaint → String
  | missing => "missing"
  | notText => "string_type"
  | undecodableText => "string_unicode"
  | notInteger => "int_type"
  | unparsableInteger => "int_parsing"
  | fractional => "int_from_float"
  | infinite => "finite_number"
  | notNumber => "float_type"
  | unparsableNumber => "float_parsing"
  | notBool => "bool_type"
  | unparsableBool => "bool_parsing"
  | notList => "list_type"
  | notTuple => "tuple_type"
  | notMapping => "dict_type"
  | notBytes => "bytes_type"
  | notRecord _ => "model_type"
  | unknownMember => "extra_forbidden"
  | unnamedMember => "invalid_key"
  | notMember _ => "enum"
  | notWord _ => "literal_error"
  | notPath => "path_type"
  | emptyList => "too_short"
  | emptyText => "string_too_short"
  | offPattern _ => "string_pattern_mismatch"
  | below _ => "greater_than_equal"
  | above _ => "less_than_equal"
  | broken _ => "value_error"

/-- A complaint in words. -/
def message : Complaint → String
  | missing => "Field required"
  | notText => "Input should be a valid string"
  | undecodableText => "Input should be a valid string, unable to parse raw data as a unicode string"
  | notInteger => "Input should be a valid integer"
  | unparsableInteger => "Input should be a valid integer, unable to parse string as an integer"
  | fractional => "Input should be a valid integer, got a number with a fractional part"
  | infinite => "Input should be a finite number"
  | notNumber => "Input should be a valid number"
  | unparsableNumber => "Input should be a valid number, unable to parse string as a number"
  | notBool => "Input should be a valid boolean"
  | unparsableBool => "Input should be a valid boolean, unable to interpret input"
  | notList => "Input should be a valid list"
  | notTuple => "Input should be a valid tuple"
  | notMapping => "Input should be a valid dictionary"
  | notBytes => "Input should be a valid bytes"
  | notRecord name => "Input should be a valid dictionary or instance of " ++ name
  | unknownMember => "Extra inputs are not permitted"
  | unnamedMember => "Keys should be strings"
  | notMember expected => "Input should be " ++ listed expected
  | notWord expected => "Input should be " ++ listed expected
  | notPath => "Input is not a valid path for <class 'pathlib.Path'>"
  | emptyList => "List should have at least 1 item after validation, not 0"
  | emptyText => "String should have at least 1 character"
  | offPattern pattern => "String should match pattern '" ++ pattern ++ "'"
  | below bound => "Input should be greater than or equal to " ++ toString bound
  | above bound => "Input should be less than or equal to " ++ toString bound
  | broken rule => "Value error, " ++ rule

/-- A complaint in words, a rule in its own words alone. -/
def reason : Complaint → String
  | broken rule => rule
  | complaint => complaint.message

end Complaint

/-- A complaint about the part of a document at a location. -/
structure Violation where
  /-- The way to the part. -/
  location : Location
  /-- What is wrong with it. -/
  complaint : Complaint
  deriving DecidableEq, Repr

/-- The violation seen from one step further out. -/
def Violation.within (step : Step) (v : Violation) : Violation :=
  { v with location := step :: v.location }

/-- A location after what has been written of it: indices in brackets, names
behind points. -/
def Location.renderAfter : String → Location → String
  | written, [] => written
  | written, .index i :: steps => renderAfter (written ++ "[" ++ toString i ++ "]") steps
  | written, .key name :: steps =>
    renderAfter (if written.isEmpty then name else written ++ "." ++ name) steps

/-- A location in dotted notation; the whole document is called a blueprint. -/
def Location.render (location : Location) : String :=
  let written := renderAfter "" location
  if written.isEmpty then "blueprint" else written

/-- Violations of the shape of a thing in words. -/
def report (thing : String) (violations : List Violation) : String :=
  let count := violations.length
  toString count ++ " validation error" ++ (if count = 1 then "" else "s") ++ " for " ++ thing
    ++ String.join (violations.map fun v =>
      "\n" ++ v.location.render ++ "\n  " ++ v.complaint.message)

example : Location.render [.key "fields", .index 0, .key "name"] = "fields[0].name" := by
  decide +kernel

end Scaffold.Shape
