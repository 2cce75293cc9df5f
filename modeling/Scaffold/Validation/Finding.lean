import Scaffold.Json.Basic

/-!
Findings of validation.

A finding has a stable code, a message and, where it concerns one part, the path
of that part. Two findings with the same code, path and message are the same
finding; an absent path and an empty one do not differ in this.

* `Finding`, `Findings`: one finding; errors and warnings in order.
* `Finding.identity`: what makes two findings the same.
* `unique`: a list without later repeats.
* `Findings.merge`, `Findings.deduplicated`: both applied to errors and warnings.
-/

namespace Scaffold

/-- One finding. -/
structure Finding where
  /-- The stable code. -/
  code : String
  /-- The finding in words. -/
  message : String
  /-- The path of the part it concerns. -/
  path : Option String
  deriving DecidableEq, Repr

/-- What makes two findings the same. -/
def Finding.identity (f : Finding) : String × String × String :=
  (f.code, f.path.getD "", f.message)

/-- The findings whose identity is not among those seen before or among those of
earlier findings. -/
def uniqueAfter (seen : List (String × String × String)) : List Finding → List Finding
  | [] => []
  | f :: fs =>
    if seen.contains f.identity then uniqueAfter seen fs
    else f :: uniqueAfter (f.identity :: seen) fs

/-- The findings without later repeats. -/
def unique (fs : List Finding) : List Finding :=
  uniqueAfter [] fs

/-- Errors and warnings, each in the order of their discovery. -/
structure Findings where
  /-- What makes a blueprint unusable. -/
  errors : List Finding
  /-- What deserves attention. -/
  warnings : List Finding
  deriving DecidableEq, Repr

namespace Findings

/-- No finding. -/
def none : Findings := ⟨[], []⟩

/-- Whether there is no error. -/
def isValid (r : Findings) : Bool :=
  r.errors.isEmpty

/-- A further error. -/
def addError (r : Findings) (f : Finding) : Findings :=
  { r with errors := r.errors ++ [f] }

/-- A further warning. -/
def addWarning (r : Findings) (f : Finding) : Findings :=
  { r with warnings := r.warnings ++ [f] }

/-- The findings of two results, the first ones first. -/
def merge (r s : Findings) : Findings :=
  ⟨r.errors ++ s.errors, r.warnings ++ s.warnings⟩

/-- The findings without later repeats. -/
def deduplicated (r : Findings) : Findings :=
  ⟨unique r.errors, unique r.warnings⟩

end Findings

/-- A finding as a JSON value. -/
def Finding.toJson (f : Finding) : Json :=
  .object [("code", .string f.code), ("message", .string f.message),
    ("path", .ofText? f.path)]

/-- Errors and warnings as a JSON value. -/
def Findings.toJson (r : Findings) : Json :=
  .object [("valid", .bool r.isValid), ("errors", .array (r.errors.map Finding.toJson)),
    ("warnings", .array (r.warnings.map Finding.toJson))]

end Scaffold
