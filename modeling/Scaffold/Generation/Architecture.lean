import Scaffold.Blueprint.Basic
import Scaffold.Shape.Decoder

/-!
Architectures: which layers a generated program has, and in which order.

* `Architecture`: a name with its layers.
* `Architectures`: the registry, in the order of registration.
* `Architectures.resolve`: the architecture of a name.
* `UnknownArchitecture.message`: that there is none, in words.
-/

namespace Scaffold

/-- The layers of a generated program. -/
structure Architecture where
  /-- The name. -/
  name : String
  /-- The names of the layers, in order. -/
  layers : List String
  /-- Anything else. -/
  metadata : Named
  deriving BEq, Repr

/-- The decoder of architectures. -/
def Architecture.decode : Shape.Decoder Architecture :=
  Shape.strictRecord "ArchitectureDriver" ["name", "layers", "metadata"] <|
    (((Shape.Reading.done Architecture.mk).apply (Shape.required "name" Shape.text)).apply
      (Shape.required "layers" (Shape.tupleOf Shape.text))).apply
      (Shape.defaulted "metadata" (Shape.dictOf Shape.anything) [])

/-- The layout of an architecture. -/
def Architecture.toPlain (a : Architecture) : Except PlainError Json := do
  return .object [("name", .string a.name), ("layers", .ofTexts a.layers),
    ("metadata", ← Document.toPlainRecord a.metadata)]

/-- Architectures by the names under which they are registered. -/
abbrev Architectures := List (String × Architecture)

/-- The lookup of an architecture that is not registered. -/
structure UnknownArchitecture where
  /-- The name that was looked up. -/
  name : String
  /-- The names that are registered. -/
  available : List String
  deriving DecidableEq, Repr

/-- The failed lookup in words. -/
def UnknownArchitecture.message (u : UnknownArchitecture) : String :=
  let listing := if u.available.isEmpty then "" else ", ".intercalate u.available
  "Architecture '" ++ u.name ++ "' is not configured (available: "
    ++ (if listing.isEmpty then "none" else listing) ++ ")."

namespace Architectures

/-- The registered names, in the order of registration. -/
def available (registry : Architectures) : List String :=
  registry.map (·.1)

/-- The architecture of a name. -/
def resolve (registry : Architectures) (name : String) : Except UnknownArchitecture Architecture :=
  match registry.lookup name with
  | some architecture => .ok architecture
  | none => .error ⟨name, registry.available⟩

end Architectures

end Scaffold
