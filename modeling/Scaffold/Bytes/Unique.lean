import Scaffold.Bytes.Sha256

/-!
Unique names.

A unique name shows sixteen random bytes in hexadecimal digits. Four bits of it say
that it is random, and two more how the others are to be read.

* `Unique.name`: the name of sixteen bytes.
* `Unique.nameAt`: a name for every number, from random bytes.
* `Unique.tokenAt`: a short one.
-/

namespace Scaffold.Unique

/-- The bytes of a name with the marks in the seventh and the ninth. -/
def marked (bs : Bytes) : Bytes :=
  bs.mapIdx fun i b =>
    if i = 6 then (b &&& 0x0f) ||| 0x40 else if i = 8 then (b &&& 0x3f) ||| 0x80 else b

/-- Hexadecimal digits in groups of the given lengths, with dashes between them. -/
def grouped : List Nat → List Char → List Char
  | [], cs => cs
  | [_], cs => cs
  | n :: ns, cs => cs.take n ++ '-' :: grouped ns (cs.drop n)

/-- The name of sixteen bytes. -/
def name (bs : Bytes) : String :=
  String.ofList (grouped [8, 4, 4, 4, 12] (Bytes.toHexChars (marked (bs.take 16))))

/-- The digest of random bytes with a number. -/
def drawn (seed : Bytes) (n : Nat) : Bytes :=
  Sha256.digest (seed ++ Utf8.encode (toString n))

/-- The name of a number, from random bytes. -/
def nameAt (seed : Bytes) (n : Nat) : String :=
  name (drawn seed n)

/-- The short name of a number, from random bytes. -/
def tokenAt (seed : Bytes) (n : Nat) : String :=
  String.ofList ((Bytes.toHexChars (drawn seed n)).take 8)

example : name (List.replicate 16 255) = "ffffffff-ffff-4fff-bfff-ffffffffffff" := by
  decide +kernel

end Scaffold.Unique
