import Scaffold.Bytes.Utf8

/-!
Hexadecimal.

* `hexDigit`: the small digit of a value below sixteen.
* `toHex`: two digits for every byte.
* `ofHex?`: the bytes that such digits stand for.
-/

namespace Scaffold

/-- The hexadecimal digit of a value below sixteen. -/
def hexDigit (n : Nat) : Char :=
  if n < 10 then Char.ofNat (48 + n) else Char.ofNat (87 + n)

/-- The value of a hexadecimal digit, small or capital. -/
def hexValue? (c : Char) : Option Nat :=
  if c.isDigit then some (c.toNat - 48)
  else if 'a' ≤ c && c ≤ 'f' then some (c.toNat - 87)
  else if 'A' ≤ c && c ≤ 'F' then some (c.toNat - 55)
  else none

namespace Bytes

/-- Two digits for every byte. -/
def toHexChars (bs : Bytes) : List Char :=
  bs.flatMap fun b => [hexDigit (b.toNat / 16), hexDigit (b.toNat % 16)]

/-- Two digits for every byte, as a text. -/
def toHex (bs : Bytes) : String :=
  String.ofList (toHexChars bs)

/-- The bytes that pairs of digits stand for. -/
def ofHexChars? : List Char → Option Bytes
  | [] => some []
  | [_] => none
  | c :: d :: cs => do
    let high ← hexValue? c
    let low ← hexValue? d
    let rest ← ofHexChars? cs
    return (high * 16 + low).toUInt8 :: rest

/-- The bytes that a text of digits stands for. -/
def ofHex? (s : String) : Option Bytes :=
  ofHexChars? s.toList

end Bytes

end Scaffold
