import Scaffold.Bytes.Utf8

/-!
Bytes in base 64.

Four characters of an alphabet of 64 stand for three bytes; one or two equals signs
fill up the last four. Characters outside the alphabet are passed over.

* `Base64.value?`: the value of a character.
* `Base64.decode?`: the bytes of some characters.
-/

namespace Scaffold.Base64

/-- The value of a character of the alphabet. -/
def value? (c : Char) : Option Nat :=
  if 'A' ≤ c && c ≤ 'Z' then some (c.toNat - 'A'.toNat)
  else if 'a' ≤ c && c ≤ 'z' then some (c.toNat - 'a'.toNat + 26)
  else if '0' ≤ c && c ≤ '9' then some (c.toNat - '0'.toNat + 52)
  else if c == '+' then some 62
  else if c == '/' then some 63
  else none

/-- The byte that the values of two neighbours give, the second of which has the given
number of neighbours in front of it. -/
def byteOf (place before value : Nat) : List UInt8 :=
  if place = 1 then [UInt8.ofNat (before * 4 + value / 16)]
  else if place = 2 then [UInt8.ofNat (before % 16 * 16 + value / 4)]
  else if place = 3 then [UInt8.ofNat (before % 4 * 64 + value)]
  else []

/-- The bytes of characters, given the number of characters of the present four, the
value of the last of them and the number of equals signs. -/
def decodeFrom (place before fill : Nat) : List Char → Option Bytes
  | [] => if place = 0 then some [] else none
  | c :: cs =>
    if c == '=' then
      if place ≥ 2 then
        if place + fill + 1 ≥ 4 then some [] else decodeFrom place before (fill + 1) cs
      else decodeFrom place before fill cs
    else match value? c with
      | none => decodeFrom place before fill cs
      | some value =>
        (decodeFrom ((place + 1) % 4) value 0 cs).map (byteOf place before value ++ ·)

/-- The bytes of characters. -/
def decode? (cs : List Char) : Option Bytes :=
  decodeFrom 0 0 0 cs

example : decode? "aGVs\nbG8=".toList = some [104, 101, 108, 108, 111] := by decide +kernel

end Scaffold.Base64
