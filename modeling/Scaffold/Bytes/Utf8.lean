/-!
UTF-8.

Characters as one to four bytes. Reading cuts a byte sequence into parts: a part
is a character or a broken part, the longest start of a character that the next
byte does not continue. A sequence is well formed when no part is broken.

* `Bytes`: a sequence of bytes.
* `encode`: the bytes of a text.
* `parts`: the characters and broken parts of a byte sequence.
* `decode?`: the text of a well-formed sequence.
* `decodeLossy`: the text with a replacement character for every broken part.
* `encodeChars_append`: encoding is character by character.
-/

namespace Scaffold

/-- A sequence of bytes. -/
abbrev Bytes := List UInt8

namespace Utf8

/-- The bytes of a code point. -/
def encodePoint (n : Nat) : Bytes :=
  if n < 0x80 then [n.toUInt8]
  else if n < 0x800 then [(0xc0 + n / 0x40).toUInt8, (0x80 + n % 0x40).toUInt8]
  else if n < 0x10000 then
    [(0xe0 + n / 0x1000).toUInt8, (0x80 + n / 0x40 % 0x40).toUInt8, (0x80 + n % 0x40).toUInt8]
  else
    [(0xf0 + n / 0x40000).toUInt8, (0x80 + n / 0x1000 % 0x40).toUInt8,
     (0x80 + n / 0x40 % 0x40).toUInt8, (0x80 + n % 0x40).toUInt8]

/-- The bytes of a list of characters. -/
def encodeChars (cs : List Char) : Bytes :=
  cs.flatMap fun c => encodePoint c.toNat

/-- The bytes of a text. -/
def encode (s : String) : Bytes :=
  encodeChars s.toList

/-- The start of a character of which bytes are missing. -/
structure Pending where
  /-- The bits read so far. -/
  value : Nat
  /-- The number of missing bytes, less one. -/
  missing : Nat
  /-- The least byte that may come next. -/
  least : Nat
  /-- The greatest byte that may come next. -/
  greatest : Nat

/-- What a byte in the first place begins: a whole character, a broken part
(`none`), or a longer character. -/
def first (b : Nat) : Option Char ⊕ Pending :=
  if b < 0x80 then .inl (some (Char.ofNat b))
  else if b < 0xc2 then .inl none
  else if b < 0xe0 then .inr ⟨b - 0xc0, 0, 0x80, 0xbf⟩
  else if b == 0xe0 then .inr ⟨0, 1, 0xa0, 0xbf⟩
  else if b == 0xed then .inr ⟨0xd, 1, 0x80, 0x9f⟩
  else if b < 0xf0 then .inr ⟨b - 0xe0, 1, 0x80, 0xbf⟩
  else if b == 0xf0 then .inr ⟨0, 2, 0x90, 0xbf⟩
  else if b < 0xf4 then .inr ⟨b - 0xf0, 2, 0x80, 0xbf⟩
  else if b == 0xf4 then .inr ⟨4, 2, 0x80, 0x8f⟩
  else .inl none

/-- The characters and broken parts of a byte sequence after the start of a
character, if there is one. -/
def partsFrom : Option Pending → Bytes → List (Option Char)
  | none, [] => []
  | some _, [] => [none]
  | none, b :: bs =>
    match first b.toNat with
    | .inl part => part :: partsFrom none bs
    | .inr pending => partsFrom (some pending) bs
  | some pending, b :: bs =>
    if pending.least ≤ b.toNat && b.toNat ≤ pending.greatest then
      let value := pending.value * 0x40 + (b.toNat - 0x80)
      match pending.missing with
      | 0 => some (Char.ofNat value) :: partsFrom none bs
      | missing + 1 => partsFrom (some ⟨value, missing, 0x80, 0xbf⟩) bs
    else
      none :: match first b.toNat with
        | .inl part => part :: partsFrom none bs
        | .inr pending => partsFrom (some pending) bs

/-- The characters and broken parts of a byte sequence. -/
def parts (bs : Bytes) : List (Option Char) :=
  partsFrom none bs

/-- The text of a well-formed byte sequence. -/
def decode? (bs : Bytes) : Option String :=
  ((parts bs).mapM id).map String.ofList

/-- The text of a byte sequence, broken parts replaced. -/
def decodeLossy (bs : Bytes) : String :=
  String.ofList ((parts bs).map (·.getD (Char.ofNat 0xfffd)))

/-- Encoding is character by character. -/
theorem encodeChars_append (cs ds : List Char) :
    encodeChars (cs ++ ds) = encodeChars cs ++ encodeChars ds := by
  simp [encodeChars]

example : decode? (encode "aé日😀") = some "aé日😀" := by decide +kernel

example : decodeLossy [0x61, 0xe6, 0x97, 0x62, 0xff] = "a\ufffdb\ufffd" := by decide +kernel

end Utf8

end Scaffold
