import Scaffold.Bytes.Hex
import Scaffold.Bytes.Utf8
import Scaffold.Number.Numeral
import Scaffold.Yaml.Cursor
import Scaffold.Yaml.Token.Basic

/-!
Names, tags and directives of a YAML text.

* `nameAfterMark`: the name of an anchor or an alias.
* `tagToken`: a tag.
* `directiveToken`: a directive.
-/

namespace Scaffold.Yaml

open Number (natOfDecimal)

/-- A string with the cursor behind it. -/
abbrev ReadText := String × Cursor

/-! ### Anchors and aliases -/

/-- Characters other than those of names and words before which a name may end. -/
def marksAfterName : List Char :=
  ['?', ':', ',', ']', '\x7d', '%', '@', '\x60']

/-- The name behind the mark of an anchor or an alias. -/
def nameAfterMark (c : Cursor) : Except YamlFault ReadText :=
  let (name, c) := c.next.span isNameChar
  if name.isEmpty then .error (.malformed "expected alphabetic or numeric character")
  else if endsWord c.head || marksAfterName.contains c.head then .ok (String.ofList name, c)
  else .error (.malformed "expected alphabetic or numeric character")

/-! ### Tags -/

/-- Whether a character may stand in a tag. -/
def isTagChar (c : Char) : Bool :=
  c.isAlphanum || "-;/?:@&=+$,_.!~*'()[]%".toList.contains c

/-- The bytes of the escapes ahead, each a percent sign with two digits. -/
def escapedBytes : Nat → Cursor → Except YamlFault (Bytes × Cursor)
  | 0, c => .ok ([], c)
  | fuel + 1, c =>
    if c.head != '%' then .ok ([], c)
    else match hexValue? (c.peek 1), hexValue? (c.peek 2) with
      | some high, some low => do
        let (later, c) ← escapedBytes fuel (c.skip 3)
        return (UInt8.ofNat (high * 16 + low) :: later, c)
      | _, _ => .error (.malformed "expected two hexadecimal digits")

/-- The characters of the tag ahead, escapes read as the text that they encode. -/
def tagChars : Nat → Cursor → Except YamlFault (List Char × Cursor)
  | 0, c => .ok ([], c)
  | fuel + 1, c =>
    if !isTagChar c.head then .ok ([], c)
    else if c.head == '%' then do
      let (bytes, c) ← escapedBytes (c.rest.length + 1) c
      match Utf8.decode? bytes with
      | none => throw (.malformed "expected an encoded text")
      | some text =>
        let (later, c) ← tagChars fuel c
        return (text.toList ++ later, c)
    else do
      let (later, c') ← tagChars fuel c.next
      return (c.head :: later, c')

/-- The tag ahead, which is not empty. -/
def tagText (c : Cursor) : Except YamlFault ReadText :=
  if !isTagChar c.head then .error (.malformed "expected a tag")
  else (tagChars (c.rest.length + 1) c).map fun (cs, c) => (String.ofList cs, c)

/-- The handle ahead: names between two exclamation marks, or a single mark. -/
def handleText (c : Cursor) : Except YamlFault ReadText :=
  if c.head != '!' then .error (.malformed "expected '!'")
  else
    let (name, behind) := c.next.span isNameChar
    if c.peek 1 == ' ' then .ok ("!", c.next)
    else if behind.head != '!' then .error (.malformed "expected '!'")
    else .ok (String.ofList ('!' :: name ++ ['!']), behind.next)

/-- The tag ahead: in angle brackets, a lone exclamation mark, or with a handle. -/
def tagToken (c : Cursor) : Except YamlFault (Token × Cursor) := do
  let finish (handle : Option String) (rest : String) (c : Cursor) :
      Except YamlFault (Token × Cursor) :=
    if endsName c.head then .ok (.tag handle rest, c) else .error (.malformed "expected ' '")
  let second := c.peek 1
  if second == '<' then
    let (text, c) ← tagText (c.skip 2)
    if c.head != '>' then throw (.malformed "expected '>'")
    else finish none text c.next
  else if endsWord second then finish none "!" c.next
  else
    let word := c.next.rest.takeWhile (!endsName ·)
    let (handle, c) ← if word.contains '!' then handleText c else pure ("!", c.next)
    let (text, c) ← tagText c
    finish (some handle) text c

/-! ### Directives -/

/-- The digits of a number ahead. -/
def versionNumber (c : Cursor) : Except YamlFault (Nat × Cursor) :=
  let (digits, c) := c.span Char.isDigit
  if digits.isEmpty then .error (.malformed "expected a digit") else .ok (natOfDecimal digits, c)

/-- The version ahead: two numbers around a point. -/
def versionDirective (c : Cursor) : Except YamlFault (Directive × Cursor) := do
  let (major, c) ← versionNumber (c.pass (· == ' '))
  if c.head != '.' then throw (.malformed "expected a digit or '.'")
  else
    let (minor, c) ← versionNumber c.next
    if endsName c.head then return (.version major minor, c)
    else throw (.malformed "expected a digit or ' '")

/-- The handle ahead with what it stands for. -/
def handleDirective (c : Cursor) : Except YamlFault (Directive × Cursor) := do
  let (name, c) ← handleText (c.pass (· == ' '))
  if c.head != ' ' then throw (.malformed "expected ' '")
  else
    let (expansion, c) ← tagText (c.pass (· == ' '))
    if endsName c.head then return (.handle name expansion, c)
    else throw (.malformed "expected ' '")

/-- The directive ahead, which takes up the whole line. -/
def directiveToken (c : Cursor) : Except YamlFault (Token × Cursor) := do
  let (name, c) := c.next.span isNameChar
  if name.isEmpty then throw (.malformed "expected alphabetic or numeric character")
  else if !endsName c.head then throw (.malformed "expected alphabetic or numeric character")
  else
    let (line, c) ← match String.ofList name with
      | "YAML" => versionDirective c
      | "TAG" => handleDirective c
      | _ => pure (.other, c.pass (!closesLine ·))
    let c ← c.passRestOfLine
    return (.directive line, c)

end Scaffold.Yaml
