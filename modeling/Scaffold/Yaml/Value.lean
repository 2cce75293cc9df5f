import Scaffold.Bytes.Base64
import Scaffold.Bytes.Hex
import Scaffold.Document.Basic
import Scaffold.Number.Numeral
import Scaffold.Text.CaseMap
import Scaffold.Text.Pieces
import Scaffold.Yaml.Fault
import Scaffold.Yaml.Tag

/-!
The values of YAML scalars.

* `readInteger`: decimal, binary, octal, hexadecimal and sexagesimal integers.
* `readFloat`: decimal and sexagesimal numbers, infinities and NaN.
* `readTruth`, `readMoment`, `readBinary`: the other kinds.
* `scalarValue`: the value of a scalar with a tag.
-/

namespace Scaffold.Yaml

open Number Text Calendar

/-- The characters without underscores. -/
def withoutUnderscores (text : String) : List Char :=
  text.toList.filter (· != '_')

/-! ### Integers -/

/-- The value of a digit in a base up to sixteen. -/
def digitIn? (base : Nat) (c : Char) : Option Nat :=
  (hexValue? c).filter (· < base)

/-- The letter that may announce a base behind a zero. -/
def baseLetter? (base : Nat) : Option Char :=
  if base = 2 then some 'b' else if base = 8 then some 'o' else if base = 16 then some 'x' else none

/-- The digits behind a zero and the letter of a base, if these are there. -/
def afterBase (base : Nat) : List Char → List Char
  | '0' :: c :: cs => if baseLetter? base == some c.toLower then cs else '0' :: c :: cs
  | cs => cs

/-- The greatest number of decimal digits of an integer. -/
def digitLimit : Nat := 4300

/-- The integer in a base that characters denote, blanks around them allowed. -/
def integerIn? (base : Nat) (cs : List Char) : Option Int :=
  let (negative, body) := takeSign ((trim cs).map asciiDigit)
  let digits := afterBase base body
  if digits.isEmpty || (base = 10 && digits.length > digitLimit) then none
  else (digits.mapM (digitIn? base)).map fun values =>
    let value : Int := natOfDigits base values
    if negative then -value else value

/-- The integer of a sexagesimal numeral, its parts in order. -/
def sexagesimal (parts : List Int) : Int :=
  parts.foldl (fun value part => value * 60 + part) 0

/-- The integer of a numeral without underscores and sign. -/
def unsignedInteger? (cs : List Char) : Option Int :=
  match cs with
  | ['0'] => some 0
  | '0' :: 'b' :: digits => integerIn? 2 digits
  | '0' :: 'x' :: digits => integerIn? 16 digits
  | '0' :: digits => integerIn? 8 ('0' :: digits)
  | cs =>
    if cs.contains ':' then
      ((pieces (· == ':') cs).mapM (integerIn? 10)).map sexagesimal
    else integerIn? 10 cs

/-- The integer that a scalar denotes. -/
def readInteger (text : String) : Except YamlFault Int :=
  let (negative, body) := takeSign (withoutUnderscores text)
  if body.isEmpty then .error .noDigits
  else match unsignedInteger? body with
    | some value => .ok (if negative then -value else value)
    | none => .error .unreadable

/-! ### Numbers with a fraction -/

/-- The number of a sexagesimal numeral, its parts in order, last first. -/
def sexagesimalNumber (base : Int) (sum : Binary64) : List Binary64 → Binary64
  | [] => sum
  | part :: parts => sexagesimalNumber (base * 60) (sum.add (part.mul (.ofInt base))) parts

/-- The number of a numeral without underscores and sign, in lower case. -/
def unsignedFloat? (s : String) : Option Binary64 :=
  if s == ".inf" then some (.ofRank false infiniteRank)
  else if s == ".nan" then some .nan
  else if s.contains ':' then
    ((pieces (· == ':') s.toList).mapM fun part => readNumber? (String.ofList part)).map
      fun parts => sexagesimalNumber 1 .zero parts.reverse
  else readNumber? s

/-- The number that a scalar denotes. -/
def readFloat (text : String) : Except YamlFault Binary64 :=
  let cs := lower (withoutUnderscores text)
  if cs.isEmpty then .error .noDigits
  else
    let (negative, body) := takeSign cs
    match unsignedFloat? (String.ofList body) with
    | some value => .ok (if negative then value.neg else value)
    | none => .error .unreadable

/-! ### Other kinds -/

/-- The truth value that a scalar denotes. -/
def readTruth (text : String) : Except YamlFault Bool :=
  let word := lowered text
  if ["yes", "true", "on"].contains word then .ok true
  else if ["no", "false", "off"].contains word then .ok false
  else .error .noTruth

/-- The microseconds of a fraction of a second; further digits are dropped. -/
def microsecondsOf (digits : List Char) : Nat :=
  natOfDecimal ((digits ++ List.replicate 6 '0').take 6)

/-- The offset of a moment in microseconds. -/
def offsetOf (parts : MomentParts) : Option Int :=
  parts.zone.map fun zone =>
    let minutes := natOfDecimal parts.zoneHour * 60 + natOfDecimal parts.zoneMinute
    let value : Int := (minutes * 60000000 : Nat)
    if zone == '-' then -value else if zone == '+' then value else 0

/-- The date or the moment that a scalar denotes. -/
def readMoment (text : String) : Except YamlFault Document :=
  let cs := text.toList
  match readMomentParts? (if cs.getLast? == some '\n' then cs.dropLast else cs) with
  | none => .error .noMoment
  | some parts =>
    let date : Date :=
      ⟨natOfDecimal parts.year, natOfDecimal parts.month, natOfDecimal parts.day⟩
    if parts.hour.isEmpty then if date.isValid then .ok (.date date) else .error .unreadable
    else
      let moment : Moment := ⟨date, natOfDecimal parts.hour, natOfDecimal parts.minute,
        natOfDecimal parts.second, microsecondsOf parts.fraction, offsetOf parts⟩
      if moment.isValid then .ok (.moment moment) else .error .unreadable

/-- The bytes that a scalar denotes. -/
def readBinary (text : String) : Except YamlFault Bytes :=
  let cs := text.toList
  if cs.any fun c => c.toNat ≥ 0x80 then .error (.malformed "failed to read bytes")
  else match Base64.decode? cs with
    | some bytes => .ok bytes
    | none => .error (.malformed "failed to read bytes")

/-- The value of a scalar with a tag. -/
def scalarValue (tag : Tag) (text : String) : Except YamlFault Document :=
  match tag with
  | .null => .ok .null
  | .bool => (readTruth text).map .bool
  | .int => (readInteger text).map .int
  | .float => (readFloat text).map .float
  | .binary => (readBinary text).map .bytes
  | .moment => readMoment text
  | .text => .ok (.text text)
  | .sequence | .orderedMap | .pairs => .error (.malformed "expected a sequence node")
  | .set | .mapping => .error (.malformed "expected a mapping node")
  | .merge | .default | .unknown _ =>
    .error (.malformed "could not determine a constructor for the tag")

end Scaffold.Yaml
