import Scaffold.Text.Digit

/-!
Tags of YAML nodes.

A plain scalar without a tag of its own gets one by its form: the form of a truth
value, of a number, of a date and so on; any other scalar is a text.

* `Tag`: the tags; `Tag.ofText`, as they are written in full.
* `resolvePlain`: the tag of a plain scalar.
* `isTruthForm`, `isFloatForm`, `isIntForm`, `isNullForm`, `isMomentForm`: the forms.
-/

namespace Scaffold.Yaml

/-- The tag of a node. -/
inductive Tag
  /-- Nothing. -/
  | null
  /-- A truth value. -/
  | bool
  /-- An integer. -/
  | int
  /-- A number with a fraction. -/
  | float
  /-- Bytes. -/
  | binary
  /-- A date or a moment. -/
  | moment
  /-- A text. -/
  | text
  /-- A list. -/
  | sequence
  /-- A list of pairs without a repeated first part. -/
  | orderedMap
  /-- A list of pairs. -/
  | pairs
  /-- A set. -/
  | set
  /-- A mapping. -/
  | mapping
  /-- The entries of other mappings are taken over. -/
  | merge
  /-- The value that stands for a whole mapping. -/
  | default
  /-- A tag that is not known. -/
  | unknown (name : String)
  deriving DecidableEq, Repr

/-- The head of the known tags. -/
def tagHead : String := "tag:yaml.org,2002:"

/-- The known tags by the rest of their names. -/
def knownTags : List (String × Tag) :=
  [("null", .null), ("bool", .bool), ("int", .int), ("float", .float), ("binary", .binary),
   ("timestamp", .moment), ("str", .text), ("seq", .sequence), ("omap", .orderedMap),
   ("pairs", .pairs), ("set", .set), ("map", .mapping), ("merge", .merge), ("value", .default)]

/-- The tag of a name written in full. -/
def Tag.ofText (name : String) : Tag :=
  ((knownTags.find? fun known => tagHead ++ known.1 == name).map (·.2)).getD (.unknown name)

/-! ### Forms of scalars -/

/-- The characters after an optional sign. -/
def afterSign : List Char → List Char
  | '+' :: cs => cs
  | '-' :: cs => cs
  | cs => cs

/-- Whether a character is a digit or an underscore. -/
def isDigitOr_ (c : Char) : Bool := c.isDigit || c == '_'

/-- Whether a list starts with a digit and goes on with digits and underscores. -/
def isNumeral : List Char → Bool
  | [] => false
  | c :: cs => c.isDigit && cs.all isDigitOr_

/-- The groups of one or two digits below sixty, each behind a colon, at the head of a
list; the number of groups and the list after them. -/
def sixtieths : Nat → List Char → Nat × List Char
  | 0, cs => (0, cs)
  | fuel + 1, ':' :: a :: b :: cs =>
    if '0' ≤ a && a ≤ '5' && b.isDigit then
      let (count, rest) := sixtieths fuel cs
      (count + 1, rest)
    else if a.isDigit then
      let (count, rest) := sixtieths fuel (b :: cs)
      (count + 1, rest)
    else (0, ':' :: a :: b :: cs)
  | _ + 1, [':', a] => if a.isDigit then (1, []) else (0, [':', a])
  | _ + 1, cs => (0, cs)

/-- Whether a list is an exponent with its sign, or empty. -/
def isExponentOrNone : List Char → Bool
  | [] => true
  | e :: sign :: digits =>
    (e == 'e' || e == 'E') && (sign == '+' || sign == '-') && !digits.isEmpty
      && digits.all Char.isDigit
  | _ => false

/-- Whether a scalar has the form of a truth value. -/
def isTruthForm (cs : List Char) : Bool :=
  ["yes", "Yes", "YES", "no", "No", "NO", "true", "True", "TRUE", "false", "False", "FALSE",
   "on", "On", "ON", "off", "Off", "OFF"].contains (String.ofList cs)

/-- Whether a scalar has the form of a number with a fraction. -/
def isFloatForm (cs : List Char) : Bool :=
  let body := afterSign cs
  let whole := body.takeWhile isDigitOr_
  let rest := body.dropWhile isDigitOr_
  let fromPoint (more : List Char) : Bool := isExponentOrNone (more.dropWhile isDigitOr_)
  let decimal := isNumeral whole && match rest with
    | '.' :: more => fromPoint more
    | _ => false
  let bare := match cs with
    | '.' :: more => isNumeral (more.takeWhile isDigitOr_) && fromPoint more
    | _ => false
  let timed := isNumeral whole && match sixtieths rest.length rest with
    | (0, _) => false
    | (_, '.' :: more) => more.all isDigitOr_
    | _ => false
  let named := [".inf", ".Inf", ".INF"].contains (String.ofList body)
    || [".nan", ".NaN", ".NAN"].contains (String.ofList cs)
  decimal || bare || timed || named

/-- Whether a scalar has the form of an integer. -/
def isIntForm (cs : List Char) : Bool :=
  let body := afterSign cs
  let digitsOf (p : Char → Bool) (digits : List Char) : Bool :=
    !digits.isEmpty && digits.all fun c => p c || c == '_'
  let isOctal (c : Char) : Bool := '0' ≤ c && c ≤ '7'
  let isHexadecimal (c : Char) : Bool :=
    c.isDigit || ('a' ≤ c && c ≤ 'f') || ('A' ≤ c && c ≤ 'F')
  match body with
  | ['0'] => true
  | '0' :: 'b' :: digits => digitsOf (fun c => c == '0' || c == '1') digits
  | '0' :: 'x' :: digits => digitsOf isHexadecimal digits
  | '0' :: digits => digitsOf isOctal digits
  | c :: rest =>
    c.isDigit && match sixtieths rest.length (rest.dropWhile isDigitOr_) with
      | (_, left) => left.isEmpty
  | [] => false

/-- Whether a scalar has the form of nothing. -/
def isNullForm (cs : List Char) : Bool :=
  ["", "~", "null", "Null", "NULL"].contains (String.ofList cs)

/-- The digits at the head of a list, at least `least` and at most `most` of them, and
the list after them. -/
def takeBetween (least most : Nat) (cs : List Char) : Option (List Char × List Char) :=
  let digits := (cs.take most).takeWhile Char.isDigit
  if digits.length < least then none else some (digits, cs.drop digits.length)

/-- The list after a character at its head. -/
def afterChar (c : Char) : List Char → Option (List Char)
  | [] => none
  | x :: cs => if x == c then some cs else none

/-- Whether a character is a blank on a line. -/
def isLineBlank (c : Char) : Bool := c == ' ' || c == '\t'

/-- The parts of a moment as they are written; the parts that need not be there are
empty. -/
structure MomentParts where
  /-- The year, month and day. -/
  (year month day : List Char)
  /-- The hour, minute and second. -/
  (hour minute second : List Char)
  /-- The fraction of the second. -/
  fraction : List Char
  /-- The sign of the offset, or the letter for universal time. -/
  zone : Option Char
  /-- The hours and minutes of the offset. -/
  (zoneHour zoneMinute : List Char)
  deriving Repr

/-- The offset at the end of a moment. -/
def readZone? (parts : MomentParts) (cs : List Char) : Option MomentParts :=
  match cs.dropWhile isLineBlank with
  | [] => if cs.isEmpty then some parts else none
  | ['Z'] => some { parts with zone := some 'Z' }
  | sign :: rest =>
    if sign != '+' && sign != '-' then none
    else do
      let (zoneHour, rest) ← takeBetween 1 2 rest
      match rest with
      | [] => return { parts with zone := some sign, zoneHour }
      | ':' :: rest =>
        let (zoneMinute, rest) ← takeBetween 2 2 rest
        if rest.isEmpty then return { parts with zone := some sign, zoneHour, zoneMinute } else none
      | _ => none

/-- The parts of a date, or of a date with a time of day. -/
def readMomentParts? (cs : List Char) : Option MomentParts := do
  let (year, rest) ← takeBetween 4 4 cs
  let (month, rest) ← takeBetween 1 2 (← afterChar '-' rest)
  let (day, rest) ← takeBetween 1 2 (← afterChar '-' rest)
  let parts : MomentParts := ⟨year, month, day, [], [], [], [], none, [], []⟩
  if rest.isEmpty then return parts
  let rest ← match rest with
    | 'T' :: rest => some rest
    | 't' :: rest => some rest
    | c :: rest => if isLineBlank c then some (rest.dropWhile isLineBlank) else none
    | [] => none
  let (hour, rest) ← takeBetween 1 2 rest
  let (minute, rest) ← takeBetween 2 2 (← afterChar ':' rest)
  let (second, rest) ← takeBetween 2 2 (← afterChar ':' rest)
  let parts := { parts with hour, minute, second }
  match rest with
  | '.' :: rest =>
    readZone? { parts with fraction := rest.takeWhile Char.isDigit } (rest.dropWhile Char.isDigit)
  | rest => readZone? parts rest

/-- Whether a scalar has the form of a date or a moment; a date alone has two digits
for month and day. -/
def isMomentForm (cs : List Char) : Bool :=
  match readMomentParts? cs with
  | none => false
  | some parts => !parts.hour.isEmpty || (parts.month.length = 2 && parts.day.length = 2)

/-- The tag of a plain scalar. A line break at its end does not count. -/
def resolvePlain (text : String) : Tag :=
  let cs := text.toList
  let body := if cs.getLast? == some '\n' && cs.length > 1 then cs.dropLast else cs
  if isTruthForm body then .bool
  else if isFloatForm body then .float
  else if isIntForm body then .int
  else if body == ['<', '<'] then .merge
  else if isNullForm body then .null
  else if isMomentForm body then .moment
  else if body == ['='] then .default
  else .text

end Scaffold.Yaml
