import Scaffold.Bytes.Hex
import Scaffold.Json.Basic
import Scaffold.Number.Numeral

/-!
Reading JSON text.

The reader accepts one value between blanks. It also knows the three names for
numbers that are not finite. When a key of an object is repeated, the last value
counts and stands where the key was first.

* `Json.ReadError`: why a text is refused.
* `takeString`: the text up to a closing quote.
* `readNumber`: a number at the head of the input.
* `readValue`, `readItems`, `readMembers`: values at the head of the input; the
  first argument bounds the number of calls.
* `Json.parse`: the value of a whole text.
-/

namespace Scaffold.Json

open Number

/-- Why a text is refused. -/
inductive ReadError
  /-- The text is no JSON value. -/
  | malformed
  /-- Lists and objects are nested too deeply. -/
  | tooDeep
  /-- An integer has too many digits. -/
  | hugeInteger
  deriving DecidableEq, Repr

/-- The greatest number of lists and objects around a value. -/
def depthLimit : Nat := 980

/-- The input without the blanks in front. -/
def skipBlanks (cs : List Char) : List Char :=
  cs.dropWhile fun c => c == ' ' || c == '\t' || c == '\n' || c == '\r'

/-- The value of four hexadecimal digits at the head of the input. -/
def takeUnit : List Char → Option (Nat × List Char)
  | a :: b :: c :: d :: cs => do
    let a ← hexValue? a
    let b ← hexValue? b
    let c ← hexValue? c
    let d ← hexValue? d
    return (((a * 16 + b) * 16 + c) * 16 + d, cs)
  | _ => none

/-- The character that a letter after a backslash stands for. -/
def escaped? : Char → Option Char
  | '"' => some '"'
  | '\\' => some '\\'
  | '/' => some '/'
  | 'b' => some '\x08'
  | 'f' => some '\x0c'
  | 'n' => some '\n'
  | 'r' => some '\r'
  | 't' => some '\t'
  | _ => none

/-- The text up to the closing quote and the input after it; the first argument
bounds the number of characters. Two escaped units that form a pair are one
character, and a unit that belongs to no pair is replaced. -/
def takeString : Nat → List Char → Option (List Char × List Char)
  | 0, _ => none
  | _ + 1, [] => none
  | _ + 1, '"' :: cs => some ([], cs)
  | fuel + 1, '\\' :: 'u' :: cs => do
    let (unit, rest) ← takeUnit cs
    let single : Option (Char × List Char) :=
      if 0xd800 ≤ unit && unit < 0xdc00 then
        match rest with
        | '\\' :: 'u' :: more =>
          match takeUnit more with
          | some (low, after) =>
            if 0xdc00 ≤ low && low < 0xe000 then
              some (Char.ofNat (0x10000 + (unit - 0xd800) * 0x400 + (low - 0xdc00)), after)
            else some (Char.ofNat 0xfffd, rest)
          | none => some (Char.ofNat 0xfffd, rest)
        | _ => some (Char.ofNat 0xfffd, rest)
      else if 0xdc00 ≤ unit && unit < 0xe000 then some (Char.ofNat 0xfffd, rest)
      else some (Char.ofNat unit, rest)
    let (c, after) ← single
    let (tail, final) ← takeString fuel after
    return (c :: tail, final)
  | fuel + 1, '\\' :: c :: cs => do
    let c ← escaped? c
    let (tail, final) ← takeString fuel cs
    return (c :: tail, final)
  | fuel + 1, c :: cs =>
    if c.toNat < 0x20 then none
    else (takeString fuel cs).map fun (tail, final) => (c :: tail, final)

/-- The text after an opening quote. -/
def readString (cs : List Char) : Except ReadError (String × List Char) :=
  match takeString (cs.length + 1) cs with
  | some (text, rest) => .ok (String.ofList text, rest)
  | none => .error .malformed

/-- The digits of a whole number at the head of the input: a single zero, or
digits that do not start with zero. -/
def takeWhole : List Char → List Char × List Char
  | '0' :: cs => (['0'], cs)
  | cs => (cs.takeWhile Char.isDigit, cs.dropWhile Char.isDigit)

/-- A point with digits after it at the head of the input, if there is one. -/
def takeFraction : List Char → List Char × List Char
  | '.' :: cs =>
    match cs.takeWhile Char.isDigit with
    | [] => ([], '.' :: cs)
    | digits => ('.' :: digits, cs.dropWhile Char.isDigit)
  | cs => ([], cs)

/-- An exponent at the head of the input, if there is one. -/
def takeExponent : List Char → List Char × List Char
  | [] => ([], [])
  | c :: cs =>
    if c == 'e' || c == 'E' then
      let (sign, body) := match cs with
        | '+' :: rest => (['+'], rest)
        | '-' :: rest => (['-'], rest)
        | rest => ([], rest)
      match body.takeWhile Char.isDigit with
      | [] => ([], c :: cs)
      | digits => (c :: sign ++ digits, body.dropWhile Char.isDigit)
    else ([], c :: cs)

/-- A number at the head of the input. -/
def readNumber (cs : List Char) : Except ReadError (Json × List Char) :=
  let (negative, body) := match cs with
    | '-' :: rest => (true, rest)
    | rest => (false, rest)
  let (whole, afterWhole) := takeWhole body
  let (fraction, afterFraction) := takeFraction afterWhole
  let (exponent, rest) := takeExponent afterFraction
  if whole.isEmpty then .error .malformed
  else if fraction.isEmpty && exponent.isEmpty then
    if whole.length > digitLimit then .error .hugeInteger
    else
      let value : Int := natOfDecimal whole
      .ok (.int (if negative then -value else value), rest)
  else match readDecimal? (whole ++ fraction ++ exponent) with
    | some decimal => .ok (.float ({ decimal with negative }).toNumber, rest)
    | none => .error .malformed

/-- The names of values. -/
def literals : List (List Char × Json) :=
  [("null".toList, .null), ("true".toList, .bool true), ("false".toList, .bool false),
   ("NaN".toList, .float .nan), ("Infinity".toList, .float (.ofRank false infiniteRank)),
   ("-Infinity".toList, .float (.ofRank true infiniteRank))]

/-- The value whose name stands at the head of the input. -/
def readLiteral? (cs : List Char) : Option (Json × List Char) :=
  (literals.find? (·.1.isPrefixOf cs)).map fun (name, value) => (value, cs.drop name.length)

mutual

/-- The value at the head of the input. -/
def readValue : Nat → Nat → List Char → Except ReadError (Json × List Char)
  | 0, _, _ => .error .malformed
  | _ + 1, _, [] => .error .malformed
  | _ + 1, _, '"' :: cs => (readString cs).map fun (s, rest) => (.string s, rest)
  | fuel + 1, depth, '[' :: cs =>
    if depth ≥ depthLimit then .error .tooDeep
    else match skipBlanks cs with
      | ']' :: rest => .ok (.array [], rest)
      | rest => readItems fuel (depth + 1) [] rest
  | fuel + 1, depth, '\x7b' :: cs =>
    if depth ≥ depthLimit then .error .tooDeep
    else match skipBlanks cs with
      | '\x7d' :: rest => .ok (.object [], rest)
      | rest => readMembers fuel (depth + 1) [] rest
  | _ + 1, _, cs =>
    match readLiteral? cs with
    | some found => .ok found
    | none => readNumber cs

/-- The values of a list from the head of the input on, after those read so far,
newest first. -/
def readItems : Nat → Nat → List Json → List Char → Except ReadError (Json × List Char)
  | 0, _, _, _ => .error .malformed
  | fuel + 1, depth, found, cs => do
    let (item, rest) ← readValue fuel depth cs
    match skipBlanks rest with
    | ',' :: more => readItems fuel depth (item :: found) (skipBlanks more)
    | ']' :: more => .ok (.array (item :: found).reverse, more)
    | _ => .error .malformed

/-- The members of an object from the head of the input on, after those read so
far. -/
def readMembers : Nat → Nat → List (String × Json) → List Char →
    Except ReadError (Json × List Char)
  | 0, _, _, _ => .error .malformed
  | fuel + 1, depth, found, '"' :: cs => do
    let (key, rest) ← readString cs
    match skipBlanks rest with
    | ':' :: more =>
      let (value, rest) ← readValue fuel depth (skipBlanks more)
      let found := setMember key value found
      match skipBlanks rest with
      | ',' :: more => readMembers fuel depth found (skipBlanks more)
      | '\x7d' :: more => .ok (.object found, more)
      | _ => .error .malformed
    | _ => .error .malformed
  | _ + 1, _, _, _ => .error .malformed

end

/-- The value of a text that holds one value between blanks. -/
def parse (s : String) : Except ReadError Json := do
  let cs := skipBlanks s.toList
  let (value, rest) ← readValue (2 * cs.length + 2) 0 cs
  if (skipBlanks rest).isEmpty then .ok value else .error .malformed

end Scaffold.Json
