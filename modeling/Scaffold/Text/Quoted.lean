import Scaffold.Bytes.Hex
import Scaffold.Text.Blank
import Scaffold.Text.Quoted.Tables

/-!
Quoted texts for diagnostics.

A text stands between single quotes, or between double quotes when it holds a
single quote and no double one. The quote, the backslash and every character that
cannot be shown are escaped.

* `isShown`: whether a character stands for itself.
* `quoted`: a text between quotes.
-/

namespace Scaffold.Text

/-- Whether a character can be shown as it is. -/
def isShown (c : Char) : Bool :=
  if c.toNat < 0x80 then 0x20 ≤ c.toNat && c.toNat < 0x7f
  else !inRanges Quoted.hiddenRanges c.toNat

/-- The digits of a number in base sixteen, up to a width. -/
def hexDigits : Nat → Nat → List Char
  | 0, _ => []
  | width + 1, n => hexDigits width (n / 16) ++ [hexDigit (n % 16)]

/-- A character as it stands between quotes. -/
def quotedChar (quote c : Char) : List Char :=
  if c == quote || c == '\\' then ['\\', c]
  else if c == '\t' then ['\\', 't']
  else if c == '\n' then ['\\', 'n']
  else if c == '\r' then ['\\', 'r']
  else if isShown c then [c]
  else if c.toNat < 0x100 then '\\' :: 'x' :: hexDigits 2 c.toNat
  else if c.toNat < 0x10000 then '\\' :: 'u' :: hexDigits 4 c.toNat
  else '\\' :: 'U' :: hexDigits 8 c.toNat

/-- The quote around a text. -/
def quoteFor (cs : List Char) : Char :=
  if cs.contains '\'' && !cs.contains '"' then '"' else '\''

/-- A text between quotes. -/
def quoted (s : String) : String :=
  let quote := quoteFor s.toList
  String.ofList (quote :: s.toList.flatMap (quotedChar quote) ++ [quote])

example : quoted "it's\t\u00a0é" = "\"it's\\t\\xa0é\"" := by decide +kernel

end Scaffold.Text
