import Scaffold.Text.Blank
import Scaffold.Text.CaseMap.Tables

/-!
Case mapping.

Lower, upper and title case after the Unicode rules: an image may have several
characters, and a capital sigma at the end of a word becomes a final sigma.

* `lowerChar`, `upperChar`, `titleChar`: the image of one character.
* `isFinalSigma`: the context in which a capital sigma ends a word.
* `lower`, `upper`: whole lists of characters.
* `capitalize`: the first character in title case, the others in lower case.
-/

namespace Scaffold.Text

namespace CaseMap

/-- The image of a code point under the rows of a mapping table. -/
def image? : List (Nat × Nat × Nat × Nat) → Nat → Option Nat
  | [], _ => none
  | (first, last, step, target) :: rows, n =>
    if first ≤ n && n ≤ last && (n - first) % step == 0 then
      some (target + (n - first))
    else
      image? rows n

/-- The image of several code points in a table of such images. -/
def longImage? (rows : List (Nat × List Nat)) (n : Nat) : Option (List Nat) :=
  (rows.find? (·.1 == n)).map (·.2)

end CaseMap

open CaseMap

/-- The lower-case image of a character, apart from the final sigma. -/
def lowerChar (c : Char) : List Char :=
  if c.toNat < 0x80 then [c.toLower]
  else if c.toNat == 0x130 then ['i', Char.ofNat 0x307]
  else [((image? lowerRows c.toNat).map Char.ofNat).getD c]

/-- The upper-case image of a character. -/
def upperChar (c : Char) : List Char :=
  if c.toNat < 0x80 then [c.toUpper]
  else match longImage? upperLong c.toNat with
    | some image => image.map Char.ofNat
    | none => [((image? upperRows c.toNat).map Char.ofNat).getD c]

/-- The title-case image of a character. -/
def titleChar (c : Char) : List Char :=
  if c.toNat < 0x80 then [c.toUpper]
  else match longImage? titleLong c.toNat with
    | some image => image.map Char.ofNat
    | none => match image? titleRows c.toNat with
      | some image => [Char.ofNat image]
      | none => upperChar c

/-- Whether a character is passed over in search of the ends of a word. -/
def isCaseIgnorable (c : Char) : Bool :=
  inRanges caseIgnorableRanges c.toNat

/-- Whether a character has case and is not passed over. -/
def isCased (c : Char) : Bool :=
  inRanges casedRanges c.toNat

/-- Whether the next character that is not passed over has case. -/
def meetsCased (cs : List Char) : Bool :=
  match cs.dropWhile isCaseIgnorable with
  | c :: _ => isCased c
  | [] => false

/-- Whether a capital sigma ends a word, given the characters before it, nearest
first, and those after it. -/
def isFinalSigma (before after : List Char) : Bool :=
  meetsCased before && !meetsCased after

/-- Lower case of a list, given the characters before it, nearest first. -/
def lowerAfter (before : List Char) : List Char → List Char
  | [] => []
  | c :: cs =>
    (if c == 'Σ' then [if isFinalSigma before cs then 'ς' else 'σ'] else lowerChar c)
      ++ lowerAfter (c :: before) cs

/-- Lower case of a list of characters. -/
def lower (cs : List Char) : List Char :=
  lowerAfter [] cs

/-- Upper case of a list of characters. -/
def upper (cs : List Char) : List Char :=
  cs.flatMap upperChar

/-- The first character in upper case, the others as they are. -/
def upperFirst : List Char → List Char
  | [] => []
  | c :: cs => upperChar c ++ cs

/-- The first character in title case, the others in lower case. -/
def capitalize : List Char → List Char
  | [] => []
  | c :: cs => titleChar c ++ lowerAfter [c] cs

/-- A text in lower case. -/
def lowered (s : String) : String :=
  String.ofList (lower s.toList)

/-- Whether two texts agree up to case. -/
def sameFolded (s t : String) : Bool :=
  lowered s == lowered t

example : lowered "ΑΣ ΣΑΣ. İX" = "ας σας. i̇x" := by decide +kernel

example : String.ofList (capitalize "ǆUR ÉÀ".toList) = "ǅur éà" := by decide +kernel

example : String.ofList (upperFirst "ßa".toList) = "SSa" := by decide +kernel

end Scaffold.Text
