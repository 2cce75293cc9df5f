import Scaffold.Text.AsciiForm.Tables

/-!
The ASCII form of a text.

Every character is replaced by the ASCII characters of its compatibility
decomposition, in order: an accented letter keeps its letter, a ligature is
spelled out, and a character without a Latin part disappears.

* `asciiChar`: the ASCII characters one character stands for.
* `asciiForm`: the same for a list of characters.
* `asciiForm_append`: the form is taken character by character.
-/

namespace Scaffold.Text

namespace AsciiForm

/-- The image of a code point under the rows of a table. -/
def image? : List (Nat × Nat × Nat × Nat) → Nat → Option Nat
  | [], _ => none
  | (first, last, step, target) :: rows, n =>
    if first ≤ n && n ≤ last then some (target + (n - first) * step) else image? rows n

end AsciiForm

open AsciiForm

/-- The ASCII characters of the compatibility decomposition of a character. -/
def asciiChar (c : Char) : List Char :=
  if c.toNat < 0x80 then [c]
  else match AsciiForm.image? singleRows c.toNat with
    | some n => [Char.ofNat n]
    | none => match multipleRows.find? (·.1 == c.toNat) with
      | some row => row.2.toList
      | none => []

/-- The ASCII characters of the compatibility decomposition of a text. -/
def asciiForm (cs : List Char) : List Char :=
  cs.flatMap asciiChar

/-- The ASCII form is taken character by character. -/
theorem asciiForm_append (cs ds : List Char) :
    asciiForm (cs ++ ds) = asciiForm cs ++ asciiForm ds := by
  simp [asciiForm]

example : asciiForm ['É', '½', 'x'] = ['E', '1', '2', 'x'] := by decide +kernel

end Scaffold.Text
