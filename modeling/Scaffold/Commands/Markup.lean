import Scaffold.Text.Blank

/-!
Console markup.

A tag is a bracket, a small letter or one of `#`, `/`, `@`, and anything up to the
next closing bracket. An odd number of backslashes in front takes its meaning
away.

* `startsTag`: whether a text starts with a tag.
* `escape`: a text with no tag in it; nothing else about it changes.
* `withoutTags`: what a console shows of a markup text.
-/

namespace Scaffold.Markup

/-- Whether a character may follow the bracket that opens a tag. -/
def opensTag (c : Char) : Bool :=
  c.isLower || c == '#' || c == '/' || c == '@'

/-- Whether a text starts with a tag, a closing bracket before any further opening
one. -/
def startsTag : List Char → Bool
  | '[' :: c :: cs =>
    opensTag c && (cs.dropWhile fun d => d != '[' && d != ']').head? == some ']'
  | _ => false

/-- A text in which the backslashes in front of every tag are doubled and one more is
added; the number counts the backslashes directly in front. -/
def escapeAfter : Nat → List Char → List Char
  | _, [] => []
  | slashes, c :: cs =>
    if c == '\\' then c :: escapeAfter (slashes + 1) cs
    else if startsTag (c :: cs) then
      List.replicate (slashes + 1) '\\' ++ c :: escapeAfter 0 cs
    else c :: escapeAfter 0 cs

/-- A text that ends in a single backslash, with a second one. -/
def closed (cs : List Char) : List Char :=
  match cs.reverse with
  | '\\' :: '\\' :: _ => cs
  | '\\' :: _ => cs ++ ['\\']
  | _ => cs

/-- A text in which no tag has a meaning. -/
def escape (s : String) : String :=
  String.ofList (closed (escapeAfter 0 s.toList))

/-- What is left of a markup text when its tags are taken out, with half of the
backslashes in front of each; the number counts the backslashes directly in
front, and the flag says whether the text is within a tag. -/
def shownAfter : Bool → Nat → List Char → List Char
  | _, slashes, [] => List.replicate slashes '\\'
  | true, _, c :: cs => if c == ']' then shownAfter false 0 cs else shownAfter true 0 cs
  | false, slashes, c :: cs =>
    if c == '\\' then shownAfter false (slashes + 1) cs
    else if startsTag (c :: cs) then
      let kept := List.replicate (slashes / 2) '\\'
      if slashes % 2 = 0 then kept ++ shownAfter true 0 cs
      else kept ++ c :: shownAfter false 0 cs
    else List.replicate slashes '\\' ++ c :: shownAfter false 0 cs

/-- What a console shows of a markup text. -/
def withoutTags (s : String) : String :=
  String.ofList (shownAfter false 0 s.toList)

example : escape "a[b]c\\" = "a\\[b]c\\\\" := by decide +kernel

example : withoutTags "[bold]x[/bold] \\[b]" = "x [b]" := by decide +kernel

end Scaffold.Markup
