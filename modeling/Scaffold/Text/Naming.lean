import Scaffold.Text.AsciiForm
import Scaffold.Text.CaseMap
import Scaffold.Text.Pieces

/-!
Names in their several spellings.

A name may be written in Pascal case, in camel case, with hyphens or in words;
its snake case is the common form from which the others are built.

* `snake`: lower case, words joined by single underscores. The four passes
  before the lower-casing are `breakWords`, `breakCase`, `joinGaps` and
  `squeeze`.
* `studly`: the words of the snake case, each with a capital, run together.
* `headline`: the same words with blanks between them.
* `plural`: the English plural of a lower-case word.
* `tableName`: the snake case with its last word in the plural.
* `slug`: the letters and digits of the ASCII form, runs of anything else
  written as one hyphen.
-/

namespace Scaffold.Text

/-! ### Snake case -/

/-- An underscore before every capital that starts a word: a capital followed by
a small letter and preceded, on the same line, by a character that is not part
of the small letters of the word before. The flag says that the list continues
the small letters of such a word. -/
def breakWords : Bool → List Char → List Char
  | _, [] => []
  | _, [c] => [c]
  | inWord, c :: u :: cs =>
    if inWord && c.isLower then c :: breakWords true (u :: cs)
    else if c != '\n' && u.isUpper && cs.head?.any Char.isLower then
      c :: '_' :: u :: breakWords true cs
    else c :: breakWords false (u :: cs)

/-- An underscore between a small letter or digit and a capital after it. -/
def breakCase : List Char → List Char
  | [] => []
  | [c] => [c]
  | c :: u :: cs =>
    if (c.isLower || c.isDigit) && u.isUpper then c :: '_' :: breakCase (u :: cs)
    else c :: breakCase (u :: cs)

/-- Whether a character separates words: a blank or a hyphen. -/
def isGap (c : Char) : Bool :=
  isBlank c || c == '-'

/-- One underscore for every run of gaps; the flag says that the list continues
such a run. -/
def joinGaps : Bool → List Char → List Char
  | _, [] => []
  | inGap, c :: cs =>
    if isGap c then (if inGap then joinGaps true cs else '_' :: joinGaps true cs)
    else c :: joinGaps false cs

/-- One underscore for every run of underscores. -/
def squeeze : List Char → List Char
  | [] => []
  | [c] => [c]
  | c :: d :: cs => if c == '_' && d == '_' then squeeze (d :: cs) else c :: squeeze (d :: cs)

/-- The snake case of a list of characters. -/
def snakeChars (cs : List Char) : List Char :=
  lower (stripBy (· == '_') (squeeze (joinGaps false (breakCase (breakWords false (trim cs))))))

/-- The snake case of a name. -/
def snake (s : String) : String :=
  String.ofList (snakeChars s.toList)

/-! ### The forms built from it -/

/-- The words of a name: the non-empty pieces of its snake case. -/
def words (cs : List Char) : List (List Char) :=
  (pieces (fun c => c == '_' || isGap c) (snakeChars cs)).filter (!·.isEmpty)

/-- The studly case of a name: its words with capitals, run together. -/
def studly (s : String) : String :=
  String.ofList ((words s.toList).flatMap upperFirst)

/-- The headline of a name: its words with capitals and blanks between them. -/
def headline (s : String) : String :=
  String.ofList (joinWith [' ']
    (((pieces (· == '_') (snakeChars s.toList)).filter (!·.isEmpty)).map capitalize))

/-! ### Plurals -/

/-- Words whose plural follows no rule. -/
def irregularPlurals : List (String × String) :=
  [("person", "people"), ("child", "children"), ("man", "men"), ("woman", "women"),
   ("mouse", "mice"), ("goose", "geese"), ("tooth", "teeth"), ("foot", "feet")]

/-- Words that are their own plural. -/
def uncountable : List String :=
  ["data", "equipment", "information", "metadata", "news", "series", "species"]

/-- Endings that take `es`. -/
def hissingEndings : List (List Char) :=
  [['s'], ['x'], ['z'], ['c', 'h'], ['s', 'h']]

/-- Whether a word ends in `y` after a character that is no vowel. -/
def endsInConsonantY (cs : List Char) : Bool :=
  match cs.reverse with
  | 'y' :: c :: _ => !(['a', 'e', 'i', 'o', 'u'].contains c)
  | _ => false

/-- The plural of a word that is in neither list of exceptions. -/
def regularPlural (cs : List Char) : List Char :=
  if hissingEndings.any (·.isSuffixOf cs) then cs ++ ['e', 's']
  else if endsInConsonantY cs then cs.dropLast ++ ['i', 'e', 's']
  else cs ++ ['s']

/-- The plural of a lower-case word. -/
def plural (word : String) : String :=
  if word.isEmpty || uncountable.contains word then word
  else match irregularPlurals.lookup word with
    | some other => other
    | none => String.ofList (regularPlural word.toList)

/-- The table name of an entity: its snake case, the last word in the plural. -/
def tableName (entity : String) : String :=
  match cutLast (· == '_') (snakeChars entity.toList) with
  | none => plural (snake entity)
  | some (before, last) =>
    String.ofList before ++ "_" ++ plural (String.ofList last)

/-! ### Slugs -/

/-- Whether a character may stand in a slug between hyphens. -/
def isSlugChar (c : Char) : Bool :=
  c.isLower || c.isDigit

/-- The slug characters of a list, one hyphen for every run of others; the flag
says that the list continues such a run. -/
def hyphenate : Bool → List Char → List Char
  | _, [] => []
  | inRun, c :: cs =>
    if isSlugChar c then c :: hyphenate false cs
    else if inRun then hyphenate true cs
    else '-' :: hyphenate true cs

/-- The slug of a list of characters. -/
def slugChars (cs : List Char) : List Char :=
  stripBy (· == '-') (hyphenate false ((asciiForm cs).map Char.toLower))

/-- The slug of a text; it is empty when no letter or digit survives. -/
def slug (s : String) : String :=
  String.ofList (slugChars s.toList)

/-! ### Examples -/

example : snake "HTTPServerError" = "http_server_error" := by decide +kernel

example : studly "email_taken" = "EmailTaken" := by decide +kernel

example : headline "emailTaken" = "Email Taken" := by decide +kernel

example : tableName "SalesCategory" = "sales_categories" := by decide +kernel

example : slug "Dépôt: n° 4" = "depot-n-4" := by decide +kernel

end Scaffold.Text
