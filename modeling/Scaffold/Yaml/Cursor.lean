import Scaffold.Yaml.Fault

/-!
A place in a YAML text.

* `Cursor`: the characters that are left, with the number of those passed, the line
  and the column.
* `Cursor.peek`: a character ahead; past the end stands the character zero, which no
  text holds.
* `Cursor.skip`, `Cursor.span`: the cursor behind some characters.
* `Cursor.takeBreak`: a line break; all but two kinds are read as a line feed.
* `isBreak`, `closesLine`, `endsName`, `endsWord`: what ends what.
-/

namespace Scaffold.Yaml

/-- A place in a text. -/
structure Cursor where
  /-- The characters that are left. -/
  rest : List Char
  /-- The number of characters passed. -/
  index : Nat
  /-- The number of lines passed. -/
  line : Nat
  /-- The number of characters passed on this line. -/
  column : Nat
  deriving Repr

/-! ### Characters -/

/-- Whether a character breaks lines. -/
def isBreak (c : Char) : Bool :=
  c == '\n' || c == '\r' || c == '\u0085' || c == '\u2028' || c == '\u2029'

/-- Whether a line ends with a character or with the text. -/
def closesLine (c : Char) : Bool :=
  c == '\x00' || isBreak c

/-- Whether a name ends before a character. -/
def endsName (c : Char) : Bool :=
  c == ' ' || closesLine c

/-- Whether a word ends before a character. -/
def endsWord (c : Char) : Bool :=
  c == '\t' || endsName c

/-- Whether a character may stand in a name. -/
def isNameChar (c : Char) : Bool :=
  c.isAlphanum || c == '-' || c == '_'

/-- Whether a character can stand in a text. -/
def isPrintable (c : Char) : Bool :=
  let n := c.toNat
  n == 0x09 || n == 0x0a || n == 0x0d || (0x20 ≤ n && n ≤ 0x7e) || n == 0x85
    || (0xa0 ≤ n && n ≤ 0xfffd) || 0x10000 ≤ n

namespace Cursor

/-- The start of a text. -/
def start (cs : List Char) : Cursor := ⟨cs, 0, 0, 0⟩

/-- The character a number of places ahead. -/
def peek (c : Cursor) (n : Nat) : Char :=
  (c.rest.drop n).headD '\x00'

/-- The next character. -/
def head (c : Cursor) : Char := c.peek 0

/-- Whether the text has ended. -/
def atEnd (c : Cursor) : Bool := c.rest.isEmpty

/-- The cursor behind the next character. -/
def next (c : Cursor) : Cursor :=
  match c.rest with
  | [] => c
  | x :: rest =>
    if isBreak x && !(x == '\r' && rest.head? == some '\n') then ⟨rest, c.index + 1, c.line + 1, 0⟩
    else if x == '\ufeff' then ⟨rest, c.index + 1, c.line, c.column⟩
    else ⟨rest, c.index + 1, c.line, c.column + 1⟩

/-- The cursor behind some characters. -/
def skip : Nat → Cursor → Cursor
  | 0, c => c
  | n + 1, c => skip n c.next

/-- The longest stretch of characters ahead that satisfy `p`, and the cursor behind
it. -/
def span (p : Char → Bool) (c : Cursor) : List Char × Cursor :=
  let taken := c.rest.takeWhile p
  (taken, skip taken.length c)

/-- The cursor behind the characters ahead that satisfy `p`. -/
def pass (p : Char → Bool) (c : Cursor) : Cursor :=
  (c.span p).2

/-- The line break ahead, if there is one, and the cursor behind it. -/
def takeBreak (c : Cursor) : List Char × Cursor :=
  match c.rest with
  | '\r' :: '\n' :: _ => (['\n'], skip 2 c)
  | x :: _ =>
    if x == '\u2028' || x == '\u2029' then ([x], c.next)
    else if isBreak x then (['\n'], c.next)
    else ([], c)
  | [] => ([], c)

/-- Whether a mark of three characters stands ahead as a word. -/
def atMark (mark : List Char) (c : Cursor) : Bool :=
  c.rest.take 3 == mark && endsWord (c.peek 3)

/-- Whether the mark that starts a document stands ahead. -/
def atDocumentStart (c : Cursor) : Bool := c.atMark ['-', '-', '-']

/-- Whether the mark that ends a document stands ahead. -/
def atDocumentEnd (c : Cursor) : Bool := c.atMark ['.', '.', '.']

/-- Whether a mark between documents stands ahead. -/
def atSeparator (c : Cursor) : Bool := c.atDocumentStart || c.atDocumentEnd

/-- The cursor behind blanks, a comment and the line break. -/
def passRestOfLine (c : Cursor) : Except YamlFault Cursor :=
  let c := c.pass (· == ' ')
  let c := if c.head == '#' then c.pass (!closesLine ·) else c
  if closesLine c.head then .ok c.takeBreak.2
  else .error (.malformed "expected a comment or a line break")

end Cursor

end Scaffold.Yaml
