import Scaffold.Bytes.Hex
import Scaffold.Number.Numeral
import Scaffold.Yaml.Cursor

/-!
Scalars of a YAML text.

A plain scalar ends where something else must begin; its line breaks are folded. A
quoted scalar ends with its quote; between double quotes there are escapes. A block
scalar has lines of its own, which are kept or folded.

* `plainScalar`: the plain scalar ahead, and whether a line was left behind it.
* `quotedScalar`: the quoted scalar ahead.
* `blockScalar`: the block scalar ahead.

The first argument of a reader that repeats itself bounds the number of repetitions.
-/

namespace Scaffold.Yaml

/-- The characters read, and the cursor behind them. -/
abbrev Read := List Char × Cursor

/-! ### Plain scalars -/

/-- Whether a plain scalar ends before a character, given the one after it. -/
def stopsPlain (inFlow : Bool) (c after : Char) : Bool :=
  endsWord c
    || (c == ':' && (endsWord after || (inFlow && [',', '[', ']', '\x7b', '\x7d'].contains after)))
    || (inFlow && [',', '?', '[', ']', '\x7b', '\x7d'].contains c)

/-- The characters of a plain scalar up to the next blank. -/
def plainWord (inFlow : Bool) : List Char → List Char
  | [] => []
  | c :: cs => if stopsPlain inFlow c (cs.headD '\x00') then [] else c :: plainWord inFlow cs

/-- The line breaks ahead, blanks left out; none when a mark between documents
comes. -/
def plainBreaks : Nat → Cursor → Option (List Char) × Cursor
  | 0, c => (some [], c)
  | fuel + 1, c =>
    if c.head == ' ' then plainBreaks fuel c.next
    else if isBreak c.head then
      let (first, c) := c.takeBreak
      if c.atSeparator then (none, c)
      else
        let (later, c) := plainBreaks fuel c
        (later.map (first ++ ·), c)
    else (some [], c)

/-- A line break with those after it, folded: a single one becomes a blank, and of
several the first is dropped. -/
def folded (first later : List Char) : List Char :=
  (if first != ['\n'] then first else if later.isEmpty then [' '] else []) ++ later

/-- What stands between two words of a plain scalar, and whether a line was left. -/
def plainGap (c : Cursor) : List Char × Cursor × Bool :=
  let (blanks, c) := c.span (· == ' ')
  if isBreak c.head then
    let (first, c) := c.takeBreak
    if c.atSeparator then ([], c, true)
    else match plainBreaks (c.rest.length + 1) c with
      | (none, c) => ([], c, true)
      | (some later, c) => (folded first later, c, true)
  else (blanks, c, false)

/-- The words of a plain scalar after a gap, the cursor behind them and the gap after
them, and whether a line was left in that gap. -/
def plainWords (inFlow : Bool) (indent : Int) :
    Nat → List Char → Bool → Cursor → List Char × Cursor × Bool
  | 0, _, left, c => ([], c, left)
  | fuel + 1, gap, left, c =>
    let word := if c.head == '#' then [] else plainWord inFlow c.rest
    if word.isEmpty then ([], c, left)
    else
      let (next, behind, left) := plainGap (c.skip word.length)
      if next.isEmpty || behind.head == '#' || (!inFlow && (behind.column : Int) < indent) then
        (gap ++ word, behind, left)
      else
        let (later, final, left) := plainWords inFlow indent fuel next left behind
        (gap ++ word ++ later, final, left)

/-- The plain scalar ahead, the cursor behind it and the gap after it, and whether a
line was left in that gap. -/
def plainScalar (inFlow : Bool) (indent : Int) (c : Cursor) : List Char × Cursor × Bool :=
  plainWords inFlow indent (c.rest.length + 1) [] false c

/-! ### Quoted scalars -/

/-- What a letter after a backslash stands for. -/
def escapes : List (Char × Char) :=
  [('0', '\x00'), ('a', '\x07'), ('b', '\x08'), ('t', '\t'), ('\t', '\t'), ('n', '\n'),
   ('v', '\x0b'), ('f', '\x0c'), ('r', '\r'), ('e', '\x1b'), (' ', ' '), ('"', '"'),
   ('\\', '\\'), ('/', '/'), ('N', '\u0085'), ('_', '\u00a0'), ('L', '\u2028'),
   ('P', '\u2029')]

/-- The number of digits after a letter that announces the number of a character. -/
def codeLengths : List (Char × Nat) :=
  [('x', 2), ('u', 4), ('U', 8)]

/-- The greatest number that fits the type of character numbers. -/
def codeLimit : Nat := 0x7fffffff

/-- The character with a number. -/
def charOfCode (code : Nat) : Except YamlFault Char :=
  if code > codeLimit then .error .hugeCharacter
  else if code > 0x10ffff then .error .noCharacter
  else .ok (if 0xd800 ≤ code && code < 0xe000 then '\ufffd' else Char.ofNat code)

/-- The breaks of empty lines ahead, blanks at the starts of lines left out. -/
def quotedBreaks : Nat → Cursor → Except YamlFault Read
  | 0, c => .ok ([], c)
  | fuel + 1, c =>
    if c.atSeparator then .error (.malformed "found unexpected document separator")
    else
      let c := c.pass fun x => x == ' ' || x == '\t'
      if isBreak c.head then do
        let (first, c) := c.takeBreak
        let (later, c) ← quotedBreaks fuel c
        return (first ++ later, c)
      else return ([], c)

/-- The character or the break behind a backslash. -/
def escape (c : Cursor) : Except YamlFault Read :=
  match escapes.lookup c.head with
  | some x => .ok ([x], c.next)
  | none =>
    match codeLengths.lookup c.head with
    | some length =>
      match (c.next.rest.take length).mapM hexValue? with
      | some digits =>
        if digits.length = length then
          (charOfCode (Number.natOfDigits 16 digits)).map fun x => ([x], c.skip (length + 1))
        else .error (.malformed "expected hexadecimal digits")
      | none => .error (.malformed "expected hexadecimal digits")
    | none =>
      if isBreak c.head then quotedBreaks (c.rest.length + 1) c.takeBreak.2
      else .error (.malformed "found unknown escape character")

/-- The characters ahead up to a blank or the quote. -/
def quotedWord (double : Bool) : Nat → Cursor → Except YamlFault Read
  | 0, c => .ok ([], c)
  | fuel + 1, c => do
    let (run, c) := c.span fun x => !endsWord x && x != '\'' && x != '"' && x != '\\'
    let x := c.head
    if !double && x == '\'' && c.peek 1 == '\'' then
      let (later, c) ← quotedWord double fuel (c.skip 2)
      return (run ++ '\'' :: later, c)
    else if (double && x == '\'') || (!double && (x == '"' || x == '\\')) then
      let (later, c) ← quotedWord double fuel c.next
      return (run ++ x :: later, c)
    else if double && x == '\\' then
      let (read, c) ← escape c.next
      let (later, c) ← quotedWord double fuel c
      return (run ++ read ++ later, c)
    else return (run, c)

/-- The blanks ahead, a line break folded. -/
def quotedGap (c : Cursor) : Except YamlFault Read := do
  let (blanks, c) := c.span fun x => x == ' ' || x == '\t'
  if c.atEnd then throw (.malformed "found unexpected end of stream")
  else if isBreak c.head then
    let (first, c) := c.takeBreak
    let (later, c) ← quotedBreaks (c.rest.length + 1) c
    return (folded first later, c)
  else return (blanks, c)

/-- The words and gaps ahead up to the closing quote. -/
def quotedWords (quote : Char) : Nat → Cursor → Except YamlFault Read
  | 0, c => .ok ([], c)
  | fuel + 1, c =>
    if c.head == quote then .ok ([], c.next)
    else do
      let (gap, c) ← quotedGap c
      let (word, c) ← quotedWord (quote == '"') (c.rest.length + 1) c
      let (later, c) ← quotedWords quote fuel c
      return (gap ++ word ++ later, c)

/-- The scalar between quotes ahead. -/
def quotedScalar (c : Cursor) : Except YamlFault Read := do
  let quote := c.head
  let (word, c) ← quotedWord (quote == '"') (c.rest.length + 1) c.next
  let (later, c) ← quotedWords quote (c.rest.length + 1) c
  return (word ++ later, c)

/-! ### Block scalars -/

/-- What happens to the line breaks at the end of a block scalar. -/
inductive Chomping
  /-- One is kept. -/
  | clip
  /-- None is kept. -/
  | strip
  /-- All are kept. -/
  | keep
  deriving DecidableEq, Repr

/-- The chomping that a character announces. -/
def chomping? (x : Char) : Option Chomping :=
  if x == '+' then some .keep else if x == '-' then some .strip else none

/-- The indentation that a character announces. -/
def increment? (c : Cursor) : Except YamlFault (Option Nat) :=
  if !c.head.isDigit then .ok none
  else if c.head == '0' then .error (.malformed "expected an indentation from 1 to 9")
  else .ok (some (Number.decimalDigit c.head))

/-- The chomping and the indentation at the head of a block scalar. -/
def blockHeader (c : Cursor) : Except YamlFault (Chomping × Option Nat × Cursor) := do
  let finish (chomping : Chomping) (increment : Option Nat) (c : Cursor) :
      Except YamlFault (Chomping × Option Nat × Cursor) :=
    if endsName c.head then (c.passRestOfLine).map fun c => (chomping, increment, c)
    else .error (.malformed "expected chomping or indentation indicators")
  match chomping? c.head with
  | some chomping =>
    let increment ← increment? c.next
    finish chomping increment (if increment.isSome then c.next.next else c.next)
  | none =>
    match ← increment? c with
    | none => finish .clip none c
    | some increment =>
      match chomping? c.next.head with
      | some chomping => finish chomping (some increment) c.next.next
      | none => finish .clip (some increment) c.next

/-- The line breaks ahead and the greatest indentation among them. -/
def blockIndentation : Nat → Nat → Cursor → List Char × Nat × Cursor
  | 0, widest, c => ([], widest, c)
  | fuel + 1, widest, c =>
    if c.head == ' ' then blockIndentation fuel (max widest c.next.column) c.next
    else if isBreak c.head then
      let (first, c) := c.takeBreak
      let (later, widest, c) := blockIndentation fuel widest c
      (first ++ later, widest, c)
    else ([], widest, c)

/-- The cursor behind the blanks ahead, as far as the indentation. -/
def passIndent (indent : Nat) : Nat → Cursor → Cursor
  | 0, c => c
  | fuel + 1, c => if c.column < indent && c.head == ' ' then passIndent indent fuel c.next else c

/-- The breaks of empty lines ahead, and the cursor at the indentation. -/
def blockBreaks (indent : Nat) : Nat → Cursor → Read
  | 0, c => ([], c)
  | fuel + 1, c =>
    let c := passIndent indent indent c
    if isBreak c.head then
      let (first, c) := c.takeBreak
      let (later, c) := blockBreaks indent fuel c
      (first ++ later, c)
    else ([], c)

/-- The lines of a block scalar after empty ones; the results are the lines, the last
line break, the empty lines after it and the cursor. -/
def blockLines (fold : Bool) (indent : Nat) :
    Nat → List Char → Cursor → List Char × List Char × List Char × Cursor
  | 0, breaks, c => ([], [], breaks, c)
  | fuel + 1, breaks, c =>
    if c.column != indent || c.atEnd then ([], [], breaks, c)
    else
      let isBlank (x : Char) := x == ' ' || x == '\t'
      let leading := !isBlank c.head
      let (line, c) := c.span (!closesLine ·)
      let (lineBreak, c) := c.takeBreak
      let (empty, c) := blockBreaks indent (c.rest.length + 1) c
      if c.column == indent && !c.atEnd then
        let joined :=
          if fold && lineBreak == ['\n'] && leading && !isBlank c.head then
            (if empty.isEmpty then [' '] else [])
          else lineBreak
        let (lines, last, final, c) := blockLines fold indent fuel empty c
        (breaks ++ line ++ joined ++ lines, last, final, c)
      else (breaks ++ line, lineBreak, empty, c)

/-- The block scalar ahead, inside a block with an indentation. -/
def blockScalar (fold : Bool) (indent : Int) (c : Cursor) : Except YamlFault Read := do
  let (chomping, increment, c) ← blockHeader c.next
  let least := (max 1 (indent + 1)).toNat
  let (breaks, width, c) := match increment with
    | none =>
      let (breaks, widest, c) := blockIndentation (c.rest.length + 1) 0 c
      (breaks, max least widest, c)
    | some increment =>
      let width := least + increment - 1
      let (breaks, c) := blockBreaks width (c.rest.length + 1) c
      (breaks, width, c)
  let (lines, last, final, c) := blockLines fold width (c.rest.length + 1) breaks c
  return (lines ++ (if chomping == .strip then [] else last)
    ++ (if chomping == .keep then final else []), c)

end Scaffold.Yaml
