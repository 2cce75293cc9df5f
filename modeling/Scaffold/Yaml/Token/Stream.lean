import Scaffold.Yaml.Token.Property
import Scaffold.Yaml.Token.Scalar

/-!
The tokens of a YAML text.

Whether a scalar, a name or a bracket starts a key shows only when a colon comes
later on the same line. Until then the place is remembered as a possible key, and the
tokens that start the key are put in front of it afterwards.

* `Lead`: what is put in front of a token afterwards.
* `Scan`: how far the reading has come.
* `Scan.fetch`: the next token.
* `tokensOf`: all tokens of a text.
-/

namespace Scaffold.Yaml

/-- What comes in front of a token. -/
inductive Lead
  /-- Nothing. -/
  | nothing
  /-- The start of a key. -/
  | key
  /-- The start of a mapping and of its first key. -/
  | mapping
  deriving DecidableEq, Repr

/-- A place at which a key may have started. -/
structure PossibleKey where
  /-- The number of tokens in front of it. -/
  token : Nat
  /-- Whether it must turn out to be a key. -/
  required : Bool
  /-- The place in the text. -/
  index : Nat
  /-- The line of the place. -/
  line : Nat
  /-- The column of the place. -/
  column : Nat
  deriving DecidableEq, Repr

/-- How far the reading of a text has come. -/
structure Scan where
  /-- The place in the text. -/
  cursor : Cursor
  /-- The number of open brackets. -/
  flow : Nat
  /-- The column of the innermost block. -/
  indent : Int
  /-- The columns of the blocks around it, innermost first. -/
  outer : List Int
  /-- Whether a key may start here without a mark. -/
  keyAllowed : Bool
  /-- The places at which keys may have started, by the number of open brackets. -/
  keys : List (Nat × PossibleKey)
  /-- The tokens read, each with what comes in front of it. -/
  tokens : Array (Lead × Token)
  deriving Repr

/-- The greatest number of characters between the start of a key and its colon. -/
def keyLimit : Nat := 1024

namespace Scan

/-- The start of a text. -/
def start (cs : List Char) : Scan := ⟨.start cs, 0, -1, [], true, [], #[]⟩

/-- One more token. -/
def emit (token : Token) (s : Scan) : Scan :=
  { s with tokens := s.tokens.push (.nothing, token) }

/-- The same reading at another place. -/
def moveTo (c : Cursor) (s : Scan) : Scan :=
  { s with cursor := c }

/-- The same reading with or without permission for keys. -/
def allow (keyAllowed : Bool) (s : Scan) : Scan :=
  { s with keyAllowed }

/-! ### Blocks -/

/-- Blocks that start behind a column are closed. -/
def closeBlocks (column : Int) (s : Scan) : Scan :=
  if s.flow > 0 then s
  else
    let rec close (indent : Int) :
        List Int → Array (Lead × Token) → Int × List Int × Array (Lead × Token)
      | [], tokens => (indent, [], tokens)
      | next :: outer, tokens =>
        if indent > column then close next outer (tokens.push (.nothing, .blockEnd))
        else (indent, next :: outer, tokens)
    let (indent, outer, tokens) := close s.indent s.outer s.tokens
    { s with indent, outer, tokens }

/-- A block is opened at a column, unless the innermost one is there already. -/
def openBlock (column : Nat) (s : Scan) : Bool × Scan :=
  if s.indent < column then
    (true, { s with indent := column, outer := s.indent :: s.outer })
  else (false, s)

/-- A block is opened at the cursor, and a token says so. -/
def openWith (token : Token) (s : Scan) : Scan :=
  match s.openBlock s.cursor.column with
  | (true, s) => s.emit token
  | (false, s) => s

/-! ### Possible keys -/

/-- The possible keys without those too far away; one that must be a key is a
fault. -/
def dropStale (s : Scan) : Except YamlFault Scan :=
  let stale (key : PossibleKey) : Bool :=
    key.line != s.cursor.line || s.cursor.index - key.index > keyLimit
  if s.keys.any fun entry => stale entry.2 && entry.2.required then
    .error (.malformed "could not find expected ':'")
  else .ok { s with keys := s.keys.filter fun entry => !stale entry.2 }

/-- The possible keys without that of the present brackets; one that must be a key is
a fault. -/
def dropKey (s : Scan) : Except YamlFault Scan :=
  match s.keys.lookup s.flow with
  | none => .ok s
  | some key =>
    if key.required then .error (.malformed "could not find expected ':'")
    else .ok { s with keys := s.keys.filter fun entry => entry.1 != s.flow }

/-- A key may start here. -/
def saveKey (s : Scan) : Except YamlFault Scan :=
  if !s.keyAllowed then .ok s
  else do
    let required := s.flow == 0 && s.indent == s.cursor.column
    let s ← s.dropKey
    let key : PossibleKey :=
      ⟨s.tokens.size, required, s.cursor.index, s.cursor.line, s.cursor.column⟩
    return { s with keys := (s.flow, key) :: s.keys }

/-! ### Tokens -/

/-- The cursor at the next token. Blanks, comments and line breaks are passed; outside
of brackets a key may start after a line break. -/
def passSpace : Nat → Scan → Scan
  | 0, s => s
  | fuel + 1, s =>
    let c := s.cursor.pass (· == ' ')
    let c := if c.head == '#' then c.pass (!closesLine ·) else c
    if isBreak c.head then
      passSpace fuel { s with
        cursor := c.takeBreak.2, keyAllowed := if s.flow == 0 then true else s.keyAllowed }
    else s.moveTo c

/-- A mark of three characters, or a directive: nothing of a document goes on. -/
def betweenDocuments (s : Scan) : Except YamlFault Scan :=
  ((s.closeBlocks (-1)).dropKey).map (·.allow false)

/-- A bracket that opens. -/
def openFlow (token : Token) (s : Scan) : Except YamlFault Scan := do
  let s ← s.saveKey
  return ({ s with flow := s.flow + 1, keyAllowed := true, cursor := s.cursor.next }).emit token

/-- A bracket that closes. -/
def closeFlow (token : Token) (s : Scan) : Except YamlFault Scan := do
  if s.flow = 0 then throw (.malformed "found a bracket that closes nothing")
  else
    let s ← s.dropKey
    return ({ s with flow := s.flow - 1, keyAllowed := false, cursor := s.cursor.next }).emit token

/-- A comma between brackets. -/
def fetchFlowEntry (s : Scan) : Except YamlFault Scan := do
  let s ← (s.allow true).dropKey
  return (s.moveTo s.cursor.next).emit .flowEntry

/-- The mark of an item. -/
def fetchBlockEntry (s : Scan) : Except YamlFault Scan := do
  if s.flow == 0 && !s.keyAllowed then
    throw (.malformed "sequence entries are not allowed here")
  else
    let s := if s.flow == 0 then s.openWith .blockSequenceStart else s
    let s ← (s.allow true).dropKey
    return (s.moveTo s.cursor.next).emit .blockEntry

/-- The mark of a key. -/
def fetchKey (s : Scan) : Except YamlFault Scan := do
  if s.flow == 0 && !s.keyAllowed then throw (.malformed "mapping keys are not allowed here")
  else
    let s := if s.flow == 0 then s.openWith .blockMappingStart else s
    let s ← (s.allow (s.flow == 0)).dropKey
    return (s.moveTo s.cursor.next).emit .key

/-- The colon before a value. The possible key of the present brackets turns out to
be one. -/
def fetchValue (s : Scan) : Except YamlFault Scan := do
  match s.keys.lookup s.flow with
  | some key =>
    let s := { s with keys := s.keys.filter fun entry => entry.1 != s.flow }
    let (opened, s) := if s.flow == 0 then s.openBlock key.column else (false, s)
    let lead : Lead := if opened then .mapping else .key
    let tokens := s.tokens.modify key.token fun entry => (lead, entry.2)
    return ({ s with tokens, keyAllowed := false, cursor := s.cursor.next }).emit .value
  | none =>
    if s.flow == 0 && !s.keyAllowed then
      throw (.malformed "mapping values are not allowed here")
    else
      let s := if s.flow == 0 then s.openWith .blockMappingStart else s
      let s ← (s.allow (s.flow == 0)).dropKey
      return (s.moveTo s.cursor.next).emit .value

/-- A token with which a key may start. -/
def fetchWith (read : Cursor → Except YamlFault (Token × Cursor)) (s : Scan) :
    Except YamlFault Scan := do
  let s ← s.saveKey
  let (token, c) ← read s.cursor
  return ((s.allow false).moveTo c).emit token

/-- A block scalar. -/
def fetchBlockScalar (fold : Bool) (s : Scan) : Except YamlFault Scan := do
  let s ← (s.allow true).dropKey
  let (text, c) ← blockScalar fold s.indent s.cursor
  return (s.moveTo c).emit (.scalar false (String.ofList text))

/-- A plain scalar. -/
def fetchPlain (s : Scan) : Except YamlFault Scan := do
  let s ← s.saveKey
  let (text, c, left) := plainScalar (s.flow > 0) (s.indent + 1) s.cursor
  return ((s.allow left).moveTo c).emit (.scalar true (String.ofList text))

/-- Characters with which no plain scalar starts. -/
def marks : List Char :=
  ['-', '?', ':', ',', '[', ']', '\x7b', '\x7d', '#', '&', '*', '!', '|', '>', '\'', '"', '%',
   '@', '\x60']

/-- Whether a plain scalar starts here. -/
def startsPlain (s : Scan) : Bool :=
  let x := s.cursor.head
  (!endsWord x && !marks.contains x)
    || (!endsWord (s.cursor.peek 1) && (x == '-' || (s.flow == 0 && (x == '?' || x == ':'))))

/-- The token at the cursor, which is not at the end of the text. -/
def fetchHere (s : Scan) : Except YamlFault Scan :=
  let c := s.cursor
  let x := c.head
  let markEnds := endsWord (c.peek 1)
  if x == '%' && c.column == 0 then do
    let s ← s.betweenDocuments
    let (token, c) ← directiveToken s.cursor
    return (s.moveTo c).emit token
  else if c.column == 0 && c.atDocumentStart then do
    let s ← s.betweenDocuments
    return (s.moveTo (c.skip 3)).emit .documentStart
  else if c.column == 0 && c.atDocumentEnd then do
    let s ← s.betweenDocuments
    return (s.moveTo (c.skip 3)).emit .documentEnd
  else if x == '[' then s.openFlow .flowSequenceStart
  else if x == '\x7b' then s.openFlow .flowMappingStart
  else if x == ']' then s.closeFlow .flowSequenceEnd
  else if x == '\x7d' then s.closeFlow .flowMappingEnd
  else if x == ',' then s.fetchFlowEntry
  else if x == '-' && markEnds then s.fetchBlockEntry
  else if x == '?' && (s.flow > 0 || markEnds) then s.fetchKey
  else if x == ':' && (s.flow > 0 || markEnds) then s.fetchValue
  else if x == '*' then
    s.fetchWith fun c => (nameAfterMark c).map fun (name, c) => (.reference name, c)
  else if x == '&' then
    s.fetchWith fun c => (nameAfterMark c).map fun (name, c) => (.anchor name, c)
  else if x == '!' then s.fetchWith tagToken
  else if x == '|' && s.flow == 0 then s.fetchBlockScalar false
  else if x == '>' && s.flow == 0 then s.fetchBlockScalar true
  else if x == '\'' || x == '"' then
    s.fetchWith fun c => (quotedScalar c).map fun (text, c) =>
      (.scalar false (String.ofList text), c)
  else if s.startsPlain then s.fetchPlain
  else .error (.malformed "found a character that cannot start any token")

/-- The reading with the next token, or with none at the end of the text. -/
def fetch (s : Scan) : Except YamlFault (Scan × Bool) := do
  let s := s.passSpace (s.cursor.rest.length + 1)
  let s ← s.dropStale
  let s := s.closeBlocks s.cursor.column
  if s.cursor.atEnd then
    let s ← (s.closeBlocks (-1)).dropKey
    return (s.emit .streamEnd, false)
  else return (← s.fetchHere, true)

/-- All tokens from here on; a fault is the last token. The first argument bounds the
number of tokens. -/
def fetchAll : Nat → Scan → Array (Lead × Token)
  | 0, s => s.tokens
  | fuel + 1, s =>
    match s.fetch with
    | .error cause => s.tokens.push (.nothing, .fault cause)
    | .ok (s, true) => fetchAll fuel s
    | .ok (s, false) => s.tokens

end Scan

/-- A token with what comes in front of it. -/
def withLead : Lead × Token → List Token
  | (.nothing, token) => [token]
  | (.key, token) => [.key, token]
  | (.mapping, token) => [.blockMappingStart, .key, token]

/-- The characters of a text without a mark of byte order in front. -/
def withoutOrderMark (c : Cursor) : Cursor :=
  if c.head == '\ufeff' then c.next else c

/-- The tokens of a text. -/
def tokensOf (text : String) : List Token :=
  let cs := text.toList
  if cs.all isPrintable then
    let s := Scan.start cs
    (Scan.fetchAll (cs.length + 2) (s.moveTo (withoutOrderMark s.cursor))).toList.flatMap withLead
  else [.fault (.malformed "special characters are not allowed")]

end Scaffold.Yaml
