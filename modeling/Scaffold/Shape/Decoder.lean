import Scaffold.Document.Display
import Scaffold.Document.Plain
import Scaffold.Number.Numeral
import Scaffold.Shape.Violation
import Scaffold.Text.CaseMap

/-!
Decoders: from documents to values of a fixed shape.

A decoder gives a value or all violations it finds, in the order of the parts.
Texts with an evident meaning are accepted for numbers and truth values, and
numbers and truth values for one another where nothing is lost.

* `Checked`: a value or violations; `Checked.both` keeps those of two parts.
* `Decoder`: a function from documents to checked values.
* `text`, `int`, `number`, `bool`, `bytes`, `word`, `path`, `anything`: decoders of
  scalars.
* `optional`, `listOf`, `tupleOf`, `dictOf`: decoders of compounds.
* `Reading`: how a record is read member by member, with `required`,
  `defaulted` and `absentAsNone` for its members.
* `record`, `strictRecord`: decoders of records, the second of which refuses
  unknown members.
-/

namespace Scaffold.Shape

open Number

/-- A value, or the violations that stand against it. -/
abbrev Checked (α : Type) := Except (List Violation) α

/-- A function from documents to checked values. -/
abbrev Decoder (α : Type) := Document → Checked α

namespace Checked

variable {α β γ : Type}

/-- Two checked values together; the violations of both are kept. -/
def both (f : α → β → γ) : Checked α → Checked β → Checked γ
  | .ok a, .ok b => .ok (f a b)
  | .ok _, .error vs => .error vs
  | .error us, .ok _ => .error us
  | .error us, .error vs => .error (us ++ vs)

/-- A checked value with its violations seen from one step further out. -/
def within (step : Step) : Checked α → Checked α
  | .ok a => .ok a
  | .error vs => .error (vs.map (·.within step))

/-- The violations of a checked value. -/
def violations : Checked α → List Violation
  | .ok _ => []
  | .error vs => vs

/-- A single complaint about the whole document. -/
def refuse (complaint : Complaint) : Checked α :=
  .error [⟨[], complaint⟩]

/-- The values of a list of checked values, or all violations. -/
def all : List (Checked α) → Checked (List α)
  | [] => .ok []
  | a :: as => both List.cons a (all as)

end Checked

open Checked

/-! ### Scalars -/

/-- Any document. -/
def anything : Decoder Document := .ok

/-- A text; bytes are accepted for the text they encode. -/
def text : Decoder String
  | .text s => .ok s
  | .bytes bs => (Utf8.decode? bs).elim (refuse .undecodableText) .ok
  | _ => refuse .notText

/-- The text of a document from which a number or a truth value may be read. -/
def readable? (complaint : Complaint) : Document → Option (Checked String)
  | .text s => some (.ok s)
  | .bytes bs => some ((Utf8.decode? bs).elim (refuse complaint) .ok)
  | _ => none

/-- An integer; truth values, whole numbers and numerals are accepted. -/
def int : Decoder Int
  | .int n => .ok n
  | .bool b => .ok (if b then 1 else 0)
  | .float x =>
    if !x.isFinite then refuse .infinite
    else match x.toInt? with
      | some n => .ok n
      | none => refuse .fractional
  | d =>
    match readable? .unparsableInteger d with
    | some (.ok s) => (readWhole? s).elim (refuse .unparsableInteger) .ok
    | some (.error vs) => .error vs
    | none => refuse .notInteger

/-- A number; integers, truth values and numerals are accepted. -/
def number : Decoder Binary64
  | .float x => .ok x
  | .int n => if (Binary64.ofInt n).isFinite then .ok (.ofInt n) else refuse .notNumber
  | .bool b => .ok (.ofInt (if b then 1 else 0))
  | d =>
    match readable? .unparsableNumber d with
    | some (.ok s) => (readNumber? s).elim (refuse .unparsableNumber) .ok
    | some (.error vs) => .error vs
    | none => refuse .notNumber

/-- Words for true. -/
def trueWords : List String := ["1", "true", "t", "yes", "y", "on"]

/-- Words for false. -/
def falseWords : List String := ["0", "false", "f", "no", "n", "off"]

/-- The truth value that a word stands for, in any case. -/
def readBool? (s : String) : Option Bool :=
  let word := s.map Char.toLower
  if trueWords.contains word then some true
  else if falseWords.contains word then some false
  else none

/-- A truth value; zero, one and words are accepted. -/
def bool : Decoder Bool
  | .bool b => .ok b
  | .int 0 => .ok false
  | .int 1 => .ok true
  | .int _ => refuse .unparsableBool
  | .float x =>
    match x.toInt? with
    | some 0 => .ok false
    | some 1 => .ok true
    | some _ => refuse .unparsableBool
    | none => refuse .notBool
  | d =>
    match readable? .unparsableBool d with
    | some (.ok s) => (readBool? s).elim (refuse .unparsableBool) .ok
    | some (.error vs) => .error vs
    | none => refuse .notBool

/-- A byte string; a text is accepted for the bytes that encode it. -/
def bytes : Decoder Bytes
  | .bytes bs => .ok bs
  | .text s => .ok (Utf8.encode s)
  | _ => refuse .notBytes

/-- A word for one of some values; `others` lists all words. -/
def word {α : Type} (value? : String → Option α) (others : List String) : Decoder α
  | .text s => (value? s).elim (refuse (.notMember others)) .ok
  | _ => refuse (.notMember others)

/-- The text of a path. -/
def path : Decoder String
  | .text s => .ok s
  | _ => refuse .notPath

/-! ### Compounds -/

variable {α : Type}

/-- A value, or null for none. -/
def optional (decode : Decoder α) : Decoder (Option α)
  | .null => .ok none
  | d => (decode d).map some

/-- The items of a document that can be read as a list. -/
def items? : Document → Option (List Document)
  | .list items => some items
  | .tuple items => some items
  | .set items => some items
  | _ => none

/-- The checked items of a list, from an index on. -/
def checkItems (decode : Decoder α) : Nat → List Document → Checked (List α)
  | _, [] => .ok []
  | i, item :: items =>
    both List.cons ((decode item).within (.index i)) (checkItems decode (i + 1) items)

/-- A list of values. -/
def listOf (decode : Decoder α) (d : Document) : Checked (List α) :=
  match items? d with
  | some items => checkItems decode 0 items
  | none => refuse .notList

/-- A list of values of fixed length. -/
def tupleOf (decode : Decoder α) (d : Document) : Checked (List α) :=
  match items? d with
  | some items => checkItems decode 0 items
  | none => refuse .notTuple

/-- The step to the value of a key. -/
def keyStep : Document → Step
  | .text s => .key s
  | .int n => .index n
  | .bool b => .index (if b then 1 else 0)
  | d => .key d.shown

/-- The text of a key, or the complaint that it is none. -/
def checkKey (key : Document) : Checked String :=
  ((text key).within (.key "[key]")).within (keyStep key)

/-- A new entry, replacing the value of the same key. -/
def putEntry (name : String) (value : α) : List (String × α) → List (String × α)
  | [] => [(name, value)]
  | entry :: entries =>
    if entry.1 == name then (name, value) :: entries else entry :: putEntry name value entries

/-- The checked entries of a mapping whose keys are texts. -/
def checkEntries (decode : Decoder α) (found : List (String × α)) :
    List (Document × Document) → Checked (List (String × α))
  | [] => .ok found
  | (key, value) :: entries =>
    match checkKey key, (decode value).within (keyStep key) with
    | .ok name, .ok a => checkEntries decode (putEntry name a found) entries
    | name, a =>
      .error (name.violations ++ a.violations ++ (checkEntries decode found entries).violations)

/-- A mapping from texts to values. -/
def dictOf (decode : Decoder α) : Decoder (List (String × α))
  | .mapping entries => checkEntries decode [] entries
  | _ => refuse .notMapping

/-! ### Records -/

/-- How a value is read from the entries of a record. -/
abbrev Reading (α : Type) := List (Document × Document) → Checked α

/-- A member that must be present. -/
def required (name : String) (decode : Decoder α) : Reading α := fun entries =>
  match Document.lookup name entries with
  | some d => (decode d).within (.key name)
  | none => (refuse .missing).within (.key name)

/-- A member that has a value of its own when absent. -/
def defaulted (name : String) (decode : Decoder α) (absent : α) : Reading α := fun entries =>
  match Document.lookup name entries with
  | some d => (decode d).within (.key name)
  | none => .ok absent

/-- A member that may be absent or null. -/
def absentAsNone (name : String) (decode : Decoder α) : Reading (Option α) :=
  defaulted name (optional decode) none

namespace Reading

variable {β : Type}

/-- A reading without members. -/
def done (a : α) : Reading α := fun _ => .ok a

/-- A function read before its argument. -/
def apply (f : Reading (α → β)) (a : Reading α) : Reading β := fun entries =>
  both (fun g x => g x) (f entries) (a entries)

end Reading

/-- The complaints about members that are not among the known ones. -/
def unknownMembers (known : List String) : List (Document × Document) → List Violation
  | [] => []
  | (key, _) :: entries =>
    match key with
    | .text name =>
      if known.contains name then unknownMembers known entries
      else ⟨[.key name], .unknownMember⟩ :: unknownMembers known entries
    | _ => ⟨[keyStep key], .unnamedMember⟩ :: unknownMembers known entries

/-- A record that may have further members, which are left out. -/
def record (name : String) (reading : Reading α) : Decoder α
  | .mapping entries => reading entries
  | _ => refuse (.notRecord name)

/-- A record that has no members but the known ones. -/
def strictRecord (name : String) (known : List String) (reading : Reading α) : Decoder α
  | .mapping entries =>
    match unknownMembers known entries with
    | [] => reading entries
    | vs => .error ((reading entries).violations ++ vs)
  | _ => refuse (.notRecord name)

end Scaffold.Shape
