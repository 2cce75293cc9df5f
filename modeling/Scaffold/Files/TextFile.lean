import Scaffold.Files.Change

/-!
Files that hold text.

Text is encoded as UTF-8. Every line break is read as a line feed, however it is
written in the file.

* `lineFeeds`: a text in which every line break is a line feed.
* `linesOf`: the lines of a text.
* `TextFault`: why a file has no text.
* `FileTree.readText`: the text of a file.
* `not_mem_lineFeeds`: no carriage return is left.
-/

namespace Scaffold.Files

/-- The characters of a text with a line feed for every line break: a carriage
return, alone or in front of a line feed, counts as one. -/
def lineFeeds : List Char → List Char
  | [] => []
  | '\r' :: '\n' :: cs => '\n' :: lineFeeds cs
  | '\r' :: cs => '\n' :: lineFeeds cs
  | c :: cs => c :: lineFeeds cs

/-- No carriage return is left. -/
theorem not_mem_lineFeeds (cs : List Char) : '\r' ∉ lineFeeds cs := by
  fun_induction lineFeeds cs with
  | case1 => simp
  | case2 cs ih => simpa using ih
  | case3 cs _ ih => simpa using ih
  | case4 c cs _ h ih => simpa [ih] using fun hc => h hc.symm

/-- The lines of a text; a line break at its end does not start a further line. -/
def linesOf (s : String) : List String :=
  let lines := (Text.pieces (· == '\n') (lineFeeds s.toList)).map String.ofList
  if lines.getLast? == some "" then lines.dropLast else lines

/-- Why a file has no text. -/
inductive TextFault
  /-- The file cannot be read. -/
  | file (fault : Fault)
  /-- The bytes are no encoded text. -/
  | undecodable
  deriving DecidableEq, Repr

/-- The fault in words. -/
def TextFault.message : TextFault → String
  | file fault => fault.message
  | undecodable => "the bytes are no encoded text"

/-- The text of the file that a path denotes. -/
def FileTree.readText (tree : FileTree) (path : Path) : Except TextFault String := do
  let contents ← (tree.read path).mapError .file
  match Utf8.decode? contents with
  | some text => return String.ofList (lineFeeds text.toList)
  | none => throw .undecodable

end Scaffold.Files
