import Scaffold.Proofs.Document.Plain
import Scaffold.Proofs.Outcome

/-!
The parts of documents.

Whether a document has a plain form is decided by its parts alone, each of which stands in
the way or not by itself: byte strings that encode no text, keys without a text, values that
are nested too deeply and values that contain themselves.

* `Document.children`, `Document.Holds`: what lies inside a document, at which depth.
* `Document.FitsAt`: what is asked of a part at a depth.
* `Document.IsEncodable`: documents whose parts all fit; so do the parts of their parts.
* `exists_toPlainAt_iff`, `exists_toPlain_iff`: a document has a plain form exactly when it
  is encodable.
-/

namespace Scaffold

namespace Document

variable {d child part : Document} {depth n : Nat}

/-! ### Parts -/

/-- The documents directly inside another; keys are no parts of their own. -/
def children : Document → List Document
  | list items => items
  | tuple items => items
  | set items => items
  | mapping entries => entries.map (·.2)
  | _ => []

/-- A document holds another inside so many others. -/
inductive Holds : Document → Nat → Document → Prop
  /-- It holds itself. -/
  | self (d : Document) : Holds d 0 d
  /-- What lies inside a child lies one deeper. -/
  | inside {d child part : Document} {n : Nat} :
      child ∈ d.children → Holds child n part → Holds d (n + 1) part

/-- A condition on all parts is one on the document and one on the parts of its children. -/
lemma forall_holds_iff {P : Nat → Document → Prop} :
    (∀ n part, d.Holds n part → P n part) ↔
      P 0 d ∧ ∀ child ∈ d.children, ∀ n part, child.Holds n part → P (n + 1) part := by
  constructor
  · exact fun h => ⟨h 0 d (.self d),
      fun child hchild n part hpart => h _ part (.inside hchild hpart)⟩
  · rintro ⟨hself, hinside⟩ n part hpart
    cases hpart with
    | self => exact hself
    | inside hchild hpart => exact hinside _ hchild _ part hpart

lemma sizeOf_lt_of_mem_children (h : child ∈ d.children) : sizeOf child < sizeOf d := by
  cases d
  case list items | tuple items | set items =>
    have hlt := @List.sizeOf_lt_of_mem _ child _ items h
    simp
    omega
  case mapping entries =>
    obtain ⟨⟨key, value⟩, hentry, rfl⟩ := List.mem_map.mp h
    have hlt := List.sizeOf_lt_of_mem hentry
    simp at hlt ⊢
    omega
  all_goals cases h

/-- What holds of a document when it holds of its children holds of all documents. -/
theorem childInduction {motive : Document → Prop}
    (step : ∀ d : Document, (∀ child ∈ d.children, motive child) → motive d) (d : Document) :
    motive d :=
  step d fun child _ => childInduction step child
termination_by sizeOf d
decreasing_by exact sizeOf_lt_of_mem_children ‹_›

/-! ### What is asked of parts -/

/-- A document can be the key of an entry: it has a text. -/
def IsNameable : Document → Prop
  | bytes bs => (Utf8.decode? bs).isSome
  | list _ => False
  | tuple _ => False
  | set _ => False
  | mapping _ => False
  | knot => False
  | _ => True

/-- A part can be there inside `depth` others: a byte string has to encode a text, what may
hold others needs room for them, keys need a text, and no value contains itself. -/
def FitsAt (depth : Nat) : Document → Prop
  | bytes bs => (Utf8.decode? bs).isSome
  | list _ => depth < plainDepth
  | tuple _ => depth < plainDepth
  | set _ => depth < plainDepth
  | mapping entries => depth < plainDepth ∧ ∀ entry ∈ entries, entry.1.IsNameable
  | knot => False
  | _ => True

/-- What fits somewhere fits further out too. -/
lemma FitsAt.mono {outside : Nat} (le : outside ≤ depth) (h : d.FitsAt depth) :
    d.FitsAt outside := by
  cases d
  case list | tuple | set => exact lt_of_le_of_lt le h
  case mapping => exact ⟨lt_of_le_of_lt le h.1, h.2⟩
  all_goals exact h

/-- All parts of a document fit in their places. -/
def IsEncodable (d : Document) : Prop :=
  ∀ n part, d.Holds n part → part.FitsAt n

lemma exists_keyText_iff : (∃ name, keyText d = .ok name) ↔ d.IsNameable := by
  cases d
  case bool b => exact iff_of_true (by cases b <;> exact ⟨_, rfl⟩) trivial
  case bytes bs => cases h : Utf8.decode? bs <;> simp [keyText, IsNameable, h]
  case list | tuple | set | mapping | knot =>
    refine iff_of_false ?_ id
    rintro ⟨name, h⟩
    cases h
  all_goals exact iff_of_true ⟨_, rfl⟩ trivial

lemma exists_toPlainItems_iff {items : List Document} :
    (∃ plain, toPlainItems depth items = .ok plain) ↔
      ∀ item ∈ items, ∃ plain, toPlainAt depth item = .ok plain := by
  induction items with
  | nil => simp [toPlainItems]
  | cons item items ih =>
    rw [List.forall_mem_cons, ← ih]
    simp only [toPlainItems, bind_eq_ok_iff, pure, Except.pure, Except.ok.injEq]
    constructor
    · rintro ⟨_, first, hfirst, rest, hrest, -⟩
      exact ⟨⟨first, hfirst⟩, rest, hrest⟩
    · rintro ⟨⟨first, hfirst⟩, rest, hrest⟩
      exact ⟨_, first, hfirst, rest, hrest, rfl⟩

lemma exists_toPlainEntries_iff {entries : List (Document × Document)}
    {found : List (String × Json)} :
    (∃ plain, toPlainEntries depth found entries = .ok plain) ↔
      ∀ entry ∈ entries, entry.1.IsNameable ∧ ∃ plain, toPlainAt depth entry.2 = .ok plain := by
  induction entries generalizing found with
  | nil => simp [toPlainEntries]
  | cons entry entries ih =>
    rw [List.forall_mem_cons, ← exists_keyText_iff]
    simp only [toPlainEntries, bind_eq_ok_iff]
    constructor
    · rintro ⟨plain, name, hname, value, hvalue, hrest⟩
      exact ⟨⟨⟨name, hname⟩, value, hvalue⟩, ih.mp ⟨plain, hrest⟩⟩
    · rintro ⟨⟨⟨name, hname⟩, value, hvalue⟩, hrest⟩
      obtain ⟨plain, hplain⟩ := ih.mpr hrest
      exact ⟨plain, name, hname, value, hvalue, hplain⟩

/-- What may nest has a plain form when there is room for it and its parts have one. -/
lemma exists_nested_iff {α : Type} {parts : Except PlainError α} {f : α → Json} :
    (∃ plain, (if depth ≥ plainDepth then .error .circular else parts.map f) = .ok plain) ↔
      depth < plainDepth ∧ ∃ found, parts = .ok found := by
  simp only [nested_eq_ok_iff]
  exact ⟨fun ⟨_, hdepth, found, hfound, _⟩ => ⟨hdepth, found, hfound⟩,
    fun ⟨hdepth, found, hfound⟩ => ⟨_, hdepth, found, hfound, rfl⟩⟩

/-- A document has a plain form when it fits and its children have one. -/
lemma exists_toPlainAt_step :
    (∃ plain, toPlainAt depth d = .ok plain) ↔
      d.FitsAt depth ∧ ∀ child ∈ d.children, ∃ plain, toPlainAt (depth + 1) child = .ok plain := by
  cases d
  case bytes bs => cases h : Utf8.decode? bs <;> simp [toPlainAt, FitsAt, children, h]
  case list items | tuple items | set items =>
    simp only [toPlainAt, exists_nested_iff, exists_toPlainItems_iff]
    rfl
  case mapping entries =>
    simp only [toPlainAt, exists_nested_iff, exists_toPlainEntries_iff, FitsAt, children,
      List.forall_mem_map, forall₂_and, and_assoc]
  case knot =>
    refine iff_of_false ?_ fun h => h.1
    rintro ⟨plain, h⟩
    cases h
  all_goals exact iff_of_true ⟨_, rfl⟩ ⟨trivial, fun _ h => absurd h List.not_mem_nil⟩

/-- **A document has a plain form inside `depth` others exactly when all its parts fit
there.** -/
theorem exists_toPlainAt_iff :
    (∃ plain, toPlainAt depth d = .ok plain) ↔
      ∀ n part, d.Holds n part → part.FitsAt (depth + n) := by
  induction d using childInduction generalizing depth with
  | step d ih =>
    rw [exists_toPlainAt_step, @forall_holds_iff _ fun n part => part.FitsAt (depth + n)]
    refine and_congr_right fun _ => forall₂_congr fun child hchild => ?_
    rw [ih child hchild]
    simp only [Nat.add_right_comm, Nat.add_assoc]

/-- **The documents that have a plain form are the encodable ones.** -/
theorem exists_toPlain_iff : (∃ plain, d.toPlain = .ok plain) ↔ d.IsEncodable := by
  simp only [toPlain, exists_toPlainAt_iff, Nat.zero_add, IsEncodable]

end Document

end Scaffold
