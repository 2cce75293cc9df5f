/-!
Cutting a list at its separators.

The pieces of a list are the stretches between the elements that satisfy a
predicate; there is one more piece than there are separators, so a list without
separators is its own only piece and an empty list has one empty piece.

* `pieces`: the stretches, in order.
* `joinWith`: pieces put together again around one separator.
* `joinWith_pieces`: joining undoes cutting when there is one kind of separator.
* `forall_mem_pieces`: no piece holds a separator.
* `cutLast`: what stands before and after the last occurrence of an element.
-/

namespace Scaffold.Text

variable {α : Type}

/-- The stretches of a list between the elements that satisfy `p`. -/
def pieces (p : α → Bool) : List α → List (List α)
  | [] => [[]]
  | a :: as =>
    if p a then [] :: pieces p as
    else match pieces p as with
      | [] => [[a]]
      | piece :: rest => (a :: piece) :: rest

/-- The elements of some pieces in order, with a separator between two pieces. -/
def joinWith (separator : List α) : List (List α) → List α
  | [] => []
  | [piece] => piece
  | piece :: rest => piece ++ separator ++ joinWith separator rest

/-- A list has at least one piece. -/
theorem pieces_ne_nil (p : α → Bool) (as : List α) : pieces p as ≠ [] := by
  cases as with
  | nil => simp [pieces]
  | cons a as =>
    rw [pieces]
    split
    · simp
    · split <;> simp

/-- No piece holds a separator. -/
theorem forall_mem_pieces {p : α → Bool} {as piece : List α} (h : piece ∈ pieces p as) :
    ∀ a ∈ piece, p a = false := by
  induction as generalizing piece with
  | nil => simp_all [pieces]
  | cons a as ih =>
    rw [pieces] at h
    split at h
    · rcases List.mem_cons.1 h with rfl | h
      · simp
      · exact ih h
    · next ha =>
      split at h
      · next hn => exact absurd hn (pieces_ne_nil p as)
      · next first rest hp =>
        rcases List.mem_cons.1 h with rfl | h
        · intro b hb
          rcases List.mem_cons.1 hb with rfl | hb
          · simpa using ha
          · exact ih (by simp [hp]) b hb
        · exact ih (by simp [hp, h])

/-- Joining undoes cutting when there is one kind of separator. -/
theorem joinWith_pieces [DecidableEq α] (a : α) (as : List α) :
    joinWith [a] (pieces (· == a) as) = as := by
  induction as with
  | nil => rfl
  | cons b as ih =>
    rw [pieces]
    split
    · next hb =>
      have hb : b = a := by simpa using hb
      cases hp : pieces (· == a) as with
      | nil => exact absurd hp (pieces_ne_nil _ _)
      | cons piece rest => simp [joinWith, ← hp, ih, hb]
    · cases hp : pieces (· == a) as with
      | nil => exact absurd hp (pieces_ne_nil _ _)
      | cons piece rest =>
        rw [hp] at ih
        cases rest <;> simp_all [joinWith]

/-- The elements before and after the last element that satisfies `p`, or `none`
when there is no such element. -/
def cutLast (p : α → Bool) : List α → Option (List α × List α)
  | [] => none
  | a :: as =>
    match cutLast p as with
    | some (before, after) => some (a :: before, after)
    | none => if p a then some ([], as) else none

end Scaffold.Text
