import Mathlib.Tactic.Common
import Scaffold.Commands.Workbench

/-!
Pieces of commands, step by step.

A piece of a command comes to a result or stops, and in either case it leaves a terminal.
Pieces one after another are taken apart here, once and for all, so that what a command does
can be told without its monad.

* `Work.outcome`: what a piece comes to, and the terminal after it.
* `outcome_bind_eq_ok_iff`, `outcome_bind_eq_error_iff`: one piece after another.
* `Terminal.showing`: a terminal on which more has been shown; `OnlyShows`: a piece that does
  nothing else.
* `OnlyBreaks`: a piece that does not stop unless it breaks down.
-/

namespace Scaffold

open Files

/-- A terminal on which more has been shown. -/
def Terminal.showing (shown : List Emission) (t : Terminal) : Terminal :=
  { t with emissions := t.emissions ++ shown }

namespace Terminal

variable {t : Terminal}

@[simp] lemma showing_tree (shown : List Emission) : (t.showing shown).tree = t.tree := rfl

@[simp] lemma showing_emissions (shown : List Emission) :
    (t.showing shown).emissions = t.emissions ++ shown := rfl

@[simp] lemma showing_nil : t.showing [] = t := by
  simp [showing]

@[simp] lemma showing_showing (shown more : List Emission) :
    (t.showing shown).showing more = t.showing (shown ++ more) := by
  simp [showing, List.append_assoc]

end Terminal

namespace Work

variable {α β : Type} {x : Work α} {f : α → Work β} {t t' : Terminal} {a : α} {b : β} {e : Stop}

/-- What a piece of a command comes to, and the terminal after it. -/
def outcome (x : Work α) (t : Terminal) : Except Stop α × Terminal :=
  x.run.run t

@[simp] lemma outcome_pure (a : α) (t : Terminal) : outcome (pure a) t = (.ok a, t) := rfl

@[simp] lemma outcome_throw (e : Stop) (t : Terminal) :
    outcome (throw e : Work α) t = (.error e, t) := rfl

lemma outcome_bind (x : Work α) (f : α → Work β) (t : Terminal) :
    outcome (x >>= f) t =
      match outcome x t with
      | (.ok a, t') => outcome (f a) t'
      | (.error e, t') => (.error e, t') := by
  rw [outcome, outcome, ExceptT.run_bind, StateT.run_bind]
  change (match x.run.run t with | (r, u) => _) = _
  rcases x.run.run t with ⟨e | a, u⟩ <;> rfl

/-- A piece after another comes to a result when both do. -/
lemma outcome_bind_eq_ok_iff :
    outcome (x >>= f) t = (.ok b, t') ↔
      ∃ a u, outcome x t = (.ok a, u) ∧ outcome (f a) u = (.ok b, t') := by
  rw [outcome_bind]
  rcases outcome x t with ⟨e | a, u⟩ <;> simp

/-- A piece after another stops when one of them does. -/
lemma outcome_bind_eq_error_iff :
    outcome (x >>= f) t = (.error e, t') ↔ outcome x t = (.error e, t') ∨
      ∃ a u, outcome x t = (.ok a, u) ∧ outcome (f a) u = (.error e, t') := by
  rw [outcome_bind]
  rcases outcome x t with ⟨e' | a, u⟩ <;> simp

@[simp] lemma outcome_line (markup : String) (t : Terminal) :
    outcome (line markup) t = (.ok (), t.showing [.line markup]) := rfl

@[simp] lemma outcome_change (step : FileTree → α × FileTree) (t : Terminal) :
    outcome (change step) t = (.ok (step t.tree).1, { t with tree := (step t.tree).2 }) := rfl

lemma outcome_orBreak_eq_ok_iff {result : Except Breakdown α} :
    outcome (orBreak result) t = (.ok a, t') ↔ result = .ok a ∧ t = t' := by
  cases result with
  | error cause => simp [orBreak]
  | ok found => simp [orBreak]

/-- A look at the file tree comes to a result and changes nothing. -/
lemma outcome_ofTree_eq_ok_iff {look : FileTree → Except Breakdown α} :
    outcome (ofTree look) t = (.ok a, t') ↔ look t.tree = .ok a ∧ t = t' := by
  rw [ofTree, outcome_bind_eq_ok_iff]
  constructor
  · rintro ⟨_, _, hget, h⟩
    cases hget
    exact outcome_orBreak_eq_ok_iff.mp h
  · exact fun h => ⟨t, t, rfl, outcome_orBreak_eq_ok_iff.mpr h⟩

/-! ### What is only shown -/

/-- A piece of a command shows something and does nothing else. -/
def OnlyShows (x : Work PUnit) : Prop :=
  ∀ t, ∃ shown, outcome x t = (.ok (), t.showing shown)

namespace OnlyShows

variable {y : Work PUnit}

lemma emit (emission : Emission) : OnlyShows (Work.emit emission) :=
  fun _ => ⟨_, rfl⟩

lemma done : OnlyShows (Pure.pure ()) :=
  fun t => ⟨[], by simp⟩

lemma bind {x : Work PUnit} (hx : OnlyShows x) (hy : OnlyShows y) :
    OnlyShows (x >>= fun _ => y) := by
  intro t
  obtain ⟨shown, hshown⟩ := hx t
  obtain ⟨more, hmore⟩ := hy (t.showing shown)
  exact ⟨shown ++ more, by simp [outcome_bind, hshown, hmore]⟩

/-- What comes after a piece that only shows something, comes when this has been shown. -/
lemma outcome_of_bind {x : Work PUnit} {f : PUnit → Work β} (hx : OnlyShows x)
    (h : outcome (x >>= f) t = (.ok b, t')) :
    ∃ shown, outcome (f ()) (t.showing shown) = (.ok b, t') := by
  obtain ⟨shown, hshown⟩ := hx t
  rw [outcome_bind, hshown] at h
  exact ⟨shown, h⟩

/-- Something is shown for each item of a list. -/
lemma forIn {say : α → Work PUnit} (h : ∀ a, OnlyShows (say a)) (as : List α) :
    OnlyShows (ForIn.forIn as PUnit.unit fun a _ => do
      say a
      Pure.pure (ForInStep.yield PUnit.unit)) := by
  induction as with
  | nil => exact done
  | cons a as ih =>
    intro t
    obtain ⟨shown, hshown⟩ := h a t
    obtain ⟨more, hmore⟩ := ih (t.showing shown)
    refine ⟨shown ++ more, ?_⟩
    simp only [List.forIn_cons, outcome_bind, hshown, outcome_pure, hmore,
      Terminal.showing_showing]

end OnlyShows

/-! ### Stops -/

/-- A piece of a command does not stop unless it breaks down. -/
def OnlyBreaks (x : Work α) : Prop :=
  ∀ t e t', outcome x t = (.error e, t') → ∃ cause, e = .broken cause

namespace OnlyBreaks

lemma of_ok (h : ∀ t, ∃ a t', outcome x t = (.ok a, t')) : OnlyBreaks x := by
  intro t e t' hstop
  obtain ⟨a, u, hok⟩ := h t
  rw [hok] at hstop
  cases hstop

lemma of_onlyShows {x : Work PUnit} (h : OnlyShows x) : OnlyBreaks x :=
  of_ok fun t => ⟨(), _, (h t).choose_spec⟩

lemma pure (a : α) : OnlyBreaks (Pure.pure a : Work α) :=
  of_ok fun t => ⟨a, t, rfl⟩

lemma line (markup : String) : OnlyBreaks (Work.line markup) :=
  of_onlyShows (.emit _)

lemma change (step : FileTree → α × FileTree) : OnlyBreaks (Work.change step) :=
  of_ok fun _ => ⟨_, _, rfl⟩

lemma broken (cause : Breakdown) : OnlyBreaks (throw (.broken cause) : Work α) := by
  intro t e t' h
  cases h
  exact ⟨cause, rfl⟩

lemma orBreak (result : Except Breakdown α) : OnlyBreaks (Work.orBreak result) := by
  cases result with
  | error cause => exact broken cause
  | ok a => exact pure a

lemma bind (hx : OnlyBreaks x) (hf : ∀ a, OnlyBreaks (f a)) : OnlyBreaks (x >>= f) := by
  intro t e t' h
  rcases outcome_bind_eq_error_iff.mp h with h | ⟨a, u, -, h⟩
  · exact hx t e t' h
  · exact hf a u e t' h

lemma ofTree (look : FileTree → Except Breakdown α) : OnlyBreaks (Work.ofTree look) :=
  bind (of_ok fun t => ⟨t, t, rfl⟩) fun _ => orBreak _

lemma ite {condition : Prop} [Decidable condition] {y : Work α} (hx : OnlyBreaks x)
    (hy : OnlyBreaks y) : OnlyBreaks (if condition then x else y) := by
  split
  · exact hx
  · exact hy

end OnlyBreaks

end Work

end Scaffold
