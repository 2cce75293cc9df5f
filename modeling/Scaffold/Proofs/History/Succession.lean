import Scaffold.Proofs.History.Holdings
import Scaffold.Proofs.History.NewestFirst

/-!
Runs recorded one after another.

Every manager keeps the greatest sequence that it has given out, and a new manager starts
from nothing. A store lists the recorded runs in any case. It lists them newest first when
each call goes on with the manager of the call before, whatever its clock shows, or finds
the clock past the sequence that was given out last; a clock that is set back between two
managers turns their runs round.

* `Call`, `recordAll`: calls one after another; `sequences`: what they give out.
* `Exact`: a sequence is greater than the one its manager gave out before; `InTurn`: so it
  is for the call before.
* `less_sequences`: then sequences grow from call to call.
* `exists_kept_of_recordAll`: what the calls leave in the store.
* `runs_recordAll`: what is listed, and what is selected; `runs_clock_back` shows a clock
  that is set back.
-/

namespace Scaffold

open Files FileTree Number

variable {tree after : FileTree} {root : Path} {place : Place} {store : HistoryStore}

/-- A call of a manager that records a run. -/
structure Call where
  /-- The manager. -/
  manager : Nat
  /-- What the recording takes from outside. -/
  surroundings : Surroundings
  /-- The context. -/
  context : List (Document × Document)
  /-- The blueprint. -/
  blueprint : Blueprint
  /-- The path of the blueprint. -/
  relative : String
  /-- What has been generated. -/
  output : Output

/-- The outcome of a call. -/
def Call.record (call : Call) (journal : Journal) (tree : FileTree) :
    Except RecordFault String × Journal × FileTree :=
  journal.record call.surroundings call.context call.blueprint call.relative call.output tree

/-- The tree after calls one after another, if all of them succeed. -/
def recordAll : List Call → (Nat → Journal) → FileTree → Option FileTree
  | [], _, tree => some tree
  | call :: calls, journals, tree =>
    match call.record (journals call.manager) tree with
    | (.ok _, journal, next) => recordAll calls (Function.update journals call.manager journal) next
    | (.error _, _) => none

/-- A run is the one that a call has recorded. -/
structure IsRunOf (root : Path) (call : Call) (run : Run) : Prop where
  /-- The name. -/
  id : run.id = runName call.surroundings call.blueprint
  /-- The directory. -/
  path : run.path = inside root run.id
  /-- The manifest. -/
  manifest : ∃ sequence known, RunContext.ofEntries call.context = .ok known ∧
    run.manifest.IsPlainOf (manifestFor call.surroundings sequence known call.blueprint
      call.relative call.output.journaled)

/-- The names of the runs that calls have recorded. -/
lemma map_id_of_isRunOf {calls : List Call} {runs : List Run}
    (h : List.Forall₂ (IsRunOf root) calls runs) :
    runs.map (·.id) = calls.map fun call => runName call.surroundings call.blueprint := by
  induction h with
  | nil => rfl
  | cons hfirst _ ih => rw [List.map_cons, List.map_cons, ih, hfirst.id]

/-! ### Sequences -/

section Sequences

variable {last : Nat → Binary64} {calls : List Call}

/-- The sequence that a call gives out. -/
def given (last : Nat → Binary64) (call : Call) : Binary64 :=
  Journal.nextSequence (last call.manager) call.surroundings.clock

/-- The greatest sequences of all managers after a call. -/
def afterCall (last : Nat → Binary64) (call : Call) : Nat → Binary64 :=
  Function.update last call.manager (given last call)

/-- The sequences that calls give out one after another. -/
def sequences : (Nat → Binary64) → List Call → List Binary64
  | _, [] => []
  | last, call :: calls => given last call :: sequences (afterCall last call) calls

/-- Every sequence is greater than what its manager has given out before. -/
def Exact : (Nat → Binary64) → List Call → Prop
  | _, [] => True
  | last, call :: calls =>
    (last call.manager).less (given last call) = true ∧ Exact (afterCall last call) calls

/-- Every call but the first goes on with the manager of the one before, or finds the
clock past the sequence that was given out last. -/
def InTurn : (Nat → Binary64) → List Call → Prop
  | last, a :: b :: calls =>
    (b.manager = a.manager ∨ (given last a).less b.surroundings.clock = true) ∧
      InTurn (afterCall last a) (b :: calls)
  | _, _ => True

lemma less_iff {x y : Binary64} :
    x.less y = true ↔ ∃ m n, x.place? = some m ∧ y.place? = some n ∧ m < n := by
  rw [Binary64.less]
  cases x.place? <;> cases y.place? <;> simp

/-- A clock that is past a sequence is given out itself. -/
lemma given_of_less {call : Call}
    (h : (last call.manager).less call.surroundings.clock = true) :
    given last call = call.surroundings.clock := by
  rw [given, Journal.nextSequence, if_pos h]

/-- **Sequences grow**: where no manager has given out more than `top`, and the first call
goes on from it or finds the clock past it, all sequences are greater, each one than those
before it. -/
lemma less_sequences {top : Int}
    (bounded : ∀ manager, ∃ n, (last manager).place? = some n ∧ n ≤ top)
    (first : ∀ call ∈ calls.head?, (last call.manager).place? = some top ∨
      ∃ n, call.surroundings.clock.place? = some n ∧ top < n)
    (exact : Exact last calls) (inTurn : InTurn last calls) :
    (∀ x ∈ sequences last calls, ∃ n, x.place? = some n ∧ top < n) ∧
      (sequences last calls).Pairwise fun x y => x.less y = true := by
  induction calls generalizing last top with
  | nil => simp [sequences]
  | cons call calls ih =>
    obtain ⟨hexact, hrest⟩ := exact
    -- the first sequence is greater than all before
    obtain ⟨n, hn, htop⟩ : ∃ n, (given last call).place? = some n ∧ top < n := by
      obtain ⟨m, n, hm, hn, hlt⟩ := less_iff.mp hexact
      rcases first call (by simp) with hlast | ⟨c, hc, hpast⟩
      · rw [hlast, Option.some.injEq] at hm
        exact ⟨n, hn, hm ▸ hlt⟩
      · obtain ⟨l, hl, hle⟩ := bounded call.manager
        rw [given_of_less (less_iff.mpr ⟨l, c, hl, hc, by omega⟩)]
        exact ⟨c, hc, hpast⟩
    have hbounded : ∀ manager, ∃ m, (afterCall last call manager).place? = some m ∧ m ≤ n := by
      intro manager
      by_cases hmanager : manager = call.manager
      · subst hmanager
        exact ⟨n, by rw [afterCall, Function.update_self, hn], le_refl n⟩
      · obtain ⟨m, hm, hle⟩ := bounded manager
        exact ⟨m, by rw [afterCall, Function.update_of_ne hmanager, hm], by omega⟩
    have hfirst : ∀ next ∈ calls.head?, (afterCall last call next.manager).place? = some n ∨
        ∃ c, next.surroundings.clock.place? = some c ∧ n < c := by
      intro next hnext
      cases calls with
      | nil => simp at hnext
      | cons next' calls =>
        simp only [List.head?_cons, Option.mem_def, Option.some.injEq] at hnext
        subst hnext
        rcases inTurn.1 with hsame | hpast
        · exact .inl (by rw [hsame, afterCall, Function.update_self, hn])
        · obtain ⟨m, c, hm, hc, hlt⟩ := less_iff.mp hpast
          rw [hn, Option.some.injEq] at hm
          exact .inr ⟨c, hc, by omega⟩
    have hturn : InTurn (afterCall last call) calls := by
      cases calls with
      | nil => trivial
      | cons next calls => exact inTurn.2
    obtain ⟨habove, hpairwise⟩ := ih hbounded hfirst hrest hturn
    refine ⟨fun x hx => ?_, List.pairwise_cons.mpr ⟨fun x hx => ?_, hpairwise⟩⟩
    · rcases List.mem_cons.mp hx with rfl | hx
      · exact ⟨n, hn, htop⟩
      · obtain ⟨m, hm, hlt⟩ := habove x hx
        exact ⟨m, hm, by omega⟩
    · obtain ⟨m, hm, hlt⟩ := habove x hx
      exact less_iff.mpr ⟨n, m, hn, hm, hlt⟩

end Sequences

/-! ### What lies in the store -/

section Store

variable {other : Manifest → Prop} {call : Call} {calls : List Call} {kept : List KeptRun}
  {journals : Nat → Journal}

/-- The journals of all managers after a call. -/
def afterRecord (journals : Nat → Journal) (call : Call) : Nat → Journal :=
  Function.update journals call.manager { journals call.manager with
    last := given (fun manager => (journals manager).last) call }

lemma store_afterRecord (stores : ∀ manager, (journals manager).store = store) (manager : Nat) :
    (afterRecord journals call manager).store = store := by
  by_cases hmanager : manager = call.manager
  · subst hmanager
    rw [afterRecord, Function.update_self]
    exact stores call.manager
  · rw [afterRecord, Function.update_of_ne hmanager]
    exact stores manager

lemma last_afterRecord (journals : Nat → Journal) (call : Call) :
    (fun manager => (afterRecord journals call manager).last) =
      afterCall (fun manager => (journals manager).last) call := by
  funext manager
  by_cases hmanager : manager = call.manager
  · subst hmanager
    rw [afterRecord, Function.update_self, afterCall, Function.update_self]
  · rw [afterRecord, Function.update_of_ne hmanager, afterCall, Function.update_of_ne hmanager]

/-- The first of some calls has recorded a run, and the others go on from there. -/
lemma exists_kept_of_recordAll_cons (enabled : store.root? = some root)
    (stores : ∀ manager, (journals manager).store = store)
    (unique : '/' ∉ call.surroundings.unique.toList) (sound : tree.Sound)
    (done : recordAll (call :: calls) journals tree = some after) :
    ∃ (r : KeptRun) (known : RunContext) (place : Place) (next : FileTree),
      r.id = runName call.surroundings call.blueprint ∧
      RunContext.ofEntries call.context = .ok known ∧
      r.Added root (manifestFor call.surroundings
        (given (fun manager => (journals manager).last) call) known call.blueprint call.relative
        call.output.journaled) place tree next ∧
      recordAll calls (afterRecord journals call) next = some after := by
  rw [recordAll] at done
  split at done
  · next id journal next hrecord =>
    obtain ⟨r, known, place, -, hname, -, hknown, rfl, added⟩ := exists_kept_of_record
      ((congrArg HistoryStore.root? (stores call.manager)).trans enabled) sound unique hrecord
    exact ⟨r, known, place, next, hname, hknown, added, done⟩
  · cases done

/-- Calls keep all directories and links. -/
lemma keeps_of_recordAll (enabled : store.root? = some root)
    (stores : ∀ manager, (journals manager).store = store)
    (unique : ∀ call ∈ calls, '/' ∉ call.surroundings.unique.toList) (sound : tree.Sound)
    (done : recordAll calls journals tree = some after) : Keeps tree after := by
  induction calls generalizing tree journals with
  | nil =>
    rw [recordAll, Option.some.injEq] at done
    exact done ▸ .refl tree
  | cons call calls ih =>
    obtain ⟨_, _, _, next, -, -, added, hrest⟩ :=
      exists_kept_of_recordAll_cons enabled stores (unique call (by simp)) sound done
    exact added.keeps.trans (ih (store_afterRecord stores) (fun c hc => unique c (by simp [hc]))
      added.sound hrest)

/-- **What calls leave in the store**: a run for each of them, with the sequence that the
call has given out. -/
lemma exists_kept_of_recordAll (enabled : store.root? = some root)
    (stores : ∀ manager, (journals manager).store = store)
    (located : ∀ place', after.locate true root = .ok ⟨place', some .directory⟩ → place' = place)
    (unique : ∀ call ∈ calls, '/' ∉ call.surroundings.unique.toList)
    (sound : tree.Sound) (named : tree.Named) (holds : Holds place other kept tree)
    (done : recordAll calls journals tree = some after) :
    ∃ runs : List KeptRun, Holds place other (kept ++ runs) after ∧ after.Sound ∧ after.Named ∧
      List.Forall₂ (fun call r => IsRunOf root call (r.run root)) calls runs ∧
      runs.map (·.manifest.sequence) =
        (sequences (fun manager => (journals manager).last) calls).map some := by
  induction calls generalizing tree journals kept with
  | nil =>
    rw [recordAll, Option.some.injEq] at done
    subst done
    exact ⟨[], by simpa using holds, sound, named, .nil, rfl⟩
  | cons call calls ih =>
    obtain ⟨r, known, place', next, hname, hknown, added, hrest⟩ :=
      exists_kept_of_recordAll_cons enabled stores (unique call (by simp)) sound done
    have hunique : ∀ c ∈ calls, '/' ∉ c.surroundings.unique.toList := fun c hc =>
      unique c (by simp [hc])
    -- the root stays where this call has found it
    have hkeeps := keeps_of_recordAll enabled (store_afterRecord stores) hunique added.sound hrest
    obtain rfl : place' = place :=
      located place' (hkeeps.locate_directory added.recorded.located)
    obtain ⟨runs, hholds, hsound, hnamed, hruns, hsequences⟩ := ih (store_afterRecord stores)
      hunique added.sound (added.named named) (holds.record sound added) hrest
    refine ⟨r :: runs, by simpa using hholds, hsound, hnamed, .cons ⟨hname, rfl, _, known, hknown,
      added.plain⟩ hruns, ?_⟩
    rw [List.map_cons, hsequences, last_afterRecord, sequences, List.map_cons, added.plain.sequence]
    rfl

end Store

/-! ### The order of the list -/

/-- A run with a greater sequence is newer. -/
lemma isNewer_of_less {time : Run → Option Int} {a b : Run} {x y : Binary64}
    (ha : a.manifest.sequence = some x) (hb : b.manifest.sequence = some y)
    (h : y.less x = true) : Run.isNewer time a b = true := by
  obtain ⟨m, n, hm, hn, hlt⟩ := less_iff.mp h
  have hsame : x.same y = false := by
    rw [Binary64.same, hm, hn]
    simpa using by omega
  rw [Run.isNewer, Run.compare]
  simp [ha, hb, decideBy, hsame, descending, h]

/-- Runs with falling sequences stand in the order of the list. -/
lemma pairwise_isNewer {time : Run → Option Int} {runs : List Run} {xs : List Binary64}
    (h : runs.map (·.manifest.sequence) = xs.map some)
    (falling : xs.Pairwise fun x y => y.less x = true) :
    runs.Pairwise fun a b => Run.isNewer time a b = true := by
  induction runs generalizing xs with
  | nil => exact .nil
  | cons run runs ih =>
    cases xs with
    | nil => cases h
    | cons x xs =>
      obtain ⟨hfirst, hrest⟩ := List.cons.inj h
      obtain ⟨hx, hxs⟩ := List.pairwise_cons.mp falling
      refine List.pairwise_cons.mpr ⟨fun other hother => ?_, ih hrest hxs⟩
      have hmem : other.manifest.sequence ∈ xs.map some := hrest ▸ List.mem_map_of_mem hother
      obtain ⟨y, hy, heq⟩ := List.mem_map.mp hmem
      exact isNewer_of_less hfirst heq.symm (hx y hy)

/-- A list in which every element comes before all that follow is ranked. -/
lemma ranked_of_pairwise {α : Type} {before : α → α → Bool} {l : List α} (oneWay : OneWay before)
    (h : l.Pairwise fun a b => before a b = true) : Ranked before l := by
  induction l with
  | nil => exact ⟨by simp, by simp⟩
  | cons x l ih =>
    obtain ⟨hx, hl⟩ := List.pairwise_cons.mp h
    obtain ⟨total, trans⟩ := ih hl
    have hback : ∀ a ∈ l, before a x = true → False := fun a ha hax => by
      have := oneWay x a (hx a ha)
      rw [hax] at this
      cases this
    refine ⟨fun a ha b hb hne => ?_, fun a ha b hb c hc hab hbc => ?_⟩
    · rcases List.mem_cons.mp ha with rfl | ha' <;> rcases List.mem_cons.mp hb with rfl | hb'
      · exact absurd rfl hne
      · exact .inl (hx b hb')
      · exact .inr (hx a ha')
      · exact total a ha' b hb' hne
    · rcases List.mem_cons.mp hc with rfl | hc'
      · rcases List.mem_cons.mp hb with rfl | hb'
        · exact hab
        · exact absurd hbc fun hbc => hback b hb' hbc
      · rcases List.mem_cons.mp ha with rfl | ha'
        · exact hx c hc'
        · rcases List.mem_cons.mp hb with rfl | hb'
          · exact absurd hab fun hab => hback a ha' hab
          · exact trans a ha' b hb' c hc' hab hbc

/-- The order of a list has been made by the comparison. -/
lemma exists_newestFirst_of_runs {runs : List Run} (h : store.runs tree = .ok runs) :
    ∃ found, runs = Run.newestFirst tree found := by
  cases hroot : store.root? with
  | none =>
    rw [HistoryStore.runs, hroot, Except.ok.injEq] at h
    exact ⟨[], h.symm⟩
  | some root =>
    rcases (runs_eq_ok_iff hroot).mp h with ⟨-, rfl⟩ | ⟨-, -, rfl⟩
    · exact ⟨[], rfl⟩
    · exact ⟨_, rfl⟩

/-- Runs in the order in which they come first stay in this order. -/
lemma newestFirst_eq_of_perm {runs found : List Run} (tree : FileTree)
    (h : runs.Pairwise fun a b => Run.isNewer (Run.time? tree) a b = true)
    (perm : found.Perm runs) : Run.newestFirst tree found = runs :=
  sortBy_eq_of_pairwise (Run.oneWay_isNewer _) h perm
    ((ranked_of_pairwise (Run.oneWay_isNewer _) h).of_subset fun _ ha => perm.mem_iff.mp ha)

/-- The newest run comes first in a selection for which nothing is named. -/
lemma select_eq_of_runs {run : Run} {runs : List Run} (h : store.runs tree = .ok (run :: runs))
    (latestOnly : Bool) :
    ∃ more, store.select tree none none latestOnly = .ok (run :: more) ∧
      (latestOnly = true → more = []) := by
  have hnone : filledText none = none := rfl
  rw [HistoryStore.select, hnone]
  simp only [h, bind, Except.bind, pure, Except.pure]
  cases hexecution : run.manifest.executionId with
  | none => exact ⟨[], rfl, fun _ => rfl⟩
  | some execution =>
    cases latestOnly with
    | true => exact ⟨[], rfl, fun _ => rfl⟩
    | false =>
      refine ⟨runs.filter fun other => other.manifest.executionId == some execution, ?_, by simp⟩
      simp [hexecution]

/-- The list of the store after calls on a root in which nothing lay. -/
lemma exists_runs_of_recordAll {calls : List Call} (enabled : store.root? = some root)
    (nonempty : calls ≠ []) (unique : ∀ call ∈ calls, '/' ∉ call.surroundings.unique.toList)
    (sound : tree.Sound) (named : tree.Named)
    (done : recordAll calls (fun _ => .fresh store) tree = some after)
    (empty : ∀ place, after.locate true root = .ok ⟨place, some .directory⟩ →
      ∀ name, tree.node? (place ++ [name]) = none) :
    ∃ (recorded found : List Run), store.runs after = .ok (Run.newestFirst after found) ∧
      found.Perm recorded ∧ List.Forall₂ (IsRunOf root) calls recorded ∧
      recorded.map (·.manifest.sequence) = (sequences (fun _ => .zero) calls).map some := by
  have hstores : ∀ manager : Nat, ((fun _ => Journal.fresh store) manager).store = store :=
    fun _ => rfl
  have hkeeps := keeps_of_recordAll enabled hstores unique sound done
  -- the place of the root is where the first call has found it
  obtain ⟨place, hplace⟩ : ∃ place, after.locate true root = .ok ⟨place, some .directory⟩ := by
    cases calls with
    | nil => exact absurd rfl nonempty
    | cons call calls =>
      obtain ⟨_, _, place, next, -, -, added, hrest⟩ :=
        exists_kept_of_recordAll_cons enabled hstores (unique call (by simp)) sound done
      have hkeeps := keeps_of_recordAll enabled (store_afterRecord hstores)
        (fun c hc => unique c (by simp [hc])) added.sound hrest
      exact ⟨place, hkeeps.locate_directory added.recorded.located⟩
  have hbelow : ∀ name rest, tree.node? (place ++ name :: rest) = none := by
    intro name rest
    cases rest with
    | nil => exact empty place hplace name
    | cons next rest =>
      rw [List.append_cons]
      exact sound.below (by simp [empty place hplace name]) (by simp)
  have hstart : Holds place (fun _ => False) [] tree := by
    refine ⟨.nil, by simp, fun name contents text _ hcontents => ?_, fun rest target hlink => ?_⟩
    · rw [FileTree.contents?, List.append_assoc] at hcontents
      simp [hbelow name [Manifest.fileName]] at hcontents
    · cases rest with
      | nil =>
        -- the directory itself is no link, because it is a directory in the end
        have hafter := (hkeeps.link _ target).mpr hlink
        rw [List.append_nil, node?_of_locate hplace] at hafter
        cases hafter
      | cons name rest => simp [hbelow name rest] at hlink
  obtain ⟨kept, hholds, hsound, hnamed, hkept, hsequences⟩ := exists_kept_of_recordAll enabled
    hstores (fun place' h => by rw [hplace, Except.ok.injEq, Found.mk.injEq] at h; exact h.1.symm)
    unique sound named hstart done
  obtain ⟨runs, others, hruns, hperm, hothers⟩ :=
    Holds.exists_runs (by simpa using hholds) hsound hnamed hplace enabled
  have hnil : others = [] := List.eq_nil_iff_forall_not_mem.mpr hothers
  rw [hnil, List.append_nil] at hperm
  obtain ⟨found, rfl⟩ := exists_newestFirst_of_runs hruns
  have hfound : (Run.newestFirst after found).Perm found := sortBy_perm found
  refine ⟨kept.map (·.run root), found, hruns, hfound.symm.trans hperm, ?_, ?_⟩
  · rw [List.forall₂_map_right_iff]
    exact hkept
  · rw [List.map_map]
    exact hsequences

/-- **What is listed after calls one after another** on a root in which nothing lay: the
recorded runs. When every call goes on with the manager of the one before, or finds the
clock past the sequence that was given out last, the run recorded last comes first, and
the one recorded first comes last; and a selection for which nothing is named starts with
the run recorded last. -/
theorem runs_recordAll (calls : List Call) (enabled : store.root? = some root)
    (nonempty : calls ≠ []) (unique : ∀ call ∈ calls, '/' ∉ call.surroundings.unique.toList)
    (sound : tree.Sound) (named : tree.Named)
    (done : recordAll calls (fun _ => .fresh store) tree = some after)
    (empty : ∀ place, after.locate true root = .ok ⟨place, some .directory⟩ →
      ∀ name, tree.node? (place ++ [name]) = none) :
    ∃ recorded runs, store.runs after = .ok runs ∧
      List.Forall₂ (IsRunOf root) calls recorded ∧ runs.Perm recorded ∧
      (Exact (fun _ => .zero) calls → InTurn (fun _ => .zero) calls → runs = recorded.reverse ∧
        ∀ latestOnly, ∃ more, store.select after none none latestOnly =
          .ok (recorded.getLast?.toList ++ more) ∧ (latestOnly = true → more = [])) := by
  obtain ⟨recorded, found, hruns, hperm, hrecorded, hsequences⟩ :=
    exists_runs_of_recordAll enabled nonempty unique sound named done empty
  refine ⟨recorded, _, hruns, hrecorded, (sortBy_perm found).trans hperm, fun exact inTurn => ?_⟩
  -- sequences grow, so the order of the list is the one turned round
  have hzero : Binary64.zero.place? = some 0 := by decide +kernel
  have hgrow : (sequences (fun _ => .zero) calls).Pairwise fun x y => x.less y = true :=
    (less_sequences (fun _ => ⟨0, hzero, le_refl 0⟩) (fun _ _ => .inl hzero) exact inTurn).2
  have hsorted : Run.newestFirst after found = recorded.reverse := by
    have hreverse : recorded.reverse.map (·.manifest.sequence) =
        (sequences (fun _ => .zero) calls).reverse.map some := by
      rw [List.map_reverse, List.map_reverse, hsequences]
    exact newestFirst_eq_of_perm after (pairwise_isNewer hreverse (List.pairwise_reverse.mpr hgrow))
      (hperm.trans (List.reverse_perm _).symm)
  refine ⟨hsorted, fun latestOnly => ?_⟩
  rw [hsorted] at hruns
  cases hlast : recorded.reverse with
  | nil =>
    rw [List.reverse_eq_nil_iff] at hlast
    rw [hlast] at hrecorded
    cases hrecorded
    exact absurd rfl nonempty
  | cons run more =>
    rw [hlast] at hruns
    obtain ⟨selected, hselect, hmore⟩ := select_eq_of_runs hruns latestOnly
    refine ⟨selected, ?_, hmore⟩
    rw [hselect, ← List.head?_reverse, hlast]
    rfl

/-- A replacement that a manager records at some reading of the clock. -/
def replacementAt (manager : Nat) (unique : String) (clock : Binary64) : Call where
  manager := manager
  surroundings := { someDay with unique := unique, clock := clock }
  context := []
  blueprint := smallBlueprint
  relative := "e.yaml"
  output := oneReplacement

/-- The runs of two managers, of which the second one finds the clock further on. -/
def clockGoesOn : List Call :=
  [replacementAt 0 "1" (.ofInt 10), replacementAt 0 "2" (.ofInt 5), replacementAt 1 "3" (.ofInt 20)]

/-- A manager goes on although the clock was set back, and another one comes later. -/
theorem runs_recordAll_clockGoesOn :
    (HistoryStore.mk "/h" true).root? = some (.ofText "/h") ∧ clockGoesOn ≠ [] ∧
    (∀ call ∈ clockGoesOn, '/' ∉ call.surroundings.unique.toList) ∧ (empty []).Sound ∧
    (empty []).Named ∧ Exact (fun _ => .zero) clockGoesOn ∧ InTurn (fun _ => .zero) clockGoesOn ∧
    ∃ after, recordAll clockGoesOn (fun _ => .fresh ⟨"/h", true⟩) (empty []) = some after ∧
      (∀ place, after.locate true (.ofText "/h") = .ok ⟨place, some .directory⟩ →
        ∀ name, (empty []).node? (place ++ [name]) = none) ∧
      ∃ recorded runs, (HistoryStore.mk "/h" true).runs after = .ok runs ∧
        List.Forall₂ (IsRunOf (.ofText "/h")) clockGoesOn recorded ∧ runs.Perm recorded ∧
        (Exact (fun _ => .zero) clockGoesOn → InTurn (fun _ => .zero) clockGoesOn →
          runs = recorded.reverse ∧ ∀ latestOnly, ∃ more,
            (HistoryStore.mk "/h" true).select after none none latestOnly =
              .ok (recorded.getLast?.toList ++ more) ∧ (latestOnly = true → more = [])) := by
  have enabled : (HistoryStore.mk "/h" true).root? = some (.ofText "/h") := by decide +kernel
  have exact : Exact (fun _ => .zero) clockGoesOn :=
    ⟨by decide +kernel, by decide +kernel, by decide +kernel, trivial⟩
  have hdone : (recordAll clockGoesOn (fun _ => .fresh ⟨"/h", true⟩) (empty [])).isSome = true := by
    decide +kernel
  obtain ⟨after, hafter⟩ := Option.isSome_iff_exists.mp hdone
  have hnothing : ∀ (place : Place) (name : String), (empty []).node? (place ++ [name]) = none := by
    intro place name
    rw [node?, if_neg (by simp)]
    rfl
  exact ⟨enabled, by simp [clockGoesOn], by decide +kernel, by decide +kernel, named_empty, exact,
    ⟨by decide +kernel, by decide +kernel, trivial⟩, after, hafter, fun place _ => hnothing place,
    runs_recordAll clockGoesOn enabled (by simp [clockGoesOn]) (by decide +kernel)
      (by decide +kernel) named_empty hafter fun place _ => hnothing place⟩

/-- Two managers, of which the second one starts after the clock was set back. -/
def clockSetBack : List Call :=
  [replacementAt 0 "1" (.ofInt 20), replacementAt 1 "2" (.ofInt 10)]

/-- The run of a manager that starts after the clock was set back is listed last,
although it was recorded last. -/
theorem runs_clock_back :
    Exact (fun _ => .zero) clockSetBack ∧
    ∃ after runs, recordAll clockSetBack (fun _ => .fresh ⟨"/h", true⟩) (empty []) = some after ∧
      (HistoryStore.mk "/h" true).runs after = .ok runs ∧
      runs.map (·.id) = clockSetBack.map fun call => runName call.surroundings call.blueprint := by
  have hdone : (recordAll clockSetBack (fun _ => .fresh ⟨"/h", true⟩) (empty [])).isSome = true := by
    decide +kernel
  obtain ⟨after, hafter⟩ := Option.isSome_iff_exists.mp hdone
  have enabled : (HistoryStore.mk "/h" true).root? = some (.ofText "/h") := by decide +kernel
  obtain ⟨recorded, found, hruns, hperm, hrecorded, hsequences⟩ := exists_runs_of_recordAll
    enabled (by simp [clockSetBack]) (by decide +kernel) (by decide +kernel) named_empty hafter
    fun place _ name => by rw [node?, if_neg (by simp)]; rfl
  have hfalling : (sequences (fun _ => .zero) clockSetBack).Pairwise
      fun x y => y.less x = true := by decide +kernel
  rw [newestFirst_eq_of_perm after (pairwise_isNewer hsequences hfalling) hperm] at hruns
  exact ⟨⟨by decide +kernel, by decide +kernel, trivial⟩, after, recorded, hafter, hruns,
    map_id_of_isRunOf hrecorded⟩

end Scaffold
