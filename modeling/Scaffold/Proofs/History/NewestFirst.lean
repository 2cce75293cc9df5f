import Scaffold.Proofs.History.Listing
import Scaffold.Proofs.Order.Sorting

/-!
When the order of runs does not depend on how they were listed.

Two runs are compared by the first value that both of them have and in which they
differ. Two comparisons may therefore rest on different values, and three runs may be
newer than one another in a circle. The order of the list is its own exactly when the
comparison ranks the runs.

* `Run.compare_swap`: turning the question round turns the answer round.
* `newestFirst_rearranged_iff`: the order of runs is the same for every rearrangement
  if and only if the runs are ranked.
* `Uniform`, `ranked_of_uniform`: runs that all have the same values are ranked.
* `Reenumerated`: a tree whose nodes are listed in another order.
* `newestFirst_enumeration`: what the listing of a store, the newest run, the selection
  and the plan owe to the order of the directories; `newestFirst_circle` shows a circle.
-/

namespace Scaffold

open Files FileTree Number

/-! ### The comparison -/

namespace Number.Binary64

lemma same_comm (x y : Binary64) : same x y = same y x := by
  rw [same, same]
  cases x.place? <;> cases y.place? <;> simp [eq_comm]

lemma oneWay_less : OneWay less := by
  intro x y h
  rw [less] at h ⊢
  cases hx : x.place? with
  | none => simp [hx] at h
  | some a =>
    cases hy : y.place? with
    | none => simp [hx, hy] at h
    | some b =>
      simp only [hx, hy, decide_eq_true_eq] at h
      simp only [decide_eq_false_iff_not]
      omega

end Number.Binary64

lemma beq_int_comm (m n : Int) : (m == n) = (n == m) := by
  rw [Bool.eq_iff_iff, beq_iff_eq, beq_iff_eq, eq_comm]

lemma oneWay_lt : OneWay fun (m n : Int) => decide (m < n) := by
  intro m n h
  rw [decide_eq_true_eq] at h
  exact decide_eq_false (by omega)

lemma oneWay_textLess : OneWay textLess := by
  intro s t h
  rw [textLess, decide_eq_true_eq] at h
  exact decide_eq_false (String.lt_asymm h)

variable {α : Type} {equal less : α → α → Bool}

/-- The answer is turned round with the question. -/
lemma descending_swap (oneWay : OneWay less) (a b : α) :
    descending less b a = (descending less a b).swap := by
  rw [descending, descending]
  by_cases h : less a b = true
  · simp [h, oneWay a b h]
  · by_cases h' : less b a = true <;> simp [h, h']

lemma decideBy_swap (comm : ∀ a b, equal a b = equal b a) (oneWay : OneWay less)
    (a b : Option α) : decideBy equal less b a = (decideBy equal less a b).map Ordering.swap := by
  cases a with
  | none => cases b <;> rfl
  | some a =>
    cases b with
    | none => rfl
    | some b =>
      rw [decideBy, decideBy, comm b a]
      by_cases h : equal a b = true
      · simp [h]
      · simp [h, descending_swap oneWay a b]

namespace Run

variable {time : Run → Option Int} {runs : List Run}

/-- Turning the question round turns the answer round. -/
lemma compare_swap (time : Run → Option Int) (a b : Run) :
    compare time b a = (compare time a b).swap := by
  have hsequence := decideBy_swap Binary64.same_comm Binary64.oneWay_less a.manifest.sequence
    b.manifest.sequence
  have hmoment := decideBy_swap Binary64.same_comm Binary64.oneWay_less
    (a.manifest.moment?.map (·.seconds)) (b.manifest.moment?.map (·.seconds))
  have htime := decideBy_swap beq_int_comm oneWay_lt (time a) (time b)
  have hid := descending_swap oneWay_textLess a.id b.id
  have hswap : ∀ (o : Option Ordering) (last : Ordering),
      (o.map Ordering.swap).getD last.swap = (o.getD last).swap := by
    intro o last
    cases o <;> rfl
  have hor : ∀ o rest : Option Ordering,
      (o.map Ordering.swap).or (rest.map Ordering.swap) = (o.or rest).map Ordering.swap := by
    intro o rest
    cases o <;> rfl
  simp only [compare, hsequence, hmoment, htime, hid, hor, hswap]

/-- Whether a run comes before another one. -/
def isNewer (time : Run → Option Int) (a b : Run) : Bool :=
  compare time a b == .lt

/-- Of two runs at most one is newer. -/
lemma oneWay_isNewer (time : Run → Option Int) : OneWay (isNewer time) := by
  intro a b h
  rw [isNewer, beq_iff_eq] at h
  rw [isNewer, compare_swap, h]
  rfl

lemma newestFirst_eq_sortBy (tree : FileTree) (runs : List Run) :
    newestFirst tree runs = sortBy (isNewer (time? tree)) runs := rfl

/-- **What the order of runs depends on**: it is the same for every rearrangement if and
only if the runs are ranked. -/
lemma newestFirst_rearranged_iff (nodup : runs.Nodup) (tree : FileTree) :
    (∀ runs', runs'.Perm runs → newestFirst tree runs' = newestFirst tree runs) ↔
      Ranked (isNewer (time? tree)) runs := by
  simp only [newestFirst_eq_sortBy]
  exact sortBy_rearranged_iff (oneWay_isNewer (time? tree)) nodup

/-! ### Runs that have the same values -/

/-- Runs of which all have a value, or none has it. -/
structure Uniform (time : Run → Option Int) (runs : List Run) : Prop where
  /-- All sequences are numbers, or there is none. -/
  sequence : (∀ run ∈ runs, run.manifest.sequence = none) ∨
    ∀ run ∈ runs, ∃ x, run.manifest.sequence = some x ∧ x ≠ .nan
  /-- All times can be read, or none. -/
  moment : (∀ run ∈ runs, run.manifest.moment? = none) ∨
    ∀ run ∈ runs, ∃ moment, run.manifest.moment? = some moment
  /-- All directories have a time, or none. -/
  time : (∀ run ∈ runs, time run = none) ∨ ∀ run ∈ runs, ∃ n, time run = some n

/-- The order of two numbers of which the greater one comes first, if they differ. -/
def decided (m n : Int) : Option Ordering :=
  if m = n then none else some (if n < m then .lt else .gt)

/-- What is decided by one number after another. -/
lemma decided_or_eq_lt_iff {m n : Int} {rest : Option Ordering} {last : Ordering} :
    ((decided m n).or rest).getD last = .lt ↔ n < m ∨ m = n ∧ rest.getD last = .lt := by
  rw [decided]
  by_cases heq : m = n
  · simp [heq]
  · by_cases hlt : n < m
    · simp [heq, hlt]
    · simp [heq, hlt]

/-- Numbers that are there decide by their places. -/
lemma exists_place {value : Run → Option Binary64}
    (h : (∀ run ∈ runs, value run = none) ∨
      ∀ run ∈ runs, ∃ x, value run = some x ∧ x ≠ .nan) :
    ∃ place : Run → Int, ∀ a ∈ runs, ∀ b ∈ runs,
      decideBy Binary64.same Binary64.less (value a) (value b) = decided (place a) (place b) := by
  rcases h with hnone | hsome
  · refine ⟨fun _ => 0, fun a ha b hb => ?_⟩
    rw [hnone a ha]
    rfl
  · refine ⟨fun run => ((value run).bind Binary64.place?).getD 0, fun a ha b hb => ?_⟩
    obtain ⟨x, hx, hxn⟩ := hsome a ha
    obtain ⟨y, hy, hyn⟩ := hsome b hb
    cases x with
    | nan => exact absurd rfl hxn
    | signed nx rx =>
      cases y with
      | nan => exact absurd rfl hyn
      | signed ny ry =>
        simp only [hx, hy, decideBy, Binary64.same, Binary64.less, Binary64.place?, decided,
          descending, Option.bind_some, Option.getD_some, beq_iff_eq, decide_eq_true_eq]
        split_ifs <;> first | rfl | omega

/-- Whole numbers that are there decide by themselves. -/
lemma exists_number {value : Run → Option Int}
    (h : (∀ run ∈ runs, value run = none) ∨ ∀ run ∈ runs, ∃ n, value run = some n) :
    ∃ number : Run → Int, ∀ a ∈ runs, ∀ b ∈ runs,
      decideBy (· == ·) (fun (m n : Int) => decide (m < n)) (value a) (value b) =
        decided (number a) (number b) := by
  rcases h with hnone | hsome
  · refine ⟨fun _ => 0, fun a ha b hb => ?_⟩
    rw [hnone a ha]
    rfl
  · refine ⟨fun run => (value run).getD 0, fun a ha b hb => ?_⟩
    obtain ⟨m, hm⟩ := hsome a ha
    obtain ⟨n, hn⟩ := hsome b hb
    simp only [hm, hn, decideBy, decided, descending, Option.getD_some, beq_iff_eq,
      decide_eq_true_eq]
    split_ifs <;> first | rfl | omega

/-- Runs that all have the same values are compared by these values and their names. -/
lemma Uniform.exists_isNewer_iff (h : Uniform time runs) :
    ∃ first second third : Run → Int, ∀ a ∈ runs, ∀ b ∈ runs,
      (isNewer time a b = true ↔ first b < first a ∨ first a = first b ∧
        (second b < second a ∨ second a = second b ∧
          (third b < third a ∨ third a = third b ∧ b.id < a.id))) := by
  obtain ⟨first, hfirst⟩ := exists_place h.sequence
  have hmoment : (∀ run ∈ runs, run.manifest.moment?.map (·.seconds) = none) ∨
      ∀ run ∈ runs, ∃ x, run.manifest.moment?.map (·.seconds) = some x ∧ x ≠ .nan := by
    refine h.moment.imp (fun hnone run hrun => ?_) fun hsome run hrun => ?_
    · rw [hnone run hrun]
      rfl
    · obtain ⟨moment, hmoment⟩ := hsome run hrun
      exact ⟨moment.seconds, by rw [hmoment]; rfl, by simp [Calendar.Moment.seconds,
        Binary64.ofRatio, Binary64.ofRank]⟩
  obtain ⟨second, hsecond⟩ := exists_place hmoment
  obtain ⟨third, hthird⟩ := exists_number h.time
  refine ⟨first, second, third, fun a ha b hb => ?_⟩
  have hid : descending textLess a.id b.id = .lt ↔ b.id < a.id := by
    rw [descending, textLess, textLess]
    by_cases hlt : b.id < a.id
    · simp [hlt]
    · by_cases hgt : a.id < b.id <;> simp [hlt, hgt]
  rw [isNewer, beq_iff_eq, compare]
  simp only [hfirst a ha b hb, hsecond a ha b hb, hthird a ha b hb]
  rw [decided_or_eq_lt_iff, decided_or_eq_lt_iff, ← Option.or_none (o := decided (third a) _),
    decided_or_eq_lt_iff, Option.getD_none, hid]

/-- **Runs that all have the same values are ranked** when their names differ. -/
lemma ranked_of_uniform (h : Uniform time runs) (distinct : (runs.map (·.id)).Nodup) :
    Ranked (isNewer time) runs := by
  obtain ⟨first, second, third, hnewer⟩ := h.exists_isNewer_iff
  refine ⟨fun a ha b hb hne => ?_, fun a ha b hb c hc hab hbc => ?_⟩
  · have hid : a.id < b.id ∨ b.id < a.id := by
      by_contra hnone
      rw [not_or, String.not_lt, String.not_lt] at hnone
      exact hne (List.inj_on_of_nodup_map distinct ha hb (String.le_antisymm hnone.2 hnone.1))
    rw [hnewer a ha b hb, hnewer b hb a ha]
    grind
  · rw [hnewer a ha b hb] at hab
    rw [hnewer b hb c hc] at hbc
    rw [hnewer a ha c hc]
    have htrans : c.id < b.id → b.id < a.id → c.id < a.id := String.lt_trans
    grind

end Run

/-! ### Another enumeration -/

namespace Files.FileTree

variable {tree tree' : FileTree}

/-- A tree whose nodes are listed in another order. -/
structure Reenumerated (tree tree' : FileTree) : Prop where
  /-- Every place is listed once. -/
  distinct : (tree.nodes.map (·.1)).Nodup
  /-- The nodes are the same. -/
  nodes : tree'.nodes.Perm tree.nodes
  /-- Relative paths start at the same place. -/
  workplace : tree'.workplace = tree.workplace
  /-- The times are the same. -/
  time : ∀ p, tree'.time p = tree.time p

/-- What is found under a key that is listed once is what is listed under it. -/
lemma find?_eq_some_iff {α : Type} {key : Place} {value : α} {entries : List (Place × α)}
    (distinct : (entries.map (·.1)).Nodup) :
    find? key entries = some value ↔ (key, value) ∈ entries := by
  induction entries with
  | nil => simp [find?]
  | cons entry entries ih =>
    obtain ⟨key', value'⟩ := entry
    rw [List.map_cons, List.nodup_cons] at distinct
    rw [find?, List.mem_cons, Prod.mk.injEq]
    by_cases hkey : key' = key
    · subst hkey
      have hnone : (key', value) ∉ entries := fun hmem =>
        distinct.1 (List.mem_map.mpr ⟨(key', value), hmem, rfl⟩)
      simp [hnone, eq_comm]
    · rw [if_neg hkey, ih distinct.2]
      simp [Ne.symm hkey]

/-- The nodes do not depend on the order in which they are listed. -/
lemma Reenumerated.alike (h : Reenumerated tree tree') : Alike tree tree' where
  workplace := h.workplace
  node p := by
    have hdistinct : (tree'.nodes.map (·.1)).Nodup := (h.nodes.map _).nodup_iff.mpr h.distinct
    rw [node?, node?]
    split
    · rfl
    · refine Option.ext fun node => ?_
      rw [find?_eq_some_iff hdistinct, find?_eq_some_iff h.distinct]
      exact h.nodes.mem_iff

/-- The paths in a directory are the same in another order. -/
lemma Reenumerated.entriesOf (h : Reenumerated tree tree') (path : Path) :
    (tree'.entriesOf path).Perm (tree.entriesOf path) := by
  rw [FileTree.entriesOf, FileTree.entriesOf, h.alike.locate]
  cases tree.locate true path with
  | error fault => exact .refl _
  | ok found => exact ((h.nodes.map _).filter _).map _

end Files.FileTree

section Enumeration

variable {tree tree' : FileTree} {store : HistoryStore} {runs chosen : List Run}

lemma Files.FileTree.Reenumerated.time? (h : Reenumerated tree tree') :
    Run.time? tree' = Run.time? tree := by
  funext run
  rw [Run.time?, Run.time?, h.alike.locate]
  split <;> simp [h.time]

lemma Files.FileTree.Reenumerated.newestFirst (h : Reenumerated tree tree') (runs : List Run) :
    Run.newestFirst tree' runs = Run.newestFirst tree runs := by
  rw [Run.newestFirst, Run.newestFirst, h.time?]

/-- Ranked runs are listed in the same order. -/
lemma Files.FileTree.Reenumerated.listed (h : Reenumerated tree tree')
    (listed : store.runs tree = .ok runs) (distinct : runs.Nodup)
    (ranked : Ranked (Run.isNewer (Run.time? tree)) runs) : store.runs tree' = .ok runs := by
  cases hroot : store.root? with
  | none =>
    rw [HistoryStore.runs, hroot] at listed ⊢
    exact listed
  | some root =>
    rw [runs_eq_ok_iff hroot, h.alike.isDirectory]
    rcases (runs_eq_ok_iff hroot).mp listed with hnone | ⟨hdir, hall, hruns⟩
    · exact .inl hnone
    · have hentries := h.entriesOf root
      have hof : runOf? tree' = runOf? tree := by
        funext path
        rw [runOf?, runOf?, h.alike.runAt?]
      refine .inr ⟨hdir, fun path hpath => ?_, ?_⟩
      · obtain ⟨found, hfound⟩ := hall path (hentries.mem_iff.mp hpath)
        exact ⟨found, (h.alike.runAt? path).trans hfound⟩
      · -- what the store lists is a rearrangement of what is read
        have hperm : runs.Perm ((tree.entriesOf root).filterMap (runOf? tree)) := by
          rw [hruns, Run.newestFirst_eq_sortBy]
          exact sortBy_perm _
        rw [h.newestFirst, hof, hruns]
        refine ((Run.newestFirst_rearranged_iff (hperm.nodup_iff.mp distinct) tree).mpr ?_ _
          (hentries.filterMap _)).symm
        exact ranked.of_subset fun run hrun => hperm.mem_iff.mpr hrun

/-- Ranked runs are selected in the same order. -/
lemma Files.FileTree.Reenumerated.select (h : Reenumerated tree tree')
    (same : store.runs tree' = store.runs tree) (name execution : Option String)
    (latestOnly : Bool) :
    store.select tree' name execution latestOnly = store.select tree name execution latestOnly := by
  rw [HistoryStore.select, HistoryStore.select, same]
  cases filledText name with
  | none => rfl
  | some name =>
    simp only [HistoryStore.run?, h.alike.isDirectory, h.alike.loadRun?]

/-- What is selected are some of the runs of the store, or the run of a name. -/
lemma subset_of_select {name execution : Option String} {latestOnly : Bool}
    (listed : store.runs tree = .ok runs)
    (selected : store.select tree name execution latestOnly = .ok chosen) :
    (∃ run, chosen = [run]) ∨ chosen.Sublist runs := by
  rw [HistoryStore.select] at selected
  cases hname : filledText name with
  | some name =>
    simp only [hname, map_eq_ok_iff] at selected
    obtain ⟨found, -, rfl⟩ := selected
    cases found with
    | none => exact .inr (List.nil_sublist _)
    | some run => exact .inl ⟨run, rfl⟩
  | none =>
    simp only [hname, listed, bind, Except.bind, pure, Except.pure] at selected
    cases runs with
    | nil =>
      simp only [Except.ok.injEq] at selected
      exact .inr (selected ▸ List.nil_sublist _)
    | cons latest rest =>
      cases hexecution : filledText execution with
      | some id =>
        simp only [hexecution, Except.ok.injEq] at selected
        exact .inr (selected ▸ List.filter_sublist)
      | none =>
        simp only [hexecution] at selected
        split at selected
        · rw [Except.ok.injEq] at selected
          exact .inl ⟨latest, selected.symm⟩
        · split at selected
          · rw [Except.ok.injEq] at selected
            exact .inl ⟨latest, selected.symm⟩
          · rw [Except.ok.injEq] at selected
            exact .inr (selected ▸ List.filter_sublist)

/-- The plan for what is selected from ranked runs does not depend on the order in which
it is given. -/
lemma planUndo_of_perm {name execution : Option String} {latestOnly : Bool}
    (listed : store.runs tree = .ok runs) (distinct : runs.Nodup)
    (ranked : Ranked (Run.isNewer (Run.time? tree)) runs)
    (selected : store.select tree name execution latestOnly = .ok chosen) {chosen' : List Run}
    (perm : chosen'.Perm chosen) : planUndo tree chosen' = planUndo tree chosen := by
  rw [planUndo, planUndo]
  rcases subset_of_select listed selected with ⟨run, rfl⟩ | hsub
  · rw [List.perm_singleton.mp perm]
  · rw [(Run.newestFirst_rearranged_iff (hsub.nodup distinct) tree).mpr
      (ranked.of_subset fun run hrun => hsub.subset hrun) _ perm]

/-- **The order of runs.** Runs with different names are put in the same order however
they are listed if and only if they are ranked, which they are when they all have the
same values. The list of a store, its newest run, the selection and the plan are then the
same for every order in which the directories are listed. -/
theorem newestFirst_enumeration (tree : FileTree) (runs : List Run)
    (distinct : (runs.map (·.id)).Nodup) :
    ((∀ runs', runs'.Perm runs → Run.newestFirst tree runs' = Run.newestFirst tree runs) ↔
      Ranked (Run.isNewer (Run.time? tree)) runs) ∧
    (Run.Uniform (Run.time? tree) runs → Ranked (Run.isNewer (Run.time? tree)) runs) ∧
    (Ranked (Run.isNewer (Run.time? tree)) runs →
      ∀ (tree' : FileTree) (store : HistoryStore), Reenumerated tree tree' →
      store.runs tree = .ok runs →
      store.runs tree' = .ok runs ∧ store.latest? tree' = store.latest? tree ∧
      ∀ name execution latestOnly,
        store.select tree' name execution latestOnly =
          store.select tree name execution latestOnly ∧
        ∀ chosen, store.select tree name execution latestOnly = .ok chosen →
          ∀ chosen', chosen'.Perm chosen → planUndo tree' chosen' = planUndo tree chosen) := by
  have hnodup : runs.Nodup := .of_map _ distinct
  refine ⟨Run.newestFirst_rearranged_iff hnodup tree, fun uniform =>
    Run.ranked_of_uniform uniform distinct, fun ranked tree' store h listed => ?_⟩
  have hruns := h.listed listed hnodup ranked
  have hsame : store.runs tree' = store.runs tree := hruns.trans listed.symm
  refine ⟨hruns, ?_, fun name execution latestOnly => ⟨h.select hsame name execution latestOnly,
    fun chosen selected chosen' perm => ?_⟩⟩
  · rw [HistoryStore.latest?, HistoryStore.latest?, hsame]
  · rw [← planUndo_of_perm listed hnodup ranked selected perm, planUndo, planUndo, h.newestFirst]

/-- A store with two runs. -/
def twoRuns : FileTree :=
  ⟨[], [(["runs"], .directory), (["runs", "a"], .directory),
    (["runs", "a", "manifest.json"], .file (Utf8.encode "\x7b\"sequence\":1\x7d")),
    (["runs", "b"], .directory),
    (["runs", "b", "manifest.json"], .file (Utf8.encode "\x7b\"sequence\":2\x7d"))], [], 0⟩

/-- Two runs with sequences, listed in either order. -/
theorem newestFirst_enumeration_twoRuns :
    ∃ runs, (HistoryStore.mk "/runs" true).runs twoRuns = .ok runs ∧
      runs.map (·.id) = ["b", "a"] ∧ Ranked (Run.isNewer (Run.time? twoRuns)) runs ∧
      (HistoryStore.mk "/runs" true).runs { twoRuns with nodes := twoRuns.nodes.reverse } =
        .ok runs := by
  have hview : ((HistoryStore.mk "/runs" true).runs twoRuns).toOption.map (fun runs =>
      (runs.map (·.id), runs.all fun run => run.manifest.sequence.any (· != .nan) &&
        run.manifest.moment?.isNone && (Run.time? twoRuns run).isSome)) =
      some (["b", "a"], true) := by
    decide +kernel
  obtain ⟨runs, hruns, hmap⟩ := Option.map_eq_some_iff.mp hview
  rw [Prod.mk.injEq, List.all_eq_true] at hmap
  obtain ⟨hids, hall⟩ := hmap
  replace hruns : (HistoryStore.mk "/runs" true).runs twoRuns = .ok runs := by
    cases hlist : (HistoryStore.mk "/runs" true).runs twoRuns with
    | error breakdown => simp [hlist, Except.toOption] at hruns
    | ok found => simpa [hlist, Except.toOption] using hruns
  have hdistinct : (runs.map (·.id)).Nodup := hids ▸ by decide
  have huniform : Run.Uniform (Run.time? twoRuns) runs := by
    simp only [Bool.and_eq_true, Option.any_eq_true, bne_iff_ne, Option.isNone_iff_eq_none,
      Option.isSome_iff_exists] at hall
    exact ⟨.inr fun run hrun => (hall run hrun).1.1, .inl fun run hrun => (hall run hrun).1.2,
      .inr fun run hrun => (hall run hrun).2⟩
  obtain ⟨-, hranked, hlisted⟩ := newestFirst_enumeration twoRuns runs hdistinct
  refine ⟨runs, hruns, hids, hranked huniform, (hlisted (hranked huniform) _ _ ?_ hruns).1⟩
  exact ⟨by decide +kernel, List.reverse_perm _, rfl, fun _ => rfl⟩

/-- A run of which only the name, the sequence and the timestamp are known. -/
def bareRun (id : String) (sequence : Option Binary64) (timestamp : Option String) : Run :=
  ⟨id, ⟨"/", ["runs", id]⟩, ⟨id, timestamp, sequence, none, .unknown, [], [], [], []⟩⟩

/-- A circle of three runs: the first is newer than the second by its sequence, and the
third, which has no sequence, lies between their timestamps. -/
theorem newestFirst_circle :
    ¬ ∀ (tree : FileTree) (runs runs' : List Run), (runs.map (·.id)).Nodup → runs'.Perm runs →
      Run.newestFirst tree runs' = Run.newestFirst tree runs := by
  intro h
  have hsame := h (.empty [])
    [bareRun "a" (some (.ofInt 2)) (some "2024-01-01T00:00:00"),
      bareRun "b" (some (.ofInt 1)) (some "2024-01-03T00:00:00"),
      bareRun "c" none (some "2024-01-02T00:00:00")]
    [bareRun "b" (some (.ofInt 1)) (some "2024-01-03T00:00:00"),
      bareRun "c" none (some "2024-01-02T00:00:00"),
      bareRun "a" (some (.ofInt 2)) (some "2024-01-01T00:00:00")]
    (by decide +kernel) (@List.perm_append_comm _ [_, _] [_])
  exact absurd (congrArg (List.map Run.id) hsame) (by decide +kernel)

end Enumeration

end Scaffold
