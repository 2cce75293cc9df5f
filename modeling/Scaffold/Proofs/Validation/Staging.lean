import Scaffold.Proofs.Validation.Exactness

/-!
The course of a validation.

Stages run one after another, up to the first that finds an error. What is found in the end are
the errors of that stage and the warnings of all stages that ran. The two standard stages find no
finding twice: each of them removes its repeats, the first one has no warnings, and the second one
has no code for both an error and a warning.

* `Stage.Course`: the stages that run and what each of them finds; `Findings.collected`: all of it.
* `validateBy_eq_ok_iff`, `validateBy_set_broken_iff`: the result of a course, and the stages that
  it runs; `validateBy_eq_error_iff`: validations without a result.
* `nodup_of_checkStructure`, `nodup_of_checkCoherence`: no stage repeats a finding.
* `validate_eq`: the course of the two standard stages.
* `validateBy_course` (**the course of a validation**): all of this.
-/

namespace Scaffold

variable {b : Blueprint} {stage : Stage} {stages ran : List Stage} {r : Findings}
  {results : List Findings}

/-- The course of a validation: the stages that run, and what each of them finds. -/
structure Stage.Course (b : Blueprint) (stages ran : List Stage) (results : List Findings) :
    Prop where
  /-- The stages that run are the first ones. -/
  front : ran <+: stages
  /-- Each of them comes to a result. -/
  found : List.Forall₂ (fun stage r => stage.check b = .ok r) ran results
  /-- Only the last one may find an error. -/
  passed : ∀ r ∈ results.dropLast, r.errors = []
  /-- And it does, unless all stages run. -/
  ended : ran = stages ∨ ∃ r ∈ results.getLast?, r.errors ≠ []

/-- The errors of the last result and the warnings of all. -/
def Findings.collected (results : List Findings) : Findings :=
  ⟨(results.getLast?.map Findings.errors).getD [], results.flatMap Findings.warnings⟩

/-- A stage that breaks down. -/
def Stage.broken (cause : PlainError) : Stage :=
  ⟨"broken", fun _ => .error cause⟩

/-! ### Stages one after another -/

lemma Findings.isValid_iff : r.isValid = true ↔ r.errors = [] := by
  rw [isValid, List.isEmpty_iff]

/-- Behind a stage without errors the others run, and its warnings come first. -/
lemma validateBy_cons_of_valid (found : stage.check b = .ok r) (valid : r.errors = []) :
    validateBy (stage :: stages) b =
      (validateBy stages b).map fun rest => ⟨rest.errors, r.warnings ++ rest.warnings⟩ := by
  rw [validateBy, found]
  simp only [bind, Except.bind, Findings.isValid_iff.mpr valid, if_true]
  cases validateBy stages b with
  | error cause => rfl
  | ok rest => simp [Except.map, pure, Except.pure, Findings.merge, valid]

/-- Behind a stage with errors no other runs. -/
lemma validateBy_cons_of_invalid (found : stage.check b = .ok r) (invalid : r.errors ≠ []) :
    validateBy (stage :: stages) b = .ok r := by
  have hvalid : r.isValid = false := by
    rw [← Bool.not_eq_true, Findings.isValid_iff]
    exact invalid
  rw [validateBy, found]
  simp [bind, Except.bind, hvalid, pure, Except.pure]

lemma validateBy_cons_of_error {cause : PlainError} (broken : stage.check b = .error cause) :
    validateBy (stage :: stages) b = .error cause := by
  rw [validateBy, broken]
  rfl

namespace Stage.Course

lemma nil_iff : Stage.Course b [] ran results ↔ ran = [] ∧ results = [] := by
  constructor
  · intro h
    obtain rfl := List.prefix_nil.mp h.front
    exact ⟨rfl, List.forall₂_nil_left_iff.mp h.found⟩
  · rintro ⟨rfl, rfl⟩
    exact ⟨List.prefix_rfl, .nil, by simp, .inl rfl⟩

/-- A stage that finds an error is the only one to run. -/
lemma stop (found : stage.check b = .ok r) (invalid : r.errors ≠ []) :
    Stage.Course b (stage :: stages) [stage] [r] :=
  ⟨by simp, .cons found .nil, by simp, .inr ⟨r, rfl, invalid⟩⟩

/-- A stage that finds no error runs in front of others. -/
lemma pass (found : stage.check b = .ok r) (valid : r.errors = [])
    (h : Stage.Course b stages ran results) :
    Stage.Course b (stage :: stages) (stage :: ran) (r :: results) := by
  refine ⟨List.cons_prefix_cons.mpr ⟨rfl, h.front⟩, .cons found h.found, ?_, ?_⟩
  · intro s hs
    cases results with
    | nil => cases hs
    | cons next results =>
      rcases List.mem_cons.mp hs with rfl | hs
      · exact valid
      · exact h.passed s hs
  · refine h.ended.imp (fun heq => by rw [heq]) ?_
    rintro ⟨last, hlast, herrors⟩
    cases results with
    | nil => cases hlast
    | cons next results => exact ⟨last, by simpa using hlast, herrors⟩

/-- Behind a stage without errors the course goes on. -/
lemma of_pass (h : Stage.Course b (stage :: stages) (stage :: ran) (r :: results))
    (valid : r.errors = []) : Stage.Course b stages ran results := by
  refine ⟨(List.cons_prefix_cons.mp h.front).2, (List.forall₂_cons.mp h.found).2,
    fun s hs => h.passed s ?_, h.ended.imp (fun heq => (List.cons.inj heq).2) ?_⟩
  · cases results with
    | nil => cases hs
    | cons next results => exact List.mem_cons_of_mem r hs
  · rintro ⟨last, hlast, herrors⟩
    cases results with
    | nil =>
      obtain rfl := Option.some.inj hlast
      exact absurd valid herrors
    | cons next results => exact ⟨last, by simpa using hlast, herrors⟩

/-- The first stage runs, and the others do exactly if it finds no error. -/
lemma cons_iff : Stage.Course b (stage :: stages) ran results ↔
    ∃ r, stage.check b = .ok r ∧
      ((r.errors ≠ [] ∧ ran = [stage] ∧ results = [r]) ∨
        r.errors = [] ∧ ∃ ran' results', Stage.Course b stages ran' results' ∧ ran = stage :: ran' ∧
          results = r :: results') := by
  constructor
  · intro h
    obtain ⟨front, found, passed, ended⟩ := h
    cases found with
    | nil => simp at ended
    | @cons first r ran results hr found =>
      obtain rfl := (List.cons_prefix_cons.mp front).1
      refine ⟨r, hr, ?_⟩
      by_cases valid : r.errors = []
      · exact .inr ⟨valid, ran, results, of_pass ⟨front, .cons hr found, passed, ended⟩ valid, rfl,
          rfl⟩
      · -- what finds an error is the last one
        cases results with
        | nil =>
          obtain rfl := List.forall₂_nil_right_iff.mp found
          exact .inl ⟨valid, rfl, rfl⟩
        | cons next results => exact absurd (passed r (by simp)) valid
  · rintro ⟨r, hr, ⟨invalid, rfl, rfl⟩ | ⟨valid, ran, results, h, rfl, rfl⟩⟩
    · exact stop hr invalid
    · exact h.pass hr valid

end Stage.Course

/-- **The result** of a validation is what is found in its course. -/
lemma validateBy_eq_ok_iff :
    validateBy stages b = .ok r ↔
      ∃ ran results, Stage.Course b stages ran results ∧ r = .collected results := by
  induction stages generalizing r with
  | nil =>
    simp only [Stage.Course.nil_iff, validateBy, Except.ok.injEq]
    constructor
    · rintro rfl
      exact ⟨[], [], ⟨rfl, rfl⟩, rfl⟩
    · rintro ⟨_, _, ⟨rfl, rfl⟩, rfl⟩
      rfl
  | cons stage stages ih =>
    simp only [Stage.Course.cons_iff]
    cases hcheck : stage.check b with
    | error cause => simp [validateBy_cons_of_error hcheck]
    | ok found =>
      by_cases hvalid : found.errors = []
      · rw [validateBy_cons_of_valid hcheck hvalid, map_eq_ok_iff]
        constructor
        · rintro ⟨rest, hrest, rfl⟩
          obtain ⟨ran, results, hcourse, rfl⟩ := ih.mp hrest
          refine ⟨_, _, ⟨found, rfl, .inr ⟨hvalid, ran, results, hcourse, rfl, rfl⟩⟩, ?_⟩
          cases results <;> simp [Findings.collected, hvalid]
        · rintro ⟨_, _, ⟨_, hfound, ⟨hinvalid, -⟩ | ⟨-, ran, results, hcourse, rfl, rfl⟩⟩, rfl⟩
          · cases hfound
            exact absurd hvalid hinvalid
          · cases hfound
            refine ⟨_, ih.mpr ⟨ran, results, hcourse, rfl⟩, ?_⟩
            cases results <;> simp [Findings.collected, hvalid]
      · rw [validateBy_cons_of_invalid hcheck hvalid]
        constructor
        · intro h
          obtain rfl := Except.ok.inj h
          exact ⟨_, _, ⟨found, rfl, .inl ⟨hvalid, rfl, rfl⟩⟩, by simp [Findings.collected]⟩
        · rintro ⟨_, _, ⟨_, hfound, ⟨-, rfl, rfl⟩ | ⟨hno, -⟩⟩, rfl⟩
          · cases hfound
            simp [Findings.collected]
          · cases hfound
            exact absurd hno hvalid

/-- **The stages that run**: a stage that breaks down in place of another one ends the validation
exactly if that one runs. -/
lemma validateBy_set_broken_iff (h : Stage.Course b stages ran results) {i : Nat}
    (hi : i < stages.length) (cause : PlainError) :
    validateBy (stages.set i (.broken cause)) b = .error cause ↔ i < ran.length := by
  induction stages generalizing ran results i with
  | nil => simp at hi
  | cons stage stages ih =>
    obtain ⟨r, hr, ⟨hinvalid, rfl, rfl⟩ | ⟨hvalid, ran, results, hcourse, rfl, rfl⟩⟩ :=
      Stage.Course.cons_iff.mp h
    · cases i with
      | zero => exact iff_of_true (validateBy_cons_of_error rfl) (by simp)
      | succ i =>
        rw [List.set_cons_succ, validateBy_cons_of_invalid hr hinvalid]
        simp
    · cases i with
      | zero => exact iff_of_true (validateBy_cons_of_error rfl) (by simp)
      | succ i =>
        rw [List.set_cons_succ, validateBy_cons_of_valid hr hvalid, map_eq_error_iff,
          ih hcourse (by simpa using hi), List.length_cons, Nat.add_lt_add_iff_right]

/-- **A breakdown** is that of the first stage that breaks down, behind stages without errors. -/
lemma validateBy_eq_error_iff {cause : PlainError} :
    validateBy stages b = .error cause ↔
      ∃ before stage after, stages = before ++ stage :: after ∧
        (∀ s ∈ before, ∃ r, s.check b = .ok r ∧ r.errors = []) ∧ stage.check b = .error cause := by
  constructor
  · intro h
    induction stages with
    | nil => cases h
    | cons stage stages ih =>
      cases hcheck : stage.check b with
      | error other =>
        rw [validateBy_cons_of_error hcheck, Except.error.injEq] at h
        exact ⟨[], stage, stages, rfl, by simp, h ▸ hcheck⟩
      | ok r =>
        by_cases hvalid : r.errors = []
        · rw [validateBy_cons_of_valid hcheck hvalid, map_eq_error_iff] at h
          obtain ⟨before, broken, after, rfl, hbefore, hbroken⟩ := ih h
          exact ⟨stage :: before, broken, after, rfl,
            List.forall_mem_cons.mpr ⟨⟨r, hcheck, hvalid⟩, hbefore⟩, hbroken⟩
        · rw [validateBy_cons_of_invalid hcheck hvalid] at h
          cases h
  · rintro ⟨before, stage, after, rfl, hbefore, hstage⟩
    induction before with
    | nil => exact validateBy_cons_of_error hstage
    | cons first before ih =>
      obtain ⟨⟨r, hr, hvalid⟩, hbefore⟩ := List.forall_mem_cons.mp hbefore
      rw [List.cons_append, validateBy_cons_of_valid hr hvalid, map_eq_error_iff]
      exact ih hbefore

/-! ### The two stages -/

lemma nodup_uniqueAfter (seen : List (String × String × String)) (fs : List Finding) :
    ((uniqueAfter seen fs).map Finding.identity).Nodup ∧
      ∀ f ∈ uniqueAfter seen fs, f.identity ∉ seen := by
  induction fs generalizing seen with
  | nil => simp [uniqueAfter]
  | cons f fs ih =>
    rw [uniqueAfter]
    by_cases hseen : f.identity ∈ seen
    · rw [if_pos (List.contains_iff_mem.mpr hseen)]
      exact ih seen
    · obtain ⟨hnodup, hnew⟩ := ih (f.identity :: seen)
      rw [if_neg (by simpa using hseen), List.map_cons, List.nodup_cons, List.forall_mem_cons]
      refine ⟨⟨fun hmem => ?_, hnodup⟩, hseen, fun g hg => ?_⟩
      · obtain ⟨g, hg, heq⟩ := List.mem_map.mp hmem
        exact hnew g hg (heq ▸ List.mem_cons_self)
      · exact fun hmem => hnew g hg (List.mem_cons_of_mem _ hmem)

/-- What is left of findings has no repeats. -/
lemma nodup_unique (fs : List Finding) : ((unique fs).map Finding.identity).Nodup :=
  (nodup_uniqueAfter [] fs).1

/-- The first stage has no warnings and no repeats. -/
lemma nodup_of_checkStructure {known : List String} (h : checkStructure known b = .ok r) :
    r.warnings = [] ∧ (r.errors.map Finding.identity).Nodup := by
  simp only [checkStructure, bind_eq_ok_iff, pure, Except.pure, Except.ok.injEq] at h
  obtain ⟨-, -, violations, -, rfl⟩ := h
  exact ⟨rfl, nodup_unique _⟩

/-- The second stage has no repeats either, for no code is that of errors and of warnings. -/
lemma nodup_of_checkCoherence (b : Blueprint) :
    (((checkCoherence b).errors ++ (checkCoherence b).warnings).map Finding.identity).Nodup := by
  have hapart : ∀ code ∈ errorCodes, code ∉ warningCodes := by decide +kernel
  rw [List.map_append, List.nodup_append']
  refine ⟨nodup_unique _, nodup_unique _, fun identity herror hwarning => ?_⟩
  obtain ⟨f, hf, rfl⟩ := List.mem_map.mp herror
  obtain ⟨w, hw, heq⟩ := List.mem_map.mp hwarning
  have hcode : w.code = f.code := congrArg Prod.fst heq
  rw [checkCoherence_errors] at hf
  refine hapart f.code ((labelled_gathered b).codes f hf) (hcode ▸ ?_)
  exact (isWarning_gathered b w ((uniqueAfter_sublist [] _).subset hw)).1

/-- **The course of the two stages**: what the first one finds if it finds errors, and what the
second one finds otherwise. -/
lemma validate_eq (known : List String) (b : Blueprint) :
    validate known b = (checkStructure known b).map fun found =>
      if found.errors = [] then checkCoherence b else found := by
  cases hcheck : checkStructure known b with
  | error cause => exact validateBy_cons_of_error hcheck
  | ok found =>
    rw [validate_of_checkStructure hcheck, Except.map, Except.ok.injEq]
    simp only [Findings.isValid_iff]
    split_ifs with hvalid
    · simp [Findings.merge, hvalid, (nodup_of_checkStructure hcheck).1]
    · rfl

lemma nodup_of_validate {known : List String} (h : validate known b = .ok r) :
    ((r.errors ++ r.warnings).map Finding.identity).Nodup := by
  rw [validate_eq, map_eq_ok_iff] at h
  obtain ⟨found, hfound, rfl⟩ := h
  split_ifs
  · exact nodup_of_checkCoherence b
  · obtain ⟨hwarnings, herrors⟩ := nodup_of_checkStructure hfound
    rwa [hwarnings, List.append_nil]

/-- **The course of a validation**: the stages that run are those up to the first one that finds an
error, and the result are the errors of the last one that runs and the warnings of all of them.
It comes to no result exactly if one of them breaks down. The two standard stages find what the
first one finds, or what the second one finds if there is no error, and nothing twice. -/
theorem validateBy_course (stages : List Stage) (known : List String) (b : Blueprint) :
    (∀ r, validateBy stages b = .ok r ↔
      ∃ ran results, Stage.Course b stages ran results ∧ r = .collected results) ∧
    (∀ ran results, Stage.Course b stages ran results → ∀ i < stages.length, ∀ cause,
      validateBy (stages.set i (.broken cause)) b = .error cause ↔ i < ran.length) ∧
    (∀ cause, validateBy stages b = .error cause ↔
      ∃ before stage after, stages = before ++ stage :: after ∧
        (∀ s ∈ before, ∃ r, s.check b = .ok r ∧ r.errors = []) ∧ stage.check b = .error cause) ∧
    (validate known b = (checkStructure known b).map fun found =>
      if found.errors = [] then checkCoherence b else found) ∧
    ∀ r, validate known b = .ok r → ((r.errors ++ r.warnings).map Finding.identity).Nodup :=
  ⟨fun _ => validateBy_eq_ok_iff, fun _ _ h _ hi cause => validateBy_set_broken_iff h hi cause,
    fun _ => validateBy_eq_error_iff, validate_eq known b, fun _ => nodup_of_validate⟩

/-- A stage that finds a warning in every blueprint. -/
def doubting : Stage :=
  ⟨"doubting", fun _ => .ok ⟨[], [⟨"doubtful", "Doubtful.", none⟩]⟩⟩

/-- A stage that finds an error in every blueprint. -/
def refusing : Stage :=
  ⟨"refusing", fun _ => .ok ⟨[⟨"refused", "Refused.", none⟩], []⟩⟩

/-- The course of four stages, the third of which finds an error. -/
theorem validateBy_course_refusing :
    ∃ results, Stage.Course employee [doubting, doubting, refusing, doubting]
        [doubting, doubting, refusing] results ∧
      results.map (fun r => (r.errors.map Finding.code, r.warnings.map Finding.code)) =
        [([], ["doubtful"]), ([], ["doubtful"]), (["refused"], [])] ∧
      ∀ cause,
        validateBy [doubting, doubting, .broken cause, doubting] employee = .error cause ∧
        validateBy [doubting, doubting, refusing, .broken cause] employee ≠ .error cause := by
  have hcourse : Stage.Course employee [doubting, doubting, refusing, doubting]
      [doubting, doubting, refusing]
      [⟨[], [⟨"doubtful", "Doubtful.", none⟩]⟩, ⟨[], [⟨"doubtful", "Doubtful.", none⟩]⟩,
        ⟨[⟨"refused", "Refused.", none⟩], []⟩] :=
    ⟨⟨[doubting], rfl⟩, .cons rfl (.cons rfl (.cons rfl .nil)), by simp, .inr ⟨_, rfl, by simp⟩⟩
  have hruns := (validateBy_course _ [] employee).2.1 _ _ hcourse
  refine ⟨_, hcourse, rfl, fun cause => ⟨?_, fun herror => ?_⟩⟩
  · exact (hruns 2 (by decide) cause).mpr (by decide)
  · exact absurd ((hruns 3 (by decide) cause).mp herror) (by decide)

end Scaffold
