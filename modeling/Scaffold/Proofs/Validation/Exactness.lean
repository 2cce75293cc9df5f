import Mathlib.Data.List.Nodup
import Scaffold.Proofs.Number.Digits
import Scaffold.Proofs.Validation.Acceptance

/-!
What the second stage reports.

The rules carry the names and signatures that came before along their lists, and what
they find is gathered in one result, from which later repeats are then removed. The
findings come out as if every item had been held against the items before it, and the
removal concerns warnings only: two errors differ in their code, or else in the index in
their path.

* `OccursBefore`: the key of an item occurs at an earlier index.
* `unique_eq_filter`: what the removal of repeats leaves.
* `index_of_itemPath`: the path of a member of an item tells the index.
* `repeatedField`, `lostRelation`, `repeatedEndpoint`, `unknownTarget`: the findings at an
  index.
* `Labelled`: findings with some codes, no two of which are the same.
* `gathered`: the findings of all rules, with repeats; `labelled_gathered`, `isWarning_gathered`:
  their codes, `mem_tableFindings_of_code`: one that belongs to a single rule.
* `Findings.Exact`: what is reported about a blueprint.
* `checkCoherence_exact`: the second stage reports exactly this.
-/

namespace Scaffold

/-! ### Items and the items before them -/

section Items

variable {α β γ : Type}

/-- The key of an item, given with its index, occurs at an earlier index. -/
def OccursBefore (key : α → β) (xs : List α) (p : α × Nat) : Prop :=
  ∃ x ∈ xs.take p.2, key x = key p.1

/-- The same from an index on, where some keys came before. -/
def OccursAfter (seen : List β) (start : Nat) (key : α → β) (xs : List α) (p : α × Nat) : Prop :=
  key p.1 ∈ seen ∨ ∃ x ∈ xs.take (p.2 - start), key x = key p.1

instance [DecidableEq β] (key : α → β) (xs : List α) : DecidablePred (OccursBefore key xs) :=
  fun p => inferInstanceAs (Decidable (∃ x ∈ xs.take p.2, key x = key p.1))

instance [DecidableEq β] (seen : List β) (start : Nat) (key : α → β) (xs : List α) :
    DecidablePred (OccursAfter seen start key xs) :=
  fun p => inferInstanceAs
    (Decidable (key p.1 ∈ seen ∨ ∃ x ∈ xs.take (p.2 - start), key x = key p.1))

variable {key : α → β} {seen : List β} {start : Nat} {x : α} {xs : List α}

lemma occursAfter_nil_zero {p : α × Nat} :
    OccursAfter [] 0 key xs p ↔ OccursBefore key xs p := by
  simp [OccursAfter, OccursBefore]

/-- The first item is held against what came before only. -/
lemma occursAfter_first : OccursAfter seen start key xs (x, start) ↔ key x ∈ seen := by
  simp [OccursAfter]

/-- The rest of a list has the first item before it as well. -/
lemma occursAfter_rest {p : α × Nat} (h : p ∈ xs.zipIdx (start + 1)) :
    OccursAfter seen start key (x :: xs) p ↔
      OccursAfter (key x :: seen) (start + 1) key xs p := by
  have hle : start + 1 ≤ p.2 := List.le_snd_of_mem_zipIdx h
  rw [OccursAfter, OccursAfter, show p.2 - start = p.2 - (start + 1) + 1 by omega,
    List.take_succ_cons]
  simp only [List.mem_cons, exists_eq_or_imp, eq_comm (a := key x)]
  tauto

variable [DecidableEq β]

/-- A walk along a list that carries the keys that came before reports the items whose key
occurs before. -/
lemma walk_eq_filter (key : α → β) (report : α × Nat → γ)
    (walk : List β → Nat → List α → List γ) (hnil : ∀ seen i, walk seen i [] = [])
    (hcons : ∀ seen i x xs, walk seen i (x :: xs) =
      (if key x ∈ seen then [report (x, i)] else []) ++ walk (key x :: seen) (i + 1) xs)
    (seen : List β) (start : Nat) (xs : List α) :
    walk seen start xs =
      ((xs.zipIdx start).filter (OccursAfter seen start key xs ·)).map report := by
  induction xs generalizing seen start with
  | nil => rw [hnil]; rfl
  | cons x xs ih =>
    have hrest : (xs.zipIdx (start + 1)).filter (OccursAfter seen start key (x :: xs) ·) =
        (xs.zipIdx (start + 1)).filter (OccursAfter (key x :: seen) (start + 1) key xs ·) :=
      List.filter_congr fun p hp => decide_eq_decide.mpr (occursAfter_rest hp)
    rw [hcons, ih, List.zipIdx_cons, List.filter_cons, hrest]
    simp only [decide_eq_true_eq, occursAfter_first]
    split_ifs <;> rfl

end Items

/-! ### Later repeats -/

/-- Where the identities are distinct and none came before, nothing is removed. -/
lemma uniqueAfter_of_nodup {seen : List (String × String × String)} {fs : List Finding}
    (distinct : (fs.map Finding.identity).Nodup) (new : ∀ f ∈ fs, f.identity ∉ seen) :
    uniqueAfter seen fs = fs := by
  induction fs generalizing seen with
  | nil => rfl
  | cons f fs ih =>
    rw [List.map_cons, List.nodup_cons] at distinct
    rw [uniqueAfter, if_neg (by simpa using new f (by simp)), ih distinct.2]
    intro g hg
    rw [List.mem_cons, not_or]
    exact ⟨fun heq => distinct.1 (heq ▸ List.mem_map_of_mem hg), new g (by simp [hg])⟩

/-- What stays are the findings whose identity does not occur before. -/
lemma uniqueAfter_eq_filter (seen : List (String × String × String)) (start : Nat)
    (fs : List Finding) :
    uniqueAfter seen fs = ((fs.zipIdx start).filter
      (¬ OccursAfter seen start Finding.identity fs ·)).map Prod.fst := by
  induction fs generalizing seen start with
  | nil => rfl
  | cons f fs ih =>
    have hrest : (fs.zipIdx (start + 1)).filter
        (¬ OccursAfter seen start Finding.identity (f :: fs) ·) =
        (fs.zipIdx (start + 1)).filter
          (¬ OccursAfter (f.identity :: seen) (start + 1) Finding.identity fs ·) :=
      List.filter_congr fun p hp => decide_eq_decide.mpr (not_congr (occursAfter_rest hp))
    rw [uniqueAfter, List.zipIdx_cons, List.filter_cons, hrest]
    simp only [decide_eq_true_eq, occursAfter_first, List.contains_iff_mem]
    by_cases hseen : f.identity ∈ seen
    · -- a finding that is removed adds nothing to what came before
      have hsame : ∀ p, OccursAfter (f.identity :: seen) (start + 1) Finding.identity fs p ↔
          OccursAfter seen (start + 1) Finding.identity fs p := by
        intro p
        simp only [OccursAfter, List.mem_cons]
        refine or_congr_left (or_iff_right_of_imp ?_)
        rintro heq
        exact heq ▸ hseen
      rw [if_pos hseen, if_neg (not_not.mpr hseen), ih seen (start + 1)]
      simp only [hsame]
    · rw [if_neg hseen, if_pos hseen, List.map_cons, ih _ (start + 1)]

lemma Finding.identity_ne_of_code {f g : Finding} (h : f.code ≠ g.code) :
    f.identity ≠ g.identity :=
  fun heq => h (congrArg Prod.fst heq)

lemma Finding.identity_ne_of_path {f g : Finding} (h : f.path.getD "" ≠ g.path.getD "") :
    f.identity ≠ g.identity :=
  fun heq => h (congrArg (·.2.1) heq)

/-- Findings whose paths are not empty are the same when their identities are. -/
lemma Finding.eq_of_identity {f g : Finding} (hf : f.path ≠ some "") (hg : g.path ≠ some "")
    (h : f.identity = g.identity) : f = g := by
  obtain ⟨code, message, path⟩ := f
  obtain ⟨code', message', path'⟩ := g
  simp only [identity, Prod.mk.injEq] at h
  obtain ⟨rfl, hpath, rfl⟩ := h
  cases path <;> cases path' <;> simp_all [eq_comm]

/-- Where no path is empty, exactly the later repeats of a finding are removed. -/
lemma unique_eq_filter {fs : List Finding} (located : ∀ f ∈ fs, f.path ≠ some "") :
    unique fs = (fs.zipIdx.filter (¬ OccursBefore id fs ·)).map Prod.fst := by
  rw [unique, uniqueAfter_eq_filter [] 0]
  congr 1
  refine List.filter_congr fun p hp => decide_eq_decide.mpr (not_congr ?_)
  rw [occursAfter_nil_zero]
  refine exists_congr fun g => and_congr_right fun hg => ⟨?_, fun heq => congrArg _ heq⟩
  exact Finding.eq_of_identity (located g (List.mem_of_mem_take hg))
    (located p.1 (List.fst_mem_of_mem_zipIdx hp))

/-! ### Paths and indices -/

open Number in
lemma toList_toString (n : Nat) : (toString n).toList = Binary64.digitsOf n :=
  String.toList_ofList

/-- The path of a member of an item tells the index: its digits end at the bracket. -/
lemma index_of_itemPath {list rest rest' : String} {i j : Nat}
    (h : itemPath list i rest = itemPath list j rest') : i = j := by
  have htake : ∀ (n : Nat) (cs : List Char),
      (Number.Binary64.digitsOf n ++ (']' :: cs)).takeWhile Char.isDigit =
        Number.Binary64.digitsOf n := by
    intro n cs
    rw [List.takeWhile_append_of_pos fun c => Number.isDigit_of_mem_digitsOf,
      List.takeWhile_cons_of_neg (by decide), List.append_nil]
  have hchars := congrArg String.toList h
  simp only [itemPath, String.toList_append, List.append_assoc, List.append_cancel_left_eq,
    toList_toString] at hchars
  have hdigits := congrArg (List.takeWhile Char.isDigit) hchars
  rw [show "]".toList = [']'] from rfl, List.singleton_append, List.singleton_append, htake,
    htake] at hdigits
  rw [← Number.natOfDecimal_digitsOf i, hdigits, Number.natOfDecimal_digitsOf]

lemma itemPath_append (list : String) (i : Nat) (rest rest' : String) :
    itemPath list i rest ++ rest' = itemPath list i (rest ++ rest') := by
  simp [itemPath, String.append_assoc]

/-! ### Findings at an index -/

/-- A field whose name occurs before. -/
def repeatedField (p : Field × Nat) : Finding :=
  ⟨"fields.duplicate", "Duplicate field: " ++ p.1.name, some (itemPath "fields" p.2 ".name")⟩

/-- A relation whose field is not declared. -/
def lostRelation (p : Relation × Nat) : Finding :=
  ⟨"relations.missing_field", "Relation " ++ p.1.target ++ " requires field \"" ++ p.1.field
    ++ "\" in fields.", some (itemPath "relations" p.2 ".field")⟩

/-- An endpoint whose signature occurs before. -/
def repeatedEndpoint (p : Endpoint × Nat) : Finding :=
  ⟨"endpoints.duplicate", "Duplicate endpoint for \"" ++ p.1.signature ++ "\".",
    some (itemPath "api.endpoints" p.2 "")⟩

/-- A change of one field that is not declared. -/
def unknownTarget (p : Endpoint × Nat) : Finding :=
  ⟨"endpoints.patch.unknown_field",
    match present? p.1.field with
      | none => "Patch endpoints must declare a \"field\"."
      | some field => "Patch endpoint references unknown field \"" ++ field ++ "\".",
    some (itemPath "api.endpoints" p.2 ".field")⟩

/-- An endpoint changes one field, but not a declared one. -/
def Endpoint.LacksTarget (names : List String) (e : Endpoint) : Prop :=
  e.kind = "patch" ∧ ¬ ∃ name ∈ names, name ≠ "" ∧ e.field = some name

instance (names : List String) : DecidablePred (Endpoint.LacksTarget names) :=
  fun e => inferInstanceAs
    (Decidable (e.kind = "patch" ∧ ¬ ∃ name ∈ names, name ≠ "" ∧ e.field = some name))

/-- The fields are held against the fields before them. -/
lemma repeatedFields_eq (fs : List Field) :
    repeatedFields [] 0 fs =
      (fs.zipIdx.filter (OccursBefore (·.name) fs ·)).map repeatedField := by
  rw [walk_eq_filter Field.name repeatedField repeatedFields (fun _ _ => rfl)
    (fun seen i f fs => by simp [repeatedFields, repeatedField])]
  simp only [occursAfter_nil_zero]

lemma lostRelations_eq (names : List String) (i : Nat) (rs : List Relation) :
    lostRelations names i rs =
      ((rs.zipIdx i).filter fun p => p.1.field ∉ names).map lostRelation := by
  induction rs generalizing i with
  | nil => rfl
  | cons r rs ih =>
    rw [lostRelations, ih, List.zipIdx_cons, List.filter_cons]
    by_cases h : r.field ∈ names <;> simp [h, lostRelation]

/-! ### Endpoints -/

section Endpoints

variable {names relationFields seen : List String} {i : Nat} {e : Endpoint} {es : List Endpoint}

/-- The errors of the endpoint at an index, given the signatures that came before. -/
def endpointErrors (names relationFields seen : List String) (p : Endpoint × Nat) :
    List Finding :=
  (if p.1.signature ∈ seen then [repeatedEndpoint p] else []) ++
    (endpointRules names relationFields (itemPath "api.endpoints" p.2 "") p.1).errors

lemma endpointsFrom_errors_cons :
    (endpointsFrom names relationFields seen i (e :: es)).errors =
      endpointErrors names relationFields seen (e, i) ++
        (endpointsFrom names relationFields (e.signature :: seen) (i + 1) es).errors := by
  simp [endpointsFrom, endpointErrors, Findings.merge, repeatedEndpoint]

/-- The codes of the errors about endpoints. -/
def endpointCodes : List String :=
  ["endpoints.duplicate", "endpoints.patch.unknown_field", "endpoints.search.missing_fields",
    "endpoints.stats.missing_by"]

/-- The rules of the flavours find at most one error in an endpoint, which lies in it. -/
lemma endpointRules_errors (names relationFields : List String) (i : Nat) (e : Endpoint) :
    (endpointRules names relationFields (itemPath "api.endpoints" i "") e).errors = [] ∨
    ∃ f, (endpointRules names relationFields (itemPath "api.endpoints" i "") e).errors = [f] ∧
      f.code ∈ endpointCodes.tail ∧
      ∃ rest, f.path = some (itemPath "api.endpoints" i rest) := by
  have hpath := itemPath_append "api.endpoints" i ""
  rw [endpointRules]
  by_cases hpatch : e.kind = "patch"
  · rw [if_pos (beq_iff_eq.mpr hpatch)]
    cases present? e.field with
    | none => exact .inr ⟨_, rfl, by simp [endpointCodes], _, congrArg some (hpath ".field")⟩
    | some field =>
      by_cases hmem : names.contains field
      · exact .inl (by simp only [hmem, if_true, Findings.none])
      · exact .inr ⟨_, by simp only [hmem]; rfl, by simp [endpointCodes], _,
          congrArg some (hpath ".field")⟩
  rw [if_neg (by simpa using hpatch)]
  by_cases hsearch : e.kind = "search"
  · rw [if_pos (beq_iff_eq.mpr hsearch)]
    by_cases hfields : e.fields.isEmpty
    · exact .inr ⟨_, if_pos hfields, by simp [endpointCodes], _, congrArg some (hpath ".fields")⟩
    · exact .inl (if_neg hfields)
  rw [if_neg (by simpa using hsearch)]
  by_cases hstats : e.kind = "stats"
  · rw [if_pos (beq_iff_eq.mpr hstats)]
    cases present? e.by_ with
    | none => exact .inr ⟨_, rfl, by simp [endpointCodes], _, congrArg some (hpath ".by")⟩
    | some group =>
      left
      dsimp only
      split_ifs <;> rfl
  · exact .inl (by rw [if_neg (by simpa using hstats)]; rfl)

/-- Among them is the error of a target that is not declared. -/
lemma filter_endpointRules_errors :
    (endpointRules names relationFields (itemPath "api.endpoints" i "") e).errors.filter
      (·.code = "endpoints.patch.unknown_field") =
      if e.LacksTarget names then [unknownTarget (e, i)] else [] := by
  have htarget : e.LacksTarget names ↔
      e.kind = "patch" ∧ ¬ ∃ name ∈ names, present? e.field = some name := by
    simp only [Endpoint.LacksTarget, present?_eq_some_iff, and_comm (a := _ = some _)]
  simp only [htarget, endpointRules, unknownTarget, itemPath_append, beq_iff_eq]
  by_cases hpatch : e.kind = "patch"
  · cases hfield : present? e.field with
    | none => simp [hpatch]
    | some field => by_cases hmem : field ∈ names <;> simp [hpatch, hmem, Findings.none]
  rw [if_neg hpatch, if_neg fun h : _ ∧ _ => hpatch h.1]
  by_cases hsearch : e.kind = "search"
  · by_cases hfields : e.fields.isEmpty <;> simp [hsearch, hfields]
  rw [if_neg hsearch]
  by_cases hstats : e.kind = "stats"
  · cases present? e.by_ with
    | none => simp [hstats]
    | some group =>
      by_cases hmem : group ∈ names ∨ group ∈ relationFields <;>
        simp [hstats, hmem, Findings.none]
  · simp [hstats, Findings.none]

/-- The errors of one endpoint lie in it and are apart by their codes. -/
lemma endpointErrors_apart (names relationFields seen : List String) (i : Nat) (e : Endpoint) :
    ((endpointErrors names relationFields seen (e, i)).map Finding.identity).Nodup ∧
    ∀ f ∈ endpointErrors names relationFields seen (e, i), f.code ∈ endpointCodes ∧
      ∃ rest, f.path = some (itemPath "api.endpoints" i rest) := by
  have hrepeated : (repeatedEndpoint (e, i)).code ∈ endpointCodes ∧
      ∃ rest, (repeatedEndpoint (e, i)).path = some (itemPath "api.endpoints" i rest) :=
    ⟨by simp [repeatedEndpoint, endpointCodes], "", rfl⟩
  rw [endpointErrors]
  obtain hnil | ⟨g, hg, hcode, hpath⟩ :=
    endpointRules_errors names relationFields i e
  · rw [hnil]
    split_ifs <;> simp [hrepeated]
  · have hne : (repeatedEndpoint (e, i)).identity ≠ g.identity :=
      Finding.identity_ne_of_code fun heq =>
        absurd (show (repeatedEndpoint (e, i)).code ∈ endpointCodes.tail by rwa [heq])
          (show "endpoints.duplicate" ∉ endpointCodes.tail by decide)
    have hmember : g.code ∈ endpointCodes := List.mem_cons_of_mem _ hcode
    rw [hg]
    split_ifs <;> simp [hne, hrepeated, hmember, hpath]

/-- Every error lies in an endpoint from the index on, and the errors are apart: within one
endpoint by their codes, between two by the index. -/
lemma endpointsFrom_apart (names relationFields seen : List String) (i : Nat)
    (es : List Endpoint) :
    ((endpointsFrom names relationFields seen i es).errors.map Finding.identity).Nodup ∧
    ∀ f ∈ (endpointsFrom names relationFields seen i es).errors, f.code ∈ endpointCodes ∧
      ∃ j, i ≤ j ∧ ∃ rest, f.path = some (itemPath "api.endpoints" j rest) := by
  induction es generalizing seen i with
  | nil => simp [endpointsFrom, Findings.none]
  | cons e es ih =>
    obtain ⟨hnodup, hlocated⟩ := endpointErrors_apart names relationFields seen i e
    obtain ⟨hnodup', hlocated'⟩ := ih (e.signature :: seen) (i + 1)
    rw [endpointsFrom_errors_cons, List.map_append, List.nodup_append']
    refine ⟨⟨hnodup, hnodup', ?_⟩, fun f hf => ?_⟩
    · intro identity hfirst hrest
      obtain ⟨f, hf, rfl⟩ := List.mem_map.mp hfirst
      obtain ⟨g, hg, heq⟩ := List.mem_map.mp hrest
      obtain ⟨-, rest, hpath⟩ := hlocated f hf
      obtain ⟨-, j, hj, rest', hpath'⟩ := hlocated' g hg
      refine Finding.identity_ne_of_path (fun hsame => ?_) heq
      rw [hpath, hpath'] at hsame
      have := index_of_itemPath hsame
      omega
    · rcases List.mem_append.mp hf with hf | hf
      · obtain ⟨hcode, hpath⟩ := hlocated f hf
        exact ⟨hcode, i, Nat.le_refl i, hpath⟩
      · obtain ⟨hcode, j, hj, hpath⟩ := hlocated' f hf
        exact ⟨hcode, j, by omega, hpath⟩

/-- The endpoints are held against the endpoints before them. -/
lemma filter_endpointsFrom_duplicate (es : List Endpoint) :
    (endpointsFrom names relationFields [] 0 es).errors.filter (·.code = "endpoints.duplicate") =
      (es.zipIdx.filter (OccursBefore Endpoint.signature es ·)).map repeatedEndpoint := by
  have hrules : ∀ (i : Nat) (e : Endpoint), (endpointRules names relationFields
      (itemPath "api.endpoints" i "") e).errors.filter (·.code = "endpoints.duplicate") = [] := by
    intro i e
    obtain hnil | ⟨f, hf, hcode, -⟩ :=
      endpointRules_errors names relationFields i e
    · rw [hnil, List.filter_nil]
    · refine hf ▸ List.filter_cons_of_neg fun heq => absurd hcode ?_
      rw [decide_eq_true_eq.mp heq]
      decide
  rw [walk_eq_filter Endpoint.signature repeatedEndpoint
    (fun seen i es => (endpointsFrom names relationFields seen i es).errors.filter
      (·.code = "endpoints.duplicate")) (fun _ _ => rfl) (fun seen i e es => ?_)]
  · simp only [occursAfter_nil_zero]
  · rw [endpointsFrom_errors_cons, List.filter_append, endpointErrors, List.filter_append, hrules]
    split_ifs <;> simp [repeatedEndpoint]

lemma filter_endpointsFrom_target :
    (endpointsFrom names relationFields seen i es).errors.filter
      (·.code = "endpoints.patch.unknown_field") =
      ((es.zipIdx i).filter fun p => p.1.LacksTarget names).map unknownTarget := by
  induction es generalizing seen i with
  | nil => rfl
  | cons e es ih =>
    rw [endpointsFrom_errors_cons, List.filter_append, endpointErrors, List.filter_append,
      filter_endpointRules_errors, ih, List.zipIdx_cons, List.filter_cons]
    by_cases h : e.LacksTarget names <;> split_ifs <;> simp_all [repeatedEndpoint]

end Endpoints

/-! ### Findings by their codes -/

/-- Findings with some codes, no two of which are the same. -/
structure Labelled (codes : List String) (fs : List Finding) : Prop where
  /-- The codes of the findings. -/
  codes : ∀ f ∈ fs, f.code ∈ codes
  /-- The findings are apart. -/
  distinct : (fs.map Finding.identity).Nodup

namespace Labelled

variable {codes codes' : List String} {fs gs : List Finding} {code : String}

lemma nil : Labelled codes [] :=
  ⟨by simp, by simp⟩

lemma append (hf : Labelled codes fs) (hg : Labelled codes' gs)
    (apart : ∀ code ∈ codes, code ∉ codes') :
    Labelled (codes ++ codes') (fs ++ gs) := by
  refine ⟨?_, ?_⟩
  · intro f hmem
    rw [List.mem_append] at hmem ⊢
    exact hmem.imp (hf.codes f) (hg.codes f)
  · rw [List.map_append, List.nodup_append']
    refine ⟨hf.distinct, hg.distinct, fun identity hfirst hrest => ?_⟩
    obtain ⟨f, hmem, rfl⟩ := List.mem_map.mp hfirst
    obtain ⟨g, hmem', heq⟩ := List.mem_map.mp hrest
    have hcode : g.code = f.code := congrArg Prod.fst heq
    exact apart _ (hf.codes f hmem) (hcode ▸ hg.codes g hmem')

/-- Findings with distinct codes are apart. -/
lemma of_sublist (h : (fs.map Finding.code).Sublist codes) (distinct : codes.Nodup) :
    Labelled codes fs := by
  refine ⟨fun f hf => h.subset (List.mem_map_of_mem hf), ?_⟩
  have hcodes := h.nodup distinct
  rw [List.Nodup, List.pairwise_map] at hcodes ⊢
  exact hcodes.imp Finding.identity_ne_of_code

/-- Findings at different indices of one list are apart. -/
lemma map_report {α : Type} (report : α × Nat → Finding) (list rest : String)
    (hcode : ∀ p, (report p).code = code)
    (hpath : ∀ p, (report p).path = some (itemPath list p.2 rest)) (xs : List α)
    (selected : α × Nat → Bool) :
    Labelled [code] ((xs.zipIdx.filter selected).map report) := by
  refine ⟨fun f hf => ?_, ?_⟩
  · obtain ⟨p, -, rfl⟩ := List.mem_map.mp hf
    exact List.mem_singleton.mpr (hcode p)
  · have hindices : (xs.zipIdx.filter selected).Pairwise fun p q => p.2 ≠ q.2 := by
      refine List.Pairwise.sublist List.filter_sublist ?_
      have hrange : (List.range' 0 xs.length).Nodup := List.nodup_range'
      rw [← List.zipIdx_map_snd 0 xs] at hrange
      exact List.pairwise_map.mp hrange
    rw [List.Nodup, List.pairwise_map, List.pairwise_map]
    refine hindices.imp fun hne => Finding.identity_ne_of_path fun heq => hne ?_
    rw [hpath, hpath] at heq
    exact index_of_itemPath heq

lemma filter_eq_self (h : Labelled [code] fs) : fs.filter (·.code = code) = fs :=
  List.filter_eq_self.mpr fun f hf => decide_eq_true (List.mem_singleton.mp (h.codes f hf))

lemma filter_eq_nil (h : Labelled codes fs) (hcode : code ∉ codes) :
    fs.filter (·.code = code) = [] :=
  List.filter_eq_nil_iff.mpr fun f hf heq => hcode (of_decide_eq_true heq ▸ h.codes f hf)

/-- Findings with other codes do not show in front of the ones that are asked for. -/
lemma filter_append (h : Labelled codes fs) (hcode : code ∉ codes) :
    (fs ++ gs).filter (·.code = code) = gs.filter (·.code = code) := by
  rw [List.filter_append, h.filter_eq_nil hcode, List.nil_append]

/-- Nor do they show behind them. -/
lemma append_filter (h : Labelled codes gs) (hcode : code ∉ codes) :
    (fs ++ gs).filter (·.code = code) = fs.filter (·.code = code) := by
  rw [List.filter_append, h.filter_eq_nil hcode, List.append_nil]

end Labelled

/-! ### The errors of all rules -/

/-- The codes of the errors about the tenancy. -/
def tenancyCodes : List String :=
  ["tenancy.mode.missing", "tenancy.storage.invalid", "tenancy.routing_scope.invalid",
    "tenancy.seed_scope.invalid"]

/-- The error of a scope key has the code of the key. -/
lemma code_of_scopeError {mode value : Document} {key : String} {f : Finding}
    (h : scopeError mode key value = some f) : f.code = "tenancy." ++ key ++ ".invalid" := by
  rw [scopeError] at h
  cases htext : value.asText? with
  | none =>
    rw [htext] at h
    exact Option.some.inj h ▸ rfl
  | some scope =>
    rw [htext] at h
    dsimp only at h
    split_ifs at h <;> exact Option.some.inj h ▸ rfl

/-- Every error about the tenancy has a code of its own. -/
lemma labelled_tenancy (b : Blueprint) : Labelled tenancyCodes (tenancyFindings b).errors := by
  have hscopes : ∀ (mode : Document) (keys : List String),
      ((keys.filterMap fun key => (tenancyEntry b key).bind (scopeError mode key)).map
        Finding.code).Sublist (keys.map fun key => "tenancy." ++ key ++ ".invalid") := by
    intro mode keys
    induction keys with
    | nil => exact List.Sublist.slnil
    | cons key keys ih =>
      rw [List.filterMap_cons, List.map_cons]
      split
      · exact ih.cons _
      · next f hf =>
        obtain ⟨value, -, herror⟩ := Option.bind_eq_some_iff.mp hf
        rw [List.map_cons, code_of_scopeError herror]
        exact ih.cons_cons _
  refine Labelled.of_sublist ?_ (by decide)
  rw [tenancyFindings, List.map_append]
  have hmissing : ∀ c : Bool, ((if c then [(⟨"tenancy.mode.missing",
      "Tenancy requires \"mode\" when other tenancy options are set.",
      some "tenancy.mode"⟩ : Finding)] else []).map Finding.code).Sublist
      ["tenancy.mode.missing"] := by
    decide
  exact (hmissing _).append (hscopes _ scopeKeys)

lemma labelled_fields (b : Blueprint) :
    Labelled ["fields.duplicate"] (repeatedFields [] 0 b.fields) := by
  rw [repeatedFields_eq]
  exact Labelled.map_report repeatedField "fields" ".name" (fun _ => rfl) (fun _ => rfl) _ _

lemma labelled_relations (b : Blueprint) :
    Labelled ["relations.missing_field"] (lostRelations b.fieldNames 0 b.relations) := by
  rw [lostRelations_eq]
  exact Labelled.map_report lostRelation "relations" ".field" (fun _ => rfl) (fun _ => rfl) _ _

lemma labelled_endpoints (b : Blueprint) : Labelled endpointCodes (endpointFindings b).errors :=
  by
  obtain ⟨hnodup, hlocated⟩ :=
    endpointsFrom_apart b.fieldNames (b.relations.map (·.field)) [] 0 b.api.endpoints
  exact ⟨fun f hf => (hlocated f hf).1, hnodup⟩

lemma labelled_options (b : Blueprint) :
    Labelled ["options.versioned.missing_field"] (optionFindings b).errors := by
  rw [optionFindings]
  split
  · dsimp only
    split_ifs
    · exact .nil
    · exact ⟨by simp, by simp⟩
  · exact .nil

/-- The findings of all rules, with repeats. -/
def gathered (b : Blueprint) : Findings :=
  [tenancyFindings b, fieldFindings b, relationFindings b, tableFindings b, endpointFindings b,
    optionFindings b, exampleFindings b].foldl Findings.merge .none

lemma gathered_errors (b : Blueprint) :
    (gathered b).errors = (tenancyFindings b).errors ++ (repeatedFields [] 0 b.fields ++
      (lostRelations b.fieldNames 0 b.relations ++ ((endpointFindings b).errors ++
        (optionFindings b).errors))) := by
  have htable : (tableFindings b).errors = [] := rfl
  have hexamples : (exampleFindings b).errors = [] := by
    rw [exampleFindings]
    split <;> rfl
  simp [gathered, Findings.merge, Findings.none, htable, hexamples, fieldFindings,
    relationFindings]

/-- The errors about endpoints and options. -/
lemma labelled_endpoints_options (b : Blueprint) :
    Labelled (endpointCodes ++ ["options.versioned.missing_field"])
      ((endpointFindings b).errors ++ (optionFindings b).errors) :=
  (labelled_endpoints b).append (labelled_options b) (by decide)

/-- The codes of errors. -/
def errorCodes : List String :=
  tenancyCodes ++ (["fields.duplicate"] ++ (["relations.missing_field"] ++
    (endpointCodes ++ ["options.versioned.missing_field"])))

/-- No two errors are the same: no two rules have a code in common. -/
lemma labelled_gathered (b : Blueprint) : Labelled errorCodes (gathered b).errors := by
  have hrelations := (labelled_relations b).append (labelled_endpoints_options b) (by decide)
  have hfields := (labelled_fields b).append hrelations (by decide)
  rw [gathered_errors]
  exact (labelled_tenancy b).append hfields (by decide)

lemma filter_gathered_fields (b : Blueprint) :
    (gathered b).errors.filter (·.code = "fields.duplicate") = repeatedFields [] 0 b.fields := by
  have hrelations := (labelled_relations b).append (labelled_endpoints_options b) (by decide)
  rw [gathered_errors, (labelled_tenancy b).filter_append (by decide),
    hrelations.append_filter (by decide), (labelled_fields b).filter_eq_self]

lemma filter_gathered_relations (b : Blueprint) :
    (gathered b).errors.filter (·.code = "relations.missing_field") =
      lostRelations b.fieldNames 0 b.relations := by
  rw [gathered_errors, (labelled_tenancy b).filter_append (by decide),
    (labelled_fields b).filter_append (by decide),
    (labelled_endpoints_options b).append_filter (by decide), (labelled_relations b).filter_eq_self]

lemma filter_gathered_endpoints (b : Blueprint) {code : String} (hcode : code ∈ endpointCodes) :
    (gathered b).errors.filter (·.code = code) =
      (endpointFindings b).errors.filter (·.code = code) := by
  have hother : ∀ code ∈ endpointCodes, code ∉ tenancyCodes ∧ code ∉ ["fields.duplicate"] ∧
      code ∉ ["relations.missing_field"] ∧ code ∉ ["options.versioned.missing_field"] := by
    decide
  obtain ⟨htenancy, hfields, hrelations, hoptions⟩ := hother code hcode
  rw [gathered_errors, (labelled_tenancy b).filter_append htenancy,
    (labelled_fields b).filter_append hfields, (labelled_relations b).filter_append hrelations,
    (labelled_options b).append_filter hoptions]

/-! ### The warnings of all rules -/

/-- The codes of the warnings that do not concern the tenancy. -/
def plainWarningCodes : List String :=
  ["naming.mismatch", "endpoints.search.unknown_field", "endpoints.stats.unknown_by",
    "docs.invalid_example"]

/-- The codes of warnings. -/
def warningCodes : List String :=
  "tenancy.mode.mismatch" :: plainWarningCodes

/-- A warning that does not concern the tenancy has one of four codes and no empty path. -/
def Finding.IsPlainWarning (f : Finding) : Prop :=
  f.code ∈ plainWarningCodes ∧ f.path ≠ some ""

/-- A warning has one of five codes and no empty path. -/
def Finding.IsWarning (f : Finding) : Prop :=
  f.code ∈ warningCodes ∧ f.path ≠ some ""

lemma Finding.IsPlainWarning.isWarning {f : Finding} (h : f.IsPlainWarning) : f.IsWarning :=
  ⟨List.mem_cons_of_mem _ h.1, h.2⟩

/-- The codes of the warnings about endpoints. -/
def endpointWarningCodes : List String :=
  ["endpoints.search.unknown_field", "endpoints.stats.unknown_by"]

lemma warnings_endpointRules {names relationFields : List String} {place : String}
    {e : Endpoint} :
    ∀ w ∈ (endpointRules names relationFields place e).warnings,
      w.code ∈ endpointWarningCodes ∧ w.path ≠ some "" := by
  rw [endpointRules]
  by_cases hpatch : e.kind = "patch"
  · rw [if_pos (beq_iff_eq.mpr hpatch)]
    cases present? e.field with
    | none => simp
    | some field => by_cases hmem : field ∈ names <;> simp [hmem, Findings.none]
  rw [if_neg (by simpa using hpatch)]
  by_cases hsearch : e.kind = "search"
  · rw [if_pos (beq_iff_eq.mpr hsearch)]
    intro w hw
    obtain ⟨name, -, rfl⟩ := List.mem_map.mp hw
    exact ⟨by simp [endpointWarningCodes], by simp⟩
  rw [if_neg (by simpa using hsearch)]
  by_cases hstats : e.kind = "stats"
  · rw [if_pos (beq_iff_eq.mpr hstats)]
    cases present? e.by_ with
    | none => simp
    | some group =>
      by_cases hmem : group ∈ names ∨ group ∈ relationFields <;>
        simp [hmem, Findings.none, endpointWarningCodes]
  · rw [if_neg (by simpa using hstats)]
    simp [Findings.none]

lemma warnings_endpointsFrom {names relationFields seen : List String} {i : Nat}
    {es : List Endpoint} :
    ∀ w ∈ (endpointsFrom names relationFields seen i es).warnings,
      w.code ∈ endpointWarningCodes ∧ w.path ≠ some "" := by
  induction es generalizing seen i with
  | nil => simp [endpointsFrom, Findings.none]
  | cons e es ih =>
    simp only [endpointsFrom, Findings.merge, List.nil_append, List.forall_mem_append]
    exact ⟨warnings_endpointRules, ih⟩

lemma warnings_tenancy (b : Blueprint) :
    ∀ w ∈ (tenancyFindings b).warnings, w.code = "tenancy.mode.mismatch" ∧ w.path ≠ some "" := by
  rw [tenancyFindings]
  cases tenancyEntry b "mode" with
  | none => simp
  | some mode =>
    dsimp only
    split_ifs <;> simp

lemma warnings_examples (b : Blueprint) :
    ∀ w ∈ (exampleFindings b).warnings, w.code = "docs.invalid_example" ∧ w.path ≠ some "" := by
  rw [exampleFindings]
  split
  · intro w hw
    obtain ⟨example_, -, hw⟩ := List.mem_flatMap.mp hw
    rw [exampleWarnings] at hw
    split at hw
    · obtain ⟨entry, -, rfl⟩ := List.mem_map.mp hw
      exact ⟨rfl, by simp⟩
    · cases hw
  · simp [Findings.none]

lemma gathered_warnings (b : Blueprint) :
    (gathered b).warnings = (tenancyFindings b).warnings ++ ((tableFindings b).warnings ++
      ((endpointFindings b).warnings ++ (exampleFindings b).warnings)) := by
  have hoptions : (optionFindings b).warnings = [] := by
    rw [optionFindings]
    split <;> rfl
  simp [gathered, Findings.merge, Findings.none, fieldFindings, relationFindings, hoptions]

/-- Behind those about the tenancy there are plain warnings only. -/
lemma isPlainWarning_rest (b : Blueprint) :
    ∀ w ∈ (tableFindings b).warnings ++
      ((endpointFindings b).warnings ++ (exampleFindings b).warnings), w.IsPlainWarning := by
  have htable : ∀ w ∈ (tableFindings b).warnings, w.IsPlainWarning := by
    rw [tableFindings]
    dsimp only
    split_ifs <;> simp [Finding.IsPlainWarning, plainWarningCodes]
  have hendpoints : endpointWarningCodes ⊆ plainWarningCodes := by decide
  simp only [List.forall_mem_append]
  refine ⟨htable, fun w hw => ?_, fun w hw => ?_⟩
  · obtain ⟨hcode, hpath⟩ := warnings_endpointsFrom w hw
    exact ⟨hendpoints hcode, hpath⟩
  · obtain ⟨hcode, hpath⟩ := warnings_examples b w hw
    exact ⟨by simp [hcode, plainWarningCodes], hpath⟩

/-- No other finding has the code of those about a table that is not named after its entity. -/
lemma mem_tableFindings_of_code {b : Blueprint} {f : Finding} (hcode : f.code = "naming.mismatch")
    (h : f ∈ (gathered b).errors ∨ f ∈ (gathered b).warnings) : f ∈ (tableFindings b).warnings := by
  have hother : "naming.mismatch" ∉ errorCodes ∧ "naming.mismatch" ∉ endpointWarningCodes := by
    decide
  rcases h with herror | hwarning
  · exact absurd (hcode ▸ (labelled_gathered b).codes f herror) hother.1
  · rw [gathered_warnings] at hwarning
    simp only [List.mem_append] at hwarning
    rcases hwarning with h | h | h | h
    · exact absurd (hcode.symm.trans (warnings_tenancy b f h).1) (by decide)
    · exact h
    · exact absurd (hcode ▸ (warnings_endpointsFrom f h).1) hother.2
    · exact absurd (hcode.symm.trans (warnings_examples b f h).1) (by decide)

lemma isWarning_gathered (b : Blueprint) : ∀ w ∈ (gathered b).warnings, w.IsWarning := by
  rw [gathered_warnings, List.forall_mem_append]
  refine ⟨fun w hw => ?_, fun w hw => (isPlainWarning_rest b w hw).isWarning⟩
  obtain ⟨hcode, hpath⟩ := warnings_tenancy b w hw
  exact ⟨by simp [hcode, warningCodes], hpath⟩

/-- No error is removed as a repeat. -/
lemma checkCoherence_errors (b : Blueprint) : (checkCoherence b).errors = (gathered b).errors :=
  uniqueAfter_of_nodup (labelled_gathered b).distinct (by simp)

/-! ### The report -/

/-- What is reported about a blueprint. -/
structure Findings.Exact (b : Blueprint) (r : Findings) : Prop where
  /-- The fields whose name occurs before. -/
  fields : r.errors.filter (·.code = "fields.duplicate") =
    (b.fields.zipIdx.filter (OccursBefore (·.name) b.fields ·)).map repeatedField
  /-- The relations whose field is not declared. -/
  relations : r.errors.filter (·.code = "relations.missing_field") =
    (b.relations.zipIdx.filter fun p => p.1.field ∉ b.fieldNames).map lostRelation
  /-- The endpoints whose signature occurs before. -/
  endpoints : r.errors.filter (·.code = "endpoints.duplicate") =
    (b.api.endpoints.zipIdx.filter
      (OccursBefore Endpoint.signature b.api.endpoints ·)).map repeatedEndpoint
  /-- The changes of one field that is not declared. -/
  targets : r.errors.filter (·.code = "endpoints.patch.unknown_field") =
    (b.api.endpoints.zipIdx.filter fun p => p.1.LacksTarget b.fieldNames).map unknownTarget
  /-- No warning is of these kinds. -/
  warnings : ∀ w ∈ r.warnings, w.code ∉ ["fields.duplicate", "relations.missing_field",
    "endpoints.duplicate", "endpoints.patch.unknown_field"]
  /-- No error is removed as a repeat, for no two are the same. -/
  distinct : r.errors = (gathered b).errors ∧ (r.errors.map Finding.identity).Nodup
  /-- The warnings that are removed are the later repeats of a warning. -/
  repeats : r.warnings = ((gathered b).warnings.zipIdx.filter
    (¬ OccursBefore id (gathered b).warnings ·)).map Prod.fst

/-- **Exactness**: of repeated fields, lost relations, repeated endpoints and unknown targets the
second stage reports each one once and in order, it removes no error from what the rules find,
and of the warnings exactly the later repeats. -/
theorem checkCoherence_exact (b : Blueprint) :
    checkCoherence b = (gathered b).deduplicated ∧ (checkCoherence b).Exact b := by
  have herrors := checkCoherence_errors b
  have hrepeats := unique_eq_filter fun w hw => (isWarning_gathered b w hw).2
  refine ⟨rfl, ?_, ?_, ?_, ?_, ?_, ⟨herrors, ?_⟩, hrepeats⟩
  · rw [herrors, filter_gathered_fields, repeatedFields_eq]
  · rw [herrors, filter_gathered_relations, lostRelations_eq]
  · rw [herrors, filter_gathered_endpoints b (by decide), endpointFindings,
      filter_endpointsFrom_duplicate]
  · rw [herrors, filter_gathered_endpoints b (by decide), endpointFindings,
      filter_endpointsFrom_target]
  · intro w hw
    rw [show (checkCoherence b).warnings = _ from hrepeats] at hw
    obtain ⟨p, hp, rfl⟩ := List.mem_map.mp hw
    have hmem := List.fst_mem_of_mem_zipIdx (List.mem_of_mem_filter hp)
    have hother : ∀ code ∈ warningCodes, code ∉ ["fields.duplicate", "relations.missing_field",
        "endpoints.duplicate", "endpoints.patch.unknown_field"] := by
      decide
    exact hother _ (isWarning_gathered b _ hmem).1
  · rw [herrors]
    exact (labelled_gathered b).distinct

example : (checkCoherence { employee with fields := employee.fields ++ employee.fields.take 1
    }).errors.map Finding.path = [some "fields[3].name"] := by
  decide +kernel

end Scaffold
