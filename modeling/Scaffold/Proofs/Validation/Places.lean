import Scaffold.Proofs.Validation.Acceptance

/-!
Where findings about structure lie.

A violation lies in a part of the blueprint, and the path of its finding starts with the name of
that part. The names of a blueprint have a rule each; so a name that keeps its rule has no finding.

* `Shape.Location.prefix_render`: the path of a place starts with the name of the part.
* `nameRules`, `sectionNames`: the parts of a blueprint.
* `head_of_structureViolations`: a violation lies in one of them.
* `path_of_checkStructure`: a name that keeps its rule has no finding.
-/

namespace Scaffold

open Shape

namespace Shape.Location

/-- What has been written of a location stays in front. -/
lemma prefix_renderAfter (written : String) (steps : Location) :
    written.toList <+: (renderAfter written steps).toList := by
  induction steps generalizing written with
  | nil => exact List.prefix_rfl
  | cons step steps ih =>
    cases step with
    | index i =>
      refine List.IsPrefix.trans ?_ (ih (written ++ "[" ++ toString i ++ "]"))
      simp only [String.toList_append, List.append_assoc, List.prefix_append]
    | key name =>
      by_cases hempty : written.isEmpty = true
      · rw [String.isEmpty_iff.mp hempty]
        exact List.nil_prefix
      · rw [renderAfter, if_neg hempty]
        refine List.IsPrefix.trans ?_ (ih (written ++ "." ++ name))
        simp only [String.toList_append, List.append_assoc, List.prefix_append]

/-- The path of a part starts with the name of the section. -/
lemma prefix_render {name : String} (ne : name ≠ "") (steps : Location) :
    name.toList <+: (render (.key name :: steps)).toList := by
  have hprefix : name.toList <+: (renderAfter name steps).toList := prefix_renderAfter name steps
  have hne : (renderAfter name steps).isEmpty = false := by
    rw [Bool.eq_false_iff, Ne, String.isEmpty_iff]
    intro hempty
    rw [hempty] at hprefix
    exact ne (String.toList_inj.mp (List.prefix_nil.mp hprefix))
  have hrender : render (.key name :: steps) = renderAfter name steps := by
    simp [render, renderAfter, hne]
  rw [hrender]
  exact hprefix

end Shape.Location

/-! ### Parts -/

variable {known : List String} {b : Blueprint}

/-- What is wrong with each name of a blueprint. -/
def nameRules (known : List String) (b : Blueprint) : List (String × List Violation) :=
  [("entity", Spelling.studly.violations "entity" b.entity),
   ("table", Spelling.snake.violations "table" b.table),
   ("architecture", architectureViolations known b.architecture)]

/-- The parts of a blueprint besides its names. -/
def sectionNames : List String :=
  ["fields", "relations", "options", "api", "errors", "tenancy"]

lemma location_of_architectureViolations {architecture : String} {v : Violation}
    (h : v ∈ architectureViolations known architecture) : v.location = [.key "architecture"] := by
  rw [architectureViolations] at h
  split_ifs at h
  · cases h
  · exact List.mem_singleton.mp h ▸ rfl

/-- A violation lies in a name, whose rule is broken, or in another part. -/
lemma head_of_structureViolations {vs : List Violation}
    (h : structureViolations known b = .ok vs) {v : Violation} (hv : v ∈ vs) :
    (∃ rule ∈ nameRules known b, v ∈ rule.2 ∧ v.location = [.key rule.1]) ∨
      ∃ name ∈ sectionNames, ∃ steps, v.location = .key name :: steps := by
  have hwithin : ∀ {name : String} {found : List Violation}, name ∈ sectionNames →
      v ∈ found.map (·.within (.key name)) →
      ∃ name ∈ sectionNames, ∃ steps, v.location = .key name :: steps := by
    intro name found hname hmem
    obtain ⟨inner, -, rfl⟩ := List.mem_map.mp hmem
    exact ⟨name, hname, inner.location, rfl⟩
  have hspelling : ∀ {spelling : Spelling} {name s : String},
      v ∈ spelling.violations name s → v.location = [.key name] := by
    intro spelling name s hmem
    rw [Spelling.violations] at hmem
    split_ifs at hmem
    · cases hmem
    · exact List.mem_singleton.mp hmem ▸ rfl
  simp only [structureViolations, bind_eq_ok_iff, pure, Except.pure, Except.ok.injEq] at h
  obtain ⟨fields, -, options, -, tenancy, -, rfl⟩ := h
  simp only [List.mem_append] at hv
  rcases hv with (((((((hv | hv) | hv) | hv) | hv) | hv) | hv) | hv) | hv
  · exact .inl ⟨_, List.mem_cons_self, hv, hspelling hv⟩
  · exact .inl ⟨_, List.mem_cons_of_mem _ List.mem_cons_self, hv, hspelling hv⟩
  · exact .inl ⟨_, List.mem_cons_of_mem _ (List.mem_cons_of_mem _ List.mem_cons_self), hv,
      location_of_architectureViolations hv⟩
  · split_ifs at hv
    · obtain rfl := List.mem_singleton.mp hv
      exact .inr ⟨"fields", by decide, [], rfl⟩
    · exact .inr (hwithin (by decide) hv)
  · exact .inr (hwithin (by decide) hv)
  · exact .inr (hwithin (by decide) hv)
  · exact .inr (hwithin (by decide) hv)
  · exact .inr (hwithin (by decide) hv)
  · exact .inr (hwithin (by decide) hv)

/-- **A name that keeps its rule** has no finding about structure. -/
lemma path_of_checkStructure {found : Findings} (h : checkStructure known b = .ok found)
    {name : String} {broken : List Violation} (hrule : (name, broken) ∈ nameRules known b)
    (kept : broken = []) : ∀ f ∈ found.errors, f.path ≠ some name := by
  have hnames : ∀ name ∈ ["entity", "table", "architecture"],
      Location.render [.key name] = name ∧
        ∀ other ∈ sectionNames, other ≠ "" ∧ ¬ other.toList <+: name.toList := by
    decide +kernel
  have hmem : ∀ {rule}, rule ∈ nameRules known b → rule.1 ∈ ["entity", "table", "architecture"] :=
    fun hrule => List.mem_map_of_mem (f := Prod.fst) hrule
  have hdistinct : ((nameRules known b).map Prod.fst).Nodup :=
    (by decide : ["entity", "table", "architecture"].Nodup)
  simp only [checkStructure, bind_eq_ok_iff] at h
  obtain ⟨-, -, vs, hvs, hfound⟩ := h
  cases hfound
  intro f hf hpath
  obtain ⟨v, hv, rfl⟩ := List.mem_map.mp ((uniqueAfter_sublist [] _).subset hf)
  have hrender : v.location.render = name := Option.some.inj hpath
  rcases head_of_structureViolations hvs hv with ⟨rule, hrule', hviolation, hlocation⟩ |
    ⟨other, hother, steps, hlocation⟩
  · rw [hlocation, (hnames rule.1 (hmem hrule')).1] at hrender
    obtain rfl := List.inj_on_of_nodup_map hdistinct hrule' hrule hrender
    rw [kept] at hviolation
    cases hviolation
  · obtain ⟨hne, hprefix⟩ := (hnames name (hmem hrule)).2 other hother
    rw [hlocation] at hrender
    exact hprefix (hrender ▸ Location.prefix_render hne steps)

end Scaffold
