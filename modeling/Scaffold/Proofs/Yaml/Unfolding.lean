import Mathlib.Tactic.Common
import Scaffold.Proofs.Outcome
import Scaffold.Yaml.Reading

/-!
Faults of YAML documents.

That a text does not have the form of YAML is foreseen everywhere. Other faults are not,
and once a text has a node graph only its scalars are left as their cause: a list, a
mapping or a key at fault is always a fault of form.

* `YamlFault.IsForm`: faults of form.
* `flatten_isForm`: merging fails for reasons of form only.
* `Graph.Blames`: a scalar without value is the cause of a fault.
* `scalarAt_cases`: a scalar without value has the tag of a truth value, a number or a
  moment, or it is hidden in a mapping that stands for a part of itself.
* `exists_scalarAt_of_toDocument`: a graph without document has a scalar without value.
-/

namespace Scaffold

/-- A text that does not have the form of YAML. -/
def YamlFault.IsForm (fault : YamlFault) : Prop :=
  ∃ reason, fault = .malformed reason

namespace Yaml

variable {α β γ : Type} {g : Graph} {fuel depth node : Nat} {path : List Nat}
  {pairs : List (Nat × Nat)} {fault : YamlFault} {tag : Tag} {text : String}

/-! ### Faults of parts -/

/-- A fault of two values is a fault of one of them. -/
lemma both_eq_error {f : α → β → γ} {x : Unfolded α} {y : Unfolded β} {e : Nat × YamlFault}
    (h : both f x y = .error e) : x = .error e ∨ y = .error e := by
  cases x with
  | ok a =>
    cases y with
    | ok b => cases h
    | error e' => exact .inr (congrArg _ (Except.error.inj h))
  | error e' =>
    cases y with
    | ok b => exact .inl (congrArg _ (Except.error.inj h))
    | error e'' =>
      have h := Except.error.inj h
      split_ifs at h
      · exact .inr (congrArg _ h)
      · exact .inl (congrArg _ h)

/-- A fault of several values is a fault of one of them. -/
lemma exists_of_foldr_both {step : α → Unfolded β} {items : List α} {e : Nat × YamlFault}
    (h : items.foldr (fun item rest => both List.cons (step item) rest) (.ok []) = .error e) :
    ∃ item ∈ items, step item = .error e := by
  induction items with
  | nil => cases h
  | cons item items ih =>
    rcases both_eq_error h with hitem | hrest
    · exact ⟨item, by simp, hitem⟩
    · obtain ⟨other, hother, hstep⟩ := ih hrest
      exact ⟨other, by simp [hother], hstep⟩

lemma atDepth_eq_error {result : Except YamlFault α} {e : Nat × YamlFault}
    (h : atDepth depth result = .error e) : result = .error e.2 := by
  cases result with
  | ok a => cases h
  | error fault => rw [← Except.error.inj h]

/-! ### Merging -/

/-- Merging fails for reasons of form only. -/
lemma flatten_isForm (g : Graph) (fuel : Nat) :
    (∀ path pairs fault, g.flatten fuel path pairs = .error fault → fault.IsForm) ∧
      ∀ path id fault, g.mergedFrom fuel path id = .error fault → fault.IsForm := by
  induction fuel with
  | zero =>
    refine ⟨fun path pairs fault h => ?_, fun path id fault h => ?_⟩
    · rw [Graph.flatten] at h
      cases h
    · rw [Graph.mergedFrom] at h
      cases h
  | succ fuel ih =>
    refine ⟨fun path pairs fault h => ?_, fun path id fault h => ?_⟩
    · rw [Graph.flatten] at h
      cases hmerged : (pairs.filter fun pair => g.tag pair.1 == .merge).mapM fun pair =>
          g.mergedFrom fuel path pair.2 with
      | ok merged =>
        rw [hmerged] at h
        cases h
      | error fault' =>
        rw [hmerged] at h
        obtain rfl : fault' = fault := Except.error.inj h
        obtain ⟨pair, -, hpair⟩ := exists_of_mapM_eq_error hmerged
        exact ih.2 _ _ _ hpair
    · rw [Graph.mergedFrom] at h
      split at h
      · split at h
        · cases h
        · exact ih.1 _ _ _ h
      · next items _ =>
        generalize hparts : (items.mapM _ : Except YamlFault (List (List (Nat × Nat)))) = parts at h
        cases parts with
        | ok parts => cases h
        | error fault' =>
          obtain rfl : fault' = fault := Except.error.inj h
          obtain ⟨item, -, hitem⟩ := exists_of_mapM_eq_error hparts
          split at hitem
          · split at hitem
            · cases hitem
            · exact ih.1 _ _ _ hitem
          · exact ⟨_, (Except.error.inj hitem).symm⟩
      · exact ⟨_, (Except.error.inj h).symm⟩

/-! ### Scalars -/

/-- The tags of scalars that do not denote a value in every text. -/
def Tag.IsPartial (tag : Tag) : Prop :=
  tag = .bool ∨ tag = .int ∨ tag = .float ∨ tag = .moment

/-- A text without value has the tag of a truth value, a number or a moment, or its fault is
one of form. -/
lemma scalarValue_eq_error (h : scalarValue tag text = .error fault) :
    fault.IsForm ∨ tag.IsPartial := by
  cases tag with
  | bool => exact .inr (.inl rfl)
  | int => exact .inr (.inr (.inl rfl))
  | float => exact .inr (.inr (.inr (.inl rfl)))
  | moment => exact .inr (.inr (.inr (.inr rfl)))
  | null => cases h
  | text => cases h
  | binary =>
    refine .inl ?_
    rw [scalarValue, readBinary] at h
    split_ifs at h
    · exact ⟨_, (Except.error.inj h).symm⟩
    · split at h
      · cases h
      · exact ⟨_, (Except.error.inj h).symm⟩
  | sequence => exact .inl ⟨_, (Except.error.inj h).symm⟩
  | orderedMap => exact .inl ⟨_, (Except.error.inj h).symm⟩
  | pairs => exact .inl ⟨_, (Except.error.inj h).symm⟩
  | set => exact .inl ⟨_, (Except.error.inj h).symm⟩
  | mapping => exact .inl ⟨_, (Except.error.inj h).symm⟩
  | merge => exact .inl ⟨_, (Except.error.inj h).symm⟩
  | default => exact .inl ⟨_, (Except.error.inj h).symm⟩
  | unknown name => exact .inl ⟨_, (Except.error.inj h).symm⟩

/-- A node that stands for no text is no scalar, or it stands for a part of itself. -/
lemma textOf_eq_error (h : g.textOf fuel node = .error fault) :
    fault.IsForm ∨ fault = .tooDeep := by
  induction fuel generalizing node with
  | zero =>
    rw [Graph.textOf] at h
    exact .inr (Except.error.inj h).symm
  | succ fuel ih =>
    rw [Graph.textOf] at h
    split at h
    · cases h
    · split at h
      · exact ih h
      · exact .inl ⟨_, (Except.error.inj h).symm⟩
    · exact .inl ⟨_, (Except.error.inj h).symm⟩

/-- **A scalar without value** has the tag of a truth value, a number or a moment, or it is
a mapping that stands for a part of itself, or its fault is one of form. -/
lemma scalarAt_cases (h : g.scalarAt node = .error fault) :
    fault.IsForm ∨ (g.tag node).IsPartial ∨ fault = .tooDeep := by
  have hvalue : ∀ text, scalarValue (g.tag node) text = .error fault →
      fault.IsForm ∨ (g.tag node).IsPartial ∨ fault = .tooDeep := fun text htext =>
    (scalarValue_eq_error htext).imp id .inl
  rw [Graph.scalarAt] at h
  split at h
  · exact hvalue _ h
  · split at h
    · exact hvalue _ h
    · exact hvalue _ h
    · exact hvalue _ h
    · cases htext : g.textOf (g.nodes.size + 1) node with
      | error fault' =>
        rw [htext] at h
        obtain rfl : fault' = fault := Except.error.inj h
        exact (textOf_eq_error htext).imp id .inr
      | ok text =>
        rw [htext] at h
        change (if g.tag node == .moment then _ else _) = _ at h
        split_ifs at h with hmoment
        · exact .inr (.inl (.inr (.inr (.inr (by simpa using hmoment)))))
        · exact hvalue _ h

/-! ### Documents -/

/-- A fault of form, or the fault of a scalar. -/
def Graph.Blames (g : Graph) (fault : YamlFault) : Prop :=
  fault.IsForm ∨ ∃ node, g.scalarAt node = .error fault

/-- A key without value is a scalar without value, or its fault is one of form. -/
lemma keyAt_eq_error (h : g.keyAt node = .error fault) : g.Blames fault := by
  rw [Graph.keyAt] at h
  split at h
  · cases h
  · split_ifs at h
    · exact .inl ⟨_, (Except.error.inj h).symm⟩
    · exact .inr ⟨node, h⟩

lemma onlyPair_isForm (h : g.onlyPair node = .error fault) : fault.IsForm := by
  rw [Graph.onlyPair] at h
  split at h
  · cases h
  · exact ⟨_, (Except.error.inj h).symm⟩

section Parts

variable (inner : Nat → Unfolded Document) {e : Nat × YamlFault}

/-- The fault of an entry is that of its key or of its value. -/
lemma entry_blames (hinner : ∀ node e, inner node = .error e → g.Blames e.2)
    {pair : Nat × Nat}
    (h : both Prod.mk (atDepth depth (g.keyAt pair.1)) (inner pair.2) = .error e) :
    g.Blames e.2 := by
  rcases both_eq_error h with hkey | hvalue
  · exact keyAt_eq_error (atDepth_eq_error hkey)
  · exact hinner _ _ hvalue

/-- The fault of a mapping is that of merging or that of an entry. -/
lemma entries_blame (hinner : ∀ node e, inner node = .error e → g.Blames e.2)
    {build : List (Document × Document) → Document}
    (h : (atDepth depth (g.flatten fuel path pairs) >>= fun pairs =>
      pairs.foldr (fun pair rest =>
        both List.cons (both Prod.mk (atDepth depth (g.keyAt pair.1)) (inner pair.2)) rest)
        (.ok []) >>= fun found => pure (build found)) = .error e) :
    g.Blames e.2 := by
  rcases bind_eq_error_iff.mp h with hflat | ⟨flat, -, h⟩
  · exact .inl ((flatten_isForm g fuel).1 _ _ _ (atDepth_eq_error hflat))
  · rcases bind_eq_error_iff.mp h with hfound | ⟨found, -, h⟩
    · obtain ⟨pair, -, hpair⟩ := exists_of_foldr_both hfound
      exact entry_blames inner hinner hpair
    · cases h

/-- The fault of a list is that of an item. -/
lemma items_blame {step : Nat → Unfolded Document} {items : List Nat}
    (hstep : ∀ item, step item = .error e → g.Blames e.2)
    (h : (items.foldr (fun item rest => both List.cons (step item) rest) (.ok [])).map
      Document.list = .error e) :
    g.Blames e.2 := by
  obtain ⟨item, -, hitem⟩ := exists_of_foldr_both (map_eq_error_iff.mp h)
  exact hstep item hitem

end Parts

/-- A node without document has a scalar without value in it, or its fault is one of
form. -/
lemma unfold_eq_error {e : Nat × YamlFault} (h : g.unfold fuel path node = .error e) :
    g.Blames e.2 := by
  induction fuel generalizing path node e with
  | zero =>
    rw [Graph.unfold] at h
    cases h
  | succ fuel ih =>
    rw [Graph.unfold] at h
    simp only at h
    split_ifs at h
    · exact .inr ⟨node, atDepth_eq_error h⟩
    · split at h
      case h_1 => exact items_blame (fun _ => ih) h
      case h_2 | h_3 =>
        refine items_blame (fun item hitem => ?_) h
        split at hitem
        · next fault hfault =>
          rw [← Except.error.inj hitem]
          exact .inl (onlyPair_isForm hfault)
        · exact (both_eq_error hitem).elim ih ih
      case h_4 | h_5 => exact entries_blame (g.unfold fuel (node :: path)) (fun _ _ => ih) h
      -- the shape does not fit the tag
      all_goals
        rw [← Except.error.inj h]
        exact .inl ⟨_, rfl⟩

/-- **A graph without document** has a scalar without value, or its fault is one of form. -/
theorem exists_scalarAt_of_toDocument (h : g.toDocument = .error fault) :
    fault.IsForm ∨ ∃ node, g.scalarAt node = .error fault := by
  rw [Graph.toDocument] at h
  cases hunfold : g.unfold ((Graph.knotDepth + 2) * (g.nodes.size + 1)) [] g.root with
  | ok d =>
    rw [hunfold] at h
    cases h
  | error e =>
    rw [hunfold] at h
    obtain rfl : e.2 = fault := Except.error.inj h
    exact unfold_eq_error hunfold

end Yaml

end Scaffold
