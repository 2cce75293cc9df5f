import Mathlib.Data.List.Chain
import Scaffold.Proofs.Text.Spelling

/-!
Snake case as a normal form.

No pass undoes what an earlier one has done: the underscores that the first two passes put in are
no gaps, the third leaves no gap, the fourth leaves no two underscores beside one another, stripping
takes whole ends away, and lower case turns every character into others of its kind. Where nothing
is left to do every pass leaves the name as it is. So names in snake case are exactly those that
their snake case leaves alone, and the forms that are built from it see no difference.

* `InSnakeForm`: the form; `snakeChars_inSnakeForm`: every snake case has it.
* `snakeChars_of_inSnakeForm`: the passes leave it alone.
* `isWordChar`, `filter_worded`: the passes keep all characters that do not separate words.
* `snake_normal` (**a normal form**): what the snake case of a name is.
-/

namespace Scaffold.Text

variable {c d : Char} {cs ds : List Char} {before : List Char}

/-! ### The form -/

/-- Two characters are not both underscores. -/
abbrev NotBoth (c d : Char) : Prop :=
  c ≠ '_' ∨ d ≠ '_'

/-- Words without capitals and gaps, joined by single underscores. -/
structure InSnakeForm (cs : List Char) : Prop where
  /-- There is no capital. -/
  no_capital : ∀ c ∈ cs, c.isUpper = false
  /-- There is no blank. -/
  no_blank : ∀ c ∈ cs, isBlank c = false
  /-- There is no hyphen. -/
  no_hyphen : '-' ∉ cs
  /-- No two underscores stand beside one another. -/
  single : cs.IsChain NotBoth
  /-- No underscore comes first. -/
  first : cs.head? ≠ some '_'
  /-- No underscore comes last. -/
  last : cs.getLast? ≠ some '_'

lemma isGap_eq_false_iff : isGap c = false ↔ isBlank c = false ∧ c ≠ '-' := by
  rw [isGap, Bool.or_eq_false_iff, beq_eq_false_iff_ne]

/-! ### What the passes do -/

/-- No gap is left when the gaps have been joined. -/
lemma isGap_of_mem_joinGaps {inGap : Bool} (h : c ∈ joinGaps inGap cs) : isGap c = false := by
  induction cs generalizing inGap with
  | nil => cases h
  | cons d cs ih =>
    rw [joinGaps] at h
    split_ifs at h with hgap hin
    · exact ih h
    · rcases List.mem_cons.mp h with rfl | h
      · decide
      · exact ih h
    · rcases List.mem_cons.mp h with rfl | h
      · simpa using hgap
      · exact ih h

/-- Squeezing keeps the first character. -/
lemma head?_squeeze (cs : List Char) : (squeeze cs).head? = cs.head? := by
  fun_induction squeeze cs with
  | case1 => rfl
  | case2 c => rfl
  | case3 c d cs hboth ih =>
    rw [Bool.and_eq_true, beq_iff_eq, beq_iff_eq] at hboth
    rw [ih, List.head?_cons, List.head?_cons, hboth.1, hboth.2]
  | case4 c d cs _ ih => rfl

/-- No two underscores are beside one another when they have been squeezed. -/
lemma isChain_squeeze (cs : List Char) : (squeeze cs).IsChain NotBoth := by
  fun_induction squeeze cs with
  | case1 => exact .nil
  | case2 c => exact .singleton c
  | case3 c d cs _ ih => exact ih
  | case4 c d cs hboth ih =>
    refine List.isChain_cons.mpr ⟨fun x hx => ?_, ih⟩
    rw [head?_squeeze, List.head?_cons, Option.mem_some_iff] at hx
    subst hx
    rwa [Bool.and_eq_true, beq_iff_eq, beq_iff_eq, not_and_or] at hboth

lemma mem_of_mem_squeeze (h : c ∈ squeeze cs) : c ∈ cs := by
  fun_induction squeeze cs with
  | case1 => exact h
  | case2 d => exact h
  | case3 d e cs _ ih => exact List.mem_cons_of_mem _ (ih h)
  | case4 d e cs _ ih =>
    rcases List.mem_cons.mp h with rfl | h
    · exact List.mem_cons_self
    · exact List.mem_cons_of_mem _ (ih h)

/-- What is left of a stripped list is a part of it. -/
lemma stripBy_isInfix (p : Char → Bool) (cs : List Char) : stripBy p cs <:+: cs := by
  obtain ⟨front, back, hcs, -⟩ := exists_stripBy p cs
  exact ⟨front, back, hcs.symm⟩

/-- A small character is no capital. -/
lemma IsSmall.not_isUpper (h : IsSmall c) : c.isUpper = false := by
  rw [Bool.eq_false_iff]
  intro hupper
  have hascii : c.toNat < 0x80 := by
    rw [isUpper_iff] at hupper
    omega
  exact forall_ascii (P := fun c => c.isUpper = true → ¬ IsSmall c) (by decide +kernel) hascii
    hupper h

/-- Lower case has images for each character: an underscore for an underscore, and none for
another character. -/
lemma lowerAfter_cons (before : List Char) (c : Char) (cs : List Char) :
    ∃ image, lowerAfter before (c :: cs) = image ++ lowerAfter (c :: before) cs ∧ image ≠ [] ∧
      (c = '_' → image = ['_']) ∧ (c ≠ '_' → '_' ∉ image) := by
  by_cases hsigma : c = 'Σ'
  · refine ⟨[if isFinalSigma before cs then 'ς' else 'σ'], ?_, by simp, ?_, ?_⟩
    · rw [lowerAfter, if_pos (by simpa using hsigma)]
    · rintro rfl
      cases hsigma
    · intro _
      split_ifs <;> decide
  · refine ⟨lowerChar c, ?_, lowerChar_ne_nil c, ?_, fun hne hmem => ?_⟩
    · rw [lowerAfter, if_neg (by simpa using hsigma)]
    · rintro rfl
      decide
    · exact hne (eq_of_mem_lowerChar hmem (by decide))

/-- Lower case starts with an underscore only where the characters do. -/
lemma head?_lowerAfter (h : (lowerAfter before cs).head? = some '_') : cs.head? = some '_' := by
  cases cs with
  | nil => exact h
  | cons c cs =>
    obtain ⟨image, himage, hne, -, hother⟩ := lowerAfter_cons before c cs
    rw [himage, List.head?_append_of_ne_nil _ hne] at h
    rw [List.head?_cons, Option.some.injEq]
    by_contra hc
    exact hother hc (List.mem_of_mem_head? h)

/-- Lower case ends in an underscore only where the characters do. -/
lemma getLast?_lowerAfter (h : (lowerAfter before cs).getLast? = some '_') :
    cs.getLast? = some '_' := by
  induction cs generalizing before with
  | nil => exact h
  | cons c cs ih =>
    obtain ⟨image, himage, hne, -, hother⟩ := lowerAfter_cons before c cs
    rw [himage, List.getLast?_append] at h
    cases cs with
    | nil =>
      rw [lowerAfter, List.getLast?_nil, Option.none_or] at h
      rw [List.getLast?_singleton, Option.some.injEq]
      by_contra hc
      exact hother hc (List.mem_of_getLast? h)
    | cons d cs =>
      rw [List.getLast?_cons_cons]
      suffices hrest : (lowerAfter (c :: before) (d :: cs)).getLast? = some '_' from ih hrest
      -- the images of the other characters are not empty
      obtain ⟨next, hnext, hnextNe, -⟩ := lowerAfter_cons (c :: before) d cs
      cases hlast : (lowerAfter (c :: before) (d :: cs)).getLast? with
      | none =>
        rw [List.getLast?_eq_none_iff, hnext, List.append_eq_nil_iff] at hlast
        exact absurd hlast.1 hnextNe
      | some last => rwa [hlast, Option.some_or] at h

/-- Lower case puts no two underscores beside one another. -/
lemma isChain_lowerAfter (h : cs.IsChain NotBoth) : (lowerAfter before cs).IsChain NotBoth := by
  induction cs generalizing before with
  | nil => exact .nil
  | cons c cs ih =>
    obtain ⟨hfirst, hrest⟩ := List.isChain_cons.mp h
    obtain ⟨image, himage, -, hself, hother⟩ := lowerAfter_cons before c cs
    rw [himage]
    by_cases hc : c = '_'
    · rw [hself hc, List.singleton_append]
      refine List.isChain_cons.mpr ⟨fun d hd => .inr ?_, ih hrest⟩
      rintro rfl
      exact (hfirst '_' (head?_lowerAfter hd)).elim (absurd hc) (absurd rfl)
    · have hnone : ∀ d ∈ image, d ≠ '_' := fun d hd heq => hother hc (heq ▸ hd)
      refine List.isChain_append.mpr ⟨?_, ih hrest, fun d hd _ _ =>
        .inl (hnone d (List.mem_of_getLast? hd))⟩
      exact (List.pairwise_of_forall_mem_list fun d hd _ _ => .inl (hnone d hd)).isChain

/-! ### Every snake case has the form -/

/-- **The form** is that of every snake case. -/
lemma snakeChars_inSnakeForm (cs : List Char) : InSnakeForm (snakeChars cs) := by
  rw [snakeChars]
  generalize breakCase (breakWords false (trim cs)) = spelled
  obtain ⟨joined, hjoined⟩ :
      ∃ joined, joined = stripBy (· == '_') (squeeze (joinGaps false spelled)) := ⟨_, rfl⟩
  rw [← hjoined]
  have hmem : ∀ c ∈ joined, isGap c = false := fun c hc =>
    isGap_of_mem_joinGaps (mem_of_mem_squeeze ((stripBy_isInfix _ _).subset (hjoined ▸ hc)))
  have hchain : joined.IsChain NotBoth :=
    List.IsChain.infix (isChain_squeeze _) (hjoined ▸ stripBy_isInfix _ _)
  have hfirst : joined.head? ≠ some '_' := fun h =>
    absurd (head?_stripBy '_' (hjoined ▸ h)) (by decide)
  have hlast : joined.getLast? ≠ some '_' := fun h =>
    absurd (getLast?_stripBy '_' (hjoined ▸ h)) (by decide)
  -- the images of what has been joined
  obtain ⟨images, hlower, himages⟩ := lowerAfter_images [] joined
  have hsmall : ∀ d ∈ lower joined, IsSmall d ∧ isBlank d = false := by
    intro d hd
    rw [lower, hlower, List.mem_flatten] at hd
    obtain ⟨image, himage, hd⟩ := hd
    obtain ⟨c, hc, -, hall⟩ := exists_of_forall₂ himages.flip himage
    exact ⟨(hall d hd).1, (hall d hd).2.trans (isGap_eq_false_iff.mp (hmem c hc)).1⟩
  exact {
    no_capital := fun c hc => (hsmall c hc).1.not_isUpper
    no_blank := fun c hc => (hsmall c hc).2
    no_hyphen := fun h =>
      (isGap_eq_false_iff.mp (hmem '-' (mem_of_mem_lowerAfter h (by decide)))).2 rfl
    single := isChain_lowerAfter hchain
    first := fun h => hfirst (head?_lowerAfter h)
    last := fun h => hlast (getLast?_lowerAfter h) }

/-! ### The passes leave the form alone -/

lemma breakWords_of_forall {inWord : Bool} (plain : ∀ c ∈ cs, c.isUpper = false) :
    breakWords inWord cs = cs := by
  fun_induction breakWords inWord cs with
  | case1 => rfl
  | case2 => rfl
  | case3 inWord c u cs _ ih => rw [ih fun d hd => plain d (List.mem_cons_of_mem c hd)]
  | case4 inWord c u cs _ hstart ih =>
    rw [plain u (by simp)] at hstart
    simp at hstart
  | case5 inWord c u cs _ _ ih => rw [ih fun d hd => plain d (List.mem_cons_of_mem c hd)]

lemma breakCase_of_forall (plain : ∀ c ∈ cs, c.isUpper = false) : breakCase cs = cs := by
  fun_induction breakCase cs with
  | case1 => rfl
  | case2 => rfl
  | case3 c u cs hcase ih =>
    rw [plain u (by simp), Bool.and_false] at hcase
    cases hcase
  | case4 c u cs _ ih => rw [ih fun d hd => plain d (List.mem_cons_of_mem c hd)]

lemma squeeze_of_isChain (single : cs.IsChain NotBoth) : squeeze cs = cs := by
  fun_induction squeeze cs with
  | case1 => rfl
  | case2 => rfl
  | case3 c d cs hboth ih =>
    rw [Bool.and_eq_true, beq_iff_eq, beq_iff_eq] at hboth
    rcases (List.isChain_cons_cons.mp single).1 with hc | hd
    · exact absurd hboth.1 hc
    · exact absurd hboth.2 hd
  | case4 c d cs _ ih => rw [ih (List.isChain_cons_cons.mp single).2]

/-- **The passes** leave the form alone; what is left to do is lower case. -/
lemma snakeChars_of_inSnakeForm (h : InSnakeForm cs) : snakeChars cs = lower cs := by
  have hgapless : ∀ c ∈ cs, isGap c = false := fun c hc =>
    isGap_eq_false_iff.mpr ⟨h.no_blank c hc, fun heq => h.no_hyphen (heq ▸ hc)⟩
  have htrim : trim cs = cs := trim_eq_self_iff.mpr
    ⟨fun c hc => h.no_blank c (List.mem_of_mem_head? hc),
      fun c hc => h.no_blank c (List.mem_of_getLast? hc)⟩
  have hstrip : stripBy (· == '_') cs = cs := stripBy_of_ends
    (fun c hc => beq_eq_false_iff_ne.mpr fun heq => h.first (heq ▸ hc))
    (fun c hc => beq_eq_false_iff_ne.mpr fun heq => h.last (heq ▸ hc))
  rw [snakeChars, htrim, breakWords_of_forall h.no_capital, breakCase_of_forall h.no_capital,
    joinGaps_of_forall hgapless, squeeze_of_isChain h.single, hstrip]

/-- A second snake case changes nothing. -/
lemma snakeChars_snakeChars (cs : List Char) : snakeChars (snakeChars cs) = snakeChars cs := by
  rw [snakeChars_of_inSnakeForm (snakeChars_inSnakeForm cs), snakeChars, lower_lower]

/-- The snake case of a name is the name itself when it has the form and is in lower case. -/
lemma snakeChars_eq_self_iff : snakeChars cs = cs ↔ InSnakeForm cs ∧ lower cs = cs := by
  constructor
  · intro h
    have hform : InSnakeForm cs := h ▸ snakeChars_inSnakeForm cs
    exact ⟨hform, (snakeChars_of_inSnakeForm hform).symm.trans h⟩
  · rintro ⟨hform, hlower⟩
    rw [snakeChars_of_inSnakeForm hform, hlower]

/-! ### What the passes keep -/

/-- A character that does not separate words. -/
def isWordChar (c : Char) : Bool :=
  !(c == '_' || isGap c)

lemma filter_breakWords (inWord : Bool) (cs : List Char) :
    (breakWords inWord cs).filter isWordChar = cs.filter isWordChar := by
  have hunder : isWordChar '_' = false := by decide
  fun_induction breakWords inWord cs with
  | case1 => rfl
  | case2 => rfl
  | case3 inWord c u cs _ ih => rw [List.filter_cons, ih, ← List.filter_cons]
  | case4 inWord c u cs _ _ ih =>
    simp only [List.filter_cons, hunder, ih]
    rfl
  | case5 inWord c u cs _ _ ih => rw [List.filter_cons, ih, ← List.filter_cons]

lemma filter_breakCase (cs : List Char) :
    (breakCase cs).filter isWordChar = cs.filter isWordChar := by
  have hunder : isWordChar '_' = false := by decide
  fun_induction breakCase cs with
  | case1 => rfl
  | case2 => rfl
  | case3 c u cs _ ih =>
    rw [List.filter_cons, List.filter_cons_of_neg (by simp [hunder]), ih, ← List.filter_cons]
  | case4 c u cs _ ih => rw [List.filter_cons, ih, ← List.filter_cons]

lemma filter_joinGaps (inGap : Bool) (cs : List Char) :
    (joinGaps inGap cs).filter isWordChar = cs.filter isWordChar := by
  have hunder : isWordChar '_' = false := by decide
  have hgap : ∀ c, isGap c = true → isWordChar c = false := fun c hc => by simp [isWordChar, hc]
  fun_induction joinGaps inGap cs with
  | case1 => rfl
  | case2 c cs hc ih => rw [ih, List.filter_cons_of_neg (by simp [hgap c hc])]
  | case3 inGap c cs hc _ ih =>
    rw [List.filter_cons_of_neg (by simp [hunder]), ih, List.filter_cons_of_neg (by simp [hgap c hc])]
  | case4 inGap c cs _ ih => rw [List.filter_cons, ih, ← List.filter_cons]

lemma filter_squeeze (cs : List Char) :
    (squeeze cs).filter isWordChar = cs.filter isWordChar := by
  have hunder : isWordChar '_' = false := by decide
  fun_induction squeeze cs with
  | case1 => rfl
  | case2 => rfl
  | case3 c d cs hboth ih =>
    rw [Bool.and_eq_true, beq_iff_eq, beq_iff_eq] at hboth
    rw [ih, List.filter_cons_of_neg (a := c) (by simp [hboth.1, hunder])]
  | case4 c d cs _ ih => rw [List.filter_cons, ih, ← List.filter_cons]

lemma filter_stripBy {p : Char → Bool} (apart : ∀ c, p c = true → isWordChar c = false)
    (cs : List Char) : (stripBy p cs).filter isWordChar = cs.filter isWordChar := by
  obtain ⟨front, back, hcs, hfront, hback⟩ := exists_stripBy p cs
  have hnone : ∀ ds : List Char, (∀ c ∈ ds, p c = true) → ds.filter isWordChar = [] :=
    fun ds hds => List.filter_eq_nil_iff.mpr fun c hc => by simp [apart c (hds c hc)]
  calc (stripBy p cs).filter isWordChar
      = (front ++ stripBy p cs ++ back).filter isWordChar := by
        rw [List.filter_append, List.filter_append, hnone front hfront, hnone back hback,
          List.nil_append, List.append_nil]
    _ = cs.filter isWordChar := by rw [← hcs]

/-- **What comes before lower case** has all characters of a name that do not separate words, in
their order, and no others of that kind. -/
lemma filter_worded (cs : List Char) :
    (stripBy (· == '_') (squeeze (joinGaps false (breakCase (breakWords false (trim cs)))))).filter
      isWordChar = cs.filter isWordChar := by
  rw [filter_stripBy fun c hc => by simp [isWordChar, beq_iff_eq.mp hc], filter_squeeze,
    filter_joinGaps, filter_breakCase, filter_breakWords, trim_eq_stripBy,
    filter_stripBy fun c hc => by simp [isWordChar, isGap, hc]]

/-- **A normal form.** The snake case of a name has no capitals, no blanks and no hyphens, no two
underscores beside one another and none at either end, and apart from separators it has the
characters of the name in lower case. It is its own snake case, and exactly the names of that form
in lower case are, so the forms built from snake case do not tell a name from its snake case. -/
theorem snake_normal (s : String) :
    InSnakeForm (snake s).toList ∧
    snake (snake s) = snake s ∧
    studly (snake s) = studly s ∧
    headline (snake s) = headline s ∧
    (snake s = s ↔ InSnakeForm s.toList ∧ lowered s = s) ∧
    ∃ worded, (snake s).toList = lower worded ∧
      worded.filter isWordChar = s.toList.filter isWordChar := by
  have hchars : (snake s).toList = snakeChars s.toList := String.toList_ofList
  have hself : snakeChars (snake s).toList = snakeChars s.toList := by
    rw [hchars, snakeChars_snakeChars]
  refine ⟨hchars ▸ snakeChars_inSnakeForm _, ?_, ?_, ?_, ?_, _, hchars, filter_worded _⟩
  · rw [snake, hself, snake]
  · rw [studly, studly, words, words, hself]
  · rw [headline, headline, hself]
  · rw [← String.toList_inj, hchars, snakeChars_eq_self_iff, ← @String.toList_inj (lowered s),
      lowered, String.toList_ofList]

end Scaffold.Text
