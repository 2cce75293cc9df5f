import Scaffold.Proofs.Text.Casing
import Scaffold.Text.Naming

/-!
The snake case of names of letters and digits.

Of the passes that lead to the snake case of a name only the first two do anything to letters
and digits, and what they do together can be said at once: an underscore stands before every
capital that starts a word. So the snake case keeps the letters up to their case and the places
at which words start, and nothing else.

* `startsWord`: when a capital starts a word.
* `spaced`: the characters behind the first one, with the underscores.
* `breakCase_breakWords`: the two passes together.
* `snakeChars_of_alphanum`: the snake case of letters and digits.
* `SpelledAlike`, `snake_eq_iff`: what the snake case keeps.
* `snakeChars_class`: which characters it has.
-/

namespace Scaffold.Text

variable {c d : Char} {cs ds : List Char}

/-! ### Letters and digits -/

lemma isUpper_iff : c.isUpper = true ↔ 0x41 ≤ c.toNat ∧ c.toNat ≤ 0x5a := by
  have hupper : c.isUpper = decide (c.val ≥ 65 ∧ c.val ≤ 90) := rfl
  rw [hupper, decide_eq_true_eq]
  exact Iff.rfl

lemma isLower_iff : c.isLower = true ↔ 0x61 ≤ c.toNat ∧ c.toNat ≤ 0x7a := by
  have hlower : c.isLower = (decide (c.val ≥ 97) && decide (c.val ≤ 122)) := rfl
  rw [hlower, Bool.and_eq_true, decide_eq_true_eq, decide_eq_true_eq]
  exact Iff.rfl

lemma isDigit_iff : c.isDigit = true ↔ 0x30 ≤ c.toNat ∧ c.toNat ≤ 0x39 := by
  have hdigit : c.isDigit = (decide (c.val ≥ 48) && decide (c.val ≤ 57)) := rfl
  rw [hdigit, Bool.and_eq_true, decide_eq_true_eq, decide_eq_true_eq]
  exact Iff.rfl

lemma isAlphanum_iff :
    c.isAlphanum = true ↔ c.isUpper = true ∨ c.isLower = true ∨ c.isDigit = true := by
  have halphanum : c.isAlphanum = (c.isUpper || c.isLower || c.isDigit) := rfl
  rw [halphanum, Bool.or_eq_true, Bool.or_eq_true, or_assoc]

lemma toNat_lt_of_isAlphanum (h : c.isAlphanum = true) : c.toNat < 0x80 := by
  rw [isAlphanum_iff, isUpper_iff, isLower_iff, isDigit_iff] at h
  omega

/-- A letter or digit is no underscore in either case, separates nothing, and has one image. -/
lemma alphanum_cases (h : c.isAlphanum = true) :
    c ≠ '\n' ∧ c ≠ '_' ∧ c.toLower ≠ '_' ∧ isBlank c = false ∧ isGap c = false ∧
      lowerChar c = [c.toLower] ∧ c ≠ 'Σ' :=
  forall_ascii (P := fun c => c.isAlphanum = true → c ≠ '\n' ∧ c ≠ '_' ∧ c.toLower ≠ '_' ∧
    isBlank c = false ∧ isGap c = false ∧ lowerChar c = [c.toLower] ∧ c ≠ 'Σ')
    (by decide +kernel) (toNat_lt_of_isAlphanum h) h

lemma not_isUpper_of_isLower (h : c.isLower = true) : c.isUpper = false := by
  rw [Bool.eq_false_iff, Ne, isUpper_iff]
  rw [isLower_iff] at h
  omega

/-! ### Where words start -/

/-- Whether a character between two others starts a word: it is a capital, and it comes after a
small letter or a digit, or before a small letter. -/
def startsWord (before c : Char) (after : Option Char) : Bool :=
  c.isUpper && (before.isLower || before.isDigit || after.any Char.isLower)

/-- The characters behind another one, with an underscore before each that starts a word. -/
def spaced : Char → List Char → List Char
  | _, [] => []
  | before, c :: cs =>
    if startsWord before c cs.head? then '_' :: c :: spaced c cs else c :: spaced c cs

/-- At which of the characters behind another one a word starts. -/
def startsAfter : Char → List Char → List Bool
  | _, [] => []
  | before, c :: cs => startsWord before c cs.head? :: startsAfter c cs

/-- At which of its characters but the first one a word of a name starts. -/
def wordStarts : List Char → List Bool
  | [] => []
  | c :: cs => startsAfter c cs

/-! ### The passes -/

/-- The first pass begins with the character that comes first. -/
lemma breakWords_cons (inWord : Bool) (c : Char) (cs : List Char) :
    ∃ rest, breakWords inWord (c :: cs) = c :: rest := by
  cases cs with
  | nil => exact ⟨[], by rw [breakWords]⟩
  | cons u cs =>
    rw [breakWords]
    split_ifs
    · exact ⟨_, rfl⟩
    · exact ⟨_, rfl⟩
    · exact ⟨_, rfl⟩

/-- The second pass puts an underscore behind the first character exactly if it is a small
letter or a digit and a capital follows. -/
lemma breakCase_cons_breakWords (inWord : Bool) (c u : Char) (cs : List Char) :
    breakCase (c :: breakWords inWord (u :: cs)) =
      if (c.isLower || c.isDigit) && u.isUpper then
        c :: '_' :: breakCase (breakWords inWord (u :: cs))
      else c :: breakCase (breakWords inWord (u :: cs)) := by
  obtain ⟨rest, hrest⟩ := breakWords_cons inWord u cs
  rw [hrest, breakCase]

/-- **The first two passes** put an underscore before every capital that starts a word: what the
first one passes over within the small letters of a word, the second one finds. -/
lemma breakCase_breakWords (inWord : Bool) (c : Char) (cs : List Char)
    (line : ∀ d ∈ c :: cs, d ≠ '\n') :
    breakCase (breakWords inWord (c :: cs)) = c :: spaced c cs := by
  -- the first pass takes two characters at once when the second one starts a word
  induction hn : cs.length using Nat.strong_induction_on generalizing inWord c cs with
  | _ n ih =>
    cases cs with
    | nil => simp [breakWords, breakCase, spaced]
    | cons u cs =>
      have hrest : ∀ inWord, breakCase (breakWords inWord (u :: cs)) = u :: spaced u cs :=
        fun inWord => ih cs.length (by simp [← hn]) inWord u cs
          (fun d hd => line d (List.mem_cons_of_mem c hd)) rfl
      rw [breakWords]
      split_ifs with hwithin hstart
      · -- within the small letters of a word
        have hlower : c.isLower = true := (Bool.and_eq_true_iff.mp hwithin).2
        rw [breakCase_cons_breakWords, hrest, spaced]
        by_cases hupper : u.isUpper = true <;> simp [startsWord, hlower, hupper]
      · -- a capital before a small letter
        obtain ⟨⟨-, hupper⟩, hnext⟩ : (c ≠ '\n' ∧ u.isUpper = true) ∧
            cs.head?.any Char.isLower = true := by simpa using hstart
        cases cs with
        | nil => cases hnext
        | cons l cs =>
          have hlower : l.isLower = true := hnext
          have hplain : u.isLower = false := by
            cases hu : u.isLower with
            | false => rfl
            | true => exact absurd hupper (by simp [not_isUpper_of_isLower hu])
          have hl : l.isUpper = false := not_isUpper_of_isLower hlower
          have hbehind : breakCase (breakWords true (l :: cs)) = l :: spaced l cs :=
            ih cs.length (by rw [← hn, List.length_cons, List.length_cons]; omega) true l cs
              (fun d hd => line d (List.mem_cons_of_mem c (List.mem_cons_of_mem u hd))) rfl
          have hcapital : breakCase (u :: breakWords true (l :: cs)) = u :: l :: spaced l cs := by
            rw [breakCase_cons_breakWords, hl, Bool.and_false, if_neg (by simp), hbehind]
          have hunder : breakCase ('_' :: u :: breakWords true (l :: cs)) =
              '_' :: u :: l :: spaced l cs := by
            rw [breakCase, if_neg (by simp), hcapital]
          rw [breakCase, if_neg (by simp), hunder, spaced, spaced]
          simp [startsWord, hupper, hl, hlower]
      · -- no capital, or no small letter behind it
        have hc : c ≠ '\n' := line c List.mem_cons_self
        have hstarts : startsWord c u cs.head? = ((c.isLower || c.isDigit) && u.isUpper) := by
          cases hupper : u.isUpper with
          | false => simp [startsWord, hupper]
          | true =>
            have hnext : cs.head?.any Char.isLower = false := by simpa [hc, hupper] using hstart
            simp [startsWord, hupper, hnext]
        rw [breakCase_cons_breakWords, hrest, spaced, hstarts]
        split_ifs
        · rfl
        · rfl

/-- Nothing is joined where there are no gaps. -/
lemma joinGaps_of_forall (gapless : ∀ c ∈ cs, isGap c = false) : joinGaps false cs = cs := by
  induction cs with
  | nil => rfl
  | cons c cs ih =>
    rw [joinGaps, if_neg (by simp [gapless c (by simp)]), ih fun d hd => gapless d (by simp [hd])]

/-- No two underscores come together, so nothing is squeezed. -/
lemma squeeze_cons_spaced (hc : c ≠ '_') (letters : ∀ d ∈ cs, d ≠ '_') :
    squeeze (c :: spaced c cs) = c :: spaced c cs := by
  induction cs generalizing c with
  | nil => rfl
  | cons u cs ih =>
    have hu : u ≠ '_' := letters u (by simp)
    have hrest := ih hu fun d hd => letters d (by simp [hd])
    rw [spaced]
    split_ifs
    · have hunder : squeeze ('_' :: u :: spaced u cs) = '_' :: u :: spaced u cs := by
        rw [squeeze, if_neg (by simp [hu]), hrest]
      rw [squeeze, if_neg (by simp [hc]), hunder]
    · rw [squeeze, if_neg (by simp [hc]), hrest]

/-- Nothing is stripped off a list that begins and ends with something else. -/
lemma stripBy_of_ends {p : Char → Bool} (first : ∀ c ∈ cs.head?, p c = false)
    (last : ∀ c ∈ cs.getLast?, p c = false) : stripBy p cs = cs := by
  have hfirst : cs.dropWhile p = cs := by
    rw [List.dropWhile_eq_self_iff]
    cases cs <;> simp_all
  have hlast : cs.reverse.dropWhile p = cs.reverse := by
    rw [List.dropWhile_eq_self_iff]
    intro hpos
    rw [← List.head_eq_getElem (List.ne_nil_of_length_pos hpos), List.head_reverse,
      Bool.not_eq_true]
    exact last _ (List.getLast?_eq_some_getLast _)
  rw [stripBy, hfirst, hlast, List.reverse_reverse]

/-- The last character stays the last one. -/
lemma getLast?_cons_spaced (c : Char) (cs : List Char) :
    (c :: spaced c cs).getLast? = (c :: cs).getLast? := by
  induction cs generalizing c with
  | nil => rfl
  | cons u cs ih =>
    rw [spaced]
    split_ifs
    · rw [List.getLast?_cons_cons, List.getLast?_cons_cons, ih, List.getLast?_cons_cons]
    · rw [List.getLast?_cons_cons, ih, List.getLast?_cons_cons]

lemma mem_spaced {before : Char} (h : d ∈ spaced before cs) : d = '_' ∨ d ∈ cs := by
  induction cs generalizing before with
  | nil => cases h
  | cons c cs ih =>
    rw [spaced] at h
    split_ifs at h
    · rcases List.mem_cons.mp h with rfl | h
      · exact .inl rfl
      · rcases List.mem_cons.mp h with rfl | h
        · exact .inr List.mem_cons_self
        · exact (ih h).imp_right (List.mem_cons_of_mem c)
    · rcases List.mem_cons.mp h with rfl | h
      · exact .inr List.mem_cons_self
      · exact (ih h).imp_right (List.mem_cons_of_mem c)

/-- The lower case of ASCII characters is that of each of them. -/
lemma lowerAfter_of_ascii {before : List Char} (ascii : ∀ c ∈ cs, c.toNat < 0x80) :
    lowerAfter before cs = cs.map Char.toLower := by
  induction cs generalizing before with
  | nil => rfl
  | cons c cs ih =>
    have hc : c.toNat < 0x80 := ascii c (by simp)
    have hsigma : c ≠ 'Σ' := by
      rintro rfl
      exact absurd hc (by decide)
    rw [lowerAfter, if_neg (by simpa using hsigma), lowerChar, if_pos hc,
      ih fun d hd => ascii d (by simp [hd])]
    rfl

/-- **The snake case of letters and digits**: an underscore before every character that starts a
word, and then lower case. -/
lemma snakeChars_of_alphanum (letters : ∀ d ∈ c :: cs, d.isAlphanum = true) :
    snakeChars (c :: cs) = (c :: spaced c cs).map Char.toLower := by
  have hfacts := fun d hd => alphanum_cases (letters d hd)
  have hends : trim (c :: cs) = c :: cs := by
    refine trim_eq_self_iff.mpr ⟨fun d hd => ?_, fun d hd => ?_⟩
    · exact (hfacts d (List.mem_of_mem_head? hd)).2.2.2.1
    · exact (hfacts d (List.mem_of_getLast? hd)).2.2.2.1
  have hspaced : ∀ d ∈ c :: spaced c cs, d = '_' ∨ d ∈ c :: cs := by
    intro d hd
    rcases List.mem_cons.mp hd with rfl | hd
    · exact .inr List.mem_cons_self
    · exact (mem_spaced hd).imp_right (List.mem_cons_of_mem c)
  have hgapless : ∀ d ∈ c :: spaced c cs, isGap d = false := by
    intro d hd
    rcases hspaced d hd with rfl | hd
    · decide
    · exact (hfacts d hd).2.2.2.2.1
  have hascii : ∀ d ∈ c :: spaced c cs, d.toNat < 0x80 := by
    intro d hd
    rcases hspaced d hd with rfl | hd
    · decide
    · exact toNat_lt_of_isAlphanum (letters d hd)
  have hstripped : stripBy (· == '_') (c :: spaced c cs) = c :: spaced c cs := by
    refine stripBy_of_ends (fun d hd => ?_) fun d hd => ?_
    · obtain rfl := Option.some.inj hd
      exact beq_eq_false_iff_ne.mpr (hfacts c List.mem_cons_self).2.1
    · rw [getLast?_cons_spaced] at hd
      exact beq_eq_false_iff_ne.mpr (hfacts d (List.mem_of_getLast? hd)).2.1
  rw [snakeChars, hends, breakCase_breakWords false c cs fun d hd => (hfacts d hd).1,
    joinGaps_of_forall hgapless, squeeze_cons_spaced (hfacts c List.mem_cons_self).2.1
      fun d hd => (hfacts d (List.mem_cons_of_mem c hd)).2.1,
    hstripped, lower, lowerAfter_of_ascii hascii]

/-! ### What the snake case keeps -/

/-- Behind some character, the letters up to their case and the places of the underscores can
be read off. -/
lemma map_spaced_eq_iff {before before' : Char} (letters : ∀ d ∈ cs, d.toLower ≠ '_')
    (letters' : ∀ d ∈ ds, d.toLower ≠ '_') :
    (spaced before cs).map Char.toLower = (spaced before' ds).map Char.toLower ↔
      cs.map Char.toLower = ds.map Char.toLower ∧
        startsAfter before cs = startsAfter before' ds := by
  induction cs generalizing ds before before' with
  | nil =>
    cases ds with
    | nil => simp [spaced, startsAfter]
    | cons d ds =>
      rw [spaced, spaced]
      split_ifs <;> simp
  | cons c cs ih =>
    cases ds with
    | nil =>
      rw [spaced, spaced]
      split_ifs <;> simp
    | cons d ds =>
      have hc := letters c (by simp)
      have hd := letters' d (by simp)
      have hrest := @ih ds c d (fun x hx => letters x (by simp [hx]))
        fun x hx => letters' x (by simp [hx])
      have hunder : ('_' : Char).toLower = '_' := by decide
      rw [spaced, spaced, startsAfter, startsAfter]
      cases startsWord before c cs.head? <;> cases startsWord before' d ds.head? <;>
        simp [hrest, hunder, hc, hd.symm, and_assoc]

/-- Two names have the same letters up to case, and their words start at the same places. -/
def SpelledAlike (s t : String) : Prop :=
  s.toList.map Char.toLower = t.toList.map Char.toLower ∧
    wordStarts s.toList = wordStarts t.toList

instance (s t : String) : Decidable (SpelledAlike s t) :=
  inferInstanceAs (Decidable (_ ∧ _))

/-- **What the snake case keeps** of names of letters and digits: the letters up to their case,
and where words start. -/
lemma snakeChars_eq_iff (hcs : cs ≠ []) (hds : ds ≠ []) (letters : ∀ d ∈ cs, d.isAlphanum = true)
    (letters' : ∀ d ∈ ds, d.isAlphanum = true) :
    snakeChars cs = snakeChars ds ↔
      cs.map Char.toLower = ds.map Char.toLower ∧ wordStarts cs = wordStarts ds := by
  cases cs with
  | nil => exact absurd rfl hcs
  | cons c cs =>
    cases ds with
    | nil => exact absurd rfl hds
    | cons d ds =>
      rw [snakeChars_of_alphanum letters, snakeChars_of_alphanum letters', List.map_cons,
        List.map_cons, List.map_cons, List.map_cons, List.cons.injEq, List.cons.injEq,
        map_spaced_eq_iff
          (fun x hx => (alphanum_cases (letters x (List.mem_cons_of_mem c hx))).2.2.1)
          (fun x hx => (alphanum_cases (letters' x (List.mem_cons_of_mem d hx))).2.2.1),
        and_assoc, wordStarts, wordStarts]

lemma snake_eq_iff {s t : String} (hs : s ≠ "") (ht : t ≠ "")
    (letters : ∀ c ∈ s.toList, c.isAlphanum = true)
    (letters' : ∀ c ∈ t.toList, c.isAlphanum = true) :
    snake s = snake t ↔ SpelledAlike s t := by
  rw [snake, snake, String.ofList_inj, SpelledAlike]
  exact snakeChars_eq_iff (mt String.toList_eq_nil_iff.mp hs) (mt String.toList_eq_nil_iff.mp ht)
    letters letters'

/-- The snake case of letters and digits begins with a letter or digit, and all its characters
are small letters, digits or underscores. -/
lemma snakeChars_class (hcs : cs ≠ []) (letters : ∀ d ∈ cs, d.isAlphanum = true) :
    snakeChars cs ≠ [] ∧
      ∀ d ∈ snakeChars cs, d.isLower = true ∨ d.isDigit = true ∨ d = '_' := by
  cases cs with
  | nil => exact absurd rfl hcs
  | cons c cs =>
    rw [snakeChars_of_alphanum letters]
    refine ⟨by simp, fun d hd => ?_⟩
    obtain ⟨u, hu, rfl⟩ := List.mem_map.mp hd
    have hcases : u = '_' ∨ u.isAlphanum = true := by
      rcases List.mem_cons.mp hu with rfl | hu
      · exact .inr (letters u List.mem_cons_self)
      · exact (mem_spaced hu).imp_right fun h => letters u (List.mem_cons_of_mem c h)
    rcases hcases with rfl | halphanum
    · exact .inr (.inr (by decide))
    · exact forall_ascii (P := fun u => u.isAlphanum = true →
        u.toLower.isLower = true ∨ u.toLower.isDigit = true ∨ u.toLower = '_') (by decide +kernel)
        (toNat_lt_of_isAlphanum halphanum) halphanum

end Scaffold.Text
