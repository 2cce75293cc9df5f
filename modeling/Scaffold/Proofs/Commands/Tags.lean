import Mathlib.Tactic.Common
import Scaffold.Commands.Markup

/-!
The tags of markup texts.

A text on the console is put together from phrases of the program, numbers and values. The
values are escaped or inserted as they are. An escaped value holds no tag, and it stays so as
long as no backslash stands in front of it and the next bracket behind it opens. A value that is
inserted as it is holds no tag if it has no opening bracket. So the tags of the whole text are
those of the phrases, apart from some that a backslash at the end of a value takes away.

* `tags`: the tags of a text, in their order.
* `tags_escape`: an escaped text has none.
* `tagsAfter_append`: the tags of two texts, one after the other.
* `Piece`, `assemble`: what a text is put together from; `framed`: in the right way.
* `tags_assemble`: the tags of such a text.
-/

namespace Scaffold.Markup

variable {c : Char} {cs xs rest : List Char} {slashes : Nat}

/-! ### Tags -/

/-- The tag at the head of a text. -/
def tagAt (cs : List Char) : String :=
  String.ofList (cs.takeWhile (· != ']') ++ [']'])

/-- The tags of a text behind so many backslashes. -/
def tagsAfter : Nat → List Char → List String
  | _, [] => []
  | slashes, c :: cs =>
    if c == '\\' then tagsAfter (slashes + 1) cs
    else if startsTag (c :: cs) && slashes % 2 == 0 then tagAt (c :: cs) :: tagsAfter 0 cs
    else tagsAfter 0 cs

/-- The tags of a text that have a meaning, in their order. -/
def tags (s : String) : List String :=
  tagsAfter 0 s.toList

/-- A text that is given by its characters does not have a tag. -/
lemma notMem_tags_ofList {tag : String} {cs : List Char}
    (h : (tagsAfter 0 cs).contains tag = false) : tag ∉ tags (String.ofList cs) := by
  rw [tags, String.toList_ofList]
  simpa using h

/-- The backslashes at the end of a text that is read behind others. -/
def slashesAfter : Nat → List Char → Nat
  | slashes, [] => slashes
  | slashes, c :: cs => slashesAfter (if c == '\\' then slashes + 1 else 0) cs

example : tags "[bold]x[/bold] \\[b] [B] \\\\[i]" = ["[bold]", "[/bold]", "[i]"] := by
  decide +kernel

/-! ### Brackets -/

/-- Whether a character is a bracket. -/
def isBracket (c : Char) : Bool :=
  c == '[' || c == ']'

/-- Whether the first bracket of a text closes. -/
def closesFirst (cs : List Char) : Bool :=
  (cs.dropWhile fun d => d != '[' && d != ']').head? == some ']'

lemma closesFirst_cons (c : Char) (cs : List Char) :
    closesFirst (c :: cs) = if isBracket c then c == ']' else closesFirst cs := by
  rw [closesFirst, List.dropWhile_cons]
  by_cases hopen : c = '['
  · simp [hopen, isBracket]
  by_cases hclose : c = ']'
  · simp [hclose, isBracket]
  · simp [hopen, hclose, isBracket, closesFirst]

/-- The first bracket of two texts is that of the first one, if it has any. -/
lemma closesFirst_append (cs rest : List Char) :
    closesFirst (cs ++ rest) = if cs.any isBracket then closesFirst cs else closesFirst rest := by
  induction cs with
  | nil => simp
  | cons c cs ih =>
    rw [List.cons_append, closesFirst_cons, closesFirst_cons, ih, List.any_cons]
    by_cases hc : isBracket c = true <;> simp [hc]

lemma closesFirst_eq_false (h : cs.any isBracket = false) : closesFirst cs = false := by
  simpa [h, closesFirst] using closesFirst_append cs []

lemma not_isBracket_of_opensTag (h : opensTag c = true) : isBracket c = false := by
  by_contra hbracket
  rw [Bool.not_eq_false, isBracket, Bool.or_eq_true, beq_iff_eq, beq_iff_eq] at hbracket
  rcases hbracket with rfl | rfl <;> exact absurd h (by decide)

/-- What a tag starts with. -/
lemma startsTag_cons (c : Char) (cs : List Char) :
    startsTag (c :: cs) = (c == '[' && cs.head?.any opensTag && closesFirst cs) := by
  by_cases hc : c = '['
  · subst hc
    cases cs with
    | nil => rfl
    | cons d ds =>
      rw [startsTag, closesFirst_cons]
      by_cases hd : opensTag d = true
      · simp [hd, not_isBracket_of_opensTag hd, closesFirst]
      · simp [hd]
  · rw [startsTag]
    · simp [hc]
    · rintro d ds heq
      exact absurd (List.cons.inj heq).1 hc

/-- A text in which every bracket that opens has another bracket behind it. -/
def whole : List Char → Bool
  | [] => true
  | c :: cs => (c != '[' || cs.any isBracket) && whole cs

/-- What follows a text makes no tag of its brackets. -/
def Sealed (rest : List Char) : List Char → Prop
  | [] => True
  | c :: cs => startsTag (c :: cs ++ rest) = startsTag (c :: cs) ∧ Sealed rest cs

lemma startsTag_append (h : closesFirst rest = false ∨ (c != '[' || cs.any isBracket) = true) :
    startsTag (c :: cs ++ rest) = startsTag (c :: cs) := by
  rw [List.cons_append, startsTag_cons, startsTag_cons, closesFirst_append]
  by_cases hbracket : cs.any isBracket = true
  · obtain ⟨d, ds, rfl⟩ : ∃ d ds, cs = d :: ds :=
      List.exists_cons_of_ne_nil (by rintro rfl; cases hbracket)
    rw [if_pos hbracket]
    rfl
  · have hnone : cs.any isBracket = false := by simpa using hbracket
    rw [if_neg hbracket, closesFirst_eq_false hnone]
    rcases h with h | h
    · simp [h]
    · have hc : (c == '[') = false := by simpa [hbracket] using h
      simp [hc]

lemma sealed_of_opens (h : closesFirst rest = false) (xs : List Char) : Sealed rest xs := by
  induction xs with
  | nil => exact True.intro
  | cons c cs ih => exact ⟨startsTag_append (.inl h), ih⟩

lemma sealed_of_whole (h : whole xs = true) (rest : List Char) : Sealed rest xs := by
  induction xs with
  | nil => exact True.intro
  | cons c cs ih =>
    rw [whole, Bool.and_eq_true] at h
    exact ⟨startsTag_append (.inr h.1), ih h.2⟩

/-- The tag at the head of a text ends in this text. -/
lemma tagAt_append (h : startsTag cs = true) (rest : List Char) :
    tagAt (cs ++ rest) = tagAt cs := by
  have hmem : ']' ∈ cs := by
    cases cs with
    | nil => cases h
    | cons c cs =>
      rw [startsTag_cons, Bool.and_eq_true, closesFirst] at h
      have hhead : ']' ∈ cs.dropWhile fun d => d != '[' && d != ']' :=
        List.mem_of_mem_head? (by simpa using h.2)
      exact List.mem_cons_of_mem _ ((List.dropWhile_sublist _).mem hhead)
  rw [tagAt, tagAt]
  clear h
  induction cs with
  | nil => cases hmem
  | cons c cs ih =>
    by_cases hc : c = ']'
    · simp [hc]
    · have hrest := ih (by simpa [Ne.symm hc] using hmem)
      simp only [String.ofList_inj] at hrest ⊢
      simpa [hc] using hrest

/-- **The tags of two texts**, one after the other. -/
lemma tagsAfter_append (h : Sealed rest xs) (slashes : Nat) :
    tagsAfter slashes (xs ++ rest) =
      tagsAfter slashes xs ++ tagsAfter (slashesAfter slashes xs) rest := by
  induction xs generalizing slashes with
  | nil => rfl
  | cons c cs ih =>
    obtain ⟨hstarts, h⟩ := h
    rw [List.cons_append] at hstarts ⊢
    rw [tagsAfter, tagsAfter, slashesAfter, hstarts]
    by_cases hslash : c = '\\'
    · simp [hslash, ih h]
    · by_cases htag : (startsTag (c :: cs) && slashes % 2 == 0) = true
      · have hat : tagAt (c :: (cs ++ rest)) = tagAt (c :: cs) :=
          tagAt_append (Bool.and_eq_true_iff.mp htag).1 rest
        simp [hslash, htag, hat, ih h]
      · simp [hslash, htag, ih h]

/-! ### Escaped texts -/

/-- Escaping leaves the brackets where they are. -/
lemma closesFirst_escapeAfter (slashes : Nat) (cs : List Char) :
    closesFirst (escapeAfter slashes cs) = closesFirst cs := by
  induction cs generalizing slashes with
  | nil => rfl
  | cons c cs ih =>
    rw [escapeAfter]
    by_cases hslash : c = '\\'
    · rw [if_pos (by simp [hslash]), closesFirst_cons, closesFirst_cons, ih]
    · have hmore : ∀ count, closesFirst (List.replicate count '\\' ++ c :: escapeAfter 0 cs) =
          closesFirst (c :: cs) := by
        intro count
        have hnone : (List.replicate count '\\').any isBracket = false := by
          rw [List.any_eq_false]
          intro d hd
          rw [(List.mem_replicate.mp hd).2]
          decide
        rw [closesFirst_append, hnone, closesFirst_cons, closesFirst_cons, ih]
        rfl
      rw [if_neg (by simpa using hslash)]
      split
      · exact hmore _
      · exact hmore 0

/-- Escaping makes no tag of a bracket that starts none. -/
lemma startsTag_escapeAfter (h : startsTag (c :: cs) = false) :
    startsTag (c :: escapeAfter 0 cs) = false := by
  have hhead : (escapeAfter 0 cs).head?.any opensTag = cs.head?.any opensTag := by
    cases cs with
    | nil => rfl
    | cons d ds =>
      rw [escapeAfter]
      split
      · rfl
      · split
        · next hd =>
          -- a backslash stands in front of a bracket, and neither opens a tag
          rw [startsTag_cons, Bool.and_eq_true, Bool.and_eq_true, beq_iff_eq] at hd
          rw [hd.1.1]
          rfl
        · rfl
  rw [startsTag_cons] at h ⊢
  rw [hhead, closesFirst_escapeAfter, h]

lemma tagsAfter_replicate (count : Nat) (rest : List Char) :
    tagsAfter slashes (List.replicate count '\\' ++ rest) = tagsAfter (slashes + count) rest := by
  induction count generalizing slashes with
  | zero => rfl
  | succ count ih =>
    rw [List.replicate_succ, List.cons_append, tagsAfter, if_pos BEq.rfl, ih]
    congr 1
    omega

/-- An escaped text has no tags behind the backslashes that were counted. -/
lemma tagsAfter_escapeAfter (slashes : Nat) (cs : List Char) :
    tagsAfter slashes (escapeAfter slashes cs) = [] := by
  induction cs generalizing slashes with
  | nil => rfl
  | cons c cs ih =>
    rw [escapeAfter]
    by_cases hslash : c = '\\'
    · rw [if_pos (by simp [hslash]), tagsAfter, if_pos (by simp [hslash]), ih]
    · rw [if_neg (by simpa using hslash)]
      split
      · -- as many backslashes again and one more are an odd number
        have hodd : (slashes + (slashes + 1)) % 2 = 1 := by omega
        rw [tagsAfter_replicate, tagsAfter, if_neg (by simpa using hslash)]
        simp [hodd, ih]
      · next hstarts =>
        have hnone := startsTag_escapeAfter (by simpa using hstarts)
        rw [tagsAfter, if_neg (by simpa using hslash)]
        simp [hnone, ih]

/-- **An escaped text** has no tags. -/
lemma tags_escape (s : String) : tags (escape s) = [] := by
  have hend : ∀ cs, tagsAfter 0 (cs ++ ['\\']) = tagsAfter 0 cs := by
    intro cs
    rw [tagsAfter_append (sealed_of_opens (by rfl) cs)]
    simp [tagsAfter]
  rw [tags, escape, String.toList_ofList, closed]
  split
  · exact tagsAfter_escapeAfter 0 _
  · rw [hend]
    exact tagsAfter_escapeAfter 0 _
  · exact tagsAfter_escapeAfter 0 _

/-! ### Texts that are put together -/

/-- A text without an opening bracket has no tags. -/
lemma tagsAfter_of_notMem (h : '[' ∉ xs) (slashes : Nat) : tagsAfter slashes xs = [] := by
  induction xs generalizing slashes with
  | nil => rfl
  | cons c cs ih =>
    rw [List.mem_cons, not_or] at h
    have hstarts : startsTag (c :: cs) = false := by
      rw [startsTag_cons]
      simp [Ne.symm h.1]
    rw [tagsAfter, hstarts, ih h.2, ih h.2]
    simp

lemma whole_of_notMem (h : '[' ∉ xs) : whole xs = true := by
  induction xs with
  | nil => rfl
  | cons c cs ih =>
    rw [List.mem_cons, not_or] at h
    simp [whole, Ne.symm h.1, ih h.2]

/-- Behind backslashes a text without backslashes may lose its first tag. -/
lemma tagsAfter_sublist (h : '\\' ∉ xs) (slashes : Nat) :
    (tagsAfter slashes xs).Sublist (tagsAfter 0 xs) := by
  cases xs with
  | nil => exact .refl _
  | cons c cs =>
    have hslash : (c == '\\') = false := by
      rw [beq_eq_false_iff_ne]
      rintro rfl
      exact h List.mem_cons_self
    rw [tagsAfter, tagsAfter, hslash]
    by_cases htag : startsTag (c :: cs) = true
    · by_cases heven : slashes % 2 = 0
      · simp [htag, heven]
      · simp [htag, heven]
    · simp [htag]

lemma slashesAfter_eq_zero (h : '\\' ∉ xs) (ne : xs ≠ []) (slashes : Nat) :
    slashesAfter slashes xs = 0 := by
  induction xs generalizing slashes with
  | nil => exact absurd rfl ne
  | cons c cs ih =>
    rw [List.mem_cons, not_or] at h
    have hslash : (c == '\\') = false := by
      rw [beq_eq_false_iff_ne]
      exact Ne.symm h.1
    rw [slashesAfter, hslash]
    by_cases hnil : cs = []
    · rw [hnil]
      rfl
    · exact ih h.2 hnil _

/-- What a text is put together from. -/
inductive Piece
  /-- A phrase of the program. -/
  | phrase (text : String)
  /-- A number. -/
  | number (n : Nat)
  /-- A value that is inserted as it is. -/
  | bare (value : String)
  /-- A value that is escaped. -/
  | escaped (value : String)

namespace Piece

/-- The text of a piece. -/
def text : Piece → String
  | phrase text => text
  | number n => toString n
  | bare value => value
  | escaped value => escape value

/-- The tags in the phrases of the program. -/
def tags : Piece → List String
  | phrase text => Markup.tags text
  | _ => []

/-- A value that is inserted as it is has no opening bracket. -/
def Quiet : Piece → Prop
  | bare value => '[' ∉ value.toList
  | _ => True

end Piece

/-- The text of some pieces, one after the other. -/
def assemble (pieces : List Piece) : String :=
  pieces.foldr (fun piece rest => piece.text ++ rest) ""

/-- Whether the next bracket opens, if there is any in the phrases that come next. -/
def opensNext : List Piece → Bool
  | [] => true
  | .phrase text :: rest =>
    if text.toList.any isBracket then !closesFirst text.toList else opensNext rest
  | _ => false

/-- Pieces that no escaped value can upset: every phrase is without backslashes and has whole
tags, and an escaped value stands behind a phrase or at the beginning, and in front of phrases
the first bracket of which opens. The flag tells whether what stands in front ends without a
backslash. -/
def framed : Bool → List Piece → Bool
  | _, [] => true
  | fresh, .phrase text :: rest =>
    !text.toList.contains '\\' && whole text.toList && framed (fresh || text != "") rest
  | _, .number _ :: rest => framed true rest
  | _, .bare _ :: rest => framed false rest
  | fresh, .escaped _ :: rest => fresh && opensNext rest && framed false rest

/-- Numbers are written without brackets and backslashes. -/
lemma notMem_toString (n : Nat) :
    '[' ∉ (toString n).toList ∧ '\\' ∉ (toString n).toList ∧ (toString n).toList ≠ [] := by
  have hdigits : (toString n).toList = Nat.toDigits 10 n := String.toList_ofList
  have hdigit : ∀ c ∈ Nat.toDigits 10 n, c.isDigit = true := fun c hc =>
    Nat.isDigit_of_mem_toDigits (by decide) (by decide) hc
  rw [hdigits]
  exact ⟨fun h => absurd (hdigit _ h) (by decide), fun h => absurd (hdigit _ h) (by decide),
    Nat.toDigits_ne_nil⟩

variable {pieces : List Piece} {fresh : Bool}

lemma toList_assemble_cons (piece : Piece) (pieces : List Piece) :
    (assemble (piece :: pieces)).toList = piece.text.toList ++ (assemble pieces).toList := by
  rw [assemble, List.foldr_cons, String.toList_append]
  rfl

lemma closesFirst_assemble (h : opensNext pieces = true) :
    closesFirst (assemble pieces).toList = false := by
  induction pieces with
  | nil => rfl
  | cons piece rest ih =>
    cases piece with
    | phrase text =>
      rw [opensNext] at h
      rw [toList_assemble_cons]
      change closesFirst (text.toList ++ _) = false
      rw [closesFirst_append]
      split_ifs at h ⊢ with hbracket
      · simpa using h
      · exact ih h
    | number | bare | escaped => cases h

/-- A text without an opening bracket adds no tags in front of another one. -/
lemma tagsAfter_append_of_notMem (h : '[' ∉ xs) (slashes : Nat) (rest : List Char) :
    tagsAfter slashes (xs ++ rest) = tagsAfter (slashesAfter slashes xs) rest := by
  rw [tagsAfter_append (sealed_of_whole (whole_of_notMem h) rest), tagsAfter_of_notMem h,
    List.nil_append]

/-- The first step behind a phrase. -/
lemma tagsAfter_phrase {text : String} (slash : '\\' ∉ text.toList)
    (closed : whole text.toList = true) (slashes : Nat) (rest : List Char) :
    ∃ some, some.Sublist (tags text) ∧ tagsAfter slashes (text.toList ++ rest) =
      some ++ tagsAfter (slashesAfter slashes text.toList) rest :=
  ⟨_, tagsAfter_sublist slash slashes, tagsAfter_append (sealed_of_whole closed rest) slashes⟩

/-- The invariant of the scan: in front of an escaped value there is no backslash. -/
lemma tagsAfter_assemble (h : framed fresh pieces = true) (quiet : ∀ piece ∈ pieces, piece.Quiet)
    (reset : fresh = true → slashes = 0) :
    (tagsAfter slashes (assemble pieces).toList).Sublist (pieces.flatMap Piece.tags) := by
  fun_induction framed fresh pieces generalizing slashes with
  | case1 => simp [assemble, tagsAfter]
  | case2 fresh text rest ih =>
    simp only [Bool.and_eq_true, Bool.not_eq_true'] at h
    obtain ⟨⟨hslash, hwhole⟩, h⟩ := h
    have hslash : '\\' ∉ text.toList := by simpa using hslash
    obtain ⟨some, hsome, heq⟩ := tagsAfter_phrase hslash hwhole slashes (assemble rest).toList
    rw [toList_assemble_cons, List.flatMap_cons]
    change (tagsAfter slashes (text.toList ++ _)).Sublist _
    rw [heq]
    refine hsome.append (ih h (fun piece hpiece => quiet piece (by simp [hpiece])) fun hfresh => ?_)
    by_cases hempty : text.toList = []
    · have htext : text = "" := String.toList_eq_nil_iff.mp hempty
      rw [hempty, slashesAfter]
      exact reset (by simpa [htext] using hfresh)
    · exact slashesAfter_eq_zero hslash hempty slashes
  | case3 fresh n rest ih =>
    obtain ⟨hopen, hslash, hne⟩ := notMem_toString n
    rw [toList_assemble_cons, List.flatMap_cons]
    change (tagsAfter slashes ((toString n).toList ++ _)).Sublist _
    rw [tagsAfter_append_of_notMem hopen]
    exact ih h (fun piece hpiece => quiet piece (by simp [hpiece])) fun _ =>
      slashesAfter_eq_zero hslash hne slashes
  | case4 fresh value rest ih =>
    have hquiet : '[' ∉ value.toList := quiet (.bare value) (by simp)
    rw [toList_assemble_cons, List.flatMap_cons]
    change (tagsAfter slashes (value.toList ++ _)).Sublist _
    rw [tagsAfter_append_of_notMem hquiet]
    exact ih h (fun piece hpiece => quiet piece (by simp [hpiece])) (by simp)
  | case5 fresh value rest ih =>
    simp only [Bool.and_eq_true] at h
    obtain ⟨⟨hfresh, hopens⟩, h⟩ := h
    obtain rfl := reset hfresh
    rw [toList_assemble_cons, List.flatMap_cons]
    change (tagsAfter 0 ((escape value).toList ++ _)).Sublist _
    rw [tagsAfter_append (sealed_of_opens (closesFirst_assemble hopens) _)]
    change (tags (escape value) ++ _).Sublist _
    rw [tags_escape]
    exact ih h (fun piece hpiece => quiet piece (by simp [hpiece])) (by simp)

/-- **The tags of a text that is put together** are some of those in its phrases. -/
lemma tags_assemble (h : framed true pieces = true) (quiet : ∀ piece ∈ pieces, piece.Quiet) :
    (tags (assemble pieces)).Sublist (pieces.flatMap Piece.tags) :=
  tagsAfter_assemble h quiet fun _ => rfl

end Scaffold.Markup
