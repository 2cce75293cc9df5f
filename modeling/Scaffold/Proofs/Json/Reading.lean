import Scaffold.Proofs.Json.Numbers
import Scaffold.Proofs.Json.Strings

/-!
JSON text is read back.

A value is legible when its integers are short enough, its lists and objects are not
nested too deeply and no object repeats a key. The text of a legible value is read as
the value, whatever the indentation.

* `Legible`: values whose text is read back.
* `readValue_renderAt`: the text of a value at the head of the input.
* `parse_render`: the text of a value by itself.
-/

namespace Scaffold.Json

open Number Binary64

variable {indent : Option Nat} {rest : List Char}

/-! ### Legible values -/

mutual

/-- A value inside `depth` lists and objects whose text is read back. -/
def Legible (depth : Nat) : Json → Prop
  | int n => n.natAbs < Nat.pow 10 digitLimit
  | array items => depth < depthLimit ∧ LegibleItems (depth + 1) items
  | object members => depth < depthLimit ∧ (members.map (·.1)).Nodup ∧
      LegibleMembers (depth + 1) members
  | _ => True

/-- Values whose texts are read back. -/
def LegibleItems (depth : Nat) : List Json → Prop
  | [] => True
  | item :: items => item.Legible depth ∧ LegibleItems depth items

/-- Members whose values have texts that are read back. -/
def LegibleMembers (depth : Nat) : List (String × Json) → Prop
  | [] => True
  | (_, value) :: members => value.Legible depth ∧ LegibleMembers depth members

end

/-! ### Blanks -/

/-- The head of the input is no blank. -/
def Starts (cs : List Char) : Prop :=
  ∃ c more, cs = c :: more ∧ (c == ' ' || c == '\t' || c == '\n' || c == '\r') = false

lemma Starts.append {cs : List Char} (h : Starts cs) (more : List Char) : Starts (cs ++ more) := by
  obtain ⟨c, tail, rfl, hc⟩ := h
  exact ⟨c, tail ++ more, rfl, hc⟩

lemma Starts.skipBlanks {cs : List Char} (h : Starts cs) : skipBlanks cs = cs := by
  obtain ⟨c, tail, rfl, hc⟩ := h
  rw [Json.skipBlanks, List.dropWhile_cons, hc]
  rfl

lemma starts_cons {c : Char} (h : (c == ' ' || c == '\t' || c == '\n' || c == '\r') = false)
    (cs : List Char) : Starts (c :: cs) :=
  ⟨c, cs, rfl, h⟩

/-- A line break with its indentation is passed over. -/
lemma skipBlanks_lineBreak (depth : Nat) (h : Starts rest) :
    skipBlanks (lineBreak indent depth ++ rest) = rest := by
  cases indent with
  | none => exact h.skipBlanks
  | some width =>
    have hblank : ∀ c ∈ lineBreak (some width) depth,
        (c == ' ' || c == '\t' || c == '\n' || c == '\r') = true := by
      intro c hc
      rcases List.mem_cons.mp hc with rfl | hc
      · rfl
      · rw [(List.mem_replicate.mp hc).2]
        rfl
    rw [skipBlanks, List.dropWhile_append_of_pos hblank]
    exact h.skipBlanks

/-- What stands behind a value ends it. -/
lemma ends_cons {c : Char} (h : c = ',' ∨ c = ']' ∨ c = '\x7d' ∨ c = '\n') (cs : List Char) :
    Ends (c :: cs) := by
  rintro d hd
  rw [List.head?_cons, Option.mem_some_iff] at hd
  subst hd
  rcases h with rfl | rfl | rfl | rfl <;> decide

lemma ends_lineBreak (depth : Nat) {c : Char} (h : c = ']' ∨ c = '\x7d') (cs : List Char) :
    Ends (lineBreak indent depth ++ c :: cs) := by
  cases indent with
  | none => exact ends_cons (h.elim (fun h => .inr (.inl h)) fun h => .inr (.inr (.inl h))) cs
  | some width => exact ends_cons (.inr (.inr (.inr rfl))) _

/-! ### Simple values -/

/-- A number has no name. -/
lemma readLiteral?_of_digit {c : Char} (h : c.isDigit) (cs : List Char) :
    readLiteral? (c :: cs) = none ∧ readLiteral? ('-' :: c :: cs) = none := by
  have hne : ∀ d : Char, d.isDigit = false → (d == c) = false := by
    intro d hd
    rw [beq_eq_false_iff_ne]
    rintro rfl
    rw [h] at hd
    cases hd
  have hnames : literals = [(['n', 'u', 'l', 'l'], .null), (['t', 'r', 'u', 'e'], .bool true),
      (['f', 'a', 'l', 's', 'e'], .bool false), (['N', 'a', 'N'], .float .nan),
      (['I', 'n', 'f', 'i', 'n', 'i', 't', 'y'], .float (.ofRank false infiniteRank)),
      (['-', 'I', 'n', 'f', 'i', 'n', 'i', 't', 'y'], .float (.ofRank true infiniteRank))] := rfl
  rw [readLiteral?, readLiteral?, hnames]
  simp [List.isPrefixOf, hne]

/-- A number that starts with a digit or a minus and a digit is read as a number. -/
lemma readValue_of_digit {c : Char} (h : c.isDigit) (negative : Bool) (cs : List Char)
    (fuel depth : Nat) :
    readValue (fuel + 1) depth ((if negative then ['-'] else []) ++ c :: cs) =
      readNumber ((if negative then ['-'] else []) ++ c :: cs) := by
  have hnone := readLiteral?_of_digit h cs
  have hne : ∀ d : Char, d.isDigit = false → c ≠ d := by
    rintro d hd rfl
    rw [h] at hd
    cases hd
  cases negative with
  | true =>
    simp only [if_true, List.singleton_append]
    rw [readValue, hnone.2] <;> simp
  | false =>
    simp only [Bool.false_eq_true, if_false, List.nil_append]
    rw [readValue, hnone.1]
    · simp
    all_goals
      intros
      simp_all

/-- A finite number starts with a digit or a minus and a digit. -/
lemma exists_head_render {x : Binary64} (finite : x.isFinite) :
    ∃ (negative : Bool) (c : Char) (cs : List Char), c.isDigit ∧
      (documentLayout.render x).toList = (if negative then ['-'] else []) ++ c :: cs := by
  obtain ⟨n, negative, hvalid, -, htext⟩ := exists_numeral_render finite
  obtain ⟨c, cs, hcs⟩ := List.exists_cons_of_ne_nil hvalid.whole.ne_nil
  refine ⟨negative, c, cs ++ n.fractionText ++ n.exponentText, ?_, ?_⟩
  · exact hvalid.whole.digits c (by simp [hcs])
  · rw [htext, Numeral.text, hcs]
    simp

lemma exists_head_renderInt (n : Int) :
    ∃ (negative : Bool) (c : Char) (cs : List Char), c.isDigit ∧
      renderInt n = (if negative then ['-'] else []) ++ c :: cs := by
  have hwhole := isWhole_digitsOf n.natAbs
  obtain ⟨c, cs, hcs⟩ := List.exists_cons_of_ne_nil hwhole.ne_nil
  refine ⟨decide (n < 0), c, cs, hwhole.digits c (by simp [hcs]), ?_⟩
  rw [renderInt, hcs]
  by_cases h : n < 0 <;> simp [h]

/-- A number that is not finite is no number or is infinite. -/
lemma nan_or_infinite {x : Binary64} (h : x.isFinite = false) :
    x = .nan ∨ ∃ negative, x = .signed negative ⟨infiniteRank, by decide⟩ := by
  cases x with
  | nan => exact .inl rfl
  | signed negative rank =>
    rw [isFinite, decide_eq_false_iff_not] at h
    have hrank : rank = ⟨infiniteRank, by decide⟩ := by
      have := rank.isLt
      exact Fin.ext (by simp only [infiniteRank] at h ⊢; omega)
    exact .inr ⟨negative, hrank ▸ rfl⟩

/-- Every number is read back, those that are not finite by their names. -/
lemma readValue_float (x : Binary64) (ends : Ends rest) (fuel depth : Nat) :
    readValue (fuel + 1) depth ((documentLayout.render x).toList ++ rest) = .ok (.float x, rest) := by
  cases hfinite : x.isFinite with
  | true =>
    have hread := readNumber_render hfinite ends
    obtain ⟨negative, c, cs, hdigit, htext⟩ := exists_head_render hfinite
    rw [htext, List.append_assoc, List.cons_append] at hread ⊢
    rw [readValue_of_digit hdigit, hread]
  | false =>
    rcases nan_or_infinite hfinite with rfl | ⟨negative, rfl⟩
    · rfl
    · cases negative <;> rfl

lemma readValue_int {n : Int} (fits : n.natAbs < Nat.pow 10 digitLimit) (ends : Ends rest)
    (fuel depth : Nat) :
    readValue (fuel + 1) depth (renderInt n ++ rest) = .ok (.int n, rest) := by
  have hread := readNumber_renderInt fits ends
  obtain ⟨negative, c, cs, hdigit, htext⟩ := exists_head_renderInt n
  rw [htext, List.append_assoc, List.cons_append] at hread ⊢
  rw [readValue_of_digit hdigit, hread]

/-! ### Values, items and members -/

/-- Digits with a minus or without one start with no blank and no closing bracket. -/
lemma exists_head_signed (negative : Bool) {c : Char} (digit : c.isDigit) (cs : List Char) :
    ∃ d ds, (if negative then ['-'] else []) ++ c :: cs = d :: ds ∧
      (d == ' ' || d == '\t' || d == '\n' || d == '\r') = false ∧ d ≠ ']' := by
  cases negative with
  | true => exact ⟨'-', c :: cs, rfl, rfl, by decide⟩
  | false =>
    refine ⟨c, cs, rfl, ?_, ?_⟩
    · simp only [Bool.or_eq_false_iff, beq_eq_false_iff_ne]
      refine ⟨⟨⟨?_, ?_⟩, ?_⟩, ?_⟩ <;> rintro rfl <;> cases digit
    · rintro rfl
      cases digit

/-- The text of a value starts with no blank and no closing bracket. -/
lemma exists_head_renderAt (depth : Nat) (j : Json) :
    ∃ c cs, renderAt indent depth j = c :: cs ∧
      (c == ' ' || c == '\t' || c == '\n' || c == '\r') = false ∧ c ≠ ']' := by
  cases j with
  | null => exact ⟨'n', _, rfl, rfl, by decide⟩
  | bool b => cases b <;> exact ⟨_, _, rfl, rfl, by decide⟩
  | int n =>
    obtain ⟨negative, c, cs, hdigit, htext⟩ := exists_head_renderInt n
    rw [renderAt, htext]
    exact exists_head_signed negative hdigit cs
  | float x =>
    rw [renderAt]
    cases hfinite : x.isFinite with
    | true =>
      obtain ⟨negative, c, cs, hdigit, htext⟩ := exists_head_render hfinite
      rw [htext]
      exact exists_head_signed negative hdigit cs
    | false =>
      rcases nan_or_infinite hfinite with rfl | ⟨negative, rfl⟩
      · exact ⟨'N', _, rfl, rfl, by decide⟩
      · cases negative
        · exact ⟨'I', _, rfl, rfl, by decide⟩
        · exact ⟨'-', _, rfl, rfl, by decide⟩
  | string s =>
    rw [renderAt, quote]
    exact ⟨'"', _, rfl, rfl, by decide⟩
  | array items =>
    cases items with
    | nil => exact ⟨'[', _, rfl, rfl, by decide⟩
    | cons item items =>
      rw [renderAt]
      exact ⟨'[', _, rfl, rfl, by decide⟩
  | object members =>
    cases members with
    | nil => exact ⟨'\x7b', _, rfl, rfl, by decide⟩
    | cons member members =>
      rw [renderAt]
      exact ⟨'\x7b', _, rfl, rfl, by decide⟩

lemma starts_renderAt (depth : Nat) (j : Json) : Starts (renderAt indent depth j) := by
  obtain ⟨c, cs, htext, hblank, -⟩ := @exists_head_renderAt indent depth j
  exact ⟨c, cs, htext, hblank⟩

/-- The text of the values of a list. -/
def itemsText (indent : Option Nat) (depth : Nat) : List Json → List Char
  | [] => []
  | item :: items => renderAt indent depth item ++ renderItems indent depth items

/-- The text of the members of an object. -/
def membersText (indent : Option Nat) (depth : Nat) : List (String × Json) → List Char
  | [] => []
  | (key, value) :: members => quote key ++ colon indent ++ renderAt indent depth value
      ++ renderMembers indent depth members

/-- A colon is followed by a value, with or without a blank between them. -/
lemma skipBlanks_colon (h : Starts rest) :
    ∃ more, skipBlanks (colon indent ++ rest) = ':' :: more ∧ skipBlanks more = rest := by
  cases indent with
  | none => exact ⟨rest, rfl, h.skipBlanks⟩
  | some width =>
    refine ⟨' ' :: rest, rfl, ?_⟩
    rw [skipBlanks, List.dropWhile_cons]
    exact h.skipBlanks

/-- A member with a new key comes last. -/
lemma setMember_of_not_mem {key : String} {value : Json} {members : List (String × Json)}
    (h : key ∉ members.map (·.1)) : setMember key value members = members ++ [(key, value)] := by
  induction members with
  | nil => rfl
  | cons member members ih =>
    rw [List.map_cons, List.mem_cons, not_or] at h
    rw [setMember, if_neg (by simpa using Ne.symm h.1), ih h.2]
    rfl

mutual

/-- **The text of a legible value** is read as the value. -/
lemma readValue_renderAt (indent : Option Nat) (j : Json) (fuel depth place : Nat) (rest : List Char)
    (legible : j.Legible depth) (enough : 2 * (renderAt indent place j).length ≤ fuel)
    (ends : Ends rest) :
    readValue fuel depth (renderAt indent place j ++ rest) = .ok (j, rest) := by
  obtain ⟨c, cs, htext, -⟩ := @exists_head_renderAt indent place j
  obtain ⟨fuel, rfl⟩ : ∃ k, fuel = k + 1 := ⟨fuel - 1, by rw [htext] at enough; simp at enough; omega⟩
  match j with
  | .null => rfl
  | .bool b => cases b <;> rfl
  | .int n => exact readValue_int (by simpa only [Legible] using legible) ends fuel depth
  | .float x => exact readValue_float x ends fuel depth
  | .string s =>
    rw [renderAt, quote, List.append_assoc, List.cons_append, readValue, List.singleton_append,
      readString_quote]
    rfl
  | .array [] =>
    simp only [Legible] at legible
    rw [renderAt, List.cons_append, readValue, if_neg (by omega)]
    rfl
  | .array (item :: items) =>
    simp only [Legible] at legible
    rw [renderAt] at enough ⊢
    have hitems := readItems_itemsText indent (item :: items) fuel (depth + 1) (place + 1) place [] rest
      (by simp) legible.2 (by simp [itemsText] at enough ⊢; omega)
    obtain ⟨d, ds, hhead, hblank, hclosing⟩ := @exists_head_renderAt indent (place + 1) item
    have hstart : Starts (renderAt indent (place + 1) item) := ⟨d, ds, hhead, hblank⟩
    simp only [itemsText, List.append_assoc, List.cons_append, List.nil_append,
      List.reverse_nil] at hitems ⊢
    rw [readValue, if_neg (by omega), skipBlanks_lineBreak _ (hstart.append _)]
    rw [hhead] at hitems ⊢
    simp only [List.cons_append] at hitems ⊢
    split
    · next heq => exact absurd (List.cons.inj heq).1 hclosing
    · exact hitems
  | .object [] =>
    simp only [Legible] at legible
    rw [renderAt, List.cons_append, readValue, if_neg (by omega)]
    rfl
  | .object ((key, value) :: members) =>
    simp only [Legible] at legible
    rw [renderAt] at enough ⊢
    have hmembers := readMembers_membersText indent ((key, value) :: members) fuel (depth + 1)
      (place + 1) place [] rest (by simp) legible.2.2 (by simpa using legible.2.1)
      (by simp [membersText] at enough ⊢; omega)
    simp only [membersText, quote, List.append_assoc, List.cons_append, List.nil_append] at hmembers ⊢
    rw [readValue, if_neg (by omega), skipBlanks_lineBreak _ (starts_cons (by decide) _)]
    exact hmembers

/-- The values of a list are read one after another. -/
lemma readItems_itemsText (indent : Option Nat) (items : List Json) (fuel depth place above : Nat)
    (found : List Json) (rest : List Char) (ne : items ≠ []) (legible : LegibleItems depth items)
    (enough : 2 * (itemsText indent place items).length < fuel) :
    readItems fuel depth found
      (itemsText indent place items ++ (lineBreak indent above ++ ']' :: rest)) =
      .ok (.array (found.reverse ++ items), rest) := by
  obtain ⟨fuel, rfl⟩ : ∃ k, fuel = k + 1 := ⟨fuel - 1, by omega⟩
  match items with
  | [] => exact absurd rfl ne
  | [item] =>
    simp only [LegibleItems, itemsText, renderItems, List.append_nil] at legible enough ⊢
    have hvalue := readValue_renderAt indent item fuel depth place _ legible.1 (by omega)
      (@ends_lineBreak indent above _ (.inl rfl) rest)
    rw [readItems, hvalue]
    simp only [bind, Except.bind, skipBlanks_lineBreak above (starts_cons (c := ']') (by decide) rest)]
    simp
  | item :: next :: items =>
    simp only [LegibleItems] at legible
    simp only [itemsText, renderItems, List.length_append, List.length_cons] at enough
    have hvalue := readValue_renderAt indent item fuel depth place
      (',' :: (lineBreak indent place ++ (itemsText indent place (next :: items) ++
        (lineBreak indent above ++ ']' :: rest)))) legible.1 (by omega) (ends_cons (.inl rfl) _)
    have hitems := readItems_itemsText indent (next :: items) fuel depth place above (item :: found) rest
      (by simp) legible.2 (by simp only [itemsText, List.length_append]; omega)
    have hstart : Starts (itemsText indent place (next :: items)) := by
      rw [itemsText]
      exact (starts_renderAt place next).append _
    have htext : itemsText indent place (item :: next :: items) ++
        (lineBreak indent above ++ ']' :: rest) =
        renderAt indent place item ++ ',' :: (lineBreak indent place ++
          (itemsText indent place (next :: items) ++ (lineBreak indent above ++ ']' :: rest))) := by
      simp [itemsText, renderItems]
    rw [htext, readItems, hvalue]
    simp only [bind, Except.bind, (starts_cons (c := ',') (by decide) _).skipBlanks,
      skipBlanks_lineBreak place (hstart.append _), hitems]
    simp

/-- The members of an object are read one after another. -/
lemma readMembers_membersText (indent : Option Nat) (members : List (String × Json))
    (fuel depth place above : Nat) (found : List (String × Json)) (rest : List Char) (ne : members ≠ [])
    (legible : LegibleMembers depth members)
    (distinct : ((found ++ members).map (·.1)).Nodup)
    (enough : 2 * (membersText indent place members).length < fuel) :
    readMembers fuel depth found
      (membersText indent place members ++ (lineBreak indent above ++ '\x7d' :: rest)) =
      .ok (.object (found ++ members), rest) := by
  obtain ⟨fuel, rfl⟩ : ∃ k, fuel = k + 1 := ⟨fuel - 1, by omega⟩
  match members with
  | [] => exact absurd rfl ne
  | [(key, value)] =>
    simp only [LegibleMembers] at legible
    simp only [membersText, renderMembers, List.length_append, List.length_nil] at enough
    have hkey : key ∉ found.map (·.1) := by
      rw [List.map_append, List.nodup_append] at distinct
      exact fun hmem => distinct.2.2 key hmem key (by simp) rfl
    have hvalue := readValue_renderAt indent value fuel depth place _ legible.1 (by omega)
      (@ends_lineBreak indent above _ (.inr rfl) rest)
    obtain ⟨more, hcolon, hmore⟩ := @skipBlanks_colon indent
      (renderAt indent place value ++ (lineBreak indent above ++ '\x7d' :: rest))
      ((starts_renderAt place value).append _)
    have htext : membersText indent place [(key, value)] ++ (lineBreak indent above ++ '\x7d' :: rest) =
        '"' :: (key.toList.flatMap quoteChar ++ '"' :: (colon indent ++ (renderAt indent place value ++
          (lineBreak indent above ++ '\x7d' :: rest)))) := by
      simp [membersText, renderMembers, quote]
    rw [htext, readMembers, readString_quote]
    simp only [bind, Except.bind, hcolon, hmore, hvalue, setMember_of_not_mem hkey,
      skipBlanks_lineBreak above (starts_cons (c := '\x7d') (by decide) rest)]
  | (key, value) :: (nextKey, nextValue) :: members =>
    simp only [LegibleMembers] at legible
    simp only [membersText, renderMembers, List.length_append, List.length_cons] at enough
    have hkey : key ∉ found.map (·.1) := by
      rw [List.map_append, List.nodup_append] at distinct
      exact fun hmem => distinct.2.2 key hmem key (by simp) rfl
    have hvalue := readValue_renderAt indent value fuel depth place
      (',' :: (lineBreak indent place ++ (membersText indent place ((nextKey, nextValue) :: members) ++
        (lineBreak indent above ++ '\x7d' :: rest)))) legible.1 (by omega) (ends_cons (.inl rfl) _)
    have hmembers := readMembers_membersText indent ((nextKey, nextValue) :: members) fuel depth place
      above (found ++ [(key, value)]) rest (by simp) legible.2 (by simpa using distinct)
      (by simp only [membersText, List.length_append]; omega)
    obtain ⟨more, hcolon, hmore⟩ := @skipBlanks_colon indent
      (renderAt indent place value ++ ',' :: (lineBreak indent place ++
        (membersText indent place ((nextKey, nextValue) :: members) ++
          (lineBreak indent above ++ '\x7d' :: rest))))
      ((starts_renderAt place value).append _)
    have hstart : Starts (membersText indent place ((nextKey, nextValue) :: members)) := by
      simp only [membersText, quote, List.cons_append]
      exact starts_cons (by decide) _
    have htext : membersText indent place ((key, value) :: (nextKey, nextValue) :: members) ++
        (lineBreak indent above ++ '\x7d' :: rest) =
        '"' :: (key.toList.flatMap quoteChar ++ '"' :: (colon indent ++ (renderAt indent place value ++
          ',' :: (lineBreak indent place ++ (membersText indent place ((nextKey, nextValue) :: members) ++
            (lineBreak indent above ++ '\x7d' :: rest)))))) := by
      simp [membersText, renderMembers, quote]
    rw [htext, readMembers, readString_quote]
    simp only [bind, Except.bind, hcolon, hmore, hvalue, setMember_of_not_mem hkey,
      (starts_cons (c := ',') (by decide) _).skipBlanks, skipBlanks_lineBreak place (hstart.append _),
      hmembers]
    simp

end

/-- **The text of a legible value** by itself is read as the value. -/
lemma parse_render (indent : Option Nat) {j : Json} (legible : j.Legible 0) :
    parse (j.render indent) = .ok j := by
  have hstart : Starts (renderAt indent 0 j) := starts_renderAt 0 j
  have hvalue := readValue_renderAt indent j (2 * (renderAt indent 0 j).length + 2) 0 0 [] legible
    (by omega) (by simp [Ends])
  rw [List.append_nil] at hvalue
  rw [parse, render, String.toList_ofList, hstart.skipBlanks]
  simp only [hvalue, bind, Except.bind]
  rfl

end Scaffold.Json
