import Scaffold.Blueprint.Fault
import Scaffold.Blueprint.Module
import Scaffold.Proofs.Text.Segments
import Scaffold.Proofs.Text.Spelling

/-!
Which texts are module paths.

A module path is found by passes over the whole text: backslashes become slashes, blanks and then
slashes are stripped off the ends, and only then is the text cut. What stands at the ends and is
stripped would have been left out anyway, as a blank at the end of a segment or as a separator with
nothing behind it, so the passes find what stands between the separators of the text as it is.

* `segmentsBy`: the segments between separators of some kind; `segmentsBy_stripBy`: stripping the
  ends makes no difference.
* `segmentsByPasses`, `segmentsByPasses_eq`: the passes.
* `IsSegment`: the segments that are allowed.
* `sanitize_eq_none_iff`, `sanitize_eq_error_iff`, `sanitize_eq_some_iff`: the three outcomes.
* `segments_joinWith`: a module path consists of its segments.
* `Exchanged`, `segments_exchanged`: it does not matter which separators are used.
* `sanitize_exact` (**module paths**): which texts have which outcome.
-/

namespace Scaffold.ModulePath

open Text

variable {c : Char} {cs : List Char} {p q : Char → Bool} {text other m segment : String}

/-! ### Segments and passes -/

/-- What stands between the separators of a list, trimmed, in lower case and not empty. -/
def segmentsBy (p : Char → Bool) (cs : List Char) : List (List Char) :=
  ((pieces p cs).map fun segment => lower (trim segment)).filter (!·.isEmpty)

lemma mem_segments_iff {s : List Char} :
    s ∈ segments cs ↔ (∃ part ∈ pieces isSeparator cs, lower (trim part) = s) ∧ s ≠ [] := by
  rw [segments, List.mem_filter, List.mem_map, Bool.not_eq_true', List.isEmpty_eq_false_iff]

/-- A blank or a separator at the start makes no difference. -/
lemma segmentsBy_cons (edge : isBlank c = true ∨ p c = true) :
    segmentsBy p (c :: cs) = segmentsBy p cs := by
  by_cases hp : p c = true
  · rw [segmentsBy, pieces, if_pos hp]
    rfl
  · have hblank := edge.resolve_right hp
    obtain ⟨piece, rest, hpieces⟩ := List.exists_cons_of_ne_nil (pieces_ne_nil p cs)
    rw [segmentsBy, segmentsBy, pieces, if_neg hp, hpieces]
    simp only [List.map_cons, trim_cons_blank hblank]

/-- A blank or a separator at the end makes no difference. -/
lemma segmentsBy_append (edge : isBlank c = true ∨ p c = true) :
    segmentsBy p (cs ++ [c]) = segmentsBy p cs := by
  by_cases hp : p c = true
  · rw [segmentsBy, pieces_append_separator hp, List.map_append, List.filter_append]
    exact List.append_nil _
  · have hblank := edge.resolve_right hp
    have hnone : ∀ b ∈ [c], p b = false := by simpa using hp
    obtain ⟨front, last, hpieces, happend⟩ := exists_pieces_append cs hnone
    rw [segmentsBy, segmentsBy, happend, hpieces]
    simp only [List.map_append, List.map_cons, List.map_nil, trim_append_blank hblank]

/-- Stripping blanks or separators off the ends makes no difference. -/
lemma segmentsBy_stripBy (edge : ∀ c, q c = true → isBlank c = true ∨ p c = true) :
    segmentsBy p (stripBy q cs) = segmentsBy p cs := by
  obtain ⟨front, back, hcs, hfront, hback⟩ := exists_stripBy q cs
  generalize stripBy q cs = left at *
  subst hcs
  have hdrop : segmentsBy p (front ++ left) = segmentsBy p left := by
    induction front with
    | nil => rfl
    | cons c front ih =>
      rw [List.cons_append, segmentsBy_cons (edge c (hfront c (by simp))),
        ih fun d hd => hfront d (by simp [hd])]
  induction back using List.reverseRecOn with
  | nil => rw [List.append_nil, hdrop]
  | append_singleton back c ih =>
    rw [← List.append_assoc, segmentsBy_append (edge c (hback c (by simp))),
      ← ih fun d hd => hback d (by simp [hd])]

/-- A character, or a slash in place of a backslash. -/
def slashed (c : Char) : Char :=
  if c == '\\' then '/' else c

/-- The segments as they are found pass after pass: backslashes become slashes, blanks and then
slashes are stripped off the ends, what is left is cut at its slashes, the segments are trimmed and
put into lower case, and the empty ones are left out. -/
def segmentsByPasses (cs : List Char) : List (List Char) :=
  segmentsBy (· == '/') (stripBy (· == '/') (trim (cs.map slashed)))

lemma pieces_slashed (cs : List Char) :
    pieces (· == '/') (cs.map slashed) = pieces isSeparator cs := by
  induction cs with
  | nil => rfl
  | cons c cs ih =>
    rw [List.map_cons, pieces, pieces, ih, slashed, isSeparator]
    by_cases hback : c = '\\'
    · simp [hback]
    · simp [hback]

/-- **The passes** find what stands between the separators of the text as it is. -/
lemma segmentsByPasses_eq (cs : List Char) : segmentsByPasses cs = segments cs := by
  rw [segmentsByPasses, segmentsBy_stripBy fun c hc => .inr hc, trim_eq_stripBy,
    segmentsBy_stripBy fun c hc => .inl hc, segmentsBy, pieces_slashed, segments]

/-! ### The outcomes -/

/-- A segment that is allowed: small letters, digits and underscores. -/
def IsSegment (s : List Char) : Prop :=
  ∀ c ∈ s, c.isLower = true ∨ c.isDigit = true ∨ c = '_'

lemma isSegmentChar_iff :
    isSegmentChar c = true ↔ c.isLower = true ∨ c.isDigit = true ∨ c = '_' := by
  rw [isSegmentChar, Bool.or_eq_true, Bool.or_eq_true, beq_iff_eq, or_assoc]

lemma isSegment_iff {s : List Char} : IsSegment s ↔ s.all isSegmentChar = true := by
  rw [IsSegment, List.all_eq_true]
  exact forall₂_congr fun c _ => isSegmentChar_iff.symm

lemma not_isSegment_iff {s : List Char} : ¬ IsSegment s ↔ (!s.all isSegmentChar) = true := by
  rw [isSegment_iff, Bool.not_eq_true, Bool.not_eq_true']

instance : DecidablePred IsSegment := fun _ => decidable_of_iff _ isSegment_iff.symm

lemma sanitize_eq_error_iff_find? :
    sanitize text = .error segment ↔
      (segments text.toList).find? (fun s => !s.all isSegmentChar) = some segment.toList := by
  rw [sanitize]
  cases (segments text.toList).find? fun s => !s.all isSegmentChar with
  | none => simp
  | some s => simp [← String.toList_inj]

/-- What is reported is the first segment that is not allowed. -/
lemma sanitize_eq_error_iff :
    sanitize text = .error segment ↔ ∃ before after,
      segments text.toList = before ++ segment.toList :: after ∧ (∀ s ∈ before, IsSegment s) ∧
        ¬ IsSegment segment.toList := by
  rw [sanitize_eq_error_iff_find?, List.find?_eq_some_iff_append]
  simp only [← not_isSegment_iff, Bool.not_not, ← isSegment_iff]
  constructor
  · rintro ⟨hbad, before, after, hsplit, hbefore⟩
    exact ⟨before, after, hsplit, hbefore, hbad⟩
  · rintro ⟨before, after, hsplit, hbefore, hbad⟩
    exact ⟨hbad, before, after, hsplit, hbefore⟩

lemma exists_sanitize_eq_error_iff :
    (∃ segment, sanitize text = .error segment) ↔ ∃ s ∈ segments text.toList, ¬ IsSegment s := by
  simp only [not_isSegment_iff]
  rw [← List.find?_isSome, Option.isSome_iff_exists]
  constructor
  · rintro ⟨segment, h⟩
    exact ⟨segment.toList, sanitize_eq_error_iff_find?.mp h⟩
  · rintro ⟨s, hs⟩
    exact ⟨String.ofList s, sanitize_eq_error_iff_find?.mpr (by simpa using hs)⟩

/-- There is no fault where all segments are allowed. -/
lemma sanitize_of_forall (allowed : ∀ s ∈ segments text.toList, IsSegment s) :
    sanitize text = .ok (if (segments text.toList).isEmpty then none
      else some (String.ofList (joinWith ['/'] (segments text.toList)))) := by
  have hnone : (segments text.toList).find? (fun s => !s.all isSegmentChar) = none :=
    List.find?_eq_none.mpr fun s hs => by simpa using isSegment_iff.mp (allowed s hs)
  rw [sanitize, hnone]

lemma allowed_of_sanitize {found : Option String} (h : sanitize text = .ok found) :
    ∀ s ∈ segments text.toList, IsSegment s := by
  by_contra hbad
  push Not at hbad
  obtain ⟨segment, hsegment⟩ := exists_sanitize_eq_error_iff.mpr hbad
  cases hsegment.symm.trans h

lemma sanitize_eq_none_iff : sanitize text = .ok none ↔ segments text.toList = [] := by
  constructor
  · intro h
    rw [sanitize_of_forall (allowed_of_sanitize h), Except.ok.injEq] at h
    split_ifs at h with hempty
    exact List.isEmpty_iff.mp hempty
  · intro h
    rw [sanitize_of_forall (by simp [h]), h]
    rfl

lemma sanitize_eq_some_iff :
    sanitize text = .ok (some m) ↔ segments text.toList ≠ [] ∧
      (∀ s ∈ segments text.toList, IsSegment s) ∧
        m = String.ofList (joinWith ['/'] (segments text.toList)) := by
  constructor
  · intro h
    have hallowed := allowed_of_sanitize h
    rw [sanitize_of_forall hallowed, Except.ok.injEq] at h
    split_ifs at h with hempty
    exact ⟨by simpa using hempty, hallowed, (Option.some.inj h).symm⟩
  · rintro ⟨hne, hallowed, rfl⟩
    rw [sanitize_of_forall hallowed, if_neg (by simpa using hne)]

/-! ### Module paths again -/

/-- A character of a segment is small, not blank and no separator. -/
lemma segmentChar_cases (h : c.isLower = true ∨ c.isDigit = true ∨ c = '_') :
    IsSmall c ∧ isBlank c = false ∧ isSeparator c = false := by
  have hascii : c.toNat < 0x80 := by
    rw [isLower_iff, isDigit_iff] at h
    rcases h with h | h | rfl
    · omega
    · omega
    · decide
  exact forall_ascii (P := fun c => c.isLower = true ∨ c.isDigit = true ∨ c = '_' →
    IsSmall c ∧ isBlank c = false ∧ isSeparator c = false) (by decide +kernel) hascii h

/-- A segment that is allowed is trimmed and in lower case. -/
lemma IsSegment.lower_trim {s : List Char} (h : IsSegment s) : lower (trim s) = s := by
  have htrim : trim s = s := trim_eq_self_iff.mpr
    ⟨fun c hc => (segmentChar_cases (h c (List.mem_of_mem_head? hc))).2.1,
      fun c hc => (segmentChar_cases (h c (List.mem_of_getLast? hc))).2.1⟩
  rw [htrim]
  exact lowerAfter_of_small fun c hc => (segmentChar_cases (h c hc)).1

/-- **A module path** consists of its segments. -/
lemma segments_joinWith {found : List (List Char)} (ne : found ≠ [])
    (filled : ∀ s ∈ found, s ≠ []) (allowed : ∀ s ∈ found, IsSegment s) :
    segments (joinWith ['/'] found) = found := by
  have hpieces : pieces isSeparator (joinWith ['/'] found) = found :=
    pieces_joinWith (by decide) ne fun s hs c hc => (segmentChar_cases (allowed s hs c hc)).2.2
  have hmap : found.map (fun s => lower (trim s)) = found :=
    (List.map_congr_left (g := id) fun s hs => (allowed s hs).lower_trim).trans (List.map_id _)
  rw [segments, hpieces, hmap, List.filter_eq_self]
  intro s hs
  simpa using filled s hs

/-- Texts that differ in their separators only. -/
def Exchanged (text other : String) : Prop :=
  List.Forall₂ (fun c d => c = d ∨ isSeparator c = true ∧ isSeparator d = true)
    text.toList other.toList

lemma segments_exchanged (h : Exchanged text other) :
    segments text.toList = segments other.toList := by
  rw [segments, segments, pieces_of_forall₂ h]

/-- Only the segments decide. -/
lemma sanitize_congr (h : segments text.toList = segments other.toList) :
    sanitize text = sanitize other := by
  rw [sanitize, sanitize, h]

/-- A text has no segment when nothing but blanks stands between its separators. -/
lemma segments_eq_nil_iff :
    segments cs = [] ↔ ∀ part ∈ pieces isSeparator cs, ∀ c ∈ part, isBlank c = true := by
  rw [List.eq_nil_iff_forall_not_mem]
  simp only [mem_segments_iff, ← trim_eq_nil_iff, ← @lower_eq_nil_iff (trim _)]
  constructor
  · intro h part hpart
    by_contra hne
    exact h _ ⟨⟨part, hpart, rfl⟩, hne⟩
  · rintro h s ⟨⟨part, hpart, rfl⟩, hne⟩
    exact hne (h part hpart)

/-- **Module paths.** The segments of a text are what stands between its slashes and backslashes,
trimmed, in lower case and not empty; the passes over the whole text find the same. A text has no
module exactly if nothing but blanks stands between its separators. It is refused exactly if a
segment has a character other than small letters, digits and underscores, and then the first such
segment is named. Otherwise its module consists of the segments in their order with slashes between
them. A module is its own module, and it does not matter which separators a text uses. -/
theorem sanitize_exact (context text : String) :
    segmentsByPasses text.toList =
      ((pieces isSeparator text.toList).map fun part => lower (trim part)).filter (!·.isEmpty) ∧
    (sanitize text = .ok none ↔
      ∀ part ∈ pieces isSeparator text.toList, ∀ c ∈ part, isBlank c = true) ∧
    ((∃ fault, (sanitize text).mapError (BlueprintFault.badSegment context) = .error fault ∧
        fault.code = "blueprint_invalid_module") ↔
      ∃ part ∈ pieces isSeparator text.toList, lower (trim part) ≠ [] ∧
        ∃ c ∈ lower (trim part), ¬ (c.isLower = true ∨ c.isDigit = true ∨ c = '_')) ∧
    (∀ segment, sanitize text = .error segment ↔ ∃ before after,
      segmentsByPasses text.toList = before ++ segment.toList :: after ∧
        (∀ s ∈ before, IsSegment s) ∧ ¬ IsSegment segment.toList) ∧
    (∀ m, sanitize text = .ok (some m) ↔
      segmentsByPasses text.toList ≠ [] ∧ (∀ s ∈ segmentsByPasses text.toList, IsSegment s) ∧
        m = String.ofList (joinWith ['/'] (segmentsByPasses text.toList))) ∧
    (∀ m, sanitize text = .ok (some m) → sanitize m = .ok (some m)) ∧
    ∀ other, Exchanged text other → sanitize text = sanitize other := by
  simp only [segmentsByPasses_eq]
  refine ⟨rfl, sanitize_eq_none_iff.trans segments_eq_nil_iff, ?_, fun _ => sanitize_eq_error_iff,
    fun _ => sanitize_eq_some_iff, fun m h => ?_, fun _ h => sanitize_congr (segments_exchanged h)⟩
  · have hfault : (∃ fault, (sanitize text).mapError (BlueprintFault.badSegment context) =
        .error fault ∧ fault.code = "blueprint_invalid_module") ↔
          ∃ segment, sanitize text = .error segment := by
      simp only [mapError_eq_error_iff]
      constructor
      · rintro ⟨-, ⟨segment, h, rfl⟩, -⟩
        exact ⟨segment, h⟩
      · rintro ⟨segment, h⟩
        exact ⟨_, ⟨segment, h, rfl⟩, rfl⟩
    rw [hfault, exists_sanitize_eq_error_iff]
    constructor
    · rintro ⟨s, hs, hbad⟩
      obtain ⟨⟨part, hpart, rfl⟩, hne⟩ := mem_segments_iff.mp hs
      rw [IsSegment] at hbad
      push Not at hbad
      obtain ⟨c, hc, hnot⟩ := hbad
      exact ⟨part, hpart, hne, c, hc, by simpa using hnot⟩
    · rintro ⟨part, hpart, hne, c, hc, hnot⟩
      exact ⟨_, mem_segments_iff.mpr ⟨⟨part, hpart, rfl⟩, hne⟩, fun h => hnot (h c hc)⟩
  · obtain ⟨hne, hallowed, rfl⟩ := sanitize_eq_some_iff.mp h
    have hself : segments (joinWith ['/'] (segments text.toList)) = segments text.toList :=
      segments_joinWith hne (fun s hs => (mem_segments_iff.mp hs).2) hallowed
    refine sanitize_eq_some_iff.mpr ?_
    rw [String.toList_ofList, hself]
    exact ⟨hne, hallowed, rfl⟩

end Scaffold.ModulePath
