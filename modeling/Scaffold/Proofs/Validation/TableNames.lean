import Scaffold.Proofs.Text.Spelling
import Scaffold.Proofs.Validation.Ending
import Scaffold.Proofs.Validation.Exactness
import Scaffold.Proofs.Validation.Places

/-!
The table of a blueprint that names none.

The table is then named after the entity: the snake case of the entity, its last word in the
plural. An entity in studly case has a snake case that starts with a small letter, and a plural is
a non-empty start of its word with small letters behind it, or one of a few words. So the name of
the table has the form that validation asks for, and it is the one that validation suggests.

* `exists_regularPlural`, `plural_cases`: what a plural is made of.
* `isSnake_snake`, `isSnake_plural`, `isSnake_tableName`: snake case, plurals and table names.
* `trimmed_of_isSnake`: such names have no blanks at their ends.
* `derivedTable_accepted` (**the derived table**): no finding of either stage is about it.
-/

namespace Scaffold

open Text Normalize

variable {cs : List Char} {s word : String}

/-! ### Snake case -/

/-- A small letter, a digit or an underscore. -/
abbrev IsSnakeChar (c : Char) : Prop :=
  c.isLower = true ∨ c.isDigit = true ∨ c = '_'

/-- A name is in snake case when it starts with a small letter and has no other characters. -/
lemma isSnake_iff :
    IsSnake s ↔ (∃ c ∈ s.toList.head?, c.isLower = true) ∧ ∀ c ∈ s.toList, IsSnakeChar c := by
  rw [IsSnake]
  cases s.toList with
  | nil => simp
  | cons c cs =>
    constructor
    · rintro ⟨_, _, hcons, hfirst, hrest⟩
      obtain ⟨rfl, rfl⟩ := List.cons.inj hcons
      exact ⟨⟨c, rfl, hfirst⟩, List.forall_mem_cons.mpr ⟨.inl hfirst, hrest⟩⟩
    · rintro ⟨⟨d, hd, hfirst⟩, hall⟩
      obtain rfl : c = d := Option.some.inj hd
      exact ⟨c, cs, rfl, hfirst, fun d hd => hall d (List.mem_cons_of_mem c hd)⟩

/-- The snake case of a name in studly case is in snake case. -/
lemma isSnake_snake (studly : IsStudly s) : IsSnake (snake s) := by
  obtain ⟨c, cs, hs, hfirst, hrest⟩ := studly
  have halphanum : c.isAlphanum = true := isAlphanum_iff.mpr (.inl hfirst)
  have hsmall : c.toLower.isLower = true :=
    forall_ascii (P := fun c => c.isUpper = true → c.toLower.isLower = true) (by decide +kernel)
      (toNat_lt_of_isAlphanum halphanum) hfirst
  have hletters : ∀ d ∈ c :: cs, d.isAlphanum = true :=
    List.forall_mem_cons.mpr ⟨halphanum, hrest⟩
  rw [isSnake_iff, snake, String.toList_ofList, hs]
  refine ⟨⟨c.toLower, ?_, hsmall⟩, (snakeChars_class (by simp) hletters).2⟩
  rw [snakeChars_of_alphanum hletters]
  rfl

/-- A name in snake case has no blanks. -/
lemma trimmed_of_isSnake (h : IsSnake s) : trimmed s = s := by
  have hfilled : ∀ c ∈ s.toList, isBlank c = false := by
    intro c hc
    rcases (isSnake_iff.mp h).2 c hc with hlower | hdigit | rfl
    · exact (alphanum_cases (isAlphanum_iff.mpr (.inr (.inl hlower)))).2.2.2.1
    · exact (alphanum_cases (isAlphanum_iff.mpr (.inr (.inr hdigit)))).2.2.2.1
    · decide
  rw [← String.toList_inj, trimmed, String.toList_ofList]
  exact trim_eq_self_iff.mpr ⟨fun c hc => hfilled c (List.mem_of_mem_head? hc),
    fun c hc => hfilled c (List.mem_of_getLast? hc)⟩

/-! ### Plurals -/

/-- A regular plural is a start of the word, not an empty one, with small letters behind it. -/
lemma exists_regularPlural (cs : List Char) :
    ∃ stem ending, regularPlural cs = stem ++ ending ∧ stem <+: cs ∧ (cs ≠ [] → stem ≠ []) ∧
      ∀ c ∈ ending, c.isLower = true := by
  rw [regularPlural]
  split_ifs with hhiss hy
  · exact ⟨cs, _, rfl, List.prefix_rfl, id, by simp⟩
  · refine ⟨cs.dropLast, _, rfl, List.dropLast_prefix cs, fun _ hnil => ?_, by simp⟩
    -- the word has a character before its last one
    unfold endsInConsonantY at hy
    split at hy
    · next before _ hreverse =>
      have hlength := congrArg List.length hreverse
      have hdropped := congrArg List.length hnil
      simp only [List.length_reverse, List.length_cons, List.length_dropLast,
        List.length_nil] at hlength hdropped
      omega
    · cases hy
  · exact ⟨cs, _, rfl, List.prefix_rfl, id, by simp⟩

/-- A plural is the word itself, one of a few words, or a regular plural. -/
lemma plural_cases (word : String) :
    plural word = word ∨ plural word ∈ irregularPlurals.map Prod.snd ∨
      word ≠ "" ∧ (plural word).toList = regularPlural word.toList := by
  rw [plural]
  split_ifs with hself
  · exact .inl rfl
  · cases hother : irregularPlurals.lookup word with
    | some other => exact .inr (.inl (List.mem_map.mpr ⟨_, mem_of_lookup hother, rfl⟩))
    | none =>
      refine .inr (.inr ⟨?_, String.toList_ofList⟩)
      rintro rfl
      exact hself rfl

lemma isSnake_irregularPlurals : ∀ other ∈ irregularPlurals.map Prod.snd, IsSnake other := by
  have haccepts : ∀ other ∈ irregularPlurals.map Prod.snd, Spelling.snake.accepts other = true := by
    decide +kernel
  exact fun other hother => Spelling.accepts_snake_iff.mp (haccepts other hother)

/-- The plural has no other kinds of characters than small letters, digits and underscores if the
word has none. -/
lemma isSnakeChar_plural (h : ∀ c ∈ word.toList, IsSnakeChar c) :
    ∀ c ∈ (plural word).toList, IsSnakeChar c := by
  rcases plural_cases word with hself | hother | ⟨-, hregular⟩
  · rwa [hself]
  · exact (isSnake_iff.mp (isSnake_irregularPlurals _ hother)).2
  · obtain ⟨stem, ending, hplural, hstem, -, hending⟩ := exists_regularPlural word.toList
    rw [hregular, hplural, List.forall_mem_append]
    exact ⟨fun c hc => h c (hstem.subset hc), fun c hc => .inl (hending c hc)⟩

/-- The plural of a word in snake case is in snake case. -/
lemma isSnake_plural (h : IsSnake word) : IsSnake (plural word) := by
  obtain ⟨⟨c, hc, hfirst⟩, hall⟩ := isSnake_iff.mp h
  refine isSnake_iff.mpr ⟨?_, isSnakeChar_plural hall⟩
  rcases plural_cases word with hself | hother | ⟨hne, hregular⟩
  · exact ⟨c, by rwa [hself], hfirst⟩
  · exact (isSnake_iff.mp (isSnake_irregularPlurals _ hother)).1
  · obtain ⟨stem, ending, hplural, ⟨rest, hrest⟩, hstem, -⟩ := exists_regularPlural word.toList
    have hne : stem ≠ [] := hstem (mt String.toList_eq_nil_iff.mp hne)
    refine ⟨c, ?_, hfirst⟩
    rw [hregular, hplural, List.head?_append_of_ne_nil _ hne]
    rwa [← hrest, List.head?_append_of_ne_nil _ hne] at hc

/-! ### Table names -/

/-- What is cut in two at its last separator is put together from both parts. -/
lemma eq_of_cutLast {α : Type} {p : α → Bool} {as before after : List α}
    (h : cutLast p as = some (before, after)) : ∃ a, p a = true ∧ as = before ++ a :: after := by
  induction as generalizing before with
  | nil => cases h
  | cons a as ih =>
    rw [cutLast] at h
    split at h
    · next front back hrest =>
      obtain ⟨rfl, rfl⟩ := Prod.mk.inj (Option.some.inj h)
      obtain ⟨a', ha', rfl⟩ := ih hrest
      exact ⟨a', ha', rfl⟩
    · split_ifs at h with ha
      obtain ⟨rfl, rfl⟩ := Prod.mk.inj (Option.some.inj h)
      exact ⟨a, ha, rfl⟩

/-- **The table name** of an entity in studly case is in snake case. -/
lemma isSnake_tableName (studly : IsStudly s) : IsSnake (tableName s) := by
  have hsnake := isSnake_snake studly
  rw [tableName]
  split
  · exact isSnake_plural hsnake
  · next before last hcut =>
    obtain ⟨a, ha, hchars⟩ := eq_of_cutLast hcut
    obtain rfl : a = '_' := by simpa using ha
    obtain ⟨⟨c, hc, hfirst⟩, hall⟩ := isSnake_iff.mp hsnake
    rw [snake, String.toList_ofList, hchars] at hc hall
    rw [List.forall_mem_append, List.forall_mem_cons] at hall
    obtain ⟨hbefore, hunder, hlast⟩ := hall
    -- the snake case does not start with its last underscore
    have hne : before ≠ [] := by
      rintro rfl
      obtain rfl := Option.some.inj hc
      cases hfirst
    rw [List.head?_append_of_ne_nil _ hne] at hc
    have htable : (String.ofList before ++ "_" ++ plural (String.ofList last)).toList =
        before ++ '_' :: (plural (String.ofList last)).toList := by
      simp
    rw [isSnake_iff, htable, List.head?_append_of_ne_nil _ hne, List.forall_mem_append,
      List.forall_mem_cons]
    exact ⟨⟨c, hc, hfirst⟩, hbefore, hunder, isSnakeChar_plural (by simpa using hlast)⟩

/-- A table that is named after the entity has no finding about its name. -/
lemma code_of_checkCoherence {b : Blueprint} (suggested : b.table = tableName b.entity)
    {f : Finding} (hf : f ∈ (checkCoherence b).errors ∨ f ∈ (checkCoherence b).warnings) :
    f.code ≠ "naming.mismatch" := by
  intro hcode
  have hsubset : ∀ fs : List Finding, unique fs ⊆ fs := fun fs => (uniqueAfter_sublist [] fs).subset
  have hmem := mem_tableFindings_of_code hcode
    (hf.imp (hsubset (gathered b).errors ·) (hsubset (gathered b).warnings ·))
  simp [tableFindings, suggested] at hmem

/-- **The derived table.** The table of a blueprint whose document names an entity in studly case
and no table is named after the entity, in snake case. So the first stage, which comes to an end
exactly on encodable values, has no finding about it, nor has the second one. -/
theorem derivedTable_accepted {tree : Files.FileTree} {settings : Settings} {raw : Document}
    {source : String} {b : Blueprint} (known : List String)
    (shaped : normalize tree settings raw source = .ok b)
    {written : String} (named : raw.get? "entity" = some (.text written))
    (studly : IsStudly (trimmed written))
    (unnamed : ∀ s, raw.get? "table" = some (.text s) → isBlankText s = true) :
    b.table = tableName (trimmed written) ∧ IsSnake b.table ∧
    ((∃ found, checkStructure known b = .ok found) ↔ ∀ d ∈ b.freeValues, d.IsEncodable) ∧
    (∀ found, checkStructure known b = .ok found → ∀ f ∈ found.errors, f.path ≠ some "table") ∧
    ∀ f, f ∈ (checkCoherence b).errors ∨ f ∈ (checkCoherence b).warnings →
      f.code ≠ "naming.mismatch" := by
  cases raw with
  | mapping entries =>
    obtain ⟨hentity, htable, -⟩ := names_of_normalize shaped
    have hentity : b.entity = trimmed written := by
      rw [Document.get?] at named
      rw [named] at hentity
      obtain ⟨s, hs, htrimmed⟩ := Option.map_eq_some_iff.mp hentity
      rw [filled?] at hs
      split_ifs at hs
      rw [← htrimmed, ← Option.some.inj hs]
    have hfilled : filled? (Document.lookup "table" entries) = none := by
      unfold filled?
      split
      · next s hs => rw [if_pos (unnamed s hs)]
      · rfl
    have hsnake := isSnake_tableName studly
    rw [hfilled, Option.getD_none, hentity, trimmed_of_isSnake hsnake] at htable
    refine ⟨htable, htable ▸ hsnake, ?_, fun found hfound => ?_, fun f hf => ?_⟩
    · rw [Blueprint.exists_checkStructure_iff, Blueprint.exists_toPlain_iff]
      simp only [Document.exists_toPlain_iff]
    · refine path_of_checkStructure hfound (by simp [nameRules]) (?_ :
        Spelling.snake.violations "table" b.table = [])
      rw [Spelling.violations_eq_nil_iff, Spelling.accepts_snake_iff, htable]
      exact hsnake
    · exact code_of_checkCoherence (htable.trans (congrArg tableName hentity.symm)) hf
  | _ => cases named

/-- The document of an entity of two words whose table is blank. -/
def salesDocument : Document :=
  .mapping [(.text "entity", .text " SalesCategory "), (.text "table", .text " "),
    (.text "fields", .list [.mapping [(.text "name", .text "id"), (.text "type", .text "uuid")]])]

/-- The table of an entity of two words. -/
theorem derivedTable_accepted_twoWords :
    ∃ b, normalize ⟨[], [], [], 0⟩ .standard salesDocument "sales.yaml" = .ok b ∧
      salesDocument.get? "entity" = some (.text " SalesCategory ") ∧
      IsStudly (trimmed " SalesCategory ") ∧
      (∀ s, salesDocument.get? "table" = some (.text s) → isBlankText s = true) ∧
      b.table = "sales_categories" ∧ IsSnake b.table ∧
      (∀ found, checkStructure ["hexagonal"] b = .ok found →
        ∀ f ∈ found.errors, f.path ≠ some "table") ∧
      ∀ f, f ∈ (checkCoherence b).errors ∨ f ∈ (checkCoherence b).warnings →
        f.code ≠ "naming.mismatch" := by
  have isOk : (normalize ⟨[], [], [], 0⟩ .standard salesDocument "sales.yaml").isOk = true := by
    decide +kernel
  have named : salesDocument.get? "entity" = some (.text " SalesCategory ") := rfl
  have studly : IsStudly (trimmed " SalesCategory ") :=
    Spelling.accepts_studly_iff.mp (by decide +kernel)
  have unnamed : ∀ s, salesDocument.get? "table" = some (.text s) → isBlankText s = true := by
    intro s hs
    have hblank : salesDocument.get? "table" = some (.text " ") := rfl
    obtain rfl : " " = s := Document.text.inj (Option.some.inj (hblank.symm.trans hs))
    decide
  cases h : normalize ⟨[], [], [], 0⟩ .standard salesDocument "sales.yaml" with
  | error failure => simp [h, Except.isOk, Except.toBool] at isOk
  | ok b =>
    obtain ⟨htable, hsnake, -, hstructure, hcoherence⟩ :=
      derivedTable_accepted ["hexagonal"] h named studly unnamed
    have hname : tableName (trimmed " SalesCategory ") = "sales_categories" := by decide +kernel
    exact ⟨b, rfl, named, studly, unnamed, htable.trans hname, hsnake, hstructure, hcoherence⟩

end Scaffold
