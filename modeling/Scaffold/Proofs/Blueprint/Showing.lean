import Scaffold.Proofs.Blueprint.Normalizing

/-!
Shown relations.

The resources section lists entries in one of three forms, and an entry names its relation, the
name it is shown under and its class in one of several ways. Whatever is listed, the section is
refused, or every entry but blank texts shows exactly one relation, with both names trimmed.
A class has no backslash at its ends; it has no blanks there either, unless the backslashes that
are taken off the trimmed text have hidden some.

* `Lists`: which entries a section lists, in which order.
* `Shows`: which relation an entry shows.
* `include?_eq_some_iff`, `include?_eq_none_iff`: reading one entry.
* `includes_eq_ok_iff`: reading a section, `code_of_includes`: and refusing one.
* `HidesBlank`, `isTrimmed_strippedOf_iff`: when a class keeps blanks at its ends.
* `Include.IsClean`: what a relation that is shown is like.
* `includes_clean` (**shown relations are clean**): a section is refused, or its relations are.
* `includes_blankClass`: a class may be a single blank.
-/

namespace Scaffold

open Text

namespace Normalize

variable {entries : List (Document × Document)} {key : Option String} {d : Document} {i : Include}

/-! ### What a section says -/

/-- The first value that entries have for some names. -/
def firstOf (names : List String) (entries : List (Document × Document)) : Option Document :=
  names.findSome? (Document.lookup · entries)

/-- The entries in a value, each with a name of its own where it has one. -/
inductive Holds : Option Document → List (Option String × Document) → Prop
  /-- Nothing is held by nothing. -/
  | absent : Holds none []
  /-- Null counts as nothing. -/
  | null : Holds (some .null) []
  /-- A text is its only entry. -/
  | text (s : String) : Holds (some (.text s)) [(none, .text s)]
  /-- A list holds its items, without names. -/
  | list (items : List Document) : Holds (some (.list items)) (items.map (none, ·))
  /-- A mapping holds its values under those of its keys that are texts. -/
  | mapping (entries : List (Document × Document)) :
    Holds (some (.mapping entries)) (entries.map fun entry => (entry.1.asText?, entry.2))

/-- The entries that a resources section lists. -/
inductive Lists : Option Document → List (Option String × Document) → Prop
  /-- Without a section nothing is listed. -/
  | absent : Lists none []
  /-- Null counts as no section. -/
  | null : Lists (some .null) []
  /-- A section lists what is held under either of two names. -/
  | mapping {entries : List (Document × Document)} {listed : List (Option String × Document)}
      (held : Holds (firstOf ["includes", "include"] entries) listed) :
    Lists (some (.mapping entries)) listed

/-- The class that an entry declares, without blanks and then without backslashes at its ends. -/
inductive Declares : Option Document → Option String → Prop
  /-- No class is declared. -/
  | absent : Declares none none
  /-- The name of a class is what is left of a text, if anything is. -/
  | text {s name : String} (stripped : strippedOf '\\' (trimmed s) = name) (filled : name ≠ "") :
    Declares (some (.text s)) (some name)

/-- The relation that an entry under a name of its own shows. -/
inductive Shows (key : Option String) : Document → Include → Prop
  /-- A text is a relation, shown under its own name. -/
  | text {s : String} (filled : isBlankText s = false) :
    Shows key (.text s) ⟨trimmed s, trimmed s, none⟩
  /-- A mapping names a relation, or else the name of the entry does. It is shown under another
  name if there is one, and with a class if one is declared. -/
  | mapping {entries : List (Document × Document)} {relation : String} {resource : Option String}
      (named : trimmed? ((firstOf ["relation", "name"] entries).or (key.map .text)) = some relation)
      (declared : Declares (Document.lookup "resource" entries) resource) :
    Shows key (.mapping entries)
      ⟨relation, (trimmed? (firstOf ["alias", "as"] entries)).getD relation, resource⟩

/-- Whether an entry is a blank text. -/
def isBlankEntry (entry : Option String × Document) : Bool :=
  entry.2.asText?.any isBlankText

/-! ### One entry -/

lemma firstOf_pair (first second : String) (entries : List (Document × Document)) :
    firstOf [first, second] entries =
      (Document.lookup first entries).or (Document.lookup second entries) := by
  cases h : Document.lookup first entries <;> cases h' : Document.lookup second entries <;>
    simp [firstOf, h, h']

lemma className?_eq_some_iff {name : String} :
    className? d = some name ↔ Declares (some d) (some name) := by
  constructor
  · intro h
    unfold className? at h
    split at h
    · next s =>
      simp only at h
      split_ifs at h with hempty
      exact .text (Option.some.inj h) (by simpa [Option.some.inj h] using hempty)
    · cases h
  · intro h
    cases h with
    | text stripped filled => simp [className?, stripped, filled]

/-- An entry is read as the relation that it shows. -/
lemma include?_eq_some_iff : include? key d = .ok (some i) ↔ Shows key d i := by
  constructor
  · intro h
    unfold include? at h
    split at h
    · next s =>
      simp only [Except.ok.injEq] at h
      split_ifs at h with hempty
      cases h
      refine .text (eq_false_of_ne_true fun hblank => hempty ?_)
      rw [String.isEmpty_iff]
      exact trimmed_eq_empty_iff.mpr hblank
    · next entries =>
      simp only at h
      split at h
      · cases h
      · next relation hnamed =>
        rw [← Option.or_assoc, ← firstOf_pair] at hnamed
        rw [← firstOf_pair] at h
        split at h
        · next habsent =>
          cases h
          exact .mapping hnamed (habsent ▸ .absent)
        · next written hwritten =>
          split at h
          · cases h
          · next name hname =>
            cases h
            exact .mapping hnamed (hwritten ▸ className?_eq_some_iff.mp hname)
    · cases h
  · intro h
    cases h with
    | @text s filled =>
      have hne : trimmed s ≠ "" := fun hempty => by
        rw [trimmed_eq_empty_iff.mp hempty] at filled
        cases filled
      simp [include?, hne]
    | @mapping entries relation resource named declared =>
      rw [firstOf_pair, Option.or_assoc] at named
      rw [include?, firstOf_pair]
      simp only [named]
      cases hresource : Document.lookup "resource" entries with
      | none =>
        rw [hresource] at declared
        cases declared
        rfl
      | some written =>
        rw [hresource] at declared
        cases declared with
        | text stripped filled =>
          simp only [className?_eq_some_iff.mpr (.text stripped filled)]

/-- Only a blank text is read as nothing. -/
lemma include?_eq_none_iff (entry : Option String × Document) :
    include? entry.1 entry.2 = .ok none ↔ isBlankEntry entry = true := by
  obtain ⟨key, d⟩ := entry
  cases d with
  | text s =>
    have hblank : isBlankEntry (key, .text s) = isBlankText s := rfl
    rw [hblank, ← trimmed_eq_empty_iff, include?]
    by_cases hempty : trimmed s = "" <;> simp [hempty]
  | mapping entries =>
    have hfilled : isBlankEntry (key, .mapping entries) = false := rfl
    rw [hfilled, include?]
    simp only
    split
    · simp
    · split
      · simp
      · split <;> simp
  | _ => simp [include?, isBlankEntry, Document.asText?]

/-! ### A section -/

/-- Reading entries one by one and leaving out what is read as nothing relates the others to what
they are read as. -/
lemma forall₂_filterMap_iff {ε α β : Type} {f : α → Except ε (Option β)} {skipped : α → Bool}
    (skips : ∀ a, f a = .ok none ↔ skipped a = true) {as : List α} {found : List β} :
    (∃ read, List.Forall₂ (fun a b => f a = .ok b) as read ∧ read.filterMap id = found) ↔
      List.Forall₂ (fun a b => f a = .ok (some b)) (as.filter (!skipped ·)) found := by
  induction as generalizing found with
  | nil => simp [eq_comm]
  | cons a as ih =>
    by_cases hskipped : skipped a = true
    · have hnone := (skips a).mpr hskipped
      rw [List.filter_cons_of_neg (by simp [hskipped]), ← ih]
      constructor
      · rintro ⟨read, hread, rfl⟩
        obtain ⟨b, rest, hb, hrest, rfl⟩ := List.forall₂_cons_left_iff.mp hread
        rw [hnone, Except.ok.injEq] at hb
        exact ⟨rest, hrest, by simp [← hb]⟩
      · rintro ⟨rest, hrest, rfl⟩
        exact ⟨none :: rest, .cons hnone hrest, rfl⟩
    · rw [List.filter_cons_of_pos (by simp [hskipped])]
      constructor
      · rintro ⟨read, hread, rfl⟩
        obtain ⟨b, rest, hb, hrest, rfl⟩ := List.forall₂_cons_left_iff.mp hread
        cases b with
        | none => exact absurd ((skips a).mp hb) hskipped
        | some b => exact .cons hb (ih.mp ⟨rest, hrest, rfl⟩)
      · intro h
        obtain ⟨b, found, hb, hfound, rfl⟩ := List.forall₂_cons_left_iff.mp h
        obtain ⟨rest, hrest, rfl⟩ := ih.mpr hfound
        exact ⟨some b :: rest, .cons hb hrest, rfl⟩

/-- The entries of a value are those that it holds. -/
lemma definitions_eq_ok_iff {listed : List (Option String × Document)} (ne : d ≠ .null) :
    definitions d = .ok listed ↔ Holds (some d) listed := by
  constructor
  · intro h
    unfold definitions at h
    split at h <;> cases h <;> constructor
  · intro h
    cases h with
    | null => exact absurd rfl ne
    | _ => rfl

/-- The relations that entries show. -/
abbrev AllShow (listed : List (Option String × Document)) (shown : List Include) : Prop :=
  List.Forall₂ (fun entry i => Shows entry.1 entry.2 i) (listed.filter (!isBlankEntry ·)) shown

/-- **A section is read** as the relations that its entries show, blank texts left out. -/
lemma includes_eq_ok_iff {resources : Option Document} {shown : List Include} :
    includes resources = .ok shown ↔ ∃ listed, Lists resources listed ∧ AllShow listed shown := by
  have hread : ∀ {listed : List (Option String × Document)},
      (∃ read, listed.mapM (fun entry => include? entry.1 entry.2) = .ok read ∧
        read.filterMap id = shown) ↔ AllShow listed shown := by
    intro listed
    simp only [mapM_eq_ok_iff, forall₂_filterMap_iff include?_eq_none_iff, include?_eq_some_iff]
  have hnothing : ∀ {listed : List (Option String × Document)}, listed = [] →
      (shown = [] ↔ AllShow listed shown) := by
    rintro _ rfl
    simp [AllShow]
  constructor
  · intro h
    unfold includes at h
    split at h
    · cases h; exact ⟨[], .absent, .nil⟩
    · cases h; exact ⟨[], .null, .nil⟩
    · next entries =>
      rw [← firstOf_pair] at h
      split at h
      · next habsent => cases h; exact ⟨[], .mapping (habsent ▸ .absent), .nil⟩
      · next hnull => cases h; exact ⟨[], .mapping (hnull ▸ .null), .nil⟩
      · next value hne hvalue =>
        obtain ⟨listed, hlisted, h⟩ := bind_eq_ok_iff.mp h
        obtain ⟨read, hmap, h⟩ := bind_eq_ok_iff.mp h
        have hheld := (definitions_eq_ok_iff (by rintro rfl; exact hne rfl)).mp hlisted
        exact ⟨listed, .mapping (hvalue ▸ hheld), hread.mp ⟨read, hmap, Except.ok.inj h⟩⟩
    · cases h
  · rintro ⟨listed, hlists, hshown⟩
    cases hlists with
    | absent => cases hshown; rfl
    | null => cases hshown; rfl
    | @mapping entries _ held =>
      rw [includes, ← firstOf_pair]
      cases hvalue : firstOf ["includes", "include"] entries with
      | none =>
        rw [hvalue] at held
        cases held
        cases hshown
        rfl
      | some value =>
        rw [hvalue] at held
        by_cases hnull : value = .null
        · subst hnull
          cases held
          cases hshown
          rfl
        · obtain ⟨read, hmap, rfl⟩ := hread.mpr hshown
          simp only
          rw [(definitions_eq_ok_iff hnull).mpr held]
          exact bind_eq_ok_iff.mpr ⟨listed, rfl, bind_eq_ok_iff.mpr ⟨read, hmap, rfl⟩⟩

/-- A section is refused as a section of resources. -/
lemma code_of_includes {resources : Option Document} {fault : BlueprintFault}
    (h : includes resources = .error fault) : fault.code = "blueprint_invalid_resources" := by
  have hdefinitions : ∀ {d : Document}, definitions d = .error fault →
      fault.code = "blueprint_invalid_resources" := by
    intro d h
    unfold definitions at h
    split at h <;> cases h
    rfl
  have hentry : ∀ {key : Option String} {d : Document}, include? key d = .error fault →
      fault.code = "blueprint_invalid_resources" := by
    intro key d h
    unfold include? at h
    split at h
    · cases h
    · simp only at h
      split at h
      · cases h; rfl
      · split at h
        · cases h
        · split at h <;> cases h
          rfl
    · cases h; rfl
  unfold includes at h
  split at h
  · cases h
  · cases h
  · split at h
    · cases h
    · cases h
    · rcases bind_eq_error_iff.mp h with h | ⟨listed, -, h⟩
      · exact hdefinitions h
      · rcases bind_eq_error_iff.mp h with h | ⟨read, -, h⟩
        · obtain ⟨entry, -, h⟩ := exists_of_mapM_eq_error h
          exact hentry h
        · cases h
  · cases h; rfl

/-! ### Classes -/

/-- A blank is next to the backslashes in front of a trimmed text, or to those at its end. -/
def HidesBlank (s : String) : Prop :=
  (∃ c ∈ ((trim s.toList).dropWhile (· == '\\')).head?, isBlank c = true) ∨
    ∃ c ∈ ((trim s.toList).reverse.dropWhile (· == '\\')).head?, isBlank c = true

/-- What is left of a stripped list starts where the list does behind what is stripped. -/
lemma head?_stripBy_eq {p : Char → Bool} {cs : List Char} (ne : stripBy p cs ≠ []) :
    (stripBy p cs).head? = (cs.dropWhile p).head? := by
  obtain ⟨rest, hrest⟩ : stripBy p cs <+: cs.dropWhile p := List.rdropWhile_prefix p _
  rw [← hrest, List.head?_append_of_ne_nil _ ne]

/-- And it ends where the list does before what is stripped. -/
lemma getLast?_stripBy_eq {p : Char → Bool} {cs : List Char} (ne : stripBy p cs ≠ []) :
    (stripBy p cs).getLast? = (cs.reverse.dropWhile p).head? := by
  have hne : (cs.dropWhile p).reverse.dropWhile p ≠ [] := by
    simpa [stripBy] using ne
  have hreverse : cs.reverse = (cs.dropWhile p).reverse ++ (cs.takeWhile p).reverse := by
    rw [← List.reverse_append, List.takeWhile_append_dropWhile]
  rw [stripBy, List.getLast?_reverse, hreverse, List.dropWhile_append,
    if_neg (by simpa using hne), List.head?_append_of_ne_nil _ hne]

/-- What is left of a trimmed text by stripping backslashes is trimmed, unless a blank was
hidden. -/
lemma isTrimmed_strippedOf_iff {s : String} (ne : strippedOf '\\' (trimmed s) ≠ "") :
    IsTrimmed (strippedOf '\\' (trimmed s)) ↔ ¬ HidesBlank s := by
  have hlist : (strippedOf '\\' (trimmed s)).toList = stripBy (· == '\\') (trim s.toList) := by
    rw [strippedOf, trimmed, String.toList_ofList, String.toList_ofList]
  have hne : stripBy (· == '\\') (trim s.toList) ≠ [] := by
    rwa [← hlist, Ne, String.toList_eq_nil_iff]
  have hself : IsTrimmed (strippedOf '\\' (trimmed s)) ↔
      trim (strippedOf '\\' (trimmed s)).toList = (strippedOf '\\' (trimmed s)).toList := by
    refine Iff.trans ⟨And.right, fun h => isTrimmed_of_ne_empty h ne⟩ ?_
    rw [← String.toList_inj, trimmed, String.toList_ofList]
  rw [hself, hlist, trim_eq_self_iff, head?_stripBy_eq hne, getLast?_stripBy_eq hne, HidesBlank]
  simp only [not_or, not_exists, not_and, Bool.not_eq_true]

/-- A stripped text has no backslash at either end. -/
lemma strippedOf_ends {s name : String} (stripped : strippedOf '\\' s = name) :
    (∀ c ∈ name.toList.head?, c ≠ '\\') ∧ ∀ c ∈ name.toList.getLast?, c ≠ '\\' := by
  rw [← stripped, strippedOf, String.toList_ofList]
  exact ⟨fun c hc => by simpa using head?_stripBy c hc,
    fun c hc => by simpa using getLast?_stripBy c hc⟩

end Normalize

open Normalize

/-- What a relation is like that is shown for an entry. -/
structure Include.IsClean (d : Document) (i : Include) : Prop where
  /-- The relation is not blank and has no blanks at its ends. -/
  relation : IsTrimmed i.relation
  /-- Nor has the name under which it is shown. -/
  shownAs : IsTrimmed i.shownAs
  /-- The class is not empty and has no backslash at either end. -/
  resource : ∀ name, i.resource = some name → name ≠ "" ∧
    (∀ c ∈ name.toList.head?, c ≠ '\\') ∧ ∀ c ∈ name.toList.getLast?, c ≠ '\\'
  /-- Nor is it blank or has blanks at its ends, unless the text that declares it hides some. -/
  blanks : ∀ name, i.resource = some name → ∃ written,
    d.get? "resource" = some (.text written) ∧ (IsTrimmed name ↔ ¬ HidesBlank written)

/-- Whatever an entry shows is clean. -/
lemma Normalize.Shows.isClean {key : Option String} {d : Document} {i : Include}
    (h : Shows key d i) : i.IsClean d := by
  cases h with
  | @text s filled =>
    have htrimmed : IsTrimmed (trimmed s) := by
      refine isTrimmed_of_ne_empty (trimmed_trimmed s) fun hempty => ?_
      rw [trimmed_eq_empty_iff.mp hempty] at filled
      cases filled
    exact ⟨htrimmed, htrimmed, by simp, by simp⟩
  | @mapping entries relation resource named declared =>
    have hrelation := isTrimmed_of_trimmed? named
    refine ⟨hrelation, ?_, ?_, ?_⟩
    · cases hshown : trimmed? (firstOf ["alias", "as"] entries) with
      | none => exact hrelation
      | some other => exact isTrimmed_of_trimmed? hshown
    · rintro name (rfl : resource = some name)
      generalize Document.lookup "resource" entries = value at declared
      cases declared with
      | text stripped filled => exact ⟨filled, strippedOf_ends stripped⟩
    · rintro name (rfl : resource = some name)
      rw [Document.get?]
      generalize Document.lookup "resource" entries = value at declared
      cases declared with
      | @text written _ stripped filled =>
        exact ⟨written, rfl, stripped ▸ isTrimmed_strippedOf_iff (stripped.symm ▸ filled)⟩

/-- **Shown relations are clean.** A resources section is refused as one, when an entry of it
shows nothing; or what it shows are relations, one for each entry but the blank texts and in the
same order, and every one of them is clean. -/
theorem includes_clean (resources : Option Document) :
    (∃ fault, includes resources = .error fault ∧ fault.code = "blueprint_invalid_resources" ∧
      ¬ ∃ listed shown, Lists resources listed ∧ AllShow listed shown) ∨
    ∃ listed shown, includes resources = .ok shown ∧ Lists resources listed ∧
      List.Forall₂ (fun entry i => Shows entry.1 entry.2 i ∧ i.IsClean entry.2)
        (listed.filter (!isBlankEntry ·)) shown := by
  cases h : includes resources with
  | error fault =>
    refine .inl ⟨fault, rfl, code_of_includes h, ?_⟩
    rintro ⟨listed, shown, hlists, hshown⟩
    rw [includes_eq_ok_iff.mpr ⟨listed, hlists, hshown⟩] at h
    cases h
  | ok shown =>
    obtain ⟨listed, hlists, hshown⟩ := includes_eq_ok_iff.mp h
    exact .inr ⟨listed, shown, rfl, hlists, hshown.imp fun _ _ hshows => ⟨hshows, hshows.isClean⟩⟩

/-- A section that shows a relation with a class of two backslashes around a blank. -/
def blankClassSection : Document :=
  .mapping [(.text "includes", .list [.mapping [(.text "relation", .text "r"),
    (.text "resource", .text "\\ \\")]])]

/-- The class is blank, though the section is not refused. -/
theorem includes_blankClass :
    includes (some blankClassSection) = .ok [⟨"r", "r", some " "⟩] ∧ isBlankText " " = true := by
  decide +kernel

end Scaffold
