import Scaffold.Bytes.Unique
import Scaffold.Proofs.History.Relisting
import Scaffold.Proofs.Text.Spelling

/-!
Names that a store makes are components of paths.

The name of a kept file is a number, a slug and an ending, and the name of a run is a time, two
slugs and a unique name, with hyphens between them. None of their characters separates names
or is blank, so that they stand in a path as they are and are looked up as they are. The number
in front tells the kept files of a run apart, whatever their slugs are.

* `IsPlainChar.isBlank`, `trimmed_of_plain`, `isName_of_plain`: names of plain characters.
* `backupName_eq_iff`, `keptSlug_chars`: names of kept files and what they are made of.
* `isPlainChar_of_mem_runName`: the characters of the name of a run.
* `ownNames_stand`: names of kept files and of runs as components.
-/

namespace Scaffold

open Files FileTree Text Number
open Number.Binary64 (digitsOf padded)

variable {c : Char} {name : String}

/-! ### Plain characters -/

/-- A plain character is no blank. -/
lemma IsPlainChar.isBlank (h : IsPlainChar c) : isBlank c = false := by
  rcases h with h | rfl | rfl
  · rw [isSlugChar, Bool.or_eq_true] at h
    exact (alphanum_cases (isAlphanum_iff.mpr (.inr h))).2.2.2.1
  · decide
  · decide

lemma IsPlainChar.ne_backslash (h : IsPlainChar c) : c ≠ '\\' := by
  rintro rfl
  revert h
  decide

/-- A name of plain characters has no blanks around it. -/
lemma trimmed_of_plain (plain : ∀ c ∈ name.toList, IsPlainChar c) : trimmed name = name := by
  rw [← String.toList_inj, trimmed, String.toList_ofList]
  exact trim_eq_self_iff.mpr ⟨fun c hc => (plain c (List.mem_of_mem_head? hc)).isBlank,
    fun c hc => (plain c (List.mem_of_getLast? hc)).isBlank⟩

/-- A name of plain characters, a hyphen among them, can be the name of a directory in a store. -/
lemma isName_of_plain (plain : ∀ c ∈ name.toList, IsPlainChar c) (hyphen : '-' ∈ name.toList) :
    HistoryStore.isName name = true := by
  have hname := isName_of_hyphen hyphen fun h => (plain _ h).ne_slash rfl
  have hnone : ∀ c ∈ name.toList, ¬ (c == '/' || c == '\\') = true := fun c hc => by
    simp [(plain c hc).ne_slash, (plain c hc).ne_backslash]
  simp only [HistoryStore.isName, Bool.and_eq_true, bne_iff_ne, Bool.not_eq_true',
    List.any_eq_false]
  exact ⟨⟨⟨hname.1, hname.2.1⟩, ne_up_of_hyphen hyphen⟩, hnone⟩

/-! ### Kept files -/

/-- Names of kept files are the same when their numbers and their slugs are. -/
lemma backupName_eq_iff {path path' : Option String} {index index' : Int} :
    backupName path index = backupName path' index' ↔
      index = index' ∧ keptSlug path = keptSlug path' := by
  constructor
  · intro h
    have hindex : index = index' := by
      have hnumber := leadingInt_backupName path index
      rw [h, leadingInt_backupName] at hnumber
      omega
    rw [← String.toList_inj, toList_backupName, toList_backupName, hindex,
      List.append_cancel_left_eq, List.cons.injEq, List.append_cancel_right_eq,
      String.toList_inj] at h
    exact ⟨hindex, h.2⟩
  · rintro ⟨rfl, hslug⟩
    rw [← String.toList_inj, toList_backupName, toList_backupName, hslug]

/-- A slug in the name of a kept file is made of small letters, digits and hyphens, and is not
empty. -/
lemma keptSlug_chars (path : Option String) :
    keptSlug path ≠ "" ∧
      ∀ c ∈ (keptSlug path).toList, c.isLower = true ∨ c.isDigit = true ∨ c = '-' := by
  rw [keptSlug, slugOr]
  split
  · have hlower : ("file".toList.all fun c => c.isLower) = true := by decide
    exact ⟨by decide, fun c hc => .inl (List.all_eq_true.mp hlower c hc)⟩
  · next hne =>
    refine ⟨by simpa using hne, fun c hc => ?_⟩
    rw [slug, String.toList_ofList] at hc
    rcases mem_slugChars hc with hslug | rfl
    · rw [isSlugChar, Bool.or_eq_true] at hslug
      exact hslug.imp id .inl
    · exact .inr (.inr rfl)

/-! ### Runs -/

lemma isPlainChar_hexDigit {n : Nat} (h : n < 16) : IsPlainChar (hexDigit n) := by
  have hall : ∀ n < 16, IsPlainChar (hexDigit n) := by decide
  exact hall n h

/-- Unique names are made of hexadecimal digits and hyphens. -/
lemma isPlainChar_of_mem_unique {bytes : Bytes} (h : c ∈ (Unique.name bytes).toList) :
    IsPlainChar c := by
  have hgrouped : ∀ ns cs, (∀ c ∈ cs, IsPlainChar c) →
      ∀ c ∈ Unique.grouped ns cs, IsPlainChar c := by
    intro ns cs hcs
    fun_induction Unique.grouped ns cs with
    | case1 | case2 => exact hcs
    | case3 n ns cs _ ih =>
      intro c hc
      rw [List.mem_append, List.mem_cons] at hc
      rcases hc with hc | rfl | hc
      · exact hcs c (List.mem_of_mem_take hc)
      · exact .inr (.inl rfl)
      · exact ih (fun d hd => hcs d (List.mem_of_mem_drop hd)) c hc
  rw [Unique.name, String.toList_ofList] at h
  refine hgrouped _ _ (fun c hc => ?_) c h
  rw [Bytes.toHexChars, List.mem_flatMap] at hc
  obtain ⟨b, -, hc⟩ := hc
  have hb := b.toNat_lt
  rw [List.mem_cons, List.mem_singleton] at hc
  rcases hc with rfl | rfl
  · exact isPlainChar_hexDigit (by omega)
  · exact isPlainChar_hexDigit (by omega)

/-- The name of a run is made of plain characters when its unique part is. -/
lemma isPlainChar_of_mem_runName {s : Surroundings} {b : Blueprint}
    (unique : ∀ c ∈ s.unique.toList, IsPlainChar c) (h : c ∈ (runName s b).toList) :
    IsPlainChar c := by
  have hhyphen : ∀ c ∈ "-".toList, IsPlainChar c := by
    simpa using (by decide : IsPlainChar '-')
  have hcompact : ∀ c ∈ s.started.compact.toList, IsPlainChar c := by
    intro c hc
    simp only [Calendar.Moment.compact, Calendar.Moment.digits, String.toList_ofList,
      List.mem_append] at hc
    rcases hc with ((((hc | hc) | hc) | hc) | hc) | hc <;>
      exact isPlainChar_of_isDigit (isDigit_of_mem_padded hc)
  simp only [runName, String.toList_append, List.mem_append] at h
  rcases h with (((((h | h) | h) | h) | h) | h) | h
  · exact hcompact c h
  · exact hhyphen c h
  · exact isPlainChar_of_mem_slugOr (by decide) h
  · exact hhyphen c h
  · exact isPlainChar_of_mem_slugOr (by decide) h
  · exact hhyphen c h
  · exact unique c h

/-- **Names that a store makes.** Two kept files have the same name exactly if they have the same
index and the same slug. Such a name is a number, at least three digits for an index in a list,
a slug of small letters, digits and hyphens, and an ending; it is not the name of a manifest,
and it leads from the directory of the run to something in this directory. The name of a run
is what is left of it without the blanks around it, it can be the name of a directory in a
store, and what is looked up under it is what lies in the directory of this name. -/
theorem ownNames_stand (store : HistoryStore) (tree : FileTree) :
    (∀ path path' index index', backupName path index = backupName path' index' ↔
      index = index' ∧ keptSlug path = keptSlug path') ∧
    (∀ path index, ∃ number : List Char,
      (backupName path index).toList =
        number ++ '-' :: ((keptSlug path).toList ++ ".bak".toList) ∧
      leadingInt (number ++ ['-']) = index + 1 ∧
      (0 ≤ index → 3 ≤ number.length ∧ ∀ c ∈ number, c.isDigit = true) ∧
      keptSlug path ≠ "" ∧
      ∀ c ∈ (keptSlug path).toList, c.isLower = true ∨ c.isDigit = true ∨ c = '-') ∧
    (∀ path index, backupName path index ≠ Manifest.fileName ∧
      HistoryStore.isName (backupName path index) = true ∧
      ∀ directory : Path,
        directory.child (backupName path index) = inside directory (backupName path index)) ∧
    ∀ (s : Surroundings) (bytes : Bytes) (b : Blueprint),
      let id := runName { s with unique := Unique.name bytes } b
      trimmed id = id ∧ HistoryStore.isName id = true ∧
        store.run? tree id =
          store.root?.elim (.ok none) fun root => runAt? tree (inside root id) := by
  refine ⟨fun _ _ _ _ => backupName_eq_iff, fun path index => ?_, fun path index => ?_,
    fun s bytes b => ?_⟩
  · refine ⟨(threeDigits (index + 1)).toList, toList_backupName path index,
      leadingInt_threeDigits _ _, fun hindex => ?_, keptSlug_chars path⟩
    rw [threeDigits, String.toList_ofList, if_neg (by omega)]
    refine ⟨?_, fun c hc => isDigit_of_mem_padded hc⟩
    rw [padded, List.length_append, List.length_replicate]
    omega
  · have hhyphen : '-' ∈ (backupName path index).toList := by
      simp [toList_backupName]
    have hname := isName_of_plain (fun c => isPlainChar_of_mem_backupName) hhyphen
    refine ⟨fun heq => ?_, hname, fun directory =>
      Path.child_name (isName_of_isName hname).1 directory⟩
    rw [heq] at hhyphen
    exact absurd hhyphen (by decide)
  · have hplain : ∀ c ∈ (runName { s with unique := Unique.name bytes } b).toList,
        IsPlainChar c :=
      fun c => isPlainChar_of_mem_runName fun c => isPlainChar_of_mem_unique
    have htrimmed := trimmed_of_plain hplain
    have hname := isName_of_plain hplain (hyphen_mem_runName _ b)
    refine ⟨htrimmed, hname, ?_⟩
    cases hroot : store.root? with
    | none => simp [HistoryStore.run?, hroot, pure, Except.pure]
    | some root =>
      rw [run?_eq hroot, htrimmed, if_pos hname]
      rfl

example : backupName (some "out\\Größe.TXT") 1233 = "1234-groe-txt.bak" := by decide +kernel

/-- A blueprint whose module and entity leave nothing for a slug but two letters. -/
def nearlyNameless : Blueprint :=
  { smallBlueprint with modulePath := some "../hr\\ ", entity := "日本" }

/-- The name of a run of this blueprint. -/
def namelessRun : String :=
  runName { someDay with unique := Unique.name (List.replicate 16 255) } nearlyNameless

/-- Kept files behind the thousandth have longer numbers, and what has no slug is kept and recorded
under a name of its own. -/
theorem ownNames_stand_nameless :
    backupName (some "out/日本") 999 ≠ backupName (some "out/日本") 99 ∧
    (∃ number : List Char,
      (backupName (some "out/日本") 999).toList = number ++ '-' :: "file.bak".toList ∧
      leadingInt (number ++ ['-']) = 1000 ∧ 3 ≤ number.length ∧
      (∀ c ∈ number, c.isDigit = true) ∧
      ('f'.isLower = true ∨ 'f'.isDigit = true ∨ 'f' = '-')) ∧
    namelessRun = "20240506070809-hr-entity-ffffffff-ffff-4fff-bfff-ffffffffffff" ∧
    trimmed namelessRun = namelessRun ∧ HistoryStore.isName namelessRun = true ∧
    (HistoryStore.mk "/h" true).run? (oneRun namelessRun "a") namelessRun =
      runAt? (oneRun namelessRun "a") (inside ⟨"/", ["h"]⟩ namelessRun) := by
  obtain ⟨hnames, hform, -, hruns⟩ :=
    ownNames_stand (HistoryStore.mk "/h" true) (oneRun namelessRun "a")
  have hslug : keptSlug (some "out/日本") = "file" := by decide +kernel
  obtain ⟨number, hnumber, hleading, hdigits, -, hchars⟩ := hform (some "out/日本") 999
  obtain ⟨hlength, hall⟩ := hdigits (by decide)
  rw [hslug] at hnumber hchars
  obtain ⟨htrimmed, hname, hrun⟩ := hruns someDay (List.replicate 16 255) nearlyNameless
  refine ⟨fun heq => ?_, ⟨number, hnumber, hleading, hlength, hall, hchars 'f' (by decide)⟩,
    by decide +kernel, htrimmed, hname, hrun⟩
  exact absurd ((hnames _ _ _ _).mp heq).1 (by decide)

end Scaffold
