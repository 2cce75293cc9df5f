import Scaffold.History.Journal
import Scaffold.Proofs.Files.PathText
import Scaffold.Proofs.Files.Walking
import Scaffold.Proofs.Number.Digits

/-!
The names of runs and of kept files.

Names are built from digits, slugs and hyphens, so they stand between slashes as they
are, and the number in front tells the names of kept files apart.

* `mem_slugChars`: what a slug is made of.
* `backupName_isName`, `backupName_inj`: names of kept files are names, one for each
  index; `leadingInt_backupName`: the index can be read from the name.
* `runName_isName`: the name of a run is a name.
-/

namespace Scaffold

open Files Text Number
open Number.Binary64 (digitsOf padded)

/-! ### Slugs -/

lemma mem_hyphenate {inRun : Bool} {cs : List Char} {c : Char} (h : c ∈ hyphenate inRun cs) :
    isSlugChar c = true ∨ c = '-' := by
  induction cs generalizing inRun with
  | nil => cases h
  | cons d cs ih =>
    rw [hyphenate] at h
    split at h
    · next hd =>
      rcases List.mem_cons.mp h with rfl | h
      · exact .inl hd
      · exact ih h
    · split at h
      · exact ih h
      · rcases List.mem_cons.mp h with rfl | h
        · exact .inr rfl
        · exact ih h

lemma mem_of_mem_stripBy {p : Char → Bool} {cs : List Char} {c : Char} (h : c ∈ stripBy p cs) :
    c ∈ cs := by
  rw [stripBy, List.mem_reverse] at h
  have := (List.dropWhile_sublist p).subset h
  rw [List.mem_reverse] at this
  exact (List.dropWhile_sublist p).subset this

/-- A slug is made of small letters, digits and hyphens. -/
lemma mem_slugChars {cs : List Char} {c : Char} (h : c ∈ slugChars cs) :
    isSlugChar c = true ∨ c = '-' :=
  mem_hyphenate (mem_of_mem_stripBy h)

/-- A character that may stand in the names of runs and of kept files. -/
def IsPlainChar (c : Char) : Prop :=
  isSlugChar c = true ∨ c = '-' ∨ c = '.'

instance : DecidablePred IsPlainChar := fun c =>
  inferInstanceAs (Decidable (isSlugChar c = true ∨ c = '-' ∨ c = '.'))

lemma IsPlainChar.ne_slash {c : Char} (h : IsPlainChar c) : c ≠ '/' := by
  rintro rfl
  revert h
  simp [IsPlainChar, isSlugChar]

lemma IsPlainChar.ne_zero {c : Char} (h : IsPlainChar c) : c ≠ '\x00' := by
  rintro rfl
  revert h
  simp [IsPlainChar, isSlugChar]

lemma isPlainChar_of_isDigit {c : Char} (h : c.isDigit) : IsPlainChar c := by
  simp [IsPlainChar, isSlugChar, h]

/-- A slug, or another name of the same characters in its place. -/
lemma isPlainChar_of_mem_slugOr {s other : String} {c : Char}
    (hother : other.toList.all fun c => IsPlainChar c) (h : c ∈ (slugOr s other).toList) :
    IsPlainChar c := by
  rw [slugOr] at h
  split at h
  · exact of_decide_eq_true (List.all_eq_true.mp hother c h)
  · rw [slug, String.toList_ofList] at h
    exact (mem_slugChars h).imp id .inl

/-! ### Kept files -/

/-- What stands between the number and the ending in the name of a kept file. -/
def keptSlug (path : Option String) : String :=
  slugOr (path.elim "" lastName) "file"

lemma toList_backupName (path : Option String) (index : Int) :
    (backupName path index).toList =
      (threeDigits (index + 1)).toList ++ '-' :: ((keptSlug path).toList ++ ".bak".toList) := by
  simp [backupName, keptSlug]

lemma mem_threeDigits {n : Int} {c : Char} (h : c ∈ (threeDigits n).toList) :
    c.isDigit ∨ c = '-' := by
  rw [threeDigits, String.toList_ofList] at h
  split at h
  · rcases List.mem_cons.mp h with rfl | h
    · exact .inr rfl
    · exact .inl (isDigit_of_mem_padded h)
  · exact .inl (isDigit_of_mem_padded h)

lemma padded_ne_nil (width n : Nat) : padded width (digitsOf n) ≠ [] := by
  rw [padded, Ne, List.append_eq_nil_iff]
  exact fun h => digitsOf_ne_nil n h.2

lemma isPlainChar_of_mem_backupName {path : Option String} {index : Int} {c : Char}
    (h : c ∈ (backupName path index).toList) : IsPlainChar c := by
  rw [toList_backupName, List.mem_append, List.mem_cons, List.mem_append] at h
  rcases h with h | rfl | h | h
  · exact (mem_threeDigits h).elim isPlainChar_of_isDigit fun h => .inr (.inl h)
  · exact .inr (.inl rfl)
  · exact isPlainChar_of_mem_slugOr (by decide) h
  · have hending : ".bak".toList.all fun c => IsPlainChar c := by decide
    exact of_decide_eq_true (List.all_eq_true.mp hending c h)

lemma hyphen_mem_backupName (path : Option String) (index : Int) :
    '-' ∈ (backupName path index).toList := by
  simp [toList_backupName]

/-- A text with a hyphen and without slashes is a name. -/
lemma isName_of_hyphen {name : String} (hyphen : '-' ∈ name.toList)
    (slash : '/' ∉ name.toList) : Path.IsName name := by
  refine ⟨?_, ?_, slash⟩ <;> rintro rfl <;> revert hyphen <;> decide

/-- A text with a hyphen does not lead upwards. -/
lemma ne_up_of_hyphen {name : String} (hyphen : '-' ∈ name.toList) : name ≠ ".." := by
  rintro rfl
  revert hyphen
  decide

/-- The name of a kept file stands between slashes as it is. -/
lemma backupName_isName (path : Option String) (index : Int) :
    Path.IsName (backupName path index) :=
  isName_of_hyphen (hyphen_mem_backupName path index) fun h =>
    (isPlainChar_of_mem_backupName h).ne_slash rfl

lemma backupName_ne_up (path : Option String) (index : Int) : backupName path index ≠ ".." :=
  ne_up_of_hyphen (hyphen_mem_backupName path index)

/-- The name of a manifest stands between slashes as it is. -/
lemma fileName_isName : Path.IsName Manifest.fileName := by
  refine ⟨by decide, by decide, by decide⟩

/-- Kept files have other names than manifests. -/
lemma backupName_ne_manifest (path : Option String) (index : Int) :
    backupName path index ≠ Manifest.fileName := by
  intro heq
  have := hyphen_mem_backupName path index
  rw [heq] at this
  revert this
  decide

/-- The integer at the head of a text. -/
def leadingInt : List Char → Int
  | '-' :: cs => -(natOfDecimal (cs.takeWhile Char.isDigit) : Int)
  | cs => natOfDecimal (cs.takeWhile Char.isDigit)

/-- Digits in front of a hyphen are read up to the hyphen. -/
lemma natOfDecimal_takeWhile_padded (width n : Nat) (cs : List Char) :
    natOfDecimal ((padded width (digitsOf n) ++ '-' :: cs).takeWhile Char.isDigit) = n := by
  rw [List.takeWhile_append_of_pos fun c => isDigit_of_mem_padded]
  simpa using natOfDecimal_padded width n

/-- A number with zeros in front is read as it is, up to the hyphen behind it. -/
lemma leadingInt_threeDigits (n : Int) (cs : List Char) :
    leadingInt ((threeDigits n).toList ++ '-' :: cs) = n := by
  rw [threeDigits, String.toList_ofList]
  by_cases hn : n < 0
  · rw [if_pos hn, List.cons_append, leadingInt, natOfDecimal_takeWhile_padded]
    omega
  · rw [if_neg hn]
    have hsign : ∀ rest, padded 3 (digitsOf n.natAbs) ++ '-' :: cs ≠ '-' :: rest := by
      intro rest heq
      cases hdigits : padded 3 (digitsOf n.natAbs) with
      | nil => exact padded_ne_nil _ _ hdigits
      | cons d ds =>
        have hd : d.isDigit := isDigit_of_mem_padded (by rw [hdigits]; simp)
        rw [hdigits, List.cons_append, List.cons.injEq] at heq
        rw [heq.1] at hd
        exact absurd hd (by decide)
    rw [leadingInt, natOfDecimal_takeWhile_padded]
    · omega
    · exact hsign

/-- **The number of a kept file** can be read from its name. -/
lemma leadingInt_backupName (path : Option String) (index : Int) :
    leadingInt (backupName path index).toList = index + 1 := by
  rw [toList_backupName, leadingInt_threeDigits]

/-- Each index has its own names. -/
lemma backupName_inj {path path' : Option String} {index index' : Nat}
    (h : backupName path index = backupName path' index') : index = index' := by
  have hnumber := leadingInt_backupName path index
  rw [h, leadingInt_backupName] at hnumber
  omega

/-! ### Temporary files -/

/-- The name of a temporary file. -/
def temporaryName (label token : String) : String :=
  "." ++ label ++ "." ++ token ++ ".tmp"

lemma temporaryPath_eq (final : Path) (label token : String) :
    temporaryPath final label token =
      ⟨final.anchor, final.parent.names ++ [temporaryName label token]⟩ := rfl

/-- The name of a temporary file starts with a point. -/
lemma head_temporaryName (label token : String) :
    (temporaryName label token).toList.head? = some '.' := by
  simp [temporaryName]

lemma temporaryName_ne_dot (label token : String) : temporaryName label token ≠ "." := by
  intro h
  have := congrArg (fun s => s.toList.length) h
  simp only [temporaryName, String.toList_append, List.length_append] at this
  have htmp : ".tmp".toList.length = 4 := rfl
  have hdot : ".".toList.length = 1 := rfl
  omega

lemma temporaryName_ne_up (label token : String) : temporaryName label token ≠ ".." := by
  intro h
  have := congrArg (fun s => s.toList.length) h
  simp only [temporaryName, String.toList_append, List.length_append] at this
  have htmp : ".tmp".toList.length = 4 := rfl
  have hdot : "..".toList.length = 2 := rfl
  omega

/-- Kept files have other names than temporary files. -/
lemma backupName_ne_temporary (path : Option String) (index : Int) (label token : String) :
    backupName path index ≠ temporaryName label token := by
  intro heq
  have hhead := head_temporaryName label token
  rw [← heq, toList_backupName] at hhead
  cases hdigits : (threeDigits (index + 1)).toList with
  | nil => simp [hdigits] at hhead
  | cons c cs =>
    have hc := mem_threeDigits (by rw [hdigits]; exact List.mem_cons_self)
    simp only [hdigits, List.cons_append, List.head?_cons, Option.some.injEq] at hhead
    rw [hhead] at hc
    revert hc
    decide

lemma fileName_ne_temporary (label token : String) :
    Manifest.fileName ≠ temporaryName label token := by
  intro heq
  have hhead := head_temporaryName label token
  rw [← heq] at hhead
  revert hhead
  decide

/-! ### Runs -/

lemma hyphen_mem_runName (s : Surroundings) (b : Blueprint) : '-' ∈ (runName s b).toList := by
  simp [runName]

/-- The name of a run stands between slashes as it is when the unique part does. -/
lemma runName_isName {s : Surroundings} (unique : '/' ∉ s.unique.toList) (b : Blueprint) :
    Path.IsName (runName s b) := by
  refine isName_of_hyphen (hyphen_mem_runName s b) fun h => ?_
  simp only [runName, String.toList_append, List.mem_append] at h
  have hslug : ∀ (s : String) (other : String), (other.toList.all fun c => IsPlainChar c) →
      '/' ∉ (slugOr s other).toList := fun s other hother hmem =>
    (isPlainChar_of_mem_slugOr hother hmem).ne_slash rfl
  have hcompact : '/' ∉ s.started.compact.toList := by
    intro hmem
    simp only [Calendar.Moment.compact, String.toList_ofList, List.mem_append,
      Calendar.Moment.digits] at hmem
    have hdigit : ∀ width n, '/' ∉ padded width (digitsOf n) := fun width n hpad =>
      (isPlainChar_of_isDigit (isDigit_of_mem_padded hpad)).ne_slash rfl
    simp [hdigit] at hmem
  have hhyphen : '/' ∉ "-".toList := by decide
  have hglobal := hslug (b.modulePath.getD "") "global" (by decide)
  have hentity := hslug b.entity "entity" (by decide)
  simp_all

lemma runName_ne_up (s : Surroundings) (b : Blueprint) : runName s b ≠ ".." :=
  ne_up_of_hyphen (hyphen_mem_runName s b)

/-- Runs have other names than manifests. -/
lemma runName_ne_manifest (s : Surroundings) (b : Blueprint) : runName s b ≠ Manifest.fileName := by
  intro heq
  have := hyphen_mem_runName s b
  rw [heq] at this
  revert this
  decide

end Scaffold
