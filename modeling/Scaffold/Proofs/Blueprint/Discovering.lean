import Scaffold.Blueprint.Discovery
import Scaffold.Proofs.Files.Below
import Scaffold.Proofs.Text.Segments

/-!
Which files are found.

A choice of blueprints means the files below the root with the suffix of a blueprint that lie in
the directories of its module and have its entity as their stem, up to case. The files with
exactly the names wanted are looked for first, by a path that is made of the choice as it was
written; all others are looked for by going through the whole directory. The latter finds
exactly the files that are meant. The former need not: a slash in the entity, or a dot or an
empty name in the module, leads somewhere else.

* `Wanted.directories`, `Wanted.IsPlain`: the names in a choice.
* `Meant`: the files that a choice means.
* `exactPath_of_noSlash`, `meant_exactPath_iff`: where the names of a choice lead, and when what
  they lead to is meant.
* `scan_spec`: going through the directory finds the files that are meant.
* `FoundExact`, `find_cases`: how files are found; `find_meant`: what is found.
-/

namespace Scaffold.Discovery

open Files FileTree Text

/-! ### Choices -/

/-- The names of the directories in a choice. -/
def Wanted.directories (wanted : Wanted) : List String :=
  wanted.directory?.elim [] Path.namesBetween

/-- A choice whose names are names of directories and of a file. -/
structure Wanted.IsPlain (wanted : Wanted) : Prop where
  /-- The entity has no slash. -/
  stem : ∀ stem, wanted.stem? = some stem → '/' ∉ stem.toList
  /-- No directory is empty or a dot. -/
  directories : ∀ name ∈ wanted.directories, Path.IsName name ∧ name ≠ ".."

/-- The path of a file with exactly the names wanted. -/
def exactPath (root : Path) (wanted : Wanted) (stem suffix : String) : Path :=
  root.child (wanted.directory?.elim "" (· ++ "/") ++ stem ++ suffix)

/-- There is no file with exactly the names wanted. -/
def NoExact (tree : FileTree) (root : Path) (wanted : Wanted) : Prop :=
  ∀ stem, wanted.stem? = some stem → ∀ suffix ∈ suffixes,
    tree.isFile (exactPath root wanted stem suffix) = .ok false

/-- A file with exactly the names wanted cannot be looked for, since a name is too long. -/
def TooLongExact (tree : FileTree) (root : Path) (wanted : Wanted) : Prop :=
  ∃ stem, wanted.stem? = some stem ∧ ∃ suffix ∈ suffixes,
    tree.isFile (exactPath root wanted stem suffix) = .error .nameTooLong

/-- A file that a choice means. -/
structure Meant (tree : FileTree) (root : Path) (wanted : Wanted) (path : Path) : Prop where
  /-- The path denotes a file. -/
  file : tree.isFile path = .ok true
  /-- It lies below the root, in the directories wanted. -/
  inside : ∃ directories name, path = root.extended (directories ++ [name]) ∧
    (∀ other ∈ directories ++ [name], Path.IsName other ∧ other ≠ "..") ∧
    wanted.directories.map lowered <+: directories.map lowered
  /-- It has the suffix of a blueprint. -/
  suffix : lowered path.suffix ∈ suffixes
  /-- Its stem is the entity wanted. -/
  stem : ∀ stem, wanted.stem? = some stem → lowered path.stem = lowered stem

variable {tree : FileTree} {root path : Path} {place : Place} {wanted : Wanted}
  {stem suffix directory name : String} {directories : List String}

lemma ne_empty_of_nonempty? {s t : String} (h : nonempty? s = some t) : t ≠ "" := by
  rw [nonempty?] at h
  split_ifs at h with hempty
  obtain rfl := Option.some.inj h
  rwa [String.isEmpty_iff] at hempty

lemma Wanted.stem_ne_empty (h : wanted.stem? = some stem) : stem ≠ "" := by
  obtain ⟨text, -, htext⟩ := Option.bind_eq_some_iff.mp h
  exact ne_empty_of_nonempty? htext

/-- The directories of a choice do not start with a slash. -/
lemma Wanted.directory_head (h : wanted.directory? = some directory) :
    ∃ c cs, directory.toList = c :: cs ∧ c ≠ '/' := by
  obtain ⟨text, -, htext⟩ := Option.bind_eq_some_iff.mp h
  have hne := ne_empty_of_nonempty? htext
  rw [nonempty?] at htext
  split_ifs at htext
  have hstripped := Option.some.inj htext
  obtain ⟨c, cs, hcs⟩ := List.exists_cons_of_ne_nil (mt String.toList_eq_nil_iff.mp hne)
  refine ⟨c, cs, hcs, ?_⟩
  rw [← hstripped, strippedOf, String.toList_ofList] at hcs
  have hfirst := head?_stripBy c (by rw [hcs]; rfl)
  exact beq_eq_false_iff_ne.mp hfirst

/-! ### Exact names -/

/-- A suffix is a point with letters behind it. -/
lemma exists_of_suffix (h : suffix ∈ suffixes) :
    ∃ cs, suffix.toList = '.' :: cs ∧ 2 ≤ cs.length ∧ ∀ c ∈ cs, c ≠ '.' ∧ c ≠ '/' := by
  rw [suffixes] at h
  rcases List.mem_pair.mp h with rfl | rfl
  · exact ⟨['y', 'a', 'm', 'l'], rfl, by decide, by simp⟩
  · exact ⟨['y', 'm', 'l'], rfl, by decide, by simp⟩

/-- A suffix makes any text without slashes the name of a file. -/
lemma isName_append (slash : '/' ∉ stem.toList) (h : suffix ∈ suffixes) :
    Path.IsName (stem ++ suffix) ∧ stem ++ suffix ≠ ".." := by
  obtain ⟨cs, hcs, hlength, hplain⟩ := exists_of_suffix h
  have hlong : 2 < (stem ++ suffix).toList.length := by
    rw [String.toList_append, hcs, List.length_append, List.length_cons]
    omega
  have hne : ∀ short : String, short.toList.length ≤ 2 → stem ++ suffix ≠ short := by
    rintro short hshort rfl
    omega
  refine ⟨⟨hne "" (by decide), hne "." (by decide), ?_⟩, hne ".." (by decide)⟩
  rw [String.toList_append, hcs, List.mem_append, List.mem_cons]
  rintro (hslash | hslash | hslash)
  · exact slash hslash
  · exact absurd hslash (by decide)
  · exact (hplain '/' hslash).2 rfl

/-- The stem and the suffix of a name that is made of them. -/
lemma splitSuffix_append (ne : stem ≠ "") (h : suffix ∈ suffixes) :
    Path.splitSuffix (stem ++ suffix) = (stem, suffix) := by
  obtain ⟨cs, hcs, hlength, hplain⟩ := exists_of_suffix h
  have hne : cs ≠ [] := List.ne_nil_of_length_pos (by omega)
  have hpoint : ∀ c ∈ cs, (c == '.') = false := fun c hc => beq_eq_false_iff_ne.mpr (hplain c hc).1
  rw [Path.splitSuffix, String.toList_append, hcs, cutLast_append (by simp) hpoint]
  simp [ne, hne, ← hcs]

/-- A name that is nothing but a suffix has none. -/
lemma splitSuffix_suffix (h : suffix ∈ suffixes) : Path.splitSuffix suffix = (suffix, "") := by
  rw [suffixes] at h
  rcases List.mem_pair.mp h with rfl | rfl <;> decide +kernel

/-- Exact names lead to a name that ends in the suffix. -/
lemma exists_exactPath (root : Path) (wanted : Wanted) (stem : String) (h : suffix ∈ suffixes) :
    ∃ anchor front last, '/' ∉ last.toList ∧
      exactPath root wanted stem suffix = ⟨anchor, front ++ [last ++ suffix]⟩ := by
  rw [exactPath]
  generalize wanted.directory?.elim "" (· ++ "/") ++ stem = text
  have hsuffix : '/' ∉ suffix.toList := by
    have hname := (isName_append (by simp) h : Path.IsName ("" ++ suffix) ∧ _).1.2.2
    rwa [String.empty_append] at hname
  obtain ⟨front, last, hcut, happend⟩ := Path.exists_namesBetween_append text hsuffix
  have hlast : '/' ∉ last.toList :=
    Path.slash_notMem_of_namesBetween (by rw [hcut]; simp : last ∈ Path.namesBetween text)
  obtain ⟨kept, hnames⟩ :
      ∃ kept, (Path.ofText (text ++ suffix)).names = kept ++ [last ++ suffix] := by
    rw [Path.names_ofText, happend, List.filter_append,
      Path.filter_names (List.forall_mem_singleton.mpr (isName_append hlast h).1)]
    exact ⟨_, rfl⟩
  rw [Path.child, Path.join]
  split
  · exact ⟨_, kept, last, hlast, congrArg (Files.Path.mk _) hnames⟩
  · refine ⟨root.anchor, root.names ++ kept, last, hlast, ?_⟩
    rw [hnames, ← List.append_assoc]

/-- The two exact names are different. -/
lemma nodup_exactPaths (root : Path) (wanted : Wanted) (stem : String) :
    (suffixes.map (exactPath root wanted stem)).Nodup := by
  obtain ⟨anchor, front, last, -, hlong⟩ :=
    @exists_exactPath ".yaml" root wanted stem (by decide)
  obtain ⟨anchor', front', last', -, hshort⟩ :=
    @exists_exactPath ".yml" root wanted stem (by decide)
  have hne : exactPath root wanted stem ".yaml" ≠ exactPath root wanted stem ".yml" := by
    rw [hlong, hshort]
    intro heq
    have hname : last ++ ".yaml" = last' ++ ".yml" :=
      List.singleton_inj.mp (List.append_inj' (congrArg Path.names heq) rfl).2
    have hback := congrArg (fun s : String => s.toList.reverse) hname
    simp at hback
  rw [suffixes, List.map_cons, List.map_singleton, List.nodup_cons, List.mem_singleton]
  exact ⟨hne, List.nodup_singleton _⟩

/-- Exact names without a slash in the entity lead below the root, through the directories
wanted. -/
lemma exactPath_of_noSlash (slash : '/' ∉ stem.toList) (h : suffix ∈ suffixes) :
    exactPath root wanted stem suffix =
      root.extended ((wanted.directories.filter fun name => name != "" && name != ".") ++
        [stem ++ suffix]) := by
  obtain ⟨hname, -⟩ := isName_append slash h
  have hslash := hname.2.2
  have hkept := Path.filter_names (List.forall_mem_singleton.mpr hname)
  have hone : Path.namesBetween (stem ++ suffix) = [stem ++ suffix] := by
    have hcut := Path.namesBetween_joinNames (List.cons_ne_nil _ [])
      (List.forall_mem_singleton.mpr hslash)
    rwa [Path.joinNames_singleton] at hcut
  cases hdirectory : wanted.directory? with
  | none =>
    have hhead : ∀ c ∈ (stem ++ suffix).toList.head?, c ≠ '/' := by
      rintro c hc rfl
      exact hslash (List.mem_of_mem_head? hc)
    rw [exactPath, Wanted.directories, hdirectory, Option.elim_none, Option.elim_none,
      String.empty_append, Path.child_of_head hhead, hone, hkept]
    rfl
  | some directory =>
    obtain ⟨c, cs, hcs, hc⟩ := Wanted.directory_head hdirectory
    have hhead : ∀ d ∈ (directory ++ "/" ++ (stem ++ suffix)).toList.head?, d ≠ '/' := by
      simp [String.toList_append, hcs, hc]
    rw [exactPath, Wanted.directories, hdirectory, Option.elim_some, Option.elim_some,
      String.append_assoc, Path.child_of_head hhead, Path.namesBetween_append, hone,
      List.filter_append, hkept]
    rfl

@[simp] lemma stem_append (anchor : String) (front : List String) (name : String) :
    Path.stem ⟨anchor, front ++ [name]⟩ = (Path.splitSuffix name).1 := by
  simp [Path.stem, Path.name]

@[simp] lemma suffix_append (anchor : String) (front : List String) (name : String) :
    Path.suffix ⟨anchor, front ++ [name]⟩ = (Path.splitSuffix name).2 := by
  simp [Path.suffix, Path.name]

/-- What is meant has a stem without slashes, so the entity has none either. -/
lemma noSlash_of_meant (hstem : wanted.stem? = some stem) (h : suffix ∈ suffixes)
    (meant : Meant tree root wanted (exactPath root wanted stem suffix)) : '/' ∉ stem.toList := by
  obtain ⟨anchor, front, last, hlast, hpath⟩ := exists_exactPath root wanted stem h
  have hne : last ≠ "" := by
    rintro rfl
    have hsuffix := meant.suffix
    rw [hpath, suffix_append, String.empty_append, splitSuffix_suffix h] at hsuffix
    simp only at hsuffix
    exact absurd hsuffix (by decide)
  have hlowered := meant.stem stem hstem
  rw [hpath, stem_append, splitSuffix_append hne h, lowered, lowered, String.ofList_inj] at hlowered
  rwa [← slash_mem_lower_iff, ← hlowered, slash_mem_lower_iff]

lemma isPlain_of_meant (hstem : wanted.stem? = some stem) (h : suffix ∈ suffixes)
    (meant : Meant tree root wanted (exactPath root wanted stem suffix)) : wanted.IsPlain := by
  have hslash := noSlash_of_meant hstem h meant
  obtain ⟨directories, name, hpath, hplain, hprefix⟩ := meant.inside
  rw [exactPath_of_noSlash hslash h, Path.extended_inj] at hpath
  obtain ⟨hkept, -⟩ := List.append_inj' hpath rfl
  -- the directories that are left out would be missing on the way
  have hall : (wanted.directories.filter fun name => name != "" && name != ".") =
      wanted.directories := by
    have hlength := hprefix.length_le
    rw [List.length_map, List.length_map, ← hkept] at hlength
    exact List.filter_sublist.eq_of_length_le hlength
  refine ⟨fun other hother => ?_, fun name hname => ?_⟩
  · obtain rfl := Option.some.inj (hstem.symm.trans hother)
    exact hslash
  · rw [← hall, hkept] at hname
    exact hplain name (List.mem_append_left _ hname)

lemma meant_of_isPlain (plain : wanted.IsPlain) (hstem : wanted.stem? = some stem)
    (h : suffix ∈ suffixes)
    (file : tree.isFile (exactPath root wanted stem suffix) = .ok true) :
    Meant tree root wanted (exactPath root wanted stem suffix) := by
  have hslash := plain.stem stem hstem
  have hne := Wanted.stem_ne_empty hstem
  have hpath := @exactPath_of_noSlash root wanted stem suffix hslash h
  rw [Path.filter_names fun name hname => (plain.directories name hname).1] at hpath
  refine ⟨file, ⟨wanted.directories, stem ++ suffix, hpath, ?_, List.prefix_rfl⟩, ?_, ?_⟩
  · intro other hother
    rcases List.mem_append.mp hother with hother | hother
    · exact plain.directories other hother
    · rw [List.mem_singleton.mp hother]
      exact isName_append hslash h
  · have hlowered : ∀ suffix ∈ suffixes, lowered suffix ∈ suffixes := by decide +kernel
    rw [hpath, Path.extended, ← List.append_assoc, suffix_append, splitSuffix_append hne h]
    exact hlowered suffix h
  · intro other hother
    obtain rfl := Option.some.inj (hstem.symm.trans hother)
    rw [hpath, Path.extended, ← List.append_assoc, stem_append, splitSuffix_append hne h]

/-- **When exact names lead to what is meant**: the names are those of directories and of a
file. -/
lemma meant_exactPath_iff (hstem : wanted.stem? = some stem) (h : suffix ∈ suffixes)
    (file : tree.isFile (exactPath root wanted stem suffix) = .ok true) :
    Meant tree root wanted (exactPath root wanted stem suffix) ↔ wanted.IsPlain :=
  ⟨isPlain_of_meant hstem h, fun plain => meant_of_isPlain plain hstem h file⟩

/-! ### Going through the directory -/

lemma noSlash_lowered {s : String} (h : '/' ∉ s.toList) : '/' ∉ (lowered s).toList := by
  rwa [lowered, String.toList_ofList, slash_mem_lower_iff]

/-- A path starts with the directories wanted exactly if the names on it do. -/
lemma all_startsWith_iff (plain : ∀ other ∈ directories ++ [name], '/' ∉ other.toList) :
    (wanted.directory?.all fun directory =>
      (lowered (Path.joinNames (directories ++ [name]))).startsWith (lowered directory ++ "/")) =
        true ↔ wanted.directories.map lowered <+: directories.map lowered := by
  rw [Wanted.directories]
  cases hdirectory : wanted.directory? with
  | none => simp
  | some directory =>
    have hwanted : lowered directory =
        Path.joinNames ((Path.namesBetween directory).map lowered) := by
      rw [← Path.lowered_joinNames, Path.joinNames_namesBetween]
    have hslash : ∀ other ∈ (Path.namesBetween directory).map lowered, '/' ∉ other.toList := by
      intro other hother
      obtain ⟨between, hbetween, rfl⟩ := List.mem_map.mp hother
      exact noSlash_lowered (Path.slash_notMem_of_namesBetween hbetween)
    have hslash' : ∀ other ∈ directories.map lowered ++ [lowered name], '/' ∉ other.toList := by
      intro other hother
      rw [← List.map_singleton, ← List.map_append] at hother
      obtain ⟨onPath, honPath, rfl⟩ := List.mem_map.mp hother
      exact noSlash_lowered (plain onPath honPath)
    rw [Option.all_some, Option.elim_some, hwanted, Path.lowered_joinNames, List.map_append,
      List.map_singleton]
    exact Path.startsWith_joinNames (by simp [Path.namesBetween_ne_nil]) hslash hslash'

lemma isWanted_extended_iff (plain : ∀ other ∈ directories ++ [name], '/' ∉ other.toList)
    (hpath : path = root.extended (directories ++ [name])) :
    isWanted root wanted.directory? wanted.stem? path = true ↔
      lowered path.suffix ∈ suffixes ∧
        wanted.directories.map lowered <+: directories.map lowered ∧
        ∀ stem, wanted.stem? = some stem → lowered path.stem = lowered stem := by
  have hinside : path.names.drop root.names.length = directories ++ [name] := by
    rw [hpath, Path.extended, List.drop_left]
  have hstem : (wanted.stem?.all fun stem => lowered path.stem == lowered stem) = true ↔
      ∀ stem, wanted.stem? = some stem → lowered path.stem = lowered stem := by
    cases wanted.stem? <;> simp
  rw [isWanted, hinside, Bool.and_eq_true, Bool.and_eq_true, all_startsWith_iff plain, hstem,
    List.contains_iff_mem, and_assoc]

/-- Of what is there, the files that are wanted are meant. -/
lemma meant_extended_iff (ordinary : tree.Ordinary)
    (there : tree.node? (place ++ (directories ++ [name])) ≠ none)
    (hpath : path = root.extended (directories ++ [name])) :
    Meant tree root wanted path ↔ tree.isFile path = .ok true ∧
      isWanted root wanted.directory? wanted.stem? path = true := by
  have hplain : ∀ other ∈ directories ++ [name], Path.IsName other ∧ other ≠ ".." :=
    fun other hother => ordinary.plain there hother
  rw [isWanted_extended_iff (fun other hother => (hplain other hother).1.2.2) hpath]
  constructor
  · intro meant
    obtain ⟨others, last, hsame, -, hprefix⟩ := meant.inside
    rw [hpath, Path.extended_inj] at hsame
    obtain ⟨rfl, -⟩ := List.append_inj' hsame rfl
    exact ⟨meant.file, meant.suffix, hprefix, meant.stem⟩
  · rintro ⟨hfile, hsuffix, hprefix, hstem⟩
    exact ⟨hfile, ⟨directories, name, hpath, hplain, hprefix⟩, hsuffix, hstem⟩

/-- **Going through the directory finds the files that are meant**, and each of them once. -/
lemma scan_spec (ordinary : tree.Ordinary)
    (located : tree.locate true root = .ok ⟨place, some .directory⟩) :
    ∃ found, scan tree root wanted.directory? wanted.stem? = .ok found ∧ found.Nodup ∧
      found.Pairwise (fun p q => p.comesBefore q = true) ∧
      ∀ path, path ∈ found ↔ Meant tree root wanted path := by
  cases hfiles : filesAmong tree (tree.allEntriesOf root) with
  | error fault =>
    obtain ⟨path, hpath, hfault⟩ := exists_of_filterM_eq_error hfiles
    obtain ⟨names, hne, hnode, rfl⟩ := (mem_allEntriesOf_iff located).mp hpath
    obtain ⟨answer, hanswer⟩ := exists_isFile ordinary located hne hnode
    rw [hanswer] at hfault
    cases hfault
  | ok files =>
    obtain ⟨isFile, hisFile, rfl⟩ := filterM_eq_ok_iff.mp hfiles
    refine ⟨_, by rw [scan, hfiles]; rfl, ?_, Path.pairwise_sort _, fun path => ?_⟩
    · refine (Path.sort_perm _).nodup_iff.mpr ?_
      exact ((nodup_allEntriesOf ordinary located).filter _).filter _
    · rw [(Path.sort_perm _).mem_iff, List.mem_filter, List.mem_filter]
      constructor
      · rintro ⟨⟨hmem, hfile⟩, hwanted⟩
        obtain ⟨names, hne, hnode, hpath⟩ := (mem_allEntriesOf_iff located).mp hmem
        obtain ⟨directories, name, rfl⟩ := (List.eq_nil_or_concat' names).resolve_left hne
        have hanswer := hisFile path hmem
        rw [hfile] at hanswer
        exact (meant_extended_iff ordinary hnode hpath).mpr ⟨hanswer, hwanted⟩
      · intro meant
        obtain ⟨directories, name, hpath, hplain, -⟩ := meant.inside
        have hnode : tree.node? (place ++ (directories ++ [name])) ≠ none :=
          node?_of_isFile ordinary located (by simp) hplain (hpath ▸ meant.file)
        have hmem := (mem_allEntriesOf_iff located).mpr ⟨_, by simp, hnode, hpath⟩
        have hanswer := hisFile path hmem
        rw [meant.file] at hanswer
        exact ⟨⟨hmem, (Except.ok.inj hanswer).symm⟩,
          ((meant_extended_iff ordinary hnode hpath).mp meant).2⟩

/-! ### Finding files -/

/-- What the search for exact names has found. -/
structure FoundExact (tree : FileTree) (root : Path) (wanted : Wanted) (stem : String)
    (found : List Path) : Prop where
  /-- The entity wanted. -/
  entity : wanted.stem? = some stem
  /-- Something is found. -/
  ne : found ≠ []
  /-- The paths have exactly the names wanted. -/
  sublist : found.Sublist (suffixes.map (exactPath root wanted stem))
  /-- They denote files. -/
  files : ∀ path ∈ found, tree.isFile path = .ok true
  /-- All exact names can be looked for. -/
  answers : ∀ suffix ∈ suffixes, ∃ answer,
    tree.isFile (exactPath root wanted stem suffix) = .ok answer

/-- The search for exact names finds nothing when there is no such file. -/
lemma noExact_or_foundExact {found : List Path} (hstem : wanted.stem? = some stem)
    (hexact : exact tree root wanted.directory? stem = .ok found) :
    found = [] ∧ NoExact tree root wanted ∨ FoundExact tree root wanted stem found := by
  obtain ⟨isFile, hisFile, rfl⟩ := filterM_eq_ok_iff.mp hexact
  have hall : ∀ suffix ∈ suffixes, tree.isFile (exactPath root wanted stem suffix) =
      .ok (isFile (exactPath root wanted stem suffix)) :=
    List.forall_mem_map.mp hisFile
  by_cases hnil : (suffixes.map (exactPath root wanted stem)).filter isFile = []
  · refine .inl ⟨hnil, fun other hother suffix hsuffix => ?_⟩
    obtain rfl := Option.some.inj (hstem.symm.trans hother)
    have hfalse := List.filter_eq_nil_iff.mp hnil _ (List.mem_map_of_mem hsuffix)
    rw [hall suffix hsuffix, Bool.eq_false_iff.mpr hfalse]
  · refine .inr ⟨hstem, hnil, List.filter_sublist, fun path hpath => ?_,
      fun suffix hsuffix => ⟨_, hall suffix hsuffix⟩⟩
    obtain ⟨hmem, htrue⟩ := List.mem_filter.mp hpath
    rw [hisFile path hmem, htrue]

/-- Exact names are looked for first: they may be too long, or files may have them, or else the
directory is gone through. -/
lemma find_cases (present : tree.isDirectory root = .ok true) :
    TooLongExact tree root wanted ∧ find tree root wanted = .error .nameTooLong ∨
      (∃ stem found, FoundExact tree root wanted stem found ∧
        find tree root wanted = .ok (Path.sort found)) ∨
      NoExact tree root wanted ∧
        find tree root wanted = scan tree root wanted.directory? wanted.stem? := by
  rw [find, present]
  simp only [bind, Except.bind, Bool.not_true, Bool.false_eq_true, if_false]
  cases hstem : wanted.stem? with
  | none =>
    refine .inr (.inr ⟨fun stem h => ?_, rfl⟩)
    rw [hstem] at h
    cases h
  | some stem =>
    cases hexact : exact tree root wanted.directory? stem with
    | error fault =>
      obtain ⟨path, hpath, hfault⟩ := exists_of_filterM_eq_error hexact
      obtain ⟨suffix, hsuffix, rfl⟩ := List.mem_map.mp hpath
      obtain ⟨rfl, -⟩ := holds_eq_error_iff.mp hfault
      exact .inl ⟨⟨stem, hstem, suffix, hsuffix, hfault⟩, by simp only [hexact]⟩
    | ok found =>
      rcases noExact_or_foundExact hstem hexact with ⟨rfl, hnone⟩ | hfound
      · exact .inr (.inr ⟨hnone, by simp only [hexact]⟩)
      · refine .inr (.inl ⟨stem, found, hfound, ?_⟩)
        obtain ⟨path, rest, rfl⟩ := List.exists_cons_of_ne_nil hfound.ne
        simp only [hexact]
        rfl

namespace FoundExact

variable {found : List Path}

lemma exists_exactPath (h : FoundExact tree root wanted stem found) (hpath : path ∈ found) :
    ∃ suffix ∈ suffixes, path = exactPath root wanted stem suffix := by
  obtain ⟨suffix, hsuffix, rfl⟩ := List.mem_map.mp (h.sublist.subset hpath)
  exact ⟨suffix, hsuffix, rfl⟩

lemma nodup (h : FoundExact tree root wanted stem found) : found.Nodup :=
  h.sublist.nodup (nodup_exactPaths root wanted stem)

lemma not_noExact (h : FoundExact tree root wanted stem found) : ¬ NoExact tree root wanted := by
  intro hnone
  obtain ⟨path, rest, rfl⟩ := List.exists_cons_of_ne_nil h.ne
  obtain ⟨suffix, hsuffix, rfl⟩ := h.exists_exactPath List.mem_cons_self
  have hfile := h.files _ List.mem_cons_self
  rw [hnone stem h.entity suffix hsuffix] at hfile
  cases hfile

lemma not_tooLongExact (h : FoundExact tree root wanted stem found) :
    ¬ TooLongExact tree root wanted := by
  rintro ⟨other, hother, suffix, hsuffix, hlong⟩
  obtain rfl := Option.some.inj (h.entity.symm.trans hother)
  obtain ⟨answer, hanswer⟩ := h.answers suffix hsuffix
  rw [hanswer] at hlong
  cases hlong

/-- Either all files with exactly the names wanted are meant or none of them. -/
lemma meant_iff (h : FoundExact tree root wanted stem found) :
    (∀ path ∈ found, Meant tree root wanted path) ↔ wanted.IsPlain := by
  constructor
  · intro hmeant
    obtain ⟨path, rest, rfl⟩ := List.exists_cons_of_ne_nil h.ne
    obtain ⟨suffix, hsuffix, rfl⟩ := h.exists_exactPath List.mem_cons_self
    exact (meant_exactPath_iff h.entity hsuffix (h.files _ List.mem_cons_self)).mp
      (hmeant _ List.mem_cons_self)
  · intro hplain path hpath
    obtain ⟨suffix, hsuffix, rfl⟩ := h.exists_exactPath hpath
    exact (meant_exactPath_iff h.entity hsuffix (h.files _ hpath)).mpr hplain

end FoundExact

/-- No exact name is both missing and too long. -/
lemma NoExact.not_tooLongExact (h : NoExact tree root wanted) :
    ¬ TooLongExact tree root wanted := by
  rintro ⟨stem, hstem, suffix, hsuffix, hlong⟩
  rw [h stem hstem suffix hsuffix] at hlong
  cases hlong

/-- **What is found**: some files, each of them once, in their order. They are all meant exactly if
the names wanted are those of directories and of a file, or if no file has exactly these names.
In the latter case they are all the files that are meant. There is no result exactly if an exact
name is too long to be looked for. -/
theorem find_meant (ordinary : tree.Ordinary) (present : tree.isDirectory root = .ok true) :
    (∀ found, find tree root wanted = .ok found →
      found.Nodup ∧ found.Pairwise (fun p q => p.comesBefore q = true) ∧
      (∀ path ∈ found, tree.isFile path = .ok true) ∧
      ((∀ path ∈ found, Meant tree root wanted path) ↔
        wanted.IsPlain ∨ NoExact tree root wanted)) ∧
    (NoExact tree root wanted → ∃ found, find tree root wanted = .ok found ∧
      ∀ path, path ∈ found ↔ Meant tree root wanted path) ∧
    ∀ fault, find tree root wanted = .error fault ↔
      fault = .nameTooLong ∧ TooLongExact tree root wanted := by
  obtain ⟨hlong, hfind⟩ | ⟨stem, found, hexact, hfind⟩ | ⟨hnone, hfind⟩ :=
    @find_cases tree root wanted present
  · rw [hfind]
    refine ⟨fun found h => ?_, fun hnone => absurd hlong hnone.not_tooLongExact, fun fault => ?_⟩
    · cases h
    · rw [Except.error.injEq, eq_comm, and_iff_left hlong]
  · rw [hfind]
    have hmem : ∀ {path}, path ∈ Path.sort found ↔ path ∈ found := (Path.sort_perm found).mem_iff
    refine ⟨fun sorted h => ?_, fun hnone => absurd hnone hexact.not_noExact, fun fault => ?_⟩
    · cases h
      refine ⟨(Path.sort_perm found).nodup_iff.mpr hexact.nodup, Path.pairwise_sort found,
        fun path hpath => hexact.files path (hmem.mp hpath), ?_⟩
      rw [or_iff_left hexact.not_noExact, ← hexact.meant_iff]
      exact forall_congr' fun path => imp_congr hmem Iff.rfl
    · exact iff_of_false (by simp) fun h => hexact.not_tooLongExact h.2
  · obtain ⟨place, located⟩ := isDirectory_eq_true_iff.mp present
    obtain ⟨found, hscan, hnodup, hsorted, hmem⟩ := scan_spec ordinary located
    rw [hfind, hscan]
    refine ⟨fun sorted h => ?_, fun _ => ⟨found, rfl, hmem⟩, fun fault => ?_⟩
    · cases h
      exact ⟨hnodup, hsorted, fun path hpath => ((hmem path).mp hpath).file,
        fun _ => .inr hnone, fun _ path hpath => (hmem path).mp hpath⟩
    · exact iff_of_false (by simp) fun h => hnone.not_tooLongExact h.2

/-- The blueprints of some modules, and a file beside them. -/
def shelves : FileTree :=
  ⟨[], [(["secret.yaml"], .file []), (["blueprints"], .directory),
    (["blueprints", "hrm"], .directory), (["blueprints", "hrm", "employee.yaml"], .file []),
    (["blueprints", "hr"], .directory), (["blueprints", "hr", "payroll"], .directory),
    (["blueprints", "hr", "payroll", "Employee.yaml"], .file []),
    (["blueprints", "hr", "employee.YML"], .file []),
    (["blueprints", "hr", "notes.txt"], .file [])], [], 0⟩

lemma shelves_ordinary : shelves.Ordinary :=
  ordinary_of_nodes (by decide +kernel) (noLinks_of_nodes (by simp [shelves])) (by decide +kernel)

/-- A module and an entity in other letters, with blanks and a slash at their ends. -/
theorem find_meant_payroll :
    shelves.Ordinary ∧ shelves.isDirectory (.ofText "blueprints") = .ok true ∧
      ∃ found, find shelves (.ofText "blueprints") ⟨some " HR\\", some "EMPLOYEE "⟩ = .ok found ∧
        Path.ofText "blueprints/hr/payroll/Employee.yaml" ∈ found ∧
        Path.ofText "blueprints/hrm/employee.yaml" ∉ found := by
  have present : shelves.isDirectory (.ofText "blueprints") = .ok true := by decide +kernel
  have hentity : Wanted.stem? ⟨some " HR\\", some "EMPLOYEE "⟩ = some "EMPLOYEE" := by
    decide +kernel
  have hmodule : Wanted.directories ⟨some " HR\\", some "EMPLOYEE "⟩ = ["HR"] := by
    decide +kernel
  have hnone : NoExact shelves (.ofText "blueprints") ⟨some " HR\\", some "EMPLOYEE "⟩ := by
    intro stem hstem
    obtain rfl := Option.some.inj (hentity.symm.trans hstem)
    decide +kernel
  obtain ⟨found, hfound, hmeant⟩ := (find_meant shelves_ordinary present).2.1 hnone
  refine ⟨shelves_ordinary, present, found, hfound, (hmeant _).mpr ⟨?_, ?_, ?_, ?_⟩, fun hmem => ?_⟩
  · decide +kernel
  · exact ⟨["hr", "payroll"], "Employee.yaml", by decide +kernel, by decide +kernel,
      by rw [hmodule]; decide +kernel⟩
  · decide +kernel
  · intro stem hstem
    obtain rfl := Option.some.inj (hentity.symm.trans hstem)
    decide +kernel
  · obtain ⟨directories, name, hpath, -, hprefix⟩ := ((hmeant _).mp hmem).inside
    have hnames : Path.ofText "blueprints/hrm/employee.yaml" =
        (Path.ofText "blueprints").extended (["hrm"] ++ ["employee.yaml"]) := by decide +kernel
    rw [hnames, Path.extended_inj] at hpath
    obtain ⟨rfl, -⟩ := List.append_inj' hpath rfl
    rw [hmodule] at hprefix
    exact absurd hprefix (by decide +kernel)

/-- A slash in the entity leads out of the root. -/
theorem find_strays :
    shelves.Ordinary ∧ shelves.isDirectory (.ofText "blueprints") = .ok true ∧
      find shelves (.ofText "blueprints") ⟨none, some "../secret"⟩ =
        .ok [.ofText "blueprints/../secret.yaml"] ∧
      ¬ Meant shelves (.ofText "blueprints") ⟨none, some "../secret"⟩
        (.ofText "blueprints/../secret.yaml") := by
  refine ⟨shelves_ordinary, by decide +kernel, by decide +kernel, fun meant => ?_⟩
  obtain ⟨directories, name, hpath, hplain, -⟩ := meant.inside
  have hnames : Path.ofText "blueprints/../secret.yaml" =
      (Path.ofText "blueprints").extended ["..", "secret.yaml"] := by decide +kernel
  rw [hnames, Path.extended_inj] at hpath
  exact (hplain ".." (by rw [← hpath]; simp)).2 rfl

end Scaffold.Discovery
