import Mathlib.Data.List.Perm.Subperm
import Mathlib.Data.Nat.Find
import Scaffold.Proofs.Files.Ways

/-!
Resolution against the walk.

A walk and a resolution treat a path differently: the walk needs a directory for every name
and gives up after so many links, the resolution takes a name as it is where nothing is
found and only ever gives up on a link inside its own target. Where the walk arrives, both
come to the same place. The reason that a walk never meets a link inside its own target is
that the target would then take at least as many links as itself and one more.

* `resolveBy_append`, `resolveBy_congr`: resolution name by name, and by links only.
* `resolveFrom_enough`: the bound on the number of links inside one another is no bound.
* `Leads.resolveFrom_eq`, `resolve_of_locate`: where a walk arrives.
* `Keeps.resolveFrom_eq`: changes that keep directories and links keep the resolution.
* `resolveBy_prefix`: without `..` the resolution goes down where no links are.
-/

namespace Scaffold.Files.FileTree

variable {tree tree' : FileTree} {links fuel : Nat} {trail : List Place} {place : Place}
  {names : List String} {found : Found} {path : Path}
  {inner inner' : Place → Place → List String → Except (List String) Place}

/-! ### Name by name -/

/-- How the target of a link is resolved inside the targets of some links. -/
def inside (tree : FileTree) : Nat → List Place → Place → Place → List String →
    Except (List String) Place
  | 0, _ => fun link _ _ => .error link
  | fuel + 1, trail => fun link start names =>
    if trail.contains link then .error link else tree.resolveFrom fuel (link :: trail) start names

@[simp] lemma inside_zero (link start : Place) (names : List String) :
    tree.inside 0 trail link start names = .error link := rfl

@[simp] lemma inside_succ (link start : Place) (names : List String) :
    tree.inside (fuel + 1) trail link start names =
      if trail.contains link then .error link
      else tree.resolveFrom fuel (link :: trail) start names := rfl

lemma resolveFrom_eq_resolveBy (tree : FileTree) (fuel : Nat) (trail : List Place) :
    tree.resolveFrom fuel trail = tree.resolveBy (tree.inside fuel trail) := by
  cases fuel <;> rfl

@[simp] lemma resolveBy_nil (place : Place) : tree.resolveBy inner place [] = .ok place := rfl

@[simp] lemma resolveBy_dot (place : Place) (names : List String) :
    tree.resolveBy inner place ("." :: names) = tree.resolveBy inner place names := by
  rw [resolveBy, if_pos rfl]

@[simp] lemma resolveBy_up (place : Place) (names : List String) :
    tree.resolveBy inner place (".." :: names) = tree.resolveBy inner place.dropLast names := by
  rw [resolveBy, if_neg (by decide), if_pos rfl]

/-- A name that denotes no link is taken as it is. -/
lemma resolveBy_plain {name : String} (dot : name ≠ ".") (up : name ≠ "..")
    (plain : ∀ target, tree.node? (place ++ [name]) ≠ some (.link target)) :
    tree.resolveBy inner place (name :: names) = tree.resolveBy inner (place ++ [name]) names := by
  rw [resolveBy, if_neg dot, if_neg up]
  cases hnode : tree.node? (place ++ [name]) with
  | none => simp only [hnode]
  | some node =>
    cases node with
    | file contents => simp only [hnode]
    | directory => simp only [hnode]
    | link target => exact absurd hnode (plain target)

/-- A link is followed. -/
lemma resolveBy_link {name target : String} (dot : name ≠ ".") (up : name ≠ "..")
    (link : tree.node? (place ++ [name]) = some (.link target)) :
    tree.resolveBy inner place (name :: names) =
      match inner (place ++ [name]) (if target.startsWith "/" then [] else place)
        (targetNames target) with
      | .ok found => tree.resolveBy inner found names
      | .error left => .error (left ++ names) := by
  rw [resolveBy, if_neg dot, if_neg up]
  dsimp only
  generalize tree.node? (place ++ [name]) = node at link ⊢
  subst link
  rfl

/-- Names behind others are resolved from where these lead. -/
lemma resolveBy_append (place : Place) (names more : List String) :
    tree.resolveBy inner place (names ++ more) =
      match tree.resolveBy inner place names with
      | .ok found => tree.resolveBy inner found more
      | .error left => .error (left ++ more) := by
  induction names generalizing place with
  | nil => rfl
  | cons name names ih =>
    rw [List.cons_append]
    by_cases hdot : name = "."
    · rw [hdot, resolveBy_dot, resolveBy_dot, ih]
    by_cases hup : name = ".."
    · rw [hup, resolveBy_up, resolveBy_up, ih]
    by_cases hlink : ∃ target, tree.node? (place ++ [name]) = some (.link target)
    · obtain ⟨target, htarget⟩ := hlink
      rw [resolveBy_link hdot hup htarget, resolveBy_link hdot hup htarget]
      cases inner (place ++ [name]) _ (targetNames target) with
      | ok found => exact ih found
      | error left => simp
    · have hplain := not_exists.mp hlink
      rw [resolveBy_plain hdot hup hplain, resolveBy_plain hdot hup hplain, ih]

/-- Only the links decide how names are resolved. -/
lemma resolveBy_congr
    (same : ∀ p target, tree'.node? p = some (.link target) ↔ tree.node? p = some (.link target))
    (hinner : ∀ link target, tree.node? link = some (.link target) → inner' link = inner link)
    (place : Place) (names : List String) :
    tree'.resolveBy inner' place names = tree.resolveBy inner place names := by
  induction names generalizing place with
  | nil => rfl
  | cons name names ih =>
    by_cases hdot : name = "."
    · rw [hdot, resolveBy_dot, resolveBy_dot, ih]
    by_cases hup : name = ".."
    · rw [hup, resolveBy_up, resolveBy_up, ih]
    by_cases hlink : ∃ target, tree.node? (place ++ [name]) = some (.link target)
    · obtain ⟨target, htarget⟩ := hlink
      rw [resolveBy_link hdot hup ((same _ _).mpr htarget), resolveBy_link hdot hup htarget,
        hinner _ _ htarget]
      cases inner (place ++ [name]) _ (targetNames target) with
      | ok found => exact ih found
      | error left => rfl
    · have hplain := not_exists.mp hlink
      rw [resolveBy_plain hdot hup fun target h => hplain target ((same _ _).mp h),
        resolveBy_plain hdot hup hplain, ih]

/-- Two ways of following links that agree where both come to an end. -/
lemma resolveBy_agree (agree : ∀ link start names a b, inner link start names = .ok a →
      inner' link start names = .ok b → a = b) {a b : Place}
    (ha : tree.resolveBy inner place names = .ok a)
    (hb : tree.resolveBy inner' place names = .ok b) : a = b := by
  induction names generalizing place with
  | nil => exact Except.ok.inj (ha.symm.trans hb)
  | cons name names ih =>
    by_cases hdot : name = "."
    · rw [hdot, resolveBy_dot] at ha hb
      exact ih ha hb
    by_cases hup : name = ".."
    · rw [hup, resolveBy_up] at ha hb
      exact ih ha hb
    by_cases hlink : ∃ target, tree.node? (place ++ [name]) = some (.link target)
    · obtain ⟨target, htarget⟩ := hlink
      rw [resolveBy_link hdot hup htarget] at ha hb
      split at ha
      · next found hfound =>
        split at hb
        · next found' hfound' =>
          obtain rfl := agree _ _ _ _ _ hfound hfound'
          exact ih ha hb
        · cases hb
      · cases ha
    · have hplain := not_exists.mp hlink
      rw [resolveBy_plain hdot hup hplain] at ha hb
      exact ih ha hb

/-- The end of a resolution depends neither on the bound nor on the links around. -/
lemma resolveFrom_agree {fuel' : Nat} {trail' : List Place} {a b : Place}
    (ha : tree.resolveFrom fuel trail place names = .ok a)
    (hb : tree.resolveFrom fuel' trail' place names = .ok b) : a = b := by
  induction fuel generalizing fuel' trail trail' place names a b with
  | zero =>
    rw [resolveFrom_eq_resolveBy] at ha hb
    exact resolveBy_agree (fun _ _ _ _ _ h => by cases h) ha hb
  | succ fuel ih =>
    rw [resolveFrom_eq_resolveBy] at ha hb
    refine resolveBy_agree (fun link start names a b h h' => ?_) ha hb
    cases fuel' with
    | zero => cases h'
    | succ fuel' =>
      rw [inside_succ] at h h'
      split_ifs at h h' with hlink hlink'
      exact ih h h'

/-! ### The bound -/

/-- Different places at which something is, one of which is a link, are not more than there
are places. -/
lemma length_lt_of_link (nodup : trail.Nodup) (there : ∀ q ∈ trail, q ∈ tree.nodes.map (·.1))
    {link : Place} {target : String} (h : tree.node? link = some (.link target))
    (new : link ∉ trail) : trail.length < tree.nodes.length := by
  have hroot : link ≠ [] := by
    rintro rfl
    cases h
  have hmem : link ∈ tree.nodes.map (·.1) := (mem_nodes_iff hroot).mpr (by simp [h])
  have hsub : link :: trail ⊆ tree.nodes.map (·.1) := by
    intro q hq
    rcases List.mem_cons.mp hq with rfl | hq
    · exact hmem
    · exact there q hq
  have hle := (List.subperm_of_subset (List.nodup_cons.mpr ⟨new, nodup⟩) hsub).length_le
  rw [List.length_cons, List.length_map] at hle
  omega

/-- A larger bound changes nothing when all places are within the smaller one. -/
lemma resolveFrom_succ (nodup : trail.Nodup) (there : ∀ q ∈ trail, q ∈ tree.nodes.map (·.1))
    (enough : tree.nodes.length ≤ fuel + trail.length) :
    tree.resolveFrom (fuel + 1) trail = tree.resolveFrom fuel trail := by
  induction fuel generalizing trail with
  | zero =>
    funext place names
    rw [resolveFrom_eq_resolveBy, resolveFrom_eq_resolveBy]
    refine resolveBy_congr (fun _ _ => Iff.rfl) (fun link target hlink => ?_) place names
    funext start names
    rw [inside_succ, inside_zero, if_pos]
    by_contra hnew
    have := length_lt_of_link nodup there hlink (by simpa using hnew)
    omega
  | succ fuel ih =>
    funext place names
    rw [resolveFrom_eq_resolveBy, resolveFrom_eq_resolveBy]
    refine resolveBy_congr (fun _ _ => Iff.rfl) (fun link target hlink => ?_) place names
    funext start names
    rw [inside_succ, inside_succ]
    split_ifs with hold
    · rfl
    · have hnew : link ∉ trail := by simpa using hold
      have hroot : link ≠ [] := by
        rintro rfl
        cases hlink
      have hthere : ∀ q ∈ link :: trail, q ∈ tree.nodes.map (·.1) := by
        intro q hq
        rcases List.mem_cons.mp hq with rfl | hq
        · exact (mem_nodes_iff hroot).mpr (by simp [hlink])
        · exact there q hq
      rw [ih (List.nodup_cons.mpr ⟨hnew, nodup⟩) hthere (by rw [List.length_cons]; omega)]

/-- **The bound is none**: beyond the number of places, no larger one gives another
result. -/
lemma resolveFrom_enough {fuel' : Nat} (h : tree.nodes.length ≤ fuel)
    (h' : tree.nodes.length ≤ fuel') : tree.resolveFrom fuel [] = tree.resolveFrom fuel' [] := by
  have hstep : ∀ more, tree.resolveFrom (tree.nodes.length + more) [] =
      tree.resolveFrom tree.nodes.length [] := by
    intro more
    induction more with
    | zero => rfl
    | succ more ih =>
      rw [← ih, ← Nat.add_assoc]
      exact resolveFrom_succ List.nodup_nil (by simp) (by simp)
  obtain ⟨more, rfl⟩ := Nat.exists_eq_add_of_le h
  obtain ⟨more', rfl⟩ := Nat.exists_eq_add_of_le h'
  rw [hstep, hstep]

/-- Changes that keep the links keep the resolution. -/
lemma Keeps.resolveFrom_eq (keeps : Keeps tree tree') (h : tree.nodes.length ≤ fuel) {fuel' : Nat}
    (h' : tree'.nodes.length ≤ fuel') : tree'.resolveFrom fuel' [] = tree.resolveFrom fuel [] := by
  have hsame : ∀ fuel trail, tree'.resolveFrom fuel trail = tree.resolveFrom fuel trail := by
    intro fuel
    induction fuel with
    | zero =>
      intro trail
      funext place names
      exact resolveBy_congr keeps.link (fun _ _ _ => rfl) place names
    | succ fuel ih =>
      intro trail
      funext place names
      refine resolveBy_congr keeps.link (fun link _ _ => ?_) place names
      funext start names
      simp only [ih]
  calc tree'.resolveFrom fuel' []
      = tree'.resolveFrom (fuel + fuel') [] := resolveFrom_enough h' (by omega)
    _ = tree.resolveFrom (fuel + fuel') [] := by rw [hsame]
    _ = tree.resolveFrom fuel [] := resolveFrom_enough (by omega) h

/-! ### Where a walk arrives -/

/-- A link whose target can be walked over so many links. -/
def Passable (tree : FileTree) (links : Nat) (link : Place) : Prop :=
  ∃ target found, tree.node? link = some (.link target) ∧
    Leads tree true links (if target.startsWith "/" then [] else link.dropLast)
      (targetNames target) found

/-- A walk that goes on along the target of a link passes the link. -/
lemma passable_of_rest {name target : String}
    (link : tree.node? (place ++ [name]) = some (.link target))
    (rest : Leads tree true links (if target.startsWith "/" then [] else place)
      (targetNames target ++ names) found) : tree.Passable links (place ++ [name]) := by
  by_cases hnil : names = []
  · rw [hnil, List.append_nil] at rest
    exact ⟨target, found, link, by rwa [List.dropLast_concat]⟩
  · obtain ⟨_, directory, hfirst, -⟩ := rest.split hnil rfl
    exact ⟨target, _, link, by rwa [List.dropLast_concat]⟩

/-- There is a least number of links over which a link can be passed. -/
lemma Passable.least {link : Place} (h : tree.Passable links link) :
    ∃ fewer ≤ links, tree.Passable fewer link ∧ ∀ less < fewer, ¬ tree.Passable less link := by
  classical
  have hsome : ∃ fewer, tree.Passable fewer link := ⟨links, h⟩
  exact ⟨Nat.find hsome, Nat.find_min' hsome h, Nat.find_spec hsome, fun less hless =>
    Nat.find_min hsome hless⟩

/-- **Where a walk arrives** the resolution arrives too, inside the targets of links that
need more links than the walk. -/
lemma Leads.resolveFrom_eq (h : Leads tree true links place names found)
    (nodup : trail.Nodup) (there : ∀ q ∈ trail, q ∈ tree.nodes.map (·.1))
    (enough : tree.nodes.length ≤ fuel + trail.length)
    (longer : ∀ q ∈ trail, ∀ fewer < links, ¬ tree.Passable fewer q) :
    tree.resolveFrom fuel trail place names = .ok found.place := by
  induction links using Nat.strongRecOn generalizing place names found trail fuel with
  | ind bound ihBound =>
  -- the walk itself, link by link; the targets are walked over fewer links
  rw [resolveFrom_eq_resolveBy]
  induction h with
  | here => rfl
  | stay _ _ ih =>
    rw [resolveBy_dot]
    exact ih ihBound longer
  | up _ _ ih =>
    rw [resolveBy_up]
    exact ih ihBound longer
  | last _ entry stop =>
    rw [resolveBy_plain entry.ne_dot entry.ne_up (stop rfl), resolveBy_nil]
  | enter _ entry _ plain _ ih =>
    rw [resolveBy_plain entry.ne_dot entry.ne_up plain]
    exact ih ihBound longer
  | @jump links place name names target found dir entry link followed rest ih =>
    have hthrough := ih (fun fewer hfewer => ihBound fewer (by omega))
      (fun q hq fewer hfewer => longer q hq fewer (by omega))
    rw [resolveBy_append] at hthrough
    have hpassable : tree.Passable links (place ++ [name]) := passable_of_rest link rest
    have hnew : place ++ [name] ∉ trail := fun hold =>
      longer _ hold links (by omega) hpassable
    obtain ⟨fewer, hle, ⟨other, arrival, hother, hleads⟩, hmin⟩ := hpassable.least
    rw [link, Option.some.injEq, Node.link.injEq] at hother
    subst hother
    rw [List.dropLast_concat] at hleads
    -- one more link around the target
    have hroom := length_lt_of_link nodup there link hnew
    obtain ⟨less, rfl⟩ : ∃ less, fuel = less + 1 := ⟨fuel - 1, by omega⟩
    have hthere : ∀ q ∈ (place ++ [name]) :: trail, q ∈ tree.nodes.map (·.1) := by
      intro q hq
      rcases List.mem_cons.mp hq with rfl | hq
      · exact (mem_nodes_iff (by simp)).mpr (by simp [link])
      · exact there q hq
    have htarget : tree.resolveFrom less ((place ++ [name]) :: trail)
        (if target.startsWith "/" then [] else place) (targetNames target) = .ok arrival.place := by
      refine ihBound fewer (by omega) hleads (List.nodup_cons.mpr ⟨hnew, nodup⟩) hthere
        (by rw [List.length_cons]; omega) fun q hq some hsome => ?_
      rcases List.mem_cons.mp hq with rfl | hq
      · exact hmin some hsome
      · exact longer q hq some (by omega)
    rw [resolveBy_link entry.ne_dot entry.ne_up link, inside_succ, if_neg (by simpa using hnew),
      htarget]
    split at hthrough
    · next found' hfound' =>
      rw [← resolveFrom_eq_resolveBy] at hfound'
      rw [resolveFrom_agree htarget hfound']
      exact hthrough
    · cases hthrough

/-- Where a path is located it is resolved to. -/
theorem resolve_of_locate (h : tree.locate true path = .ok found) :
    tree.resolve path = .ok found.place := by
  obtain ⟨hzero, hleads⟩ := locate_eq_ok_iff.mp h
  have hfrom : tree.resolveFrom (tree.nodes.length + 1) [] (tree.start path) path.names =
      .ok found.place :=
    hleads.resolveFrom_eq List.nodup_nil (by simp) (by simp) (by simp)
  rw [resolve, hfrom, if_neg (by simp [hzero])]

/-! ### Names without dots -/

/-- **Down** where no links are: names without `..` are resolved to a place below. -/
lemma resolveBy_prefix (plain : ".." ∉ names)
    (clear : ∀ q, place <+: q → ∀ target, tree.node? q ≠ some (.link target)) :
    ∃ goal, tree.resolveBy inner place names = .ok goal ∧ place <+: goal := by
  induction names generalizing place with
  | nil => exact ⟨place, rfl, List.prefix_refl _⟩
  | cons name names ih =>
    rw [List.mem_cons, not_or] at plain
    by_cases hdot : name = "."
    · rw [hdot, resolveBy_dot]
      exact ih plain.2 clear
    · have hnext : place <+: place ++ [name] := List.prefix_append _ _
      obtain ⟨goal, hgoal, hbelow⟩ := @ih (place ++ [name]) plain.2 fun q hq =>
        clear q (hnext.trans hq)
      refine ⟨goal, ?_, hnext.trans hbelow⟩
      rw [resolveBy_plain hdot (Ne.symm plain.1) (clear _ hnext), hgoal]

end Scaffold.Files.FileTree
