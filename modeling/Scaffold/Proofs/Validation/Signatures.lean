import Scaffold.Proofs.Validation.Exactness

/-!
When two endpoints have one signature.

A signature is the type of an endpoint, then a colon and what identifies the endpoint
besides its type. The type has no colon in it, so a signature can be taken apart. What
identifies is written out plainly when it is a name, and after a word when it is a group
or a field; a name that begins with such a word reads like the other.

* `Endpoint.Key`, `Endpoint.key`: what identifies an endpoint besides its type.
* `signature_eq`: the signature is written from the type and the key.
* `Endpoint.Coincides`: two endpoints have one type, and keys that are equal or read alike.
* `signature_identifies`: two endpoints have one signature exactly then, and so the second
  stage reports the endpoints that coincide with an earlier one.
-/

namespace Scaffold

namespace Endpoint

/-- What identifies an endpoint besides its type. -/
inductive Key where
  /-- Its name. -/
  | name (s : String)
  /-- What it groups by. -/
  | group (s : String)
  /-- The field it works on. -/
  | field (s : String)
  /-- Nothing. -/
  | nothing
  deriving DecidableEq, Repr

/-- An endpoint is identified by its name, or else, if it yields statistics, by what it groups
by, or else by its field; a text that is empty identifies nothing. -/
def key (e : Endpoint) : Key :=
  match present? e.name with
  | some s => .name s
  | none =>
    match if e.kind = "stats" then present? e.by_ else none with
    | some s => .group s
    | none =>
      match present? e.field with
      | some s => .field s
      | none => .nothing

namespace Key

/-- How a key is written behind the type. -/
def written : Key → String
  | .name s => ":" ++ s
  | .group s => ":by=" ++ s
  | .field s => ":field=" ++ s
  | .nothing => ""

/-- A name reads like a group or a field. -/
def readsLike : Key → Key → Bool
  | .name s, .group t => s == "by=" ++ t
  | .name s, .field t => s == "field=" ++ t
  | _, _ => false

end Key

/-- Two endpoints have one type, and what identifies them is the same or reads alike. -/
def Coincides (e f : Endpoint) : Prop :=
  e.kind = f.kind ∧ (e.key = f.key ∨ e.key.readsLike f.key ∨ f.key.readsLike e.key)

instance (e f : Endpoint) : Decidable (e.Coincides f) :=
  inferInstanceAs
    (Decidable (e.kind = f.kind ∧ (e.key = f.key ∨ e.key.readsLike f.key ∨ f.key.readsLike e.key)))

/-- An endpoint, given with its index, coincides with an earlier one. -/
def CoincidesBefore (es : List Endpoint) (p : Endpoint × Nat) : Prop :=
  ∃ e ∈ es.take p.2, e.Coincides p.1

instance (es : List Endpoint) : DecidablePred (CoincidesBefore es) :=
  fun p => inferInstanceAs (Decidable (∃ e ∈ es.take p.2, e.Coincides p.1))

/-- The signature is the type and then the key. -/
lemma signature_eq (e : Endpoint) : e.signature = e.kind ++ e.key.written := by
  rw [signature, key]
  cases present? e.name with
  | some s => simp [Key.written, String.append_assoc]
  | none =>
    simp only [beq_iff_eq]
    cases (if e.kind = "stats" then present? e.by_ else none) with
    | some s => simp [Key.written, String.append_assoc]
    | none => cases present? e.field <;> simp [Key.written, String.append_assoc]

/-- Behind the type stands nothing or a colon. -/
lemma Key.written_toList (k : Key) :
    k.written.toList = [] ∨ ∃ cs, k.written.toList = ':' :: cs := by
  cases k <;> simp [written]

/-- Keys are written alike when they are equal or one reads like the other. -/
lemma Key.written_eq_iff {k l : Key} :
    k.written = l.written ↔ k = l ∨ k.readsLike l ∨ l.readsLike k := by
  rw [← String.toList_inj]
  cases k <;> cases l <;> simp [written, readsLike, ← String.toList_inj]
  case group.name => exact eq_comm
  case field.name => exact eq_comm

lemma colon_notMem_of_isSnake {s : String} (h : IsSnake s) : ':' ∉ s.toList := by
  obtain ⟨c, cs, hchars, hfirst, hlater⟩ := h
  rw [hchars, List.mem_cons, not_or]
  refine ⟨?_, fun hmem => ?_⟩
  · rintro rfl
    exact absurd hfirst (by decide)
  · exact absurd (hlater ':' hmem) (by decide)

/-- The type of an endpoint is what stands before the first colon of the signature. -/
lemma kind_of_signature {e : Endpoint} (he : IsSnake e.kind) :
    e.signature.toList.takeWhile (· != ':') = e.kind.toList := by
  have hkind : ∀ c ∈ e.kind.toList, (c != ':') = true := by
    intro c hc
    rw [bne_iff_ne]
    rintro rfl
    exact colon_notMem_of_isSnake he hc
  rw [signature_eq, String.toList_append, List.takeWhile_append_of_pos hkind]
  obtain hnil | ⟨cs, hcons⟩ := e.key.written_toList
  · rw [hnil, List.takeWhile_nil, List.append_nil]
  · rw [hcons, List.takeWhile_cons_of_neg (by decide), List.append_nil]

/-- Two endpoints with types in snake case have one signature when they coincide. -/
lemma signature_eq_iff {e f : Endpoint} (he : IsSnake e.kind) (hf : IsSnake f.kind) :
    e.signature = f.signature ↔ e.Coincides f := by
  rw [Coincides, ← Key.written_eq_iff]
  constructor
  · intro h
    have hkind : e.kind = f.kind := by
      rw [← String.toList_inj, ← kind_of_signature he, ← kind_of_signature hf, h]
    rw [signature_eq, signature_eq, hkind, String.append_right_inj] at h
    exact ⟨hkind, h⟩
  · rintro ⟨hkind, hwritten⟩
    rw [signature_eq, signature_eq, hkind, hwritten]

/-- The name of an endpoint does not begin with a word that stands before a group or a
field. -/
def HasPlainName (e : Endpoint) : Prop :=
  ∀ s, e.name = some s → ¬ "by=".toList <+: s.toList ∧ ¬ "field=".toList <+: s.toList

lemma name_of_key {e : Endpoint} {s : String} (h : e.key = .name s) : e.name = some s := by
  rw [key] at h
  split at h
  · next t ht =>
    obtain rfl := Key.name.inj h
    exact (present?_eq_some_iff.mp ht).1
  · split at h
    · cases h
    · split at h <;> cases h

/-- A plain name reads like no group and no field. -/
lemma HasPlainName.readsLike_eq_false {e : Endpoint} (h : e.HasPlainName) (k : Key) :
    e.key.readsLike k = false := by
  cases hkey : e.key with
  | name s =>
    obtain ⟨hgroup, hfield⟩ := h s (name_of_key hkey)
    cases k with
    | group t =>
      refine beq_eq_false_iff_ne.mpr fun heq => hgroup ?_
      rw [heq, String.toList_append]
      exact List.prefix_append _ _
    | field t =>
      refine beq_eq_false_iff_ne.mpr fun heq => hfield ?_
      rw [heq, String.toList_append]
      exact List.prefix_append _ _
    | _ => rfl
  | _ => rfl

/-- Between plain names, endpoints coincide when they have one type and one key. -/
lemma coincides_iff_of_plain {e f : Endpoint} (he : e.HasPlainName) (hf : f.HasPlainName) :
    e.Coincides f ↔ e.kind = f.kind ∧ e.key = f.key := by
  simp [Coincides, he.readsLike_eq_false, hf.readsLike_eq_false]

end Endpoint

/-- The endpoints that are reported as repeated are those that coincide with an earlier
one. -/
lemma filter_duplicate_of_isSnake {b : Blueprint} (snake : ∀ e ∈ b.api.endpoints, IsSnake e.kind) :
    (checkCoherence b).errors.filter (·.code = "endpoints.duplicate") =
      (b.api.endpoints.zipIdx.filter
        (Endpoint.CoincidesBefore b.api.endpoints ·)).map repeatedEndpoint := by
  rw [checkCoherence_errors, filter_gathered_endpoints b (by decide), endpointFindings,
    filter_endpointsFrom_duplicate]
  congr 1
  refine List.filter_congr fun p hp => decide_eq_decide.mpr ?_
  refine exists_congr fun e => and_congr_right fun he => ?_
  exact Endpoint.signature_eq_iff (snake e (List.mem_of_mem_take he))
    (snake p.1 (List.fst_mem_of_mem_zipIdx hp))

/-- **Identity of endpoints**: two endpoints with types in snake case have one signature exactly
when they coincide, which between plain names says that they have one type and are identified
by the same; and exactly the endpoints that coincide with an earlier one are reported. -/
theorem signature_identifies :
    (∀ e f : Endpoint, IsSnake e.kind → IsSnake f.kind →
      (e.signature = f.signature ↔ e.Coincides f)) ∧
    (∀ e f : Endpoint, e.HasPlainName → f.HasPlainName →
      (e.Coincides f ↔ e.kind = f.kind ∧ e.key = f.key)) ∧
    ∀ b : Blueprint, (∀ e ∈ b.api.endpoints, IsSnake e.kind) →
      (checkCoherence b).errors.filter (·.code = "endpoints.duplicate") =
        (b.api.endpoints.zipIdx.filter
          (Endpoint.CoincidesBefore b.api.endpoints ·)).map repeatedEndpoint :=
  ⟨fun _ _ => Endpoint.signature_eq_iff, fun _ _ => Endpoint.coincides_iff_of_plain,
    fun _ => filter_duplicate_of_isSnake⟩

/-- A change of the salary of an employee, by a name that reads like it. -/
def namedPatch : Endpoint :=
  ⟨"patch", some "field=salary", some "salary", [], none, none, none⟩

/-- A change of the salary of an employee, without a name. -/
def salaryPatch : Endpoint :=
  ⟨"patch", none, some "salary", [], none, none, none⟩

/-- An employee with two changes of the salary, of which one has a name. -/
def twicePatched : Blueprint :=
  { employee with api := ⟨none, [], [], [namedPatch, salaryPatch]⟩ }

/-- The identity of two endpoints of an employee. -/
theorem signature_identifies_twicePatched :
    IsSnake namedPatch.kind ∧ IsSnake salaryPatch.kind ∧
    (namedPatch.signature = salaryPatch.signature ↔ namedPatch.Coincides salaryPatch) ∧
    salaryPatch.HasPlainName ∧
    (salaryPatch.Coincides salaryPatch ↔
      salaryPatch.kind = salaryPatch.kind ∧ salaryPatch.key = salaryPatch.key) ∧
    (checkCoherence twicePatched).errors.filter (·.code = "endpoints.duplicate") =
      (twicePatched.api.endpoints.zipIdx.filter
        (Endpoint.CoincidesBefore twicePatched.api.endpoints ·)).map repeatedEndpoint := by
  have hsnake : IsSnake "patch" := Spelling.accepts_snake_iff.mp (by decide)
  have hplain : salaryPatch.HasPlainName := fun s hs => by cases hs
  have hendpoints : ∀ e ∈ twicePatched.api.endpoints, IsSnake e.kind := by
    intro e he
    rcases List.mem_pair.mp he with rfl | rfl <;> exact hsnake
  exact ⟨hsnake, hsnake, signature_identifies.1 namedPatch salaryPatch hsnake hsnake, hplain,
    signature_identifies.2.1 salaryPatch salaryPatch hplain hplain,
    signature_identifies.2.2 twicePatched hendpoints⟩

/-- Two endpoints of one type have one signature, although one of them is identified by its
name and the other by its field; the second one is reported. -/
theorem signature_ambiguous :
    IsSnake namedPatch.kind ∧ IsSnake salaryPatch.kind ∧
    namedPatch.signature = salaryPatch.signature ∧
    namedPatch.key = .name "field=salary" ∧ salaryPatch.key = .field "salary" ∧
    (checkCoherence twicePatched).errors = [repeatedEndpoint (salaryPatch, 1)] := by
  have hsnake : IsSnake "patch" := Spelling.accepts_snake_iff.mp (by decide)
  exact ⟨hsnake, hsnake, by decide +kernel⟩

end Scaffold
