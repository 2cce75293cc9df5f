import Scaffold.Validation.Coherence
import Scaffold.Validation.Structure

/-!
Validation in stages.

Stages run in order, and the first one that finds an error is the last to run.

* `Stage`: a named check.
* `validateBy`: the findings of the stages that run.
* `structureStage`, `coherenceStage`: the two stages.
* `standardStages`, `validate`: both stages, in this order.
-/

namespace Scaffold

/-- A named check of blueprints. -/
structure Stage where
  /-- The name. -/
  name : String
  /-- The findings about a blueprint, if it has a dictionary layout. -/
  check : Blueprint → Except PlainError Findings

/-- The findings of the stages up to the first that finds an error. -/
def validateBy : List Stage → Blueprint → Except PlainError Findings
  | [], _ => .ok .none
  | stage :: stages, b => do
    let found ← stage.check b
    if found.isValid then return found.merge (← validateBy stages b)
    else return found

/-- The stage that looks at every part on its own. -/
def structureStage (known : List String) : Stage :=
  ⟨"schema", checkStructure known⟩

/-- The stage that looks at how the parts fit together. -/
def coherenceStage : Stage :=
  ⟨"semantic", fun b => .ok (checkCoherence b)⟩

/-- The two stages, for the known architectures. -/
def standardStages (known : List String) : List Stage :=
  [structureStage known, coherenceStage]

/-- The findings of the two stages. -/
def validate (known : List String) (b : Blueprint) : Except PlainError Findings :=
  validateBy (standardStages known) b

end Scaffold
