/-!
# Block identities

A block is known by its identity, a text that never changes. The name of its compiled artifact derives
from the identity alone, so it is the same in every compile.
-/

namespace CircuitBlocks

/-- The identity of a block. -/
abbrev BlockId := String

/-- A character of an artifact name: letters and digits stand for themselves, and an underscore for
every other character. -/
def BlockId.artifactChar (c : Char) : Char := if c.isAlphanum then c else '_'

/-- The name of the artifact that a block compiles to. -/
def BlockId.artifactName (id : BlockId) : String :=
  String.ofList ("unit_".toList ++ id.toList.map artifactChar)

example : BlockId.artifactName "A.1-ä" = "unit_A_1__" := by decide

end CircuitBlocks
