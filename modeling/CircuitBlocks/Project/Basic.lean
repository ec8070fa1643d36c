import CircuitBlocks.Block.Basic

/-!
# Projects — the registry and the blocks

A project has one registry of auxiliary files and its blocks in order. Identities may repeat; an
identity then means the first block that has it.
-/

namespace CircuitBlocks

/-- A project. -/
structure Project where
  registry : Registry
  blocks : List Block

namespace Project

/-- The project without files and blocks. -/
def empty : Project := ⟨.empty, []⟩

/-- The first block with an identity. -/
def block? (p : Project) (id : BlockId) : Option Block := p.blocks.find? fun b => b.id = id

/-- The blocks with the first of an identity replaced. -/
def replaceFirst (id : BlockId) (new : Block) : List Block → List Block
  | [] => []
  | b :: bs => if b.id = id then new :: bs else b :: replaceFirst id new bs

/-- The project with the first block of an identity replaced. -/
def setBlock (p : Project) (id : BlockId) (new : Block) : Project :=
  { p with blocks := replaceFirst id new p.blocks }

end Project

end CircuitBlocks
