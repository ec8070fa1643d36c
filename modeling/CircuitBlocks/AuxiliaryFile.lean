import CircuitBlocks.Path
import CircuitBlocks.Sha256

/-!
# Auxiliary files — source files that blocks share

An auxiliary file is compiled as a crate of its own, named for the file, and linked into the blocks
that use it. A file is identified by the hash of its contents.
-/

namespace CircuitBlocks

/-- The hash of a file's contents, in hexadecimal. -/
abbrev FileHash := String

/-- A source file with its name, extension included. -/
structure AuxiliaryFile where
  name : String
  contents : String
  deriving DecidableEq, Repr

namespace AuxiliaryFile

/-- The hash that identifies the file. -/
def hash (f : AuxiliaryFile) : FileHash := Sha256.hexOfText f.contents

/-- The crate that the file compiles to: its name without extension. -/
def crate (f : AuxiliaryFile) : String := (Path.fileStem? f.name).getD f.name

end AuxiliaryFile

/-- Whether a name can be a crate's: letters, digits and underscores of ASCII, no digit at first. -/
def isCrateName (name : String) : Bool :=
  match name.toList with
  | [] => false
  | first :: rest =>
    (first.isAlpha || first = '_') && rest.all fun c => c.isAlphanum || c = '_'

example : isCrateName "_a1" ∧ !isCrateName "1a" ∧ !isCrateName "" ∧ !isCrateName "ä" := by decide

end CircuitBlocks
