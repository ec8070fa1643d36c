import CircuitBlocks.Json.Record

/-!
# Toolchain configurations — which compiler to call, and how

Every field of a configuration has a default, so a document may leave out any of them. The arguments
that all calls share are made from the configuration alone.
-/

namespace CircuitBlocks

/-- A compiled crate of the host that user code may use. -/
structure HostCrate where
  name : String
  path : String
  deriving DecidableEq, Repr

/-- Which compiler to call, and how. -/
structure ToolchainConfig where
  /-- The command or path of the compiler. -/
  compiler : String := "rustc"
  /-- The edition of the language that sources are written in. -/
  edition : String := "2021"
  optimisation : String := "2"
  /-- Where the compiler looks for libraries. -/
  libraryPaths : List String := []
  hostCrates : List HostCrate := []
  /-- The directory that the compiler runs in. -/
  workingDirectory : Option String := none
  /-- Arguments that come last. -/
  extraArguments : List String := []
  deriving DecidableEq, Repr, Inhabited

/-- The configuration where none is named: the default one, with the directory of the libraries that come with the
program, if there is one. -/
def ToolchainConfig.ofHost (bundledLibraries : Option String) : ToolchainConfig :=
  { libraryPaths := bundledLibraries.toList }

/-! ## Arguments -/

/-- The arguments that make a crate known to user code. -/
def crateArguments (name path : String) : List String := ["--extern", name ++ "=" ++ path]

/-- The arguments that all calls begin with. -/
def ToolchainConfig.commonArguments (c : ToolchainConfig) : List String :=
  ["--edition", c.edition, "--error-format=json", "-C", "opt-level=" ++ c.optimisation] ++
    c.libraryPaths.flatMap (fun path => ["-L", path]) ++
    c.hostCrates.flatMap fun crate => crateArguments crate.name crate.path

/-! ## Documents -/

/-- A text that may be missing, as a document. -/
def nullableText : Option String → Json
  | none => .null
  | some s => .text s

/-- A crate as a document. -/
def HostCrate.document (c : HostCrate) : Json :=
  .record [("name", .text c.name), ("path", .text c.path)]

/-- The crate of a document. -/
def HostCrate.ofDocument? (v : Json) : Option HostCrate := do
  let f ← v.fields? ["name", "path"]
  return ⟨← f.required "name" Json.readText, ← f.required "path" Json.readText⟩

namespace ToolchainConfig

/-- A configuration as a document. -/
def document (c : ToolchainConfig) : Json :=
  .record [("compiler", .text c.compiler), ("edition", .text c.edition),
    ("opt_level", .text c.optimisation),
    ("library_paths", .array (c.libraryPaths.map Json.text)),
    ("externs", .array (c.hostCrates.map HostCrate.document)),
    ("working_directory", nullableText c.workingDirectory),
    ("extra_args", .array (c.extraArguments.map Json.text))]

/-- The stored names of the fields. -/
def fieldNames : List String :=
  ["compiler", "edition", "opt_level", "library_paths", "externs", "working_directory",
    "extra_args"]

/-- The configuration of a document. -/
def ofDocument? (v : Json) : Option ToolchainConfig := do
  let f ← v.fields? fieldNames
  let standard : ToolchainConfig := {}
  return {
    compiler := ← f.withDefault "compiler" standard.compiler Json.readText
    edition := ← f.withDefault "edition" standard.edition Json.readText
    optimisation := ← f.withDefault "opt_level" standard.optimisation Json.readText
    libraryPaths :=
      ← f.withDefault "library_paths" standard.libraryPaths (Json.readList Json.readText)
    hostCrates :=
      ← f.withDefault "externs" standard.hostCrates (Json.readList HostCrate.ofDocument?)
    workingDirectory :=
      ← f.withDefault "working_directory" standard.workingDirectory
        (Json.Fields.readNullable Json.readText)
    extraArguments :=
      ← f.withDefault "extra_args" standard.extraArguments (Json.readList Json.readText) }

end ToolchainConfig

end CircuitBlocks
