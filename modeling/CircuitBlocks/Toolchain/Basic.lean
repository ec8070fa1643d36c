import CircuitBlocks.Machine
import CircuitBlocks.Text.Blank
import CircuitBlocks.Toolchain.Config

/-!
# Toolchains — compilers that are known to run

A toolchain is a configuration whose compiler has told its version. The first line of the version and
the host that it names make up the fingerprint, which is stored with everything that the compiler
builds. A compiler that does not start or tells no version is an error of configuration.
-/

namespace CircuitBlocks

/-- Why a compiler could not be used. -/
inductive ToolchainError where
  /-- The compiler did not start. -/
  | notFound (compiler : String) (cause : SystemError)
  /-- The compiler told no version. -/
  | unusable (compiler detail : String)
  /-- The exchange with the compiler broke off. -/
  | interrupted (cause : SystemError)
  deriving DecidableEq, Repr

/-- The wording of an error. -/
def ToolchainError.message : ToolchainError → String
  | notFound compiler cause => s!"compiler '{compiler}' not found: " ++ cause.message
  | unusable compiler detail => s!"compiler '{compiler}' did not report a version: {detail}"
  | interrupted cause => "compiler I/O failed: " ++ cause.message

/-- A compiler that is known to run. -/
structure Toolchain where
  config : ToolchainConfig
  /-- What identifies the compiler in what it builds. -/
  fingerprint : String
  deriving DecidableEq, Repr

/-- The host that a version names, on the first line for it. -/
def hostOfVersion? (version : String) : Option String :=
  ((Text.lines version).findSome? fun line => Text.stripStart? line "host: ").map Text.trim

/-- The fingerprint of a version: its first line and the host. -/
def fingerprintOfVersion? (version : String) : Option String :=
  match Text.lines version with
  | [] => none
  | line :: _ =>
    let first := Text.trim line
    if first = "" then none
    else match hostOfVersion? version with
      | none => some first
      | some host => some (first ++ " [" ++ host ++ "]")

/-- Asks the compiler of a configuration for its version. It runs in the current directory, whatever
the configuration says. -/
def Toolchain.probe (config : ToolchainConfig) (m : Machine) : Except ToolchainError Toolchain :=
  match m.spawn config.compiler ["-vV"] none with
  | .error e => .error (.notFound config.compiler e)
  | .ok (compiler, _) =>
    let output := compiler.version
    if !output.success then
      .error (.unusable config.compiler (Text.trim (Text.Utf8.decodeLossy output.stderr)))
    else
      let version := Text.Utf8.decodeLossy output.stdout
      match fingerprintOfVersion? version with
      | none => .error (.unusable config.compiler (Text.trim version))
      | some fingerprint => .ok ⟨config, fingerprint⟩

end CircuitBlocks
