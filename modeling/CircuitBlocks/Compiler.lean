/-!
# Compilers — programs outside, as they are seen from here

A compiler is known by its answers. Asked for its version, it writes an output. Asked to compile, it
is given arguments, a directory to run in and a source text; it writes an output and leaves files in
the scratch directory, or the exchange with it breaks off. An answer may depend on all calls before it,
so every behaviour of a program over time is a `Compiler`.
-/

namespace CircuitBlocks

/-! ## Refusals -/

/-- Why the system refused something. -/
inductive SystemError where
  | notFound
  | permissionDenied
  | alreadyExists
  | notDirectory
  | isDirectory
  | brokenPipe
  | nameTooLong
  | nulInPath
  | nulInCommand
  | notText
  deriving DecidableEq, Repr

/-- The wording of a refusal. -/
def SystemError.message : SystemError → String
  | notFound => "No such file or directory (os error 2)"
  | permissionDenied => "Permission denied (os error 13)"
  | alreadyExists => "File exists (os error 17)"
  | notDirectory => "Not a directory (os error 20)"
  | isDirectory => "Is a directory (os error 21)"
  | brokenPipe => "Broken pipe (os error 32)"
  | nameTooLong => "File name too long (os error 36)"
  | nulInPath => "file name contained an unexpected NUL byte"
  | nulInCommand => "nul byte found in provided data"
  | notText => "stream did not contain valid UTF-8"

/-! ## Calls and answers -/

/-- A place in the file tree: the names on the way from the root. -/
abbrev Location := List String

/-- What a program wrote, and whether it reported success. -/
structure Output where
  success : Bool
  stdout : List UInt8
  stderr : List UInt8
  deriving DecidableEq, Repr

/-- One request to compile. -/
structure CompilerCall where
  arguments : List String
  /-- The directory that the compiler runs in. -/
  directory : Location
  source : String
  deriving DecidableEq, Repr

/-- A directory of files, in the order in which it lists them. -/
abbrev Listing := List (String × List UInt8)

/-- The listing with a file written: in place of a file of that name, or as a new file, which is
listed first. -/
def Listing.write (files : Listing) (name : String) (contents : List UInt8) : Listing :=
  if files.any (·.1 = name) then
    files.map fun f => if f.1 = name then (name, contents) else f
  else (name, contents) :: files

/-- A compiler, by its answers. -/
structure Compiler where
  version : Output
  /-- The answer to a call after `earlier` calls, and the scratch directory after it. -/
  compile : (earlier : List CompilerCall) → CompilerCall → Listing →
    Except SystemError Output × Listing

end CircuitBlocks
