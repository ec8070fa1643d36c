/-!
# Libraries — compiled procedures as the loader sees them

A library file that opens may export a procedure table. The table gives the version of the contract
between host and procedure, the shape of the procedure, and four entries: one creates an instance, one
destroys it, one initialises it and one computes a step. An instance is its private memory, and what an
entry does is a function of that memory and of the arguments.
-/

namespace CircuitBlocks

/-- The private state of an instance, as the bytes behind its handle. -/
abbrev Memory := List UInt8

/-- The arguments of one computation. Port `p` has `inputWidths[p]` of the input values, port after
port, and `outputWidths[p]` of the output values. -/
structure Step where
  inputs : List Float
  inputWidths : List Nat
  time : Float
  dt : Float
  outputWidths : List Nat

/-- What a computation did: the memory after it, its status code, and the values that it wrote to the
front of the output buffer. -/
structure StepReply where
  memory : Memory
  code : Int
  written : List Float

/-- The table that a compiled procedure exports. -/
structure ProcedureTable where
  contractVersion : Nat
  shapeTag : Nat
  /-- The memory of a new instance, or nothing if none could be created. -/
  create : Option Memory
  init : Memory → Memory × Int
  compute : Memory → Step → StepReply

/-- What the platform's loader makes of the bytes of a library file. -/
inductive LibraryImage where
  /-- The file does not open as a library. -/
  | unreadable (detail : String)
  /-- The library exports no procedure table. -/
  | tableMissing (detail : String)
  | procedure (table : ProcedureTable)

/-- The version of the contract that this host speaks. -/
def contractVersion : Nat := 1

/-- What a status code means. -/
inductive CallStatus where
  | ok
  /-- The inputs do not match the procedure's shape. -/
  | badInput
  /-- The user's code panicked. -/
  | panicked
  | unknown (code : Int)
  deriving DecidableEq, Repr

/-- The code for success. -/
def CallStatus.okCode : Int := 0

/-- The code for inputs that do not match. -/
def CallStatus.badInputCode : Int := 1

/-- The code for a panic. -/
def CallStatus.panickedCode : Int := 2

/-- The meaning of a code. -/
def CallStatus.ofCode (code : Int) : CallStatus :=
  if code = okCode then .ok
  else if code = badInputCode then .badInput
  else if code = panickedCode then .panicked
  else .unknown code

/-- The output buffer after a computation: all zeros before it, and then overwritten from the front.
It keeps its size. -/
def StepReply.buffer (r : StepReply) (size : Nat) : List Float :=
  r.written.take size ++ List.replicate (size - r.written.length) 0.0

end CircuitBlocks
