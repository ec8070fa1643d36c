import CircuitBlocks.BigEndian
import CircuitBlocks.Library.Basic
import CircuitBlocks.Library.SampleCode

/-!
# Sample libraries — procedures with known answers

A sample library is a library file that needs no compiler: ready machine code, and settings in it. Its
procedure counts the computations of an instance and writes outputs that are linear in the weighted sum
of the inputs, the time and the count. The settings make it fail, write too few values or write no
number, so a host can be tried with all that a procedure may do.

* `SampleLibrary.file` is the file of a sample library, and `SampleLibrary.fileWithoutTable` the same
  machine code without a procedure table.
* `SampleLibrary.load` is a loader that knows these files and opens no other.

Only the program takes this loader. The loader of a `Machine` is one of its fields, and what is proved of a machine
is proved for every loader; no result depends on this module.
-/

namespace CircuitBlocks

/-- The settings of a sample library. -/
structure SampleLibrary where
  /-- The version of the contract in its table. -/
  contractVersion : Nat := 1
  /-- The tag of the shape in its table. -/
  shapeTag : Nat := 0
  /-- Whether instances can be created. -/
  creates : Bool := true
  /-- How many values a computation writes at most. -/
  limit : Nat := 1000
  /-- The status code of an initialisation. -/
  initCode : Int := 0
  /-- The status code of a computation that fails. -/
  failCode : Int := 2
  /-- The first computation that fails. With zero, none does. -/
  failFrom : Nat := 0
  /-- The first computation that writes no number in one place. With zero, none does. -/
  nanFrom : Nat := 0
  /-- The place of the value that is no number. -/
  nanAt : Nat := 0
  /-- The count after an initialisation. -/
  initCount : Float := 0.0
  /-- What is multiplied, in this order, with one, the weighted inputs, the time, the step width, the
  count, the place of the output, and the number of input ports. A missing factor is zero. -/
  factors : List Float := []

namespace SampleLibrary

/-! ## Settings in a file -/

/-- A natural in some bytes, the least significant first. -/
def natural (width n : Nat) : List UInt8 := (BigEndian.encode width n).reverse

/-- A status code, in two's complement. -/
def code (c : Int) : List UInt8 := natural 4 (c % (BigEndian.capacity 4 : Int)).toNat

/-- The bits of a number. -/
def real (x : Float) : List UInt8 := natural 8 x.toBits.toNat

/-- The natural that bytes stand for, the least significant first. -/
def naturalOf (bytes : List UInt8) : Nat := BigEndian.decode bytes.reverse

/-- The status code that bytes stand for. -/
def codeOf (bytes : List UInt8) : Int := (naturalOf bytes : Int).bmod (BigEndian.capacity 4)

/-- The number that bytes stand for. -/
def realOf (bytes : List UInt8) : Float := .ofBits (UInt64.ofNat (naturalOf bytes))

/-- What settings begin with. -/
def mark : List UInt8 := SampleCode.unpackChars "43424f5241434c455f434f4e464947g".toList

/-- How many factors there are. -/
def factorCount : Nat := 7

/-- A factor of the outputs. -/
def factor (s : SampleLibrary) (k : Nat) : Float := s.factors.getD k 0.0

/-- The settings as bytes. -/
def settings (s : SampleLibrary) : List UInt8 :=
  mark ++ natural 4 s.contractVersion ++ natural 4 s.shapeTag ++
    natural 4 (if s.creates then 0 else 1) ++ natural 4 s.limit ++ code s.initCode ++
    code s.failCode ++ natural 4 s.failFrom ++ natural 4 s.nanFrom ++ natural 8 s.nanAt ++
    real s.initCount ++ (List.range factorCount).flatMap fun k => real (s.factor k)

/-- The settings that bytes stand for, if they begin with the mark. -/
def ofSettings? (bytes : List UInt8) : Option SampleLibrary :=
  let at4 := fun k => (bytes.drop k).take 4
  let at8 := fun k => (bytes.drop k).take 8
  if mark.isPrefixOf bytes then some {
    contractVersion := naturalOf (at4 0x10)
    shapeTag := naturalOf (at4 0x14)
    creates := naturalOf (at4 0x18) = 0
    limit := naturalOf (at4 0x1C)
    initCode := codeOf (at4 0x20)
    failCode := codeOf (at4 0x24)
    failFrom := naturalOf (at4 0x28)
    nanFrom := naturalOf (at4 0x2C)
    nanAt := naturalOf (at8 0x30)
    initCount := realOf (at8 0x38)
    factors := (List.range factorCount).map fun k => realOf (at8 (0x40 + 8 * k)) }
  else none

/-! ## The procedure -/

/-- The sum of the inputs, each times its place counted from one. -/
def weighted (inputs : List Float) : Float :=
  inputs.zipIdx.foldl (fun sum (x, k) => sum + Float.ofNat (k + 1) * x) 0.0

/-- The outputs of the computation with a count. -/
def outputs (s : SampleLibrary) (count : Float) (step : Step) : List Float :=
  let base := s.factor 0 + s.factor 1 * weighted step.inputs + s.factor 2 * step.time +
    s.factor 3 * step.dt + s.factor 4 * count
  let ports := s.factor 6 * Float.ofNat step.inputWidths.length
  let broken := s.nanFrom ≠ 0 ∧ Float.ofNat s.nanFrom <= count
  let size := step.outputWidths.foldl (· + ·) 0
  (List.range (min s.limit size)).map fun k =>
    if broken ∧ k = s.nanAt then 0.0 / 0.0 else base + s.factor 5 * Float.ofNat k + ports

/-- A computation. The memory of an instance is its count. -/
def compute (s : SampleLibrary) (memory : Memory) (step : Step) : StepReply :=
  let count := realOf memory + 1.0
  if s.failFrom ≠ 0 ∧ Float.ofNat s.failFrom <= count then ⟨real count, s.failCode, []⟩
  else ⟨real count, 0, s.outputs count step⟩

/-- The procedure table of a sample library. -/
def procedureTable (s : SampleLibrary) : ProcedureTable where
  contractVersion := s.contractVersion
  shapeTag := s.shapeTag
  create := if s.creates then some (real 0.0) else none
  init := fun _ => (real s.initCount, s.initCode)
  compute := s.compute

/-! ## Files -/

/-- The file of a sample library. -/
def file (s : SampleLibrary) : List UInt8 := SampleCode.front ++ s.settings ++ SampleCode.back

/-- The file of a library that exports no table. It has zeros in place of settings. -/
def fileWithoutTable : List UInt8 :=
  SampleCode.front ++ List.replicate SampleCode.settingsSize 0 ++ SampleCode.back

/-- What is made of a file. Only sample libraries open. -/
def load (bytes : List UInt8) : LibraryImage :=
  if SampleCode.front.isPrefixOf bytes ∧
      bytes.drop (SampleCode.settingsStart + SampleCode.settingsSize) = SampleCode.back then
    match ofSettings? (bytes.drop SampleCode.settingsStart) with
    | some s => .procedure s.procedureTable
    | none => .tableMissing "there is no procedure table"
  else .unreadable "this is no sample library"

end SampleLibrary

end CircuitBlocks
