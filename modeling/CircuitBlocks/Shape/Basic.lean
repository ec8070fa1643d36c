import CircuitBlocks.SortedMap

/-!
# Shapes — how many ports a block has, and how wide they are

A procedure takes and gives one number per port (`single`) or one vector per port (`matrix`). In matrix
shape the width of an output port is set by the bus: one width for all ports, or one per port, where a
port without a width of its own has width one. In single shape every width is one.

* `outputWidth` gives the width of one output port and `outputWidths` those of all ports at once; that
  the two agree is `SignalShape.outputWidths_eq_map`.
-/

namespace CircuitBlocks

/-- The two shapes of a procedure. -/
inductive ProcedureShape where
  /-- One number per port and step. -/
  | single
  /-- One vector per port and step. -/
  | matrix
  deriving DecidableEq, Repr, Inhabited

namespace ProcedureShape

/-- The tag of a shape in a procedure table. -/
def tag : ProcedureShape → Nat
  | single => 0
  | matrix => 1

/-- The shape of a tag. -/
def ofTag? : Nat → Option ProcedureShape
  | 0 => some single
  | 1 => some matrix
  | _ => none

/-- The shape that this one may be exchanged for. -/
def other : ProcedureShape → ProcedureShape
  | single => matrix
  | matrix => single

/-- The name of a shape. -/
def name : ProcedureShape → String
  | single => "single"
  | matrix => "matrix"

@[simp] theorem ofTag?_tag (s : ProcedureShape) : ofTag? s.tag = some s := by cases s <;> rfl

@[simp] theorem other_other (s : ProcedureShape) : s.other.other = s := by cases s <;> rfl

end ProcedureShape

/-- How the widths of output ports are chosen in matrix shape. -/
inductive BusWidth where
  /-- One width for every port. -/
  | fixed (width : Nat)
  /-- A width for each listed port; any other has width one. -/
  | perPort (widths : SortedMap Nat Nat)
  deriving DecidableEq

namespace BusWidth

/-- The width of a port of a bus. -/
def width : BusWidth → Nat → Nat
  | fixed w, _ => w
  | perPort widths, port => (widths.get? port).getD 1

/-- The widths of the first `ports` ports of a bus. -/
def widths (ports : Nat) : BusWidth → List Nat
  | fixed w => List.replicate ports w
  | perPort widths => (widths.entries.foldr (fun e ws => ws.setIfInBounds e.1 e.2)
      (Array.replicate ports 1)).toList

end BusWidth

/-- The ports of a block. -/
structure SignalShape where
  shape : ProcedureShape
  inputPorts : Nat
  outputPorts : Nat
  bus : BusWidth
  deriving DecidableEq

namespace SignalShape

/-- The ports of a new block. -/
def standard : SignalShape := ⟨.single, 3, 2, .perPort ∅⟩

/-- The width of an output port. -/
def outputWidth (s : SignalShape) (port : Nat) : Nat :=
  match s.shape with
  | .single => 1
  | .matrix => s.bus.width port

/-- The widths of the output ports, in order. -/
def outputWidths (s : SignalShape) : List Nat :=
  match s.shape with
  | .single => List.replicate s.outputPorts 1
  | .matrix => s.bus.widths s.outputPorts

/-- The widths per port that a bus comes to for `ports` ports. -/
def widthsOfBus (ports : Nat) : BusWidth → SortedMap Nat Nat
  | .perPort widths => widths
  | .fixed w => .ofList ((List.range ports).map fun p => (p, w))

/-- The shape with one port's width set. On a bus of one width all other ports keep that width. -/
def setPortWidth (s : SignalShape) (port width : Nat) : SignalShape :=
  { s with bus := .perPort ((widthsOfBus s.outputPorts s.bus).insert port width) }

/-- The same ports for the other kind of procedure. -/
def withShape (s : SignalShape) (shape : ProcedureShape) : SignalShape := { s with shape }

end SignalShape

/-! ## The widths of all ports -/

/-- Writing entries into an array keeps its size. -/
theorem size_foldr_set (entries : List (Nat × Nat)) (ports : Nat) :
    (entries.foldr (fun e ws => ws.setIfInBounds e.1 e.2) (Array.replicate ports 1)).size = ports := by
  induction entries with
  | nil => simp
  | cons e rest ih => simpa using ih

/-- After writing, a port has the width of its first entry, or one if it has no entry. -/
theorem getElem?_foldr_set (entries : List (Nat × Nat)) {ports i : Nat} (h : i < ports) :
    (entries.foldr (fun e ws => ws.setIfInBounds e.1 e.2) (Array.replicate ports 1))[i]? =
      some ((SortedMap.lookupEntry i entries).getD 1) := by
  induction entries with
  | nil => simp [SortedMap.lookupEntry, h]
  | cons e rest ih =>
    rw [List.foldr_cons, Array.getElem?_setIfInBounds, size_foldr_set, ih]
    by_cases hi : i = e.1
    · simp [SortedMap.lookupEntry, ← hi, h]
    · simp [SortedMap.lookupEntry, hi, Ne.symm hi]

/-- The widths of a bus are its ports' widths, one by one. -/
theorem BusWidth.widths_eq_map (bus : BusWidth) (ports : Nat) :
    bus.widths ports = (List.range ports).map bus.width := by
  cases bus with
  | fixed w => exact List.ext_getElem (by simp [widths]) fun i h h' => by simp [widths, width]
  | perPort m =>
    refine List.ext_getElem? fun i => ?_
    by_cases h : i < ports
    · simp [widths, width, SortedMap.get?, getElem?_foldr_set, h]
    · simp [widths, size_foldr_set, h]

/-- The widths of the output ports are the ports' widths, one by one. -/
theorem SignalShape.outputWidths_eq_map (s : SignalShape) :
    s.outputWidths = (List.range s.outputPorts).map s.outputWidth := by
  obtain ⟨shape, _, ports, bus⟩ := s
  cases shape with
  | single =>
    exact List.ext_getElem (by simp [outputWidths]) fun i h h' => by
      simp [outputWidths, outputWidth]
  | matrix => exact bus.widths_eq_map ports

end CircuitBlocks
