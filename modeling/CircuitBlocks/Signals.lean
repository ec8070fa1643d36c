import CircuitBlocks.Shape.Basic

/-!
# Signals — the values that cross the solver boundary in one step

Signals are one number or one vector per port. `flatten` lays the ports end to end, and flat values are
cut into ports of given widths.

* `ofFlat?` cuts slice by slice, and gives nothing if one is out of range.
* `ofFlat` takes what there is. Where there are enough values the two agree (`Signals.ofFlat?_eq_some`).
-/

namespace CircuitBlocks

/-- The values of the ports in one step. -/
inductive Signals where
  /-- One number per port. -/
  | single (values : List Float)
  /-- One vector per port. -/
  | matrix (ports : List (List Float))

namespace Signals

/-- The shape of a procedure with such signals. -/
def shape : Signals → ProcedureShape
  | single _ => .single
  | matrix _ => .matrix

/-- How many ports there are. -/
def portCount : Signals → Nat
  | single values => values.length
  | matrix ports => ports.length

/-- The width of each port. -/
def widths : Signals → List Nat
  | single values => List.replicate values.length 1
  | matrix ports => ports.map List.length

/-- The values of the ports, end to end. -/
def flatten : Signals → List Float
  | single values => values
  | matrix ports => ports.flatten

/-- How many values there are in ports of the given widths. -/
def totalWidth (widths : List Nat) : Nat := widths.foldr (· + ·) 0

/-- Values cut into ports of the given widths. -/
def cut : List Nat → List Float → List (List Float)
  | [], _ => []
  | w :: ws, flat => flat.take w :: cut ws (flat.drop w)

/-- The signals of flat values. In single shape the widths do not count. -/
def ofFlat (shape : ProcedureShape) (flat : List Float) (widths : List Nat) : Signals :=
  match shape with
  | .single => .single flat
  | .matrix => .matrix (cut widths flat)

/-- The values from one place up to another, if there are places from the one to the other. -/
def slice? (flat : List Float) (start stop : Nat) : Option (List Float) :=
  if start ≤ stop ∧ stop ≤ flat.length then some ((flat.drop start).take (stop - start)) else none

/-- Values cut into ports of the given widths, from an offset on: each port is the slice behind the
port before it. -/
def cutFrom? (flat : List Float) : (offset : Nat) → (widths : List Nat) → Option (List (List Float))
  | _, [] => some []
  | offset, w :: ws => do
    let port ← slice? flat offset (offset + w)
    let ports ← cutFrom? flat (offset + w) ws
    return port :: ports

/-- The signals of flat values, if no port is out of range. -/
def ofFlat? (shape : ProcedureShape) (flat : List Float) (widths : List Nat) : Option Signals :=
  match shape with
  | .single => some (.single flat)
  | .matrix => (cutFrom? flat 0 widths).map .matrix

/-- Whether the signals can feed the input ports of a shape. -/
def fits (s : Signals) (shape : SignalShape) : Bool :=
  s.shape = shape.shape ∧ s.portCount = shape.inputPorts

end Signals

end CircuitBlocks
