import CircuitBlocks.Json.Record
import CircuitBlocks.Shape.Basic

/-!
# Shapes as documents

A shape is stored as a record of four fields. The bus is a variant, and the widths per port are an
object whose names are the ports in plain decimal.
-/

namespace CircuitBlocks

/-- The stored name of a shape. -/
def ProcedureShape.storedName : ProcedureShape → String
  | single => "Single"
  | matrix => "Matrix"

/-- The shape of a stored name. -/
def ProcedureShape.ofDocument? (v : Json) : Option ProcedureShape := do
  match ← v.plainVariant? with
  | "Single" => some .single
  | "Matrix" => some .matrix
  | _ => none

/-- A bus as a document. -/
def BusWidth.document : BusWidth → Json
  | fixed w => .record [("Fixed", .natural w)]
  | perPort widths =>
    .record [("PerPort", .record (widths.entries.map fun e => (toString e.1, .natural e.2)))]

/-- A port and its width, as a member of an object. -/
def BusWidth.portWidth? (member : String × Json) : Option (Nat × Nat) := do
  return (← Json.natural? Json.limit64 member.1, ← Json.readNatural Json.limit64 member.2)

/-- The bus of a document. -/
def BusWidth.ofDocument? (v : Json) : Option BusWidth := do
  let (name, value) ← v.variant?
  match name, value with
  | "Fixed", value => return .fixed (← Json.readNatural Json.limit64 value)
  | "PerPort", .object members => return .perPort (.ofList (← members.mapM portWidth?))
  | _, _ => none

/-- A shape as a document. -/
def SignalShape.document (s : SignalShape) : Json :=
  .record [("shape", .text s.shape.storedName), ("input_ports", .natural s.inputPorts),
    ("output_ports", .natural s.outputPorts), ("bus", s.bus.document)]

/-- The shape of a document. -/
def SignalShape.ofDocument? (v : Json) : Option SignalShape := do
  let f ← v.fields? ["shape", "input_ports", "output_ports", "bus"]
  return {
    shape := ← f.required "shape" ProcedureShape.ofDocument?
    inputPorts := ← f.required "input_ports" (Json.readNatural Json.limit64)
    outputPorts := ← f.required "output_ports" (Json.readNatural Json.limit64)
    bus := ← f.required "bus" BusWidth.ofDocument? }

end CircuitBlocks
