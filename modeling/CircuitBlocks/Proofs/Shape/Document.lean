import CircuitBlocks.Proofs.Json.Lexing
import CircuitBlocks.Proofs.Json.Record
import CircuitBlocks.Shape.Document

/-!
# Shapes as documents — a shape reads back

Numbers of ports and widths are machine words, so a shape is written faithfully if its numbers have
eight bytes.

* `SignalShape.Storable` — the shapes whose numbers have a format.
* **`SignalShape.ofDocument?_document`** — the document of a shape holds that shape.
-/

namespace CircuitBlocks

open Json (limit64 natural readNatural)

/-- A bus whose numbers have a format. -/
def BusWidth.Storable : BusWidth → Prop
  | fixed w => w ≤ limit64
  | perPort widths => ∀ e ∈ widths.entries, e.1 ≤ limit64 ∧ e.2 ≤ limit64

/-- A shape whose numbers have a format. -/
structure SignalShape.Storable (s : SignalShape) : Prop where
  inputPorts : s.inputPorts ≤ limit64
  outputPorts : s.outputPorts ≤ limit64
  bus : s.bus.Storable

theorem ProcedureShape.ofDocument?_storedName (s : ProcedureShape) :
    ofDocument? (.text s.storedName) = some s := by
  rw [ofDocument?, Json.plainVariant?_text]
  cases s <;> rfl

/-! ## Buses -/

theorem BusWidth.portWidth?_member {port width : Nat} (hport : port ≤ limit64)
    (hwidth : width ≤ limit64) :
    portWidth? (Json.escape (toString port), natural width) = some (port, width) := by
  have hname : Json.natural? limit64 (Json.escape (toString port)) = some port := by
    rw [Json.escape_toString, Nat.toString_eq_ofList_toDigits, Json.natural?_toDigits hport]
  rw [portWidth?, hname, Json.readNatural_natural hwidth]
  rfl

/-- A storable bus is read back from its document. -/
theorem BusWidth.ofDocument?_document {bus : BusWidth} (h : bus.Storable) :
    ofDocument? bus.document = some bus := by
  cases bus with
  | fixed w =>
    rw [ofDocument?, document, Json.variant?_record]
    show (readNatural limit64 (natural w)).bind _ = _
    rw [Json.readNatural_natural h]
    rfl
  | perPort widths =>
    -- the widths are written in the order of their ports, which is how they are kept
    let members := widths.entries.map fun e => (Json.escape (toString e.1), natural e.2)
    have hrecord : Json.record (widths.entries.map fun e => (toString e.1, natural e.2))
        = .object members := by
      rw [Json.record, List.map_map]
      rfl
    have hmembers : members.mapM portWidth? = some widths.entries :=
      mapM_map_eq_some fun e he => portWidth?_member (h e he).1 (h e he).2
    rw [ofDocument?, document, hrecord, Json.variant?_record]
    show (members.mapM portWidth?).bind (fun ws => some (BusWidth.perPort (.ofList ws))) = _
    rw [hmembers]
    show some (BusWidth.perPort (.ofList widths.entries)) = _
    rw [SortedMap.ofList_entries]

theorem BusWidth.spelled_document (bus : BusWidth) : Json.Spelled bus.document := by
  cases bus with
  | fixed w => exact Json.spelled_record (List.forall_mem_singleton.2 (Json.spelled_natural w))
  | perPort widths =>
    refine Json.spelled_record (List.forall_mem_singleton.2 (Json.spelled_record ?_))
    rw [List.forall_mem_map]
    exact fun e _ => Json.spelled_natural e.2

/-! ## Shapes -/

/-- The document of a shape holds that shape. -/
theorem SignalShape.ofDocument?_document {s : SignalShape} (h : s.Storable) :
    ofDocument? s.document = some s := by
  have hfields : s.document.fields? ["shape", "input_ports", "output_ports", "bus"]
      = some ⟨false, [("shape", .text s.shape.storedName), ("input_ports", .natural s.inputPorts),
        ("output_ports", .natural s.outputPorts), ("bus", s.bus.document)]⟩ :=
    Json.fields?_record (by simp)
      (show ["shape", "input_ports", "output_ports", "bus"].Nodup by decide)
  rw [ofDocument?, hfields]
  simp [Json.Fields.required, Json.Fields.get?, List.lookup_cons,
    ProcedureShape.ofDocument?_storedName, Json.readNatural_natural h.inputPorts,
    Json.readNatural_natural h.outputPorts, BusWidth.ofDocument?_document h.bus]

theorem SignalShape.spelled_document (s : SignalShape) : Json.Spelled s.document := by
  refine Json.spelled_record ?_
  simp only [List.forall_mem_cons]
  exact ⟨Json.spelled_text _, Json.spelled_natural _, Json.spelled_natural _, s.bus.spelled_document,
    fun _ h => nomatch h⟩

end CircuitBlocks
