import CircuitBlocks.Proofs.Block.Running
import CircuitBlocks.Proofs.Project.Reachable

/-!
# Running projects — buffers and layouts of all steps

A compiled procedure is handed its buffers without their lengths, so their sizes have to be right whatever
has been done to the block. They are, for every step of every block with a run.

* `Project.Reachable.runsSince` — a block with a run was started.
* **`Project.Reachable.step_sizes`** — the sizes of the buffers of a step, and the layout of its result.
-/

namespace CircuitBlocks

namespace Project

variable {p : Project} {b : Block}

/-- A block with a run was started, and not started again since. -/
theorem Reachable.runsSince (h : p.Reachable) :
    ∀ b ∈ p.blocks, ∀ run, b.run = some run → ∃ widths, b.RunsSince widths := by
  refine h.forall_blocks (fun _ _ _ _ hrun => nomatch hrun) (fun r registry toolchain run hrun => ?_)
    (fun _ _ _ hrun => nomatch hrun) (fun b r op _ _ ih run hrun => ?_)
  · obtain ⟨files, state, heq, -⟩ := r.exists_restore_eq registry toolchain
    rw [heq] at hrun
    cases hrun
  · -- a run after an operation is one that it has started, or one that was there before
    cases hop : op.isStart with
    | true =>
      cases op with
      | start context dt m => exact ⟨_, .start context dt m rfl⟩
      | _ => cases hop
    | false =>
      obtain ⟨earlier, hearlier, -⟩ := b.keepsLayout_perform r hop run hrun
      obtain ⟨widths, hsince⟩ := ih earlier hearlier
      exact ⟨widths, hsince.perform r hop⟩

/-- **Buffers and layouts.** For every block with a run that the library has made: the call that a step makes
has as many input values as the input widths come to, and one width for each port that the block has now,
which are all one in single shape. The output buffer has as many values as the output widths come to, also
after it was written to, so cutting it does not go out of range. What a step gives has the block's shape and
as many ports as the block, the widths that were in force when the run was started, and no NaN. -/
theorem Reachable.step_sizes (h : p.Reachable) (hb : b ∈ p.blocks) {run : ActiveRun}
    (hrun : b.run = some run) : (∃ widths, b.RunsSince widths) ∧ ∀ time dt inputs,
      (∀ run args, b.call? time dt inputs = some (run, args) →
        (b.step time dt inputs).1
          = Block.outputs b.shape.shape args.outputWidths time (run.table.compute run.memory args) ∧
        args.Sized b.shape ∧
        ∀ reply : StepReply,
          (reply.buffer (Signals.totalWidth args.outputWidths)).length
            = Signals.totalWidth args.outputWidths ∧
          (Signals.ofFlat? b.shape.shape (reply.buffer (Signals.totalWidth args.outputWidths))
            args.outputWidths).isSome) ∧
      ∀ result, (b.step time dt inputs).1 = .ok result →
        result.shape = b.shape.shape ∧ result.portCount = b.shape.outputPorts ∧
        (∀ widths, b.RunsSince widths → result.widths = widths) ∧ ∀ v ∈ result.flatten, v.isNaN = false := by
  -- whatever has happened since its start, the run has the widths of that time
  obtain ⟨widths, hsince⟩ := h.runsSince b hb run hrun
  refine ⟨⟨widths, hsince⟩, fun time dt inputs => ⟨fun run args hcall => ?_, fun result hstep => ?_⟩⟩
  · refine ⟨Block.step_of_call hcall, hsince.laidOut.sized hcall, fun reply => ?_⟩
    have hbuffer := reply.length_buffer (Signals.totalWidth args.outputWidths)
    refine ⟨hbuffer, ?_⟩
    rw [Signals.ofFlat?_eq_some _ hbuffer]
    rfl
  · obtain ⟨hshape, hports, -, hnumbers⟩ := hsince.laidOut.step_ok hstep
    exact ⟨hshape, hports, fun _ hother => (hother.laidOut.step_ok hstep).2.2.1, hnumbers⟩

/-- A call is made by a block that was compiled and started. -/
theorem step_sizes_bare : ∃ (p : Project) (b : Block) (run : ActiveRun) (args : Step),
    p.Reachable ∧ b ∈ p.blocks ∧ b.run = some run ∧
    b.call? 0 0.5 (.single [1, 2, 3]) = some (run, args) ∧ args.Sized b.shape := by
  obtain ⟨b, b', hp, hshape, hstart⟩ := exists_started_bare none 0.5
  -- the block that the start leaves is one of a reachable project
  have hrunning : Reachable ⟨.empty, [b']⟩ := by
    have hgenuine : Block.Operation.Genuine (.start {} 0.5 (.willing [])) := trivial
    have hperformed := hp.operate (i := 0) rfl hgenuine
    simp only [Block.perform, hstart] at hperformed
    exact hperformed
  have hstarts := b.start_starts {} 0.5 (.willing [])
  rw [hstart] at hstarts
  have hsome : b'.isRunning = true := hstarts.isRunning_iff.2 rfl
  obtain ⟨run, hrun⟩ := Option.isSome_iff_exists.1 hsome
  have hcall : b'.call? 0 0.5 (.single [1, 2, 3]) = some (run, run.arguments (.single [1, 2, 3]) 0 0.5) := by
    rw [Block.call?_eq_some, hstarts.sameInputs.shape, hshape]
    exact ⟨⟨rfl, rfl⟩, hrun, rfl⟩
  have hsizes := (hrunning.step_sizes (List.mem_singleton_self b') hrun).2 0 0.5 (.single [1, 2, 3])
  exact ⟨_, b', run, _, hrunning, List.mem_singleton_self b', hrun, hcall, (hsizes.1 _ _ hcall).2.1⟩

end Project

end CircuitBlocks
