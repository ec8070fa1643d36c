import CircuitBlocks.Proofs.Block.Edit
import CircuitBlocks.Proofs.Block.Outcome

/-!
# Histories — which artifacts a block holds

The artifacts of a block are replaced as a whole, when it accepts the outcome of a compile that succeeded,
and they are forgotten as a whole. Nothing else that is done to a block touches them.

* `Block.Operation` — what can be done to a block.
* `Block.sameButFiles_perform`, `Block.id_and_files_perform`, `Block.state_perform` — what an operation leaves
  alone: one on the files everything else, any other one the files, and one without a verdict the state.
* `Block.Operation.events` — what one operation means for the artifacts, told from its result.
* `Block.store?_perform` — one operation, and `Block.store?_performAll` — any sequence of them.
-/

namespace CircuitBlocks

/-! ## Events -/

/-- What can happen to the artifacts of a block. -/
inductive StoreEvent where
  | accepted (s : ArtifactStore)
  | forgotten

namespace StoreEvent

/-- The artifacts that are held after events, of which only the latest counts. -/
def held (before : Option ArtifactStore) (events : List StoreEvent) : Option ArtifactStore :=
  match events.getLast? with
  | none => before
  | some (.accepted s) => some s
  | some .forgotten => none

/-- Later events are looked at on top of what earlier ones have left. -/
theorem held_append (before : Option ArtifactStore) (es fs : List StoreEvent) :
    held before (es ++ fs) = held (held before es) fs := by
  unfold held
  rw [List.getLast?_append]
  cases fs.getLast? with
  | none => rfl
  | some e => cases e <;> rfl

/-- What the outcome of a compile means once it is accepted. -/
def ofOutcome : Option CompileOutcome → List StoreEvent
  | some (.success s _ _) => [.accepted s]
  | _ => []

/-- What the result of a start means, apart from the compile that it may have made. -/
def ofStart : Except RunFault Unit → List StoreEvent
  | .error (.load e) => if e.isIncompatible then [.forgotten] else []
  | _ => []

end StoreEvent

/-! ## Operations -/

namespace Block

/-- What can be done to a block. Each operation on the outside comes with the machine as it is then. -/
inductive Operation where
  | edit (edit : Edit)
  | requestRecompile (fragments : Fragments)
  | attach (hash : FileHash)
  | detach (hash : FileHash)
  | relink (hashes : List FileHash)
  | reset
  /-- The outcome of a job comes back, be it up to date or not. -/
  | apply (j : CompileJob) (outcome : CompileOutcome)
  | compile (t : Toolchain) (m : Machine)
  | compileIfRequired (t : Toolchain) (m : Machine)
  | start (context : StartContext) (dt : Float) (m : Machine)
  | step (time dt : Float) (inputs : Signals)
  | endRun

/-- The block and the registry after an operation. -/
def perform (b : Block) (r : Registry) : Operation → Block × Registry
  | .edit edit => (b.edit edit, r)
  | .requestRecompile fragments => ((b.requestRecompile fragments).2, r)
  | .attach hash => (b.attach r hash).toOption.getD (b, r)
  | .detach hash => (b.detach r hash).2
  | .relink hashes => (b.relink r hashes).2
  | .reset => (b.reset, r)
  | .apply j outcome => ((b.apply j outcome).2, r)
  | .compile t m => ((b.compile t m).2.1, r)
  | .compileIfRequired t m => ((b.compileIfRequired t m).2.1, r)
  | .start context dt m => ((b.start context dt m).2.1, r)
  | .step time dt inputs => ((b.step time dt inputs).2, r)
  | .endRun => (b.endRun, r)

/-- What an operation means for the artifacts of a block. -/
def Operation.events (b : Block) : Operation → List StoreEvent
  | .edit (.outputPorts ports) => if b.shape.outputPorts = ports then [] else [.forgotten]
  | .reset => [.forgotten]
  | .apply j outcome => if (b.apply j outcome).1 then StoreEvent.ofOutcome (some outcome) else []
  | .compile t m => StoreEvent.ofOutcome (b.outcome? t m)
  | .compileIfRequired t m => StoreEvent.ofOutcome (b.compiles? (some t) m)
  | .start context dt m =>
    StoreEvent.ofOutcome ({ b with run := none }.compiles? context.toolchain m) ++
      StoreEvent.ofStart (b.start context dt m).1
  | _ => []

/-- A block after operations, each with the registry as it is then. -/
def performAll (b : Block) : List (Registry × Operation) → Block
  | [] => b
  | (r, op) :: rest => (b.perform r op).1.performAll rest

/-- What operations on a block mean for its artifacts, one after another. -/
def history (b : Block) : List (Registry × Operation) → List StoreEvent
  | [] => []
  | (r, op) :: rest => op.events b ++ (b.perform r op).1.history rest

/-! ## One operation -/

variable {b : Block}

theorem compile_eq (b : Block) (t : Toolchain) (m : Machine) :
    (b.compile t m).2.1 = b.settleOwn (b.outcome? t m) := by
  rw [← compileNow_eq, compile]
  split <;> next h => rw [h]

theorem perform_compile (b : Block) (r : Registry) (t : Toolchain) (m : Machine) :
    b.perform r (.compile t m) = (b.settleOwn (b.outcome? t m), r) := Prod.ext (b.compile_eq t m) rfl

theorem perform_compileIfRequired (b : Block) (r : Registry) (t : Toolchain) (m : Machine) :
    b.perform r (.compileIfRequired t m) = (b.settleOwn (b.compiles? (some t) m), r) :=
  Prod.ext (b.compileIfRequired_eq t m) rfl

theorem exists_perform_step (b : Block) (r : Registry) (time dt : Float) (inputs : Signals) :
    ∃ run, b.perform r (.step time dt inputs) = ({ b with run }, r) := by
  obtain ⟨run, hrun⟩ := b.step_eq time dt inputs
  exact ⟨run, Prod.ext hrun rfl⟩

/-- Whether an operation attaches or detaches files. -/
def Operation.isLink : Operation → Bool
  | .attach _ | .detach _ | .relink _ => true
  | _ => false

/-- Whether an operation may bring a verdict on the block, of a compile or of loading what it has. -/
def Operation.isTrial : Operation → Bool
  | .apply .. | .compile .. | .compileIfRequired .. | .start .. => true
  | _ => false

/-- An operation on the files of a block leaves the rest of it alone. -/
theorem sameButFiles_perform (b : Block) (r : Registry) {op : Operation} (hop : op.isLink = true) :
    b.SameButFiles (b.perform r op).1 := by
  cases op with
  | attach hash =>
    simp only [perform]
    cases hattach : b.attach r hash with
    | error e => rfl
    | ok attached => exact attach_sameButFiles hattach
  | detach hash => exact b.detach_sameButFiles r hash
  | relink hashes => exact b.relink_sameButFiles r hashes
  | _ => cases hop

/-- Any other one leaves its files alone. -/
theorem id_and_files_perform (b : Block) (r : Registry) {op : Operation} (hop : op.isLink = false) :
    (b.perform r op).1.id = b.id ∧ (b.perform r op).1.files = b.files := by
  cases op with
  | edit edit => exact ⟨b.id_edit edit, b.files_edit edit⟩
  | requestRecompile | reset | endRun => exact ⟨rfl, rfl⟩
  | attach | detach | relink => cases hop
  | apply j outcome =>
    simp only [perform, apply]
    split <;> exact ⟨rfl, rfl⟩
  | compile t m =>
    rw [perform_compile]
    exact ⟨(b.sameInputs_settleOwn _).id, (b.sameInputs_settleOwn _).files⟩
  | compileIfRequired t m =>
    rw [perform_compileIfRequired]
    exact ⟨(b.sameInputs_settleOwn _).id, (b.sameInputs_settleOwn _).files⟩
  | start context dt m =>
    have hsame := (b.start_starts context dt m).sameInputs
    exact ⟨hsame.id, hsame.files⟩
  | step time dt inputs =>
    obtain ⟨run, hrun⟩ := b.exists_perform_step r time dt inputs
    rw [hrun]
    exact ⟨rfl, rfl⟩

/-- No operation changes the identity of a block. -/
theorem id_perform (b : Block) (r : Registry) (op : Operation) : (b.perform r op).1.id = b.id := by
  cases hop : op.isLink with
  | true => exact (b.sameButFiles_perform r hop).continues.id
  | false => exact (b.id_and_files_perform r hop).1

/-- Without a verdict the compile state stays as it is, or is dropped. -/
theorem state_perform (b : Block) (r : Registry) {op : Operation} (hop : op.isTrial = false) :
    (b.perform r op).1.state = b.state ∨ (b.perform r op).1.state = .uncompiled := by
  cases op with
  | edit edit =>
    -- only another number of output ports drops it
    cases edit with
    | outputPorts ports =>
      simp only [perform, Block.edit, setOutputPorts]
      split
      · exact .inl rfl
      · exact .inr rfl
    | _ => exact .inl rfl
  | requestRecompile | endRun => exact .inl rfl
  | attach | detach | relink => exact .inl (b.sameButFiles_perform r rfl).state
  | reset => exact .inr rfl
  | step time dt inputs =>
    obtain ⟨run, hrun⟩ := b.exists_perform_step r time dt inputs
    rw [hrun]
    exact .inl rfl
  | apply | compile | compileIfRequired | start => cases hop

theorem continues_perform (b : Block) (r : Registry) {op : Operation} (hop : op.isTrial = false) :
    b.Continues (b.perform r op).1 := by
  refine ⟨b.id_perform r op, ?_⟩
  rcases b.state_perform r hop with hstate | hstate
  · rw [hstate]
    exact .same
  · rw [hstate]
    exact .forgotten

/-! ## The artifacts after one operation -/

/-- An edit forgets the artifacts just if it changes the number of output ports. -/
theorem store?_edit (b : Block) (edit : Edit) :
    (b.edit edit).state.store? = StoreEvent.held b.state.store? (Operation.events b (.edit edit)) := by
  cases edit with
  | outputPorts ports =>
    simp only [Block.edit, setOutputPorts, Operation.events]
    split <;> rfl
  | _ => rfl

theorem store?_settle (s : CompileState) (j : CompileJob) (outcome : CompileOutcome) :
    (s.settle j outcome).store? = StoreEvent.held s.store? (StoreEvent.ofOutcome (some outcome)) := by
  cases outcome <;> rfl

theorem store?_settleOwn (b : Block) (outcome : Option CompileOutcome) :
    (b.settleOwn outcome).state.store? = StoreEvent.held b.state.store? (StoreEvent.ofOutcome outcome) := by
  cases outcome with
  | none => rfl
  | some o => exact store?_settle b.state b.job o

/-- An outcome counts if it is accepted, and else changes nothing. -/
theorem store?_apply (b : Block) (j : CompileJob) (outcome : CompileOutcome) :
    (b.apply j outcome).2.state.store?
      = StoreEvent.held b.state.store? (Operation.events b (.apply j outcome)) := by
  simp only [Operation.events, Block.apply]
  split
  · exact store?_settle b.state j outcome
  · rfl

/-- A library that does not load leaves the artifacts alone, unless it is for another contract. -/
theorem store?_recordLoadFailure (b : Block) (e : LoadError) :
    (b.recordLoadFailure e).state.store?
      = StoreEvent.held b.state.store? (StoreEvent.ofStart (.error (.load e))) := by
  unfold recordLoadFailure
  by_cases he : e.isIncompatible
  · simp only [StoreEvent.ofStart, he, if_true]
    rfl
  · simp only [StoreEvent.ofStart, if_neg he]
    split <;> rfl

/-- A start counts as the compile that it makes, and then as what its library is found to be. -/
theorem store?_start (b : Block) (context : StartContext) (dt : Float) (m : Machine) :
    (b.start context dt m).2.1.state.store?
      = StoreEvent.held b.state.store? (Operation.events b (.start context dt m)) := by
  have hstarts := b.start_starts context dt m
  rw [Operation.events, StoreEvent.held_append]
  generalize (b.start context dt m).1 = result, (b.start context dt m).2.1 = b',
    (b.start context dt m).2.2 = m' at hstarts
  -- every exit leaves the prepared block, which has taken the outcome of the compile
  have hprepared : ∀ {c : Block} {result : Except RunFault Unit},
      ({ b with run := none } : Block).Prepares context.toolchain m result c m' →
      c.state.store? = StoreEvent.held b.state.store?
        (StoreEvent.ofOutcome ({ b with run := none }.compiles? context.toolchain m)) := by
    intro c result h
    rw [h.eq_settleOwn]
    exact store?_settleOwn { b with run := none } _
  cases hstarts with
  | refused h =>
    rw [hprepared h]
    cases h <;> rfl
  | notCompiled h => exact hprepared h
  | notLoaded h => rw [store?_recordLoadFailure, hprepared h]
  | notInitialised h hstate hload hfault =>
    rw [hprepared h]
    rcases hfault with rfl | ⟨code, rfl⟩ <;> rfl
  | @started c m' record s table memory h => exact (hprepared h : c.state.store? = _)

/-- The artifacts of a block after an operation are those that its events tell. -/
theorem store?_perform (b : Block) (r : Registry) (op : Operation) :
    (b.perform r op).1.state.store? = StoreEvent.held b.state.store? (op.events b) := by
  cases op with
  | edit edit => exact b.store?_edit edit
  | requestRecompile | reset | endRun => rfl
  | attach | detach | relink => exact congrArg CompileState.store? (b.sameButFiles_perform r rfl).state
  | apply j outcome => exact b.store?_apply j outcome
  | compile t m =>
    rw [perform_compile]
    exact b.store?_settleOwn _
  | compileIfRequired t m =>
    rw [perform_compileIfRequired]
    exact b.store?_settleOwn _
  | start context dt m => exact b.store?_start context dt m
  | step time dt inputs =>
    obtain ⟨run, hrun⟩ := b.exists_perform_step r time dt inputs
    rw [hrun]
    rfl

/-! ## All operations -/

/-- The artifacts that a block holds, whatever was done to it: those of the latest success that it has
accepted, unless they were forgotten since; if neither has happened, those that it had at first. They were
forgotten by a reset, by another number of output ports, or by a start that found them to be for another
contract. -/
theorem store?_performAll (b : Block) (ops : List (Registry × Operation)) :
    (b.performAll ops).state.store?
      = match (b.history ops).getLast? with
        | none => b.state.store?
        | some (.accepted s) => some s
        | some .forgotten => none := by
  show _ = StoreEvent.held b.state.store? (b.history ops)
  induction ops generalizing b with
  | nil => rfl
  | cons step rest ih =>
    obtain ⟨r, op⟩ := step
    rw [performAll, history, ih, StoreEvent.held_append, store?_perform]

end Block

end CircuitBlocks
