import CircuitBlocks.Proofs.Block.History
import CircuitBlocks.Proofs.Signals

/-!
# Running blocks — the layout of a run and what it is called with

The outputs of a run are laid out when it starts. Bus and widths may be edited while it goes on, and so may
the number of input ports; but with another number of output ports or another shape it ends. So the layout
has as many ports as the block.

* `Block.call?` — the call that a step makes, and `Step.Sized` what the contract asks of its arguments.
* `Block.RunsSince` — the widths that were in force when a run started, told from what was done since.
* **`Block.RunsSince.laidOut`** — a run keeps the layout of its start, which fits the block all the time.
-/

namespace CircuitBlocks

/-- What the contract asks of the arguments of a step, for the ports of the block. -/
structure Step.Sized (args : Step) (shape : SignalShape) : Prop where
  inputs : args.inputs.length = Signals.totalWidth args.inputWidths
  inputPorts : args.inputWidths.length = shape.inputPorts
  outputPorts : args.outputWidths.length = shape.outputPorts
  single : shape.shape = .single →
    args.inputWidths = List.replicate shape.inputPorts 1 ∧
    args.outputWidths = List.replicate shape.outputPorts 1

namespace Block

variable {b b' : Block} {widths : List Nat}

/-! ## Calls -/

/-- The run that a step calls, and the arguments, if it makes a call. -/
def call? (b : Block) (time dt : Float) (inputs : Signals) : Option (ActiveRun × Step) :=
  if inputs.fits b.shape then b.run.map fun run => (run, run.arguments inputs time dt) else none

variable {time dt : Float} {inputs : Signals} {run : ActiveRun} {args : Step}

/-- A call is made with the arguments of the run, for inputs that fit a block that runs. -/
theorem call?_eq_some : b.call? time dt inputs = some (run, args) ↔
    (inputs.shape = b.shape.shape ∧ inputs.portCount = b.shape.inputPorts) ∧ b.run = some run ∧
      args = run.arguments inputs time dt := by
  unfold call?
  split
  · next hfits =>
    rw [Option.map_eq_some_iff]
    constructor
    · rintro ⟨run', hrun, heq⟩
      cases heq
      exact ⟨of_decide_eq_true hfits, hrun, rfl⟩
    · rintro ⟨-, hrun, rfl⟩
      exact ⟨run, hrun, rfl⟩
  · next hmisfit =>
    constructor
    · exact fun h => nomatch h
    · exact fun h => absurd (decide_eq_true h.1) hmisfit

/-- A step that makes a call gives what comes of it. -/
theorem step_of_call (h : b.call? time dt inputs = some (run, args)) :
    (b.step time dt inputs).1
      = outputs b.shape.shape args.outputWidths time (run.table.compute run.memory args) := by
  obtain ⟨hfits, hrun, rfl⟩ := call?_eq_some.1 h
  have hfits : inputs.fits b.shape = true := decide_eq_true hfits
  simp only [step, hfits, hrun]
  rfl

/-- Without a call a step fails, and changes nothing. -/
theorem step_of_no_call (h : b.call? time dt inputs = none) :
    ∃ fault, b.step time dt inputs = (.error fault, b) := by
  unfold call? at h
  unfold step
  split at h
  · next hfits =>
    rw [Option.map_eq_none_iff] at h
    simp only [hfits, h]
    exact ⟨_, rfl⟩
  · next hmisfit =>
    simp only [hmisfit]
    exact ⟨_, rfl⟩

/-! ## Layouts -/

/-- If a run goes on, its outputs have these widths, one for each port of the block. -/
def LaidOut (b : Block) (widths : List Nat) : Prop :=
  ∀ run, b.run = some run → run.outputWidths = widths ∧ widths.length = b.shape.outputPorts ∧
    (b.shape.shape = .single → widths = List.replicate b.shape.outputPorts 1)

/-- A run that goes on afterwards went on before, with the same layout and for as many ports. -/
def KeepsLayout (b b' : Block) : Prop :=
  ∀ run', b'.run = some run' → ∃ run, b.run = some run ∧ run'.outputWidths = run.outputWidths ∧
    b'.shape.shape = b.shape.shape ∧ b'.shape.outputPorts = b.shape.outputPorts

theorem LaidOut.keeps (h : b.LaidOut widths) (hkeeps : b.KeepsLayout b') : b'.LaidOut widths := by
  intro run' hrun'
  obtain ⟨run, hrun, hwidths, hshape, hports⟩ := hkeeps run' hrun'
  rw [hwidths, hshape, hports]
  exact h run hrun

theorem KeepsLayout.of_run (hrun : b'.run = b.run) (hshape : b'.shape.shape = b.shape.shape)
    (hports : b'.shape.outputPorts = b.shape.outputPorts) : b.KeepsLayout b' :=
  fun run' h => ⟨run', hrun ▸ h, rfl, hshape, hports⟩

theorem KeepsLayout.of_ended (h : b'.run = none) : b.KeepsLayout b' :=
  fun _ hrun' => nomatch h.symm.trans hrun'

/-! ### Operations -/

theorem keepsLayout_edit (b : Block) (edit : Edit) : b.KeepsLayout (b.edit edit) := by
  cases edit with
  | outputPorts ports =>
    show b.KeepsLayout (b.setOutputPorts ports)
    unfold setOutputPorts
    split
    · exact .of_run rfl rfl rfl
    · exact .of_ended rfl
  | _ => exact .of_run rfl rfl rfl

theorem keepsLayout_settleOwn (b : Block) (outcome : Option CompileOutcome) :
    b.KeepsLayout (b.settleOwn outcome) := by
  cases outcome <;> exact .of_run rfl rfl rfl

theorem SameButFiles.keepsLayout (h : b.SameButFiles b') : b.KeepsLayout b' := by
  rw [h]
  exact .of_run rfl rfl rfl

/-- A step keeps the layout of the run, or ends it. -/
theorem keepsLayout_step (b : Block) (time dt : Float) (inputs : Signals) :
    b.KeepsLayout (b.step time dt inputs).2 := by
  unfold step
  split
  · exact .of_run rfl rfl rfl
  · cases hrun : b.run with
    | none => exact .of_ended hrun
    | some run =>
      -- the run goes on with another memory, or is given up
      intro run' hrun'
      simp only at hrun'
      split at hrun'
      · cases hrun'
        exact ⟨run, hrun, rfl, rfl, rfl⟩
      · cases hrun'

/-- Whether an operation starts a run. -/
def Operation.isStart : Operation → Bool
  | .start .. => true
  | _ => false

/-- Nothing but a start gives a block a run or changes the layout of the one that goes on. -/
theorem keepsLayout_perform (b : Block) (r : Registry) {op : Operation} (hop : op.isStart = false) :
    b.KeepsLayout (b.perform r op).1 := by
  cases op with
  | edit edit => exact b.keepsLayout_edit edit
  | requestRecompile fragments => exact .of_run rfl rfl rfl
  | attach | detach | relink => exact (b.sameButFiles_perform r rfl).keepsLayout
  | reset | endRun => exact .of_ended rfl
  | apply j outcome =>
    simp only [perform, apply]
    split <;> exact .of_run rfl rfl rfl
  | compile t m =>
    rw [perform_compile]
    exact b.keepsLayout_settleOwn _
  | compileIfRequired t m =>
    rw [perform_compileIfRequired]
    exact b.keepsLayout_settleOwn _
  | start context dt m => cases hop
  | step time dt inputs => exact b.keepsLayout_step time dt inputs

/-! ### Starts -/

/-- A run that a start leaves behind has the widths of the block, and the block keeps its ports. -/
theorem run_start {context : StartContext} {m : Machine}
    (h : (b.start context dt m).2.1.run = some run) :
    (b.start context dt m).1 = .ok () ∧ run.outputWidths = b.shape.outputWidths ∧
      (b.start context dt m).2.1.shape = b.shape := by
  have hstarts := b.start_starts context dt m
  have hrunning : (b.start context dt m).2.1.isRunning = true := by rw [isRunning, h]; rfl
  have hok := hstarts.isRunning_iff.1 hrunning
  refine ⟨hok, ?_, hstarts.sameInputs.shape⟩
  -- of the ways in which a start goes, only one succeeds
  rw [hok] at hstarts
  generalize (b.start context dt m).2.1 = b', (b.start context dt m).2.2 = m' at hstarts h
  cases hstarts with
  | started hprepares =>
    cases h
    exact congrArg SignalShape.outputWidths hprepares.sameInputs.shape

theorem outputWidths_of_start {context : StartContext} {m m' : Machine}
    (hstart : b.start context dt m = (.ok (), b', m')) (hrun : b'.run = some run) :
    run.outputWidths = b'.shape.outputWidths := by
  have hstarted : (b.start context dt m).2.1.run = some run := by
    rw [hstart]
    exact hrun
  obtain ⟨-, hlayout, hshape⟩ := run_start hstarted
  rw [hstart] at hshape
  rw [hlayout, hshape]

/-! ### Runs -/

/-- These widths were in force when the block was last started. Whatever was done to the block since then
was no other start. -/
inductive RunsSince (widths : List Nat) : Block → Prop
  | start {b : Block} (context : StartContext) (dt : Float) (m : Machine) :
      b.shape.outputWidths = widths → RunsSince widths (b.start context dt m).2.1
  | perform {b : Block} (r : Registry) {op : Operation} : RunsSince widths b → op.isStart = false →
      RunsSince widths (b.perform r op).1

/-- A run keeps the layout of its start. The layout has a width for each port of the block, and in single
shape all widths are one. -/
theorem RunsSince.laidOut (h : b.RunsSince widths) : b.LaidOut widths := by
  induction h with
  | @start b context dt m hwidths =>
    intro run hrun
    obtain ⟨-, hlayout, hshape⟩ := run_start hrun
    rw [hshape, ← hwidths]
    refine ⟨hlayout, ?_, fun hsingle => ?_⟩
    · rw [SignalShape.outputWidths_eq_map, List.length_map, List.length_range]
    · rw [SignalShape.outputWidths, hsingle]
  | perform r _ hop ih => exact ih.keeps (keepsLayout_perform _ r hop)

/-! ## Steps -/

/-- The arguments of a call have the sizes that the contract asks for. -/
theorem LaidOut.sized (h : b.LaidOut widths) (hcall : b.call? time dt inputs = some (run, args)) :
    args.Sized b.shape := by
  obtain ⟨⟨hshape, hports⟩, hrun, rfl⟩ := call?_eq_some.1 hcall
  obtain ⟨hwidths, hlength, hones⟩ := h run hrun
  refine ⟨inputs.length_flatten, ?_, ?_, fun hsingle => ⟨?_, ?_⟩⟩
  · exact inputs.length_widths.trans hports
  · exact (congrArg List.length hwidths).trans hlength
  · exact (Signals.widths_of_single (hshape.trans hsingle)).trans (by rw [hports])
  · exact hwidths.trans (hones hsingle)

/-- What a step gives has the shape and the ports of the block, the widths of the layout, and no NaN. -/
theorem LaidOut.step_ok (h : b.LaidOut widths) {result : Signals}
    (hstep : (b.step time dt inputs).1 = .ok result) :
    result.shape = b.shape.shape ∧ result.portCount = b.shape.outputPorts ∧ result.widths = widths ∧
      ∀ v ∈ result.flatten, v.isNaN = false := by
  cases hcall : b.call? time dt inputs with
  | none =>
    obtain ⟨fault, hfault⟩ := step_of_no_call hcall
    rw [hfault] at hstep
    cases hstep
  | some call =>
    obtain ⟨run, args⟩ := call
    rw [step_of_call hcall] at hstep
    obtain ⟨-, hrun, rfl⟩ := call?_eq_some.1 hcall
    obtain ⟨hwidths, hlength, hones⟩ := h run hrun
    obtain ⟨rfl, hnumbers⟩ := outputs_eq_ok hstep
    -- the host cuts the buffer by the widths that it allocated it for
    have hbuffer := (run.table.compute run.memory (run.arguments inputs time dt)).length_buffer
      (Signals.totalWidth run.outputWidths)
    have hall := Signals.widths_ofFlat hbuffer fun hsingle => by
      rw [hwidths, hlength]
      exact hones hsingle
    refine ⟨Signals.shape_ofFlat _ _ _, ?_, hall.trans hwidths, ?_⟩
    · rw [← hlength, ← hwidths, ← Signals.length_widths]
      exact congrArg List.length hall
    · rw [show (run.arguments inputs time dt).outputWidths = run.outputWidths from rfl,
        Signals.flatten_ofFlat _ hbuffer]
      exact hnumbers

end Block

end CircuitBlocks
