import CircuitBlocks.Block.Run
import CircuitBlocks.Proofs.Registry

/-!
# Edits — what a block keeps when it is not compiled

Whatever is done to a block besides a compile, it keeps its identity, and its compile state stays, or is
forgotten, or is left with a note that the library did not load.

* `Edit` — the edits of code and ports.
* `Block.SameButFiles` — what attaching and detaching files leaves alone.
* **`Block.Continues`** — what a block keeps, with one lemma for each operation.
-/

namespace CircuitBlocks

/-- An edit that leaves the attached files alone. -/
inductive Edit where
  | fragment (kind : FragmentKind) (text : String)
  | inputPorts (ports : Nat)
  | outputPorts (ports : Nat)
  | bus (bus : BusWidth)
  | portWidth (port width : Nat)

/-- What is left of a compile state when nothing is compiled. -/
inductive CompileState.Leaves (s : CompileState) : CompileState → Prop where
  | same : Leaves s s
  | forgotten : Leaves s .uncompiled
  /-- The record is kept, with another message. -/
  | failed {record : CompileRecord} (h : s.record? = some record) (message : String)
      (diagnostics : List Diagnostic) : Leaves s (s.fail { record with message } diagnostics)

namespace CompileState.Leaves

variable {s s' : CompileState}

/-- The record that is left is the earlier one, but for its message. -/
theorem record? (h : s.Leaves s') {r : CompileRecord} (hr : s'.record? = some r) :
    ∃ earlier, s.record? = some earlier ∧ r = { earlier with message := r.message } := by
  cases h with
  | same => exact ⟨r, hr, rfl⟩
  | forgotten => cases hr
  | failed hearlier message diagnostics =>
    rw [record?_fail] at hr
    cases hr
    exact ⟨_, hearlier, rfl⟩

/-- With the record the artifacts are kept. -/
theorem store?_eq (h : s.Leaves s') {r : CompileRecord} (hr : s'.record? = some r) :
    s'.store? = s.store? := by
  cases h with
  | same => rfl
  | forgotten => cases hr
  | failed _ message diagnostics => rw [store?_fail]

theorem store? (h : s.Leaves s') {store : ArtifactStore} (hstore : s'.store? = some store) :
    s.store? = some store := by
  cases h with
  | same => exact hstore
  | forgotten => cases hstore
  | failed _ message diagnostics =>
    rw [store?_fail] at hstore
    exact hstore

theorem compiled {r : CompileRecord} {store : ArtifactStore} (h : s.Leaves (.compiled r store)) :
    s = .compiled r store := by
  cases h with
  | same => rfl

end CompileState.Leaves

/-- What a block keeps when it is not compiled. -/
structure Block.Continues (b b' : Block) : Prop where
  id : b'.id = b.id
  state : b.state.Leaves b'.state

namespace Block

theorem artifactName_eq {b b' : Block} (h : b'.id = b.id) : b'.artifactName = b.artifactName :=
  congrArg BlockId.artifactName h

/-! ## Code and ports -/

/-- A block after an edit. -/
def edit (b : Block) : Edit → Block
  | .fragment kind text => b.setFragment kind text
  | .inputPorts ports => b.setInputPorts ports
  | .outputPorts ports => b.setOutputPorts ports
  | .bus bus => b.setBus bus
  | .portWidth port width => b.setPortWidth port width

@[simp] theorem id_edit (b : Block) (edit : Edit) : (b.edit edit).id = b.id := by
  cases edit with
  | outputPorts ports =>
    show (b.setOutputPorts ports).id = b.id
    unfold Block.setOutputPorts
    split <;> rfl
  | _ => rfl

@[simp] theorem files_edit (b : Block) (edit : Edit) : (b.edit edit).files = b.files := by
  cases edit with
  | outputPorts ports =>
    show (b.setOutputPorts ports).files = b.files
    unfold Block.setOutputPorts
    split <;> rfl
  | _ => rfl

/-- An edit leaves the state as it is, or drops it. -/
theorem continues_edit (b : Block) (edit : Edit) : b.Continues (b.edit edit) := by
  refine ⟨b.id_edit edit, ?_⟩
  -- only another number of output ports forgets the state
  cases edit with
  | outputPorts ports =>
    show b.state.Leaves (b.setOutputPorts ports).state
    unfold setOutputPorts
    split
    · exact .same
    · exact .forgotten
  | _ => exact .same

theorem continues_reset (b : Block) : b.Continues b.reset := ⟨rfl, .forgotten⟩

theorem continues_toVariant (b : Block) (shape : ProcedureShape) : b.Continues (b.toVariant shape) :=
  ⟨rfl, .forgotten⟩

/-! ## Files -/

/-- A change of the attached files leaves everything else of a block alone. -/
def SameButFiles (b c : Block) : Prop := c = { b with files := c.files }

theorem SameButFiles.trans {b c d : Block} (hbc : b.SameButFiles c) (hcd : c.SameButFiles d) :
    b.SameButFiles d := by
  unfold SameButFiles at *
  rw [hcd, hbc]

theorem attach_sameButFiles {b b' : Block} {r r' : Registry} {hash : FileHash}
    (h : b.attach r hash = .ok (b', r')) : b.SameButFiles b' := by
  rcases attach_eq_ok h with ⟨-, rfl, -⟩ | ⟨_, -, -, -, rfl⟩ <;> rfl

theorem relinkEach_sameButFiles (b : Block) (r : Registry) (hashes : List FileHash) :
    b.SameButFiles (b.relinkEach r hashes).2.1 := by
  induction hashes generalizing b r with
  | nil => rfl
  | cons hash rest ih =>
    rw [relinkEach]
    split
    · next b' r' hattach => exact (attach_sameButFiles hattach).trans (ih b' r')
    · exact ih b r

theorem relink_sameButFiles (b : Block) (r : Registry) (hashes : List FileHash) :
    b.SameButFiles (b.relink r hashes).2.1 := b.relinkEach_sameButFiles r hashes

theorem detach_sameButFiles (b : Block) (r : Registry) (hash : FileHash) :
    b.SameButFiles (b.detach r hash).2.1 := by
  unfold detach
  simp only
  split <;> rfl

theorem SameButFiles.state {b c : Block} (h : b.SameButFiles c) : c.state = b.state := by
  rw [h]

theorem SameButFiles.continues {b c : Block} (h : b.SameButFiles c) : b.Continues c := by
  rw [h]
  exact ⟨rfl, .same⟩

/-! ## Runs -/

/-- A step changes nothing of a block but its run. -/
theorem step_eq (b : Block) (time dt : Float) (inputs : Signals) :
    ∃ run, (b.step time dt inputs).2 = { b with run } := by
  unfold step
  split
  · exact ⟨b.run, rfl⟩
  · split
    · exact ⟨b.run, rfl⟩
    · exact ⟨_, rfl⟩

theorem continues_step (b : Block) (time dt : Float) (inputs : Signals) :
    b.Continues (b.step time dt inputs).2 := by
  obtain ⟨run, hrun⟩ := b.step_eq time dt inputs
  rw [hrun]
  exact ⟨rfl, .same⟩

theorem continues_endRun (b : Block) : b.Continues b.endRun := ⟨rfl, .same⟩

/-- To record that a library did not load is to leave the state, to drop it, or to give it another message. -/
theorem continues_recordLoadFailure (b : Block) (e : LoadError) :
    b.Continues (b.recordLoadFailure e) := by
  unfold recordLoadFailure
  split
  · exact b.continues_reset
  · cases hrecord : b.state.record? with
    | none => exact ⟨rfl, .same⟩
    | some record => exact ⟨rfl, .failed hrecord _ _⟩

end Block

end CircuitBlocks
