import CircuitBlocks.Proofs.Block.Trials
import CircuitBlocks.Proofs.Project.Reachable
import CircuitBlocks.Proofs.Project.RoundTrip
import CircuitBlocks.Proofs.SourceUnit.Layout

/-!
# Errors that stick — what a fresh block with an error was tried on

A block with an error that is fresh is never compiled again by a start. As long as it is not loaded, that is
right: its record tells what was tried last, which is what the block consists of, and that trial has failed.
A load takes the record from the artifacts of the last success instead. From then on the error sticks to what
those artifacts were built from, and no longer to what has failed.

* `TriedBlock` — a block with all trials on it, and whether it was loaded since the last one.
* `TriedProject.Reachable` — the projects that come out of operations on blocks, of storing and of loading.
* `TriedBlock.Blamed` — an error that sticks to what has failed.
* **`TriedProject.Reachable.error_of_fresh`** — what an error that sticks tells.
-/

namespace CircuitBlocks

/-! ## Blocks -/

/-- A state whose record, if there is one, is read off the artifacts that are held. -/
def CompileState.ReadOff (state : CompileState) : Prop :=
  ∀ record, state.record? = some record → ∃ s primary, state.store? = some s ∧
    s.get? record.artifactName = some primary ∧ record.source = primary.source ∧
    record.crates = s.auxiliaryNames record.artifactName

/-- A block with the trials on it, in their order. -/
structure TriedBlock where
  block : Block
  trials : List Trial := []
  /-- Whether the block was loaded since the last trial. -/
  restored : Bool := false

namespace TriedBlock

/-- The block after an operation. -/
def perform (t : TriedBlock) (r : Registry) (op : Block.Operation) : TriedBlock where
  block := (t.block.perform r op).1
  trials := t.trials ++ op.trials t.block
  restored := t.restored && (op.trials t.block).isEmpty

/-- The block for the other kind of procedure. -/
def toVariant (t : TriedBlock) (shape : ProcedureShape) : TriedBlock :=
  { t with block := t.block.toVariant shape }

/-- The block as it was loaded. -/
def reload (t : TriedBlock) (b : Block) : TriedBlock := { t with block := b, restored := true }

/-- The error of a block is that of the last trial: it has failed, it was made on what the block consists of,
and the record of the block describes it. -/
def Blamed (t : TriedBlock) : Prop :=
  ∃ trial record, t.trials.getLast? = some trial ∧ trial.Made ∧ trial.failed = true ∧ trial.On t.block ∧
    t.block.state.record? = some record ∧ record.source = trial.source ∧ record.crates = trial.crates

/-! ### What the trials say -/

/-- What holds of a block and the trials on it. -/
structure Sound (t : TriedBlock) : Prop where
  /-- An error is that of the last trial. -/
  failed : t.block.status = .error →
    ∃ trial, t.trials.getLast? = some trial ∧ trial.Made ∧ trial.failed = true
  /-- The record tells what was tried last, unless the block was loaded since. -/
  described : t.restored = false → ∀ record, t.block.state.record? = some record →
    ∃ trial, t.trials.getLast? = some trial ∧ record.source = trial.source ∧ record.crates = trial.crates
  /-- After a load it tells of the artifacts. -/
  readOff : t.restored = true → t.block.state.ReadOff

namespace Sound

variable {t : TriedBlock}

theorem of_uncompiled (h : t.block.state = .uncompiled) : t.Sound where
  failed herror := by rw [Block.status, h] at herror; cases herror
  described _ record hrecord := by rw [h] at hrecord; cases hrecord
  readOff _ record hrecord := by rw [h] at hrecord; cases hrecord

/-- Only the state of the block matters. -/
theorem of_state (h : t.Sound) {b : Block} (hstate : b.state = t.block.state) :
    Sound { t with block := b } where
  failed herror := h.failed (by rw [Block.status, ← hstate]; exact herror)
  described hrestored record hrecord := h.described hrestored record (hstate ▸ hrecord)
  readOff hrestored := by
    show b.state.ReadOff
    rw [hstate]
    exact h.readOff hrestored

/-- A verdict counts from the trial on. -/
theorem of_judgedBy {b : Block} {trial : Trial} (h : b.JudgedBy trial) (earlier : List Trial) :
    Sound { block := b, trials := earlier ++ [trial] } where
  failed herror := ⟨trial, List.getLast?_concat, h.made, h.failed herror⟩
  described _ record hrecord := ⟨trial, List.getLast?_concat, h.record record hrecord⟩
  readOff hrestored := nomatch hrestored

theorem perform (h : t.Sound) (hwell : t.block.WellFormed) (r : Registry) {op : Block.Operation}
    (hop : op.Genuine) : (t.perform r op).Sound := by
  have htried := hwell.perform_tried r hop
  unfold TriedBlock.perform
  generalize (t.block.perform r op).1 = b, op.trials t.block = trials at htried
  -- a trial settles everything anew; without one the old verdict stays, or is forgotten
  cases htried with
  | untried hstate =>
    rw [List.append_nil, List.isEmpty_nil, Bool.and_true]
    rcases hstate with hsame | hnone
    · exact h.of_state hsame
    · exact .of_uncompiled hnone
  | @judged earlier trial hjudged =>
    have hsome : (earlier ++ [trial]).isEmpty = false := by simp
    rw [hsome, Bool.and_false, ← List.append_assoc]
    exact .of_judgedBy hjudged _

end Sound

end TriedBlock

/-! ## Loading -/

namespace BlockRecord

variable {r : BlockRecord} {toolchain : Option String} {state : CompileState}

/-- The state that is made of artifacts has the status that was stored. -/
theorem status_of_stateOf {failed : Bool} (h : r.stateOf failed toolchain = .ok state) :
    state.status = if failed then .error else .success := by
  unfold stateOf at h
  split at h
  · cases h
  · split at h
    · cases h
    · split at h
      · cases h
      · cases failed <;>
        · cases h
          rfl

/-- Only a stored error comes back as one. -/
theorem status_restore {b : Block} {registry : Registry}
    (h : ((ofBlock b).restore registry toolchain).1.status = .error) : b.status = .error := by
  have hlinked := (ofBlock b).plain.relink_sameButFiles registry (ofBlock b).hashes
  rw [((ofBlock b).restore_eq registry toolchain).2, state_ofStatus] at h
  cases hstatus : b.status with
  | error => rfl
  | notCompiled =>
    rw [hstatus] at h
    cases h
  -- a success is restored as a success, or not at all
  | success =>
    rw [hstatus] at h
    cases hstate : (ofBlock b).stateOf false toolchain with
    | error reason =>
      simp only [hstate] at h
      rw [hlinked] at h
      cases h
    | ok state =>
      simp only [hstate] at h
      exact nomatch (status_of_stateOf hstate).symm.trans h

/-- What is restored was read off the artifacts. -/
theorem readOff_restore (r : BlockRecord) (registry : Registry) (toolchain : Option String) :
    (r.restore registry toolchain).1.state.ReadOff := by
  obtain ⟨files, state, heq, hstate⟩ := r.exists_restore_eq registry toolchain
  rw [heq]
  intro record hread
  rcases hstate with rfl | ⟨s, primary, message, hprimary, hstore, hrecord⟩
  · cases hread
  · obtain rfl := Option.some.inj (hrecord.symm.trans hread)
    exact ⟨s, primary, hstore, hprimary, rfl, rfl⟩

end BlockRecord

/-- A block is restored as sound as it was stored. -/
theorem TriedBlock.Sound.reload {t : TriedBlock} (h : t.Sound) (registry : Registry)
    (toolchain : Option String) :
    (t.reload ((BlockRecord.ofBlock t.block).restore registry toolchain).1).Sound where
  failed herror := h.failed (BlockRecord.status_restore herror)
  described hrestored := nomatch hrestored
  readOff _ := BlockRecord.readOff_restore _ _ _

/-! ## Projects -/

/-- A project with the trials on its blocks. -/
structure TriedProject where
  registry : Registry
  blocks : List TriedBlock

namespace TriedProject

/-- The project without the trials. -/
def project (p : TriedProject) : Project := ⟨p.registry, p.blocks.map (·.block)⟩

/-- The project that was loaded in place of one that was stored. -/
def reload (p : TriedProject) (q : Project) : TriedProject :=
  ⟨q.registry, (p.blocks.zip q.blocks).map fun (t, b) => t.reload b⟩

/-- The projects that come out of operations on blocks and of storing and loading. -/
inductive Reachable : TriedProject → Prop where
  | empty : Reachable ⟨.empty, []⟩
  | insert {p file hash r} : Reachable p → p.registry.insert file = .ok (hash, r) →
      Reachable { p with registry := r }
  | changeUsers {p hash change r} : Reachable p → p.registry.changeUsers hash change = .ok r →
      Reachable { p with registry := r }
  | prune {p} : Reachable p → Reachable { p with registry := p.registry.prune }
  | create {p} (id : BlockId) (fragments : Fragments) (shape : SignalShape) : Reachable p →
      Reachable { p with blocks := p.blocks ++ [{ block := { id, fragments, shape } }] }
  | operate {p i t op} : Reachable p → p.blocks[i]? = some t → Block.Operation.Genuine op →
      Reachable ⟨(t.block.perform p.registry op).2, p.blocks.set i (t.perform p.registry op)⟩
  | toVariant {p i t} (shape : ProcedureShape) : Reachable p → p.blocks[i]? = some t →
      Reachable { p with blocks := p.blocks.set i (t.toVariant shape) }
  /-- Blocks are left out, moved or repeated. -/
  | arrange {p blocks} : Reachable p → (∀ t ∈ blocks, t ∈ p.blocks) → Reachable { p with blocks }
  /-- The project is stored, and loaded for the toolchain that has built its artifacts. -/
  | reload {p q toolchain warnings} : Reachable p → (ProjectRecord.ofProject p.project).Storable →
      (∀ t ∈ p.blocks, t.block.SuitsToolchain toolchain) →
      Project.ofText p.project.text toolchain = .ok (q, warnings) → Reachable (p.reload q)

variable {p : TriedProject} {q : Project} {toolchain : Option String} {warnings : List LoadWarning}

/-- Each block of a project that is loaded is restored from what was stored of the one in its place. -/
theorem forall₂_ofText (h : (ProjectRecord.ofProject p.project).Storable)
    (hload : Project.ofText p.project.text toolchain = .ok (q, warnings)) :
    List.Forall₂ (fun t b => ∃ registry,
      b = ((BlockRecord.ofBlock t.block).restore registry toolchain).1) p.blocks q.blocks := by
  rw [Project.ofText_text_of_record h] at hload
  cases hload
  have hrestored := ProjectRecord.forall₂_restoreAll
    (ProjectRecord.registerAll .empty p.registry.files).1 toolchain (p.project.blocks.map .ofBlock)
  exact List.forall₂_map_left_iff.1 (List.forall₂_map_left_iff.1 hrestored)

theorem project_reload (h : p.blocks.length = q.blocks.length) : (p.reload q).project = q := by
  have hblocks : ((p.blocks.zip q.blocks).map fun (t, b) => t.reload b).map (·.block) = q.blocks := by
    rw [List.map_map]
    exact List.map_snd_zip (Nat.le_of_eq h.symm)
  rw [project, reload, hblocks]

theorem project_set {i : Nat} {r : Registry} {t : TriedBlock} :
    project ⟨r, p.blocks.set i t⟩ = ⟨r, p.project.blocks.set i t.block⟩ := by
  rw [project, List.map_set, project]

theorem getElem?_project {i : Nat} {t : TriedBlock} (h : p.blocks[i]? = some t) :
    p.project.blocks[i]? = some t.block := by
  rw [project, List.getElem?_map, h, Option.map_some]

namespace Reachable

/-- Without the trials, these are projects that the library makes. -/
theorem project (h : p.Reachable) : p.project.Reachable := by
  induction h with
  | empty => exact .empty
  | insert _ hinsert ih => exact ih.insert hinsert
  | changeUsers _ hchange ih => exact ih.changeUsers hchange
  | prune _ ih => exact ih.prune
  | create id fragments shape _ ih =>
    rw [TriedProject.project, List.map_append]
    exact ih.create id fragments shape
  | operate _ ht hop ih =>
    rw [project_set]
    exact ih.operate (getElem?_project ht) hop
  | toVariant shape _ ht ih =>
    rw [project_set]
    exact ih.toVariant shape (getElem?_project ht)
  | @arrange p blocks _ hblocks ih =>
    -- all blocks that are arranged come from this one project
    refine ih.arrange (fun _ => p.project) (fun _ _ => ih) fun b hb => ?_
    obtain ⟨t, ht, rfl⟩ := List.mem_map.1 hb
    exact List.mem_map_of_mem (hblocks t ht)
  | reload _ hstorable _ hload _ =>
    rw [project_reload (forall₂_ofText hstorable hload).length_eq]
    exact .load hload

/-- Each block of a reachable tried project is judged by its last trial, or was read off its artifacts. -/
theorem sound (h : p.Reachable) : ∀ t ∈ p.blocks, t.Sound := by
  induction h with
  | empty => exact fun _ h => nomatch h
  | insert _ _ ih => exact ih
  | changeUsers _ _ ih => exact ih
  | prune _ ih => exact ih
  | create id fragments shape _ ih =>
    intro t ht
    rcases List.mem_append.1 ht with hold | hnew
    · exact ih t hold
    · rw [List.mem_singleton.1 hnew]
      exact .of_uncompiled rfl
  | @operate p i t op hp ht hop ih =>
    intro t' ht'
    have hmem := List.mem_of_getElem? ht
    rcases List.mem_or_eq_of_mem_set ht' with hold | rfl
    · exact ih t' hold
    · exact (ih t hmem).perform (hp.project.wellFormed.blocks _ (List.mem_map_of_mem hmem)) p.registry hop
  | @toVariant p i t shape _ ht ih =>
    intro t' ht'
    rcases List.mem_or_eq_of_mem_set ht' with hold | rfl
    · exact ih t' hold
    · exact .of_uncompiled rfl
  | arrange _ hblocks ih => exact fun t ht => ih t (hblocks t ht)
  | @reload p q toolchain warnings _ hstorable _ hload ih =>
    intro t' ht'
    -- each loaded block was stored as the one in its place, whose trials it takes over
    obtain ⟨⟨t, b⟩, hmem, rfl⟩ := List.mem_map.1 ht'
    obtain ⟨registry, rfl⟩ := (List.forall₂_iff_zip.1 (forall₂_ofText hstorable hload)).2 hmem
    exact (ih t (List.of_mem_zip hmem).1).reload registry toolchain

/-- **An error that sticks.** For every block with an error that is fresh, whatever was done to it: every start
is refused without a compile, and the last trial on the block has failed. Unless the block was loaded since,
that trial was made on what the block consists of, and the record describes it. After a load the error sticks
to what the artifacts were built from that the block still holds. -/
theorem error_of_fresh (h : p.Reachable) {t : TriedBlock} (ht : t ∈ p.blocks)
    (herror : t.block.status = .error) (hfresh : t.block.staleness = .fresh) :
    (∀ context dt m, t.block.start context dt m = (.error .notCompiled, t.block.endRun, m)) ∧
    (∃ trial, t.trials.getLast? = some trial ∧ trial.Made ∧ trial.failed = true) ∧
    (t.restored = false → t.Blamed) ∧
    (t.restored = true → ∃ s primary, t.block.state.store? = some s ∧
      s.get? t.block.artifactName = some primary ∧ t.block.source = primary.source ∧
      t.block.crates = s.auxiliaryNames t.block.artifactName) := by
  have hsound := h.sound t ht
  have hwell : t.block.WellFormed := h.project.wellFormed.blocks _ (List.mem_map_of_mem ht)
  -- a fresh block has a record, which has the text that the block has now
  obtain ⟨record, hrecord, hsource, hcrates⟩ := Block.staleness_eq_fresh_iff.1 hfresh
  have hnamed := hwell.named record hrecord
  have hsame : record.source = t.block.source := by
    rw [hsource, hnamed]
    rfl
  obtain ⟨trial, hlast, hmade, hfailed⟩ := hsound.failed herror
  refine ⟨Block.start_of_error herror hfresh, ⟨trial, hlast, hmade, hfailed⟩, fun hrestored => ?_,
    fun hrestored => ?_⟩
  · obtain ⟨described, hdescribed, hsource', hcrates'⟩ := hsound.described hrestored record hrecord
    obtain rfl := Option.some.inj (hlast.symm.trans hdescribed)
    exact ⟨trial, record, hlast, hmade, hfailed, ⟨hsource'.symm.trans hsame, hcrates'.symm.trans hcrates⟩,
      hrecord, hsource', hcrates'⟩
  · obtain ⟨s, primary, hstore, hprimary, hsource', hcrates'⟩ := hsound.readOff hrestored record hrecord
    rw [hnamed] at hprimary hcrates'
    exact ⟨s, primary, hstore, hprimary, hsame.symm.trans hsource', hcrates.symm.trans hcrates'⟩

end Reachable

/-! ## A block that was edited back -/

theorem Reachable.operate_single {r : Registry} {t t' : TriedBlock} (h : Reachable ⟨r, [t]⟩)
    {op : Block.Operation} (ht : t.perform r op = t') (hop : op.Genuine) (hr : (t.block.perform r op).2 = r) :
    Reachable ⟨r, [t']⟩ := by
  have hstep := h.operate (i := 0) rfl hop
  rw [ht, hr] at hstep
  exact hstep

end TriedProject

namespace TriedBlock

theorem perform_edit (t : TriedBlock) (r : Registry) (edit : Edit) :
    t.perform r (.edit edit) = { t with block := t.block.edit edit } := by
  simp [perform, Block.perform, Block.Operation.trials]

theorem perform_compile {t : TriedBlock} {toolchain : Toolchain} {m : Machine} {outcome : CompileOutcome}
    (h : t.block.outcome? toolchain m = some outcome) (r : Registry) : t.perform r (.compile toolchain m)
      = ⟨t.block.settleOwn (some outcome), t.trials ++ [.compile t.block.job outcome], false⟩ := by
  simp [perform, Block.perform, Block.compile_eq, Block.Operation.trials, Trial.ofOutcome, h]

/-- A block without code that was compiled. -/
def compiled (said : List Diagnostic) : TriedBlock where
  block := (Block.bare {}).settleOwn (some (.succeed (.willing (Block.bare {}).source) said))
  trials := [.compile (Block.bare {}).job (.succeed (.willing (Block.bare {}).source) said)]

/-- That block, after it did not compile with the body `x`. -/
def failing (said saidOfBody : List Diagnostic) : TriedBlock :=
  let b := (compiled said).block.setFragment .body "x"
  { block := b.settleOwn (some (.fail saidOfBody))
    trials := (compiled said).trials ++ [.compile b.job (.fail saidOfBody)] }

theorem exists_failing : ∃ said saidOfBody, TriedProject.Reachable ⟨.empty, [failing said saidOfBody]⟩ := by
  obtain ⟨said, hcompiled⟩ := Block.exists_outcome_bare {}
  obtain ⟨saidOfBody, hfailed⟩ := Block.exists_refused_bare { body := "x" }
  let created : TriedBlock := { block := Block.bare {} }
  let edited : TriedBlock := { compiled said with block := (compiled said).block.setFragment .body "x" }
  have hcreated : TriedProject.Reachable ⟨.empty, [created]⟩ :=
    TriedProject.Reachable.empty.create "b" {} .standard
  have hsuccess : TriedProject.Reachable ⟨.empty, [compiled said]⟩ :=
    hcreated.operate_single (perform_compile (t := created) hcompiled .empty) trivial rfl
  have hedited : TriedProject.Reachable ⟨.empty, [edited]⟩ :=
    hsuccess.operate_single (perform_edit _ .empty (.fragment .body "x")) trivial rfl
  exact ⟨said, saidOfBody,
    hedited.operate_single (perform_compile (t := edited) hfailed .empty) trivial rfl⟩

/-! ### Stored and loaded -/

/-- A unit without code is small enough to be stored. -/
theorem storable_willing_bare : (ArtifactStore.willing (Block.bare {}).source).Storable := by
  have hsize : (Text.Utf8.encode (Block.bare {}).source).length < BigEndian.capacity 4 := by
    have hname : (Block.bare {}).artifactName = "unit_b" := Block.artifactName_bare {}
    rw [Text.Utf8.length_encode, Block.source, hname, utf8ByteSize_unitText]
    show (template "unit_b" .standard).foldr (fun p size => p.size {} + size) 0 < BigEndian.capacity 4
    decide +kernel
  generalize (Block.bare {}).source = source at hsize
  exact ArtifactStore.storable_put_empty (by decide)
    ⟨by decide, show 0 < BigEndian.capacity 4 by decide, hsize⟩

variable {said saidOfBody : List Diagnostic} {b : Block}

theorem store?_failing :
    (failing said saidOfBody).block.state.store? = some (.willing (Block.bare {}).source) := rfl

theorem storable_failing : (failing said saidOfBody).block.Storable := by
  refine ⟨SignalShape.storable_standard, fun s hs => ?_⟩
  obtain rfl := Option.some.inj (store?_failing.symm.trans hs)
  exact storable_willing_bare

theorem suitsToolchain_failing : (failing said saidOfBody).block.SuitsToolchain (some "c") := by
  intro s fingerprint hs hfingerprint
  obtain rfl := Option.some.inj (store?_failing.symm.trans hs)
  exact .inr hfingerprint

theorem exists_reloaded_failing : ∃ said saidOfBody b, (failing said saidOfBody).block.Reloaded .empty b ∧
    TriedProject.Reachable ⟨.empty, [(failing said saidOfBody).reload b]⟩ := by
  obtain ⟨said, saidOfBody, hfailing⟩ := exists_failing
  have hwell : (failing said saidOfBody).block.WellFormed :=
    hfailing.project.wellFormed.blocks _ (List.mem_singleton_self _)
  obtain ⟨warnings, hload⟩ := Project.exists_ofText_single storable_failing rfl (some "c")
  obtain ⟨hreloaded, -⟩ := BlockRecord.reloaded_restore hwell storable_failing suitsToolchain_failing
    Registry.Keyed.empty
  exact ⟨said, saidOfBody, _, hreloaded,
    hfailing.reload (Project.Storable.record (List.forall_mem_singleton.2 storable_failing))
      (List.forall_mem_singleton.2 suitsToolchain_failing) hload⟩

/-! ### Edited back -/

/-- Without its body, the loaded block has the unit that had compiled. -/
theorem unitText_edited_back (h : (failing said saidOfBody).block.Reloaded .empty b) (name : String) :
    unitText (b.setFragment .body "").fragments (b.setFragment .body "").shape name
      = unitText {} .standard name := by
  have hfragments : (b.setFragment .body "").fragments = {} := by
    rw [Block.setFragment, h.fragments]
    rfl
  rw [hfragments, show (b.setFragment .body "").shape = b.shape from rfl, h.shape]
  rfl

/-- So it is fresh, since the record was read off the artifacts of that unit. -/
theorem staleness_edited_back (h : (failing said saidOfBody).block.Reloaded .empty b) :
    (b.setFragment .body "").staleness = .fresh := by
  obtain ⟨primary, record, hprimary, hrecord, hname, hsource, hcrates⟩ := h.record _ store?_failing
  have hheld : (ArtifactStore.willing (Block.bare {}).source).get? "unit_b" = some primary :=
    (congrArg _ (Block.artifactName_bare {}).symm).trans hprimary
  obtain rfl := Option.some.inj ((ArtifactStore.get?_willing _).symm.trans hheld)
  refine Block.staleness_eq_fresh_iff.2 ⟨record, hrecord, ?_, ?_⟩
  · rw [unitText_edited_back h, hname]
    exact hsource
  · rw [hcrates, ArtifactStore.auxiliaryNames_willing, Block.crates,
      show (b.setFragment .body "").files = b.files from rfl, h.files]
    rfl

end TriedBlock

namespace TriedProject

/-- A block that fails with its body is blamed for it. -/
theorem error_of_fresh_failing : ∃ (p : TriedProject) (t : TriedBlock), p.Reachable ∧ t ∈ p.blocks ∧
    t.block.status = .error ∧ t.block.staleness = .fresh ∧ t.restored = false ∧ t.Blamed := by
  obtain ⟨said, saidOfBody, hfailing⟩ := TriedBlock.exists_failing
  have hmem := List.mem_singleton_self (TriedBlock.failing said saidOfBody)
  have hfresh := Block.staleness_settleOwn ((TriedBlock.compiled said).block.setFragment .body "x")
    (.fail saidOfBody)
  exact ⟨_, _, hfailing, hmem, rfl, hfresh, rfl, (hfailing.error_of_fresh hmem rfl hfresh).2.2.1 rfl⟩

/-- When the failing block is stored and loaded, and its body is taken out again, the error sticks to what
had compiled. -/
theorem not_blamed_edited_back : ¬ ∀ p : TriedProject, p.Reachable → ∀ t ∈ p.blocks,
    t.block.status = .error → t.block.staleness = .fresh → t.Blamed := by
  intro hall
  obtain ⟨said, saidOfBody, b, hreloaded, hreachable⟩ := TriedBlock.exists_reloaded_failing
  have hedited := hreachable.operate_single
    (TriedBlock.perform_edit _ .empty (.fragment .body "")) trivial rfl
  obtain ⟨trial, record, hlast, -, -, ⟨hon, -⟩, -⟩ := hall _ hedited _ (List.mem_singleton_self _)
    hreloaded.status (TriedBlock.staleness_edited_back hreloaded)
  -- the last trial was made with the body
  obtain rfl := Option.some.inj (List.getLast?_concat.symm.trans hlast)
  have hname : (b.setFragment .body "").artifactName = (Block.bare {}).artifactName :=
    Block.artifactName_eq hreloaded.id
  have hsame : unitText { body := "x" } .standard (Block.bare {}).artifactName
      = unitText {} .standard (b.setFragment .body "").artifactName :=
    hon.trans (TriedBlock.unitText_edited_back hreloaded _)
  rw [hname] at hsame
  exact absurd (linesOfChars_eq_of_unitText_eq hsame .body) (by decide)

end TriedProject

end CircuitBlocks
