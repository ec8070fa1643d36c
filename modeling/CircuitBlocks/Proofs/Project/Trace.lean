import CircuitBlocks.Proofs.Block.Edit
import CircuitBlocks.Proofs.Block.Start
import CircuitBlocks.Proofs.Project.Reachable

/-!
# Traces — what the states of a project's blocks were made from

A record tells the text and the crates of an attempt, but not the files. A trace keeps the job of each
attempt beside the block, and the files that were attached to the block after the job was made.

* `Attempt` — a job with the files that were attached since. A load gives files back by their hashes.
* `TracedBlock` — a block with the attempt that its record describes, the one that its artifacts come
  from, and those whose outcomes may still come.
* `TracedBlock.Step` — what can be done to a block, and `TracedProject.Reachable` — the projects that come
  out of steps in any order, storing and loading among them.
* **`TracedProject.Reachable.reachable`** — without its trace, each of them is a project that the library makes.
-/

namespace CircuitBlocks

/-! ## Attempts -/

/-- An attempt to compile a block: the job, and the files that were attached since it was made. -/
structure Attempt where
  job : CompileJob
  since : List AuxiliaryFile
  /-- Whether the block was loaded since. -/
  loaded : Bool

namespace Attempt

/-- What the attempt compiles. -/
def request (a : Attempt) : CompileRequest := a.job.request

/-- The attempt of the job that describes a block. -/
def now (b : Block) : Attempt := ⟨b.job, [], false⟩

/-- The attempt with further files attached since. -/
def attach (files : List AuxiliaryFile) (a : Attempt) : Attempt := { a with since := a.since ++ files }

/-- The attempt after the block was loaded. -/
def reload (a : Attempt) : Attempt := { a with loaded := true }

/-- Whether the job was compiled, to whatever outcome. -/
def Ran (a : Attempt) : Prop := ∃ t m outcome m', a.job.run t m = (.ok outcome, m')

/-- Whether a store is what the compile of the job came to. -/
def Built (a : Attempt) (s : ArtifactStore) : Prop :=
  ∃ t m diagnostics message m', a.job.run t m = (.ok (.success s diagnostics message), m')

/-- Each of the files was compiled by the attempt or attached since. What a load gives back has the hash
of such a file. -/
def Covers (a : Attempt) (files : List AuxiliaryFile) : Prop :=
  ∀ f ∈ files, ∃ g, (g ∈ a.request.auxiliaries ∨ g ∈ a.since) ∧
    (f = g ∨ (a.loaded = true ∧ f.hash = g.hash))

end Attempt

/-! ## Blocks -/

/-- A block and the attempts that it comes from. -/
structure TracedBlock where
  block : Block
  /-- The attempt that the record describes. -/
  described : Option Attempt := none
  /-- The attempt that the artifacts come from. -/
  built : Option Attempt := none
  /-- Whether the record was read off stored artifacts. -/
  restored : Bool := false
  /-- The attempts whose jobs were handed out. -/
  pending : List Attempt := []

namespace TracedBlock

/-- All attempts of a block that still matter. -/
def attempts (t : TracedBlock) : List Attempt := t.described.toList ++ t.built.toList ++ t.pending

theorem mem_attempts {t : TracedBlock} {a : Attempt} :
    a ∈ t.attempts ↔ t.described = some a ∨ t.built = some a ∨ a ∈ t.pending := by
  unfold attempts
  simp only [List.mem_append, Option.mem_toList, or_assoc]

/-- The block after something other than a compile. Files that it has gained are noted. -/
def follow (t : TracedBlock) (b : Block) : TracedBlock :=
  let gained := b.files.filter fun f => f ∉ t.block.files
  { t with
    block := b
    described := t.described.map (.attach gained)
    built := t.built.map (.attach gained)
    pending := t.pending.map (.attach gained) }

/-- The block with the outcome of an attempt. -/
def settle (t : TracedBlock) (a : Attempt) (outcome : CompileOutcome) : TracedBlock :=
  { t with
    block := { t.block with state := t.block.state.settle a.job outcome }
    described := some a
    built := match outcome with
      | .success .. => some a
      | .failed .. => t.built
    restored := false }

/-- The block with the outcome of the job that describes it, if there is one. -/
def settleOwn (t : TracedBlock) : Option CompileOutcome → TracedBlock
  | none => t
  | some outcome => t.settle (.now t.block) outcome

/-- The block after a start that has left the given block behind. -/
def afterStart (t : TracedBlock) (context : StartContext) (m : Machine) (b : Block) : TracedBlock :=
  (t.settleOwn ({ t.block with run := none }.compiles? context.toolchain m)).follow b

/-- The block as it was loaded. Its record was read off the artifacts, if it has one. -/
def reload (t : TracedBlock) (b : Block) : TracedBlock where
  block := b
  described := t.built.map .reload
  built := t.built.map .reload
  restored := true
  pending := t.pending.map .reload

/-- What can be done to a block, and to the registry with it. -/
inductive Step : Registry → TracedBlock → Registry → TracedBlock → Prop where
  | edit {r t} (edit : Edit) : Step r t r (t.follow (t.block.edit edit))
  | toVariant {r t} (shape : ProcedureShape) : Step r t r (t.follow (t.block.toVariant shape))
  | reset {r t} : Step r t r (t.follow t.block.reset)
  | attach {r t hash b r'} (h : t.block.attach r hash = .ok (b, r')) : Step r t r' (t.follow b)
  | detach {r t hash result b r'} (h : t.block.detach r hash = (result, b, r')) :
      Step r t r' (t.follow b)
  | relink {r t hashes result b r'} (h : t.block.relink r hashes = (result, b, r')) :
      Step r t r' (t.follow b)
  /-- The job that describes the block is handed out. -/
  | request {r t} : Step r t r { t with pending := .now t.block :: t.pending }
  /-- The outcome of a job that was handed out comes back, and still describes the block. -/
  | accept {r t a toolchain m outcome m' b} (ha : a ∈ t.pending)
      (hrun : a.job.run toolchain m = (.ok outcome, m'))
      (h : t.block.apply a.job outcome = (true, b)) : Step r t r (t.settle a outcome)
  | compile {r t} (toolchain : Toolchain) (m : Machine) :
      Step r t r (t.settleOwn (t.block.outcome? toolchain m))
  | compileIfRequired {r t} (toolchain : Toolchain) (m : Machine) :
      Step r t r (t.settleOwn (t.block.compiles? (some toolchain) m))
  | start {r t context dt m result b m'} (h : t.block.start context dt m = (result, b, m')) :
      Step r t r (t.afterStart context m b)
  | step {r t} (time dt : Float) (inputs : Signals) :
      Step r t r (t.follow (t.block.step time dt inputs).2)
  | endRun {r t} : Step r t r (t.follow t.block.endRun)

/-! ### Steps without their trace -/

variable {r r' : Registry} {t t' : TracedBlock}

theorem block_settleOwn (t : TracedBlock) (outcome : Option CompileOutcome) :
    (t.settleOwn outcome).block = t.block.settleOwn outcome := by
  cases outcome <;> rfl

/-- An outcome that is taken settles the block as an attempt does. -/
theorem block_settle {a : Attempt} {outcome : CompileOutcome} {b : Block}
    (h : t.block.apply a.job outcome = (true, b)) : (t.settle a outcome).block = b := by
  unfold Block.apply at h
  split at h
  · cases h
    rfl
  · cases h

/-- The jobs that were handed out are those of blocks. -/
def Requested (t : TracedBlock) : Prop := ∀ a ∈ t.pending, ∃ b : Block, a.job = b.job

theorem Requested.follow (h : t.Requested) (b : Block) : (t.follow b).Requested := by
  intro a ha
  obtain ⟨earlier, hearlier, rfl⟩ := List.mem_map.1 ha
  exact h earlier hearlier

theorem Requested.reload (h : t.Requested) (b : Block) : (t.reload b).Requested := by
  intro a ha
  obtain ⟨earlier, hearlier, rfl⟩ := List.mem_map.1 ha
  exact h earlier hearlier

theorem Requested.settleOwn (h : t.Requested) (outcome : Option CompileOutcome) : (t.settleOwn outcome).Requested := by
  cases outcome with
  | none => exact h
  | some outcome => exact h

/-- A step keeps it so: a compile that is made is of the block as it is. -/
theorem Requested.step (h : t.Requested) (hs : Step r t r' t') : t'.Requested := by
  cases hs with
  | edit | toVariant | reset | attach | detach | relink | step | endRun => exact h.follow _
  | request => exact List.forall_mem_cons.2 ⟨⟨t.block, rfl⟩, h⟩
  | accept => exact h
  | compile | compileIfRequired => exact h.settleOwn _
  | start => exact (h.settleOwn _).follow _

/-- A step does to a block and the registry what an operation does, or makes a variant of the block, or leaves both
alone. -/
theorem Step.exists_operation (hs : Step r t r' t') (h : t.Requested) :
    (∃ op, Block.Operation.Genuine op ∧ t.block.perform r op = (t'.block, r')) ∨
      (∃ shape, t'.block = t.block.toVariant shape ∧ r' = r) ∨ t'.block = t.block ∧ r' = r := by
  cases hs with
  | edit edit => exact .inl ⟨.edit edit, trivial, rfl⟩
  | toVariant shape => exact .inr (.inl ⟨shape, rfl, rfl⟩)
  | reset => exact .inl ⟨.reset, trivial, rfl⟩
  | @attach hash b _ hattach =>
    refine .inl ⟨.attach hash, trivial, ?_⟩
    rw [Block.perform, hattach]
    rfl
  | @detach hash result b _ hdetach =>
    refine .inl ⟨.detach hash, trivial, ?_⟩
    rw [Block.perform, hdetach]
    rfl
  | @relink hashes result b _ hrelink =>
    refine .inl ⟨.relink hashes, trivial, ?_⟩
    rw [Block.perform, hrelink]
    rfl
  -- to take a job is to look at the block
  | request => exact .inr (.inr ⟨rfl, rfl⟩)
  | @accept a toolchain m outcome m' b ha hrun happly =>
    -- the attempt began with a job of some block, which is what an outcome may be applied of
    obtain ⟨asked, hjob⟩ := h a ha
    refine .inl ⟨.apply a.job outcome, ⟨asked, toolchain, m, m', hjob, hrun⟩, ?_⟩
    rw [Block.perform, happly, block_settle happly]
  | compile toolchain m =>
    refine .inl ⟨.compile toolchain m, trivial, ?_⟩
    rw [Block.perform, Block.compile_eq, block_settleOwn]
  | compileIfRequired toolchain m =>
    refine .inl ⟨.compileIfRequired toolchain m, trivial, ?_⟩
    rw [Block.perform, Block.compileIfRequired_eq, block_settleOwn]
  | @start context dt m result b m' hstart =>
    refine .inl ⟨.start context dt m, trivial, ?_⟩
    rw [Block.perform, hstart]
    rfl
  | step time dt inputs => exact .inl ⟨.step time dt inputs, trivial, rfl⟩
  | endRun => exact .inl ⟨.endRun, trivial, rfl⟩

end TracedBlock

/-! ## Projects -/

/-- A project and the attempts that its blocks come from. -/
structure TracedProject where
  registry : Registry
  blocks : List TracedBlock

namespace TracedProject

/-- The project without its trace. -/
def project (p : TracedProject) : Project := ⟨p.registry, p.blocks.map (·.block)⟩

/-- The project that was loaded in place of one that was stored. -/
def reload (p : TracedProject) (q : Project) : TracedProject :=
  ⟨q.registry, List.zipWith TracedBlock.reload p.blocks q.blocks⟩

/-- The projects that come out of steps in any order. -/
inductive Reachable : TracedProject → Prop where
  | empty : Reachable ⟨.empty, []⟩
  | insert {p file hash r} : Reachable p → p.registry.insert file = .ok (hash, r) →
      Reachable { p with registry := r }
  | prune {p} : Reachable p → Reachable { p with registry := p.registry.prune }
  | create {p} (id : BlockId) (fragments : Fragments) (shape : SignalShape) : Reachable p →
      Reachable { p with blocks := p.blocks ++ [{ block := { id, fragments, shape } }] }
  | block {p i t r t'} : Reachable p → p.blocks[i]? = some t → TracedBlock.Step p.registry t r t' →
      Reachable ⟨r, p.blocks.set i t'⟩
  /-- The project is stored and loaded. -/
  | reload {p q toolchain warnings} : Reachable p → p.project.Storable →
      Project.ofText p.project.text toolchain = .ok (q, warnings) → Reachable (p.reload q)

theorem map_block_reload {ts : List TracedBlock} {bs : List Block} (h : ts.length = bs.length) :
    (List.zipWith TracedBlock.reload ts bs).map (·.block) = bs := by
  induction ts generalizing bs with
  | nil => rw [List.eq_nil_of_length_eq_zero h.symm, List.zipWith_nil_right, List.map_nil]
  | cons t ts ih =>
    cases bs with
    | nil => cases h
    | cons b bs => rw [List.zipWith_cons_cons, List.map_cons, ih (Nat.succ.inj h)]; rfl

/-- A loaded project has the blocks that were loaded. -/
theorem project_reload {p : TracedProject} {q : Project} {toolchain : Option String}
    {warnings : List LoadWarning} (h : p.project.Storable)
    (hload : Project.ofText p.project.text toolchain = .ok (q, warnings)) :
    (p.reload q).project = q := by
  have hrestored := Project.restored_of_ofText h hload
  have hlength : p.blocks.length = q.blocks.length := by
    rw [← hrestored.length_eq, project, List.length_map]
  show Project.mk q.registry ((List.zipWith TracedBlock.reload p.blocks q.blocks).map (·.block)) = q
  rw [map_block_reload hlength]

/-- Whatever has happened, the jobs that were handed out are those of blocks. -/
theorem Reachable.requested {p : TracedProject} (h : p.Reachable) : ∀ t ∈ p.blocks, t.Requested := by
  induction h with
  | empty => exact fun _ h => nomatch h
  | insert _ _ ih => exact ih
  | prune _ ih => exact ih
  | create id fragments shape _ ih =>
    exact List.forall_mem_append.2 ⟨ih, List.forall_mem_singleton.2 fun _ h => nomatch h⟩
  -- a step moves one block, and leaves the others
  | @block p i t r t' _ ht hstep ih =>
    intro u hu
    rcases List.mem_or_eq_of_mem_set hu with hu | rfl
    · exact ih u hu
    · exact (ih t (List.mem_of_getElem? ht)).step hstep
  | @reload p q toolchain warnings _ _ _ ih =>
    intro u hu
    obtain ⟨i, hi⟩ := List.mem_iff_getElem?.1 hu
    obtain ⟨t, b, ht, -, rfl⟩ := List.getElem?_zipWith_eq_some.1 hi
    exact (ih t (List.mem_of_getElem? ht)).reload b

/-- Without its trace, a project is one that the library makes. -/
theorem Reachable.reachable {p : TracedProject} (h : p.Reachable) : p.project.Reachable := by
  induction h with
  | empty => exact .empty
  | insert _ hinsert ih => exact ih.insert hinsert
  | prune _ ih => exact ih.prune
  | create id fragments shape _ ih =>
    rw [project, List.map_append]
    exact ih.create id fragments shape
  | @block p i t r t' hp ht hstep ih =>
    have hb : (p.blocks.map (·.block))[i]? = some t.block := by
      rw [List.getElem?_map, ht]
      rfl
    rw [project, List.map_set]
    rcases hstep.exists_operation (hp.requested t (List.mem_of_getElem? ht)) with
      ⟨op, hgenuine, hop⟩ | ⟨shape, ht', rfl⟩ | ⟨ht', rfl⟩
    · have hoperated := ih.operate hb hgenuine
      rwa [show p.project.registry = p.registry from rfl, hop] at hoperated
    · rw [ht']
      exact ih.toVariant shape hb
    · -- the block stays in its place
      obtain ⟨hlt, heq⟩ := List.getElem?_eq_some_iff.1 hb
      rw [ht', ← heq, List.set_getElem_self]
      exact ih
  | @reload p q toolchain warnings _ hstorable hload ih =>
    -- what is reloaded is a project of a document
    rw [project_reload hstorable hload]
    exact .load hload

end TracedProject

end CircuitBlocks
