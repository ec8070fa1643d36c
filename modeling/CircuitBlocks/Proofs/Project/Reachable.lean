import CircuitBlocks.Proofs.Block.WellFormed
import CircuitBlocks.Proofs.Project.Document

/-!
# Reachable projects — what the library makes of projects

The registry and the blocks of a project are open to everyone, so blocks may be moved from one project to
another, or be left out. Whatever is done, files stay under their hashes, no block has a file twice, and what
a block holds was compiled under the block's own name.

* `BlockRecord.wellFormed_restore` — whatever a project file says, the blocks that are loaded are well-formed.
* **`Project.Reachable.wellFormed`** — what holds of every project that the library can make.
* `Project.Reachable.forall_blocks` — an induction over all that can be done to the blocks of projects.
-/

namespace CircuitBlocks

/-! ## Loading -/

namespace BlockRecord

variable {registry : Registry} {toolchain : Option String}

/-- A state that is restored has artifacts and an attempt of the block's name, or is none. -/
theorem state_eq_ok {r : BlockRecord} {state : CompileState} (h : r.state toolchain = .ok state) :
    state = .uncompiled ∨ r.artifactName = r.id.artifactName ∧ ∃ s primary message,
      r.store? toolchain = .ok s ∧ s.get? r.artifactName = some primary ∧ state.store? = some s ∧
      state.record? = some { attempt r.artifactName primary.source s with message } := by
  unfold BlockRecord.state at h
  split at h
  · cases h
    exact .inl rfl
  · exact .inr (stateOf_eq_ok h)
  · exact .inr (stateOf_eq_ok h)

/-- A block that is restored has no run. Its state is none, or has artifacts and an attempt that was read off
them under the block's name. -/
theorem exists_restore_eq (r : BlockRecord) (registry : Registry) (toolchain : Option String) :
    ∃ files state, (r.restore registry toolchain).1 = { r.plain with files, state } ∧
      (state = .uncompiled ∨ ∃ s primary message, s.get? r.id.artifactName = some primary ∧
        state.store? = some s ∧
        state.record? = some { attempt r.id.artifactName primary.source s with message }) := by
  have hlinked := r.plain.relink_sameButFiles registry r.hashes
  rw [(r.restore_eq registry toolchain).2]
  cases hstate : r.state toolchain with
  | error reason => exact ⟨_, .uncompiled, hlinked, .inl rfl⟩
  | ok state =>
    refine ⟨_, state, congrArg (fun b : Block => { b with state }) hlinked, ?_⟩
    -- nothing was compiled, or the record names the unit's own artifact
    rcases state_eq_ok hstate with hnone | ⟨hname, s, primary, message, -, hprimary, hstore, hrecord⟩
    · exact .inl hnone
    · rw [hname] at hprimary hrecord
      exact .inr ⟨s, primary, message, hprimary, hstore, hrecord⟩

/-- A block that is restored has no file twice. -/
theorem nodup_restore (r : BlockRecord) (hr : registry.Keyed) (toolchain : Option String) :
    (r.restore registry toolchain).1.hashes.Nodup := by
  have hlinked := Block.nodup_relinkEach hr
    (Block.WellFormed.create r.id r.fragments r.shape).hashes r.hashes
  rw [(r.restore_eq registry toolchain).2]
  cases r.state toolchain <;> exact hlinked

/-- Whatever a record says, the block that is restored from it is well-formed. -/
theorem wellFormed_restore (r : BlockRecord) (hr : registry.Keyed) (toolchain : Option String) :
    (r.restore registry toolchain).1.WellFormed := by
  have hhashes := r.nodup_restore hr toolchain
  obtain ⟨files, state, heq, hstate⟩ := r.exists_restore_eq registry toolchain
  rw [heq] at hhashes ⊢
  rcases hstate with rfl | ⟨s, primary, message, hprimary, hstore, hrecord⟩
  · exact ⟨hhashes, (fun _ h => nomatch h), fun _ h => nomatch h⟩
  · refine ⟨hhashes, fun s' hs' => ?_, fun record hrecord' => ?_⟩
    · obtain rfl : s = s' := Option.some.inj (hstore.symm.trans hs')
      exact ⟨primary, hprimary⟩
    · obtain rfl := Option.some.inj (hrecord.symm.trans hrecord')
      rfl

end BlockRecord

namespace ProjectRecord

theorem file?_restoreAll (r : Registry) (toolchain : Option String) (records : List BlockRecord)
    (hash : FileHash) : (restoreAll r toolchain records).2.1.file? hash = r.file? hash := by
  induction records generalizing r with
  | nil => rfl
  | cons record rest ih => exact (ih _).trans (record.file?_restore r toolchain hash)

theorem wellFormed_restoreAll {r : Registry} (hr : r.Keyed) (toolchain : Option String)
    (records : List BlockRecord) : ∀ b ∈ (restoreAll r toolchain records).1, b.WellFormed := by
  induction records generalizing r with
  | nil => exact fun _ h => nomatch h
  | cons record rest ih =>
    intro b hb
    rcases List.mem_cons.1 hb with rfl | hb
    · exact record.wellFormed_restore hr toolchain
    · exact ih (hr.of_file? (record.file?_restore r toolchain)) b hb

/-- Each block that is restored has a record. -/
theorem exists_restore_of_mem (r : Registry) (toolchain : Option String) (records : List BlockRecord) :
    ∀ b ∈ (restoreAll r toolchain records).1,
      ∃ (record : BlockRecord) (registry : Registry), b = (record.restore registry toolchain).1 := by
  induction records generalizing r with
  | nil => exact fun _ h => nomatch h
  | cons record rest ih =>
    intro b hb
    rcases List.mem_cons.1 hb with rfl | hb
    · exact ⟨record, r, rfl⟩
    · exact ih _ b hb

end ProjectRecord

/-! ## Projects -/

namespace Project

/-- What holds of every project. -/
structure WellFormed (p : Project) : Prop where
  registry : p.registry.WellFormed
  blocks : ∀ b ∈ p.blocks, b.WellFormed

/-- The projects that the library can make. -/
inductive Reachable : Project → Prop where
  | empty : Reachable .empty
  | insert {p file hash r} : Reachable p → p.registry.insert file = .ok (hash, r) →
      Reachable { p with registry := r }
  /-- The users of a file are changed apart from the blocks. -/
  | changeUsers {p hash change r} : Reachable p → p.registry.changeUsers hash change = .ok r →
      Reachable { p with registry := r }
  | prune {p} : Reachable p → Reachable { p with registry := p.registry.prune }
  | create {p} (id : BlockId) (fragments : Fragments) (shape : SignalShape) : Reachable p →
      Reachable { p with blocks := p.blocks ++ [{ id, fragments, shape }] }
  | operate {p i b op} : Reachable p → p.blocks[i]? = some b → Block.Operation.Genuine op →
      Reachable ⟨(b.perform p.registry op).2, p.blocks.set i (b.perform p.registry op).1⟩
  | toVariant {p i b} (shape : ProcedureShape) : Reachable p → p.blocks[i]? = some b →
      Reachable { p with blocks := p.blocks.set i (b.toVariant shape) }
  /-- Any text is loaded, be it a project that was stored or something else. -/
  | load {p text toolchain warnings} : ofText text toolchain = .ok (p, warnings) → Reachable p
  /-- Blocks are taken from here and there. -/
  | arrange {p blocks} (source : Block → Project) : Reachable p → (∀ b ∈ blocks, Reachable (source b)) →
      (∀ b ∈ blocks, b ∈ (source b).blocks) → Reachable { p with blocks }

variable {p : Project}

theorem WellFormed.set (h : p.WellFormed) {r : Registry} (hr : r.WellFormed) {b : Block}
    (hb : b.WellFormed) (i : Nat) : WellFormed ⟨r, p.blocks.set i b⟩ := by
  refine ⟨hr, fun c hc => ?_⟩
  rcases List.mem_or_eq_of_mem_set hc with hold | rfl
  · exact h.blocks c hold
  · exact hb

/-- A project that was loaded was made of a record. -/
theorem ofText_eq_ok {text : String} {toolchain : Option String} {warnings : List LoadWarning}
    (h : ofText text toolchain = .ok (p, warnings)) :
    ∃ record : ProjectRecord, p = (record.project toolchain).1 := by
  unfold ofText at h
  split at h
  · cases h
  · next record _ =>
    split at h
    · cases h
    · exact ⟨record, (congrArg Prod.fst (Except.ok.inj h)).symm⟩

/-- Any project that is loaded is well-formed, whatever was in the text. -/
theorem wellFormed_of_ofText {text : String} {toolchain : Option String} {warnings : List LoadWarning}
    (h : ofText text toolchain = .ok (p, warnings)) : p.WellFormed := by
  obtain ⟨record, rfl⟩ := ofText_eq_ok h
  have hregistered := ProjectRecord.registerAll_wellFormed .empty record.files
  exact ⟨hregistered.of_file? (ProjectRecord.file?_restoreAll _ toolchain record.blocks),
    ProjectRecord.wellFormed_restoreAll hregistered.keyed toolchain record.blocks⟩

/-- Every block of a project that was loaded is the block of a record. -/
theorem exists_restore_of_ofText {text : String} {toolchain : Option String}
    {warnings : List LoadWarning} (h : ofText text toolchain = .ok (p, warnings)) :
    ∀ b ∈ p.blocks, ∃ (r : BlockRecord) (registry : Registry), b = (r.restore registry toolchain).1 := by
  obtain ⟨record, rfl⟩ := ofText_eq_ok h
  exact ProjectRecord.exists_restore_of_mem _ toolchain record.blocks

/-- Whatever the library has made is well-formed. -/
theorem Reachable.wellFormed (h : p.Reachable) : p.WellFormed := by
  induction h with
  | empty => exact ⟨.empty, fun _ h => nomatch h⟩
  | insert _ hinsert ih => exact ⟨ih.registry.insert hinsert, ih.blocks⟩
  | changeUsers _ hchange ih =>
    exact ⟨ih.registry.of_file? (Registry.file?_changeUsers hchange), ih.blocks⟩
  | prune _ ih => exact ⟨ih.registry.prune, ih.blocks⟩
  | create id fragments shape _ ih =>
    refine ⟨ih.registry, fun b hb => ?_⟩
    rcases List.mem_append.1 hb with hold | hnew
    · exact ih.blocks b hold
    · rw [List.mem_singleton.1 hnew]
      exact .create id fragments shape
  -- an operation changes the users of files and no file, so the other blocks stay well-formed
  | @operate p i b op _ hb hop ih =>
    exact ih.set (ih.registry.of_file? (b.file?_perform p.registry op))
      ((ih.blocks b (List.mem_of_getElem? hb)).perform ih.registry.keyed hop) i
  | @toVariant p i b shape _ hb ih =>
    have hwell := ih.blocks b (List.mem_of_getElem? hb)
    exact ih.set ih.registry (hwell.continues_of_files (b.continues_toVariant shape) rfl) i
  | load hload => exact wellFormed_of_ofText hload
  | arrange source _ _ hsource ih ihsource =>
    exact ⟨ih.registry, fun b hb => (ihsource b hb).blocks b (hsource b hb)⟩

/-- What holds of blocks when they are new, loaded or exchanged for a variant, and is kept by every
operation, holds of every block that the library has made. -/
theorem Reachable.forall_blocks {P : Block → Prop} (h : p.Reachable)
    (create : ∀ id fragments shape, P { id, fragments, shape })
    (restore : ∀ (r : BlockRecord) registry toolchain, P (r.restore registry toolchain).1)
    (toVariant : ∀ (b : Block) shape, P (b.toVariant shape))
    (perform : ∀ (b : Block) r op, b.WellFormed → op.Genuine → P b → P (b.perform r op).1) :
    ∀ b ∈ p.blocks, P b := by
  induction h with
  | empty => exact fun _ h => nomatch h
  | insert _ _ ih => exact ih
  | changeUsers _ _ ih => exact ih
  | prune _ ih => exact ih
  | create id fragments shape _ ih =>
    intro b hb
    rcases List.mem_append.1 hb with hold | hnew
    · exact ih b hold
    · rw [List.mem_singleton.1 hnew]
      exact create id fragments shape
  -- one block is exchanged, and the others stay
  | @operate p i b op hp hb hop ih =>
    intro c hc
    have hmem := List.mem_of_getElem? hb
    rcases List.mem_or_eq_of_mem_set hc with hold | rfl
    · exact ih c hold
    · exact perform b p.registry op (hp.wellFormed.blocks b hmem) hop (ih b hmem)
  | @toVariant p i b shape _ _ ih =>
    intro c hc
    rcases List.mem_or_eq_of_mem_set hc with hold | rfl
    · exact ih c hold
    · exact toVariant b shape
  | load hload =>
    intro b hb
    obtain ⟨r, registry, rfl⟩ := exists_restore_of_ofText hload b hb
    exact restore r registry _
  | arrange source _ _ hsource _ ihsource => exact fun b hb => ihsource b hb b (hsource b hb)

/-! ## A block that was compiled -/

/-- A block without files is created, and compiled on the willing machine. -/
theorem exists_compiled_bare (fragments : Fragments) : ∃ diagnostics, Reachable ⟨.empty,
    [(Block.bare fragments).settleOwn
      (some (.succeed (.willing (Block.bare fragments).source) diagnostics))]⟩ := by
  obtain ⟨diagnostics, houtcome⟩ := Block.exists_outcome_bare fragments
  have hcreated : Reachable ⟨.empty, [Block.bare fragments]⟩ := Reachable.empty.create "b" fragments .standard
  have hgenuine : Block.Operation.Genuine (.compile .willing (.willing [])) := trivial
  have hcompiled := hcreated.operate (i := 0) rfl hgenuine
  simp only [Block.perform, Block.compile_eq, houtcome] at hcompiled
  exact ⟨diagnostics, hcompiled⟩

/-- Then it is started there. -/
theorem exists_started_bare (toolchain : Option Toolchain) (dt : Float) : ∃ b b' : Block,
    Reachable ⟨.empty, [b]⟩ ∧ b.shape = .standard ∧
    b.start { toolchain } dt (.willing []) = (.ok (), b', .willing []) := by
  obtain ⟨diagnostics, hp⟩ := exists_compiled_bare {}
  generalize hb : (Block.bare {}).settleOwn
    (some (.succeed (.willing (Block.bare {}).source) diagnostics)) = b at hp
  have hfresh : b.staleness = .fresh := hb ▸ Block.staleness_settleOwn _ _
  obtain ⟨b', hstart⟩ := Block.start_willing (b := b) (by rw [← hb]; rfl) (by rw [← hb]; rfl)
    (by rw [← hb]; rfl) (by rw [← hb]; rfl) hfresh (ArtifactStore.get?_willing _) rfl toolchain dt
  exact ⟨b, b', hp, by rw [← hb]; rfl, hstart⟩

end Project

end CircuitBlocks
