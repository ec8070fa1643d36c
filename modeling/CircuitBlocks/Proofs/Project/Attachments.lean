import CircuitBlocks.Proofs.Project.Acceptance
import CircuitBlocks.Proofs.Project.RoundTrip

/-!
# Attachments — the files of the blocks and the users in the registry

A project that was made by changes keeps one relation in two places: a block has a file attached just if it is
among the users of the file. What the registry does by its users is therefore right for the blocks.

* `Block.nodup_perform` — no operation attaches a file twice.
* `Block.attach_eq_error_iff` — what an attachment is refused for.
* `ProjectRecord.warnings_restoreAll` — linked blocks come back with all their files.
* `Project.Linked.get?_prune` — a prune drops what no block has attached.
* **`Project.Managed.attachments`** — all of this, of every project that was made by changes.
-/

namespace CircuitBlocks

/-! ## Blocks -/

namespace Block

variable {b : Block} {r : Registry} {hash : FileHash}

/-- An attachment is refused just if the file is neither attached nor registered. -/
theorem attach_eq_error_iff {e : RegistryError} :
    b.attach r hash = .error e ↔ hash ∉ b.hashes ∧ r.get hash = .error e := by
  by_cases hmem : hash ∈ b.hashes
  · simp [attach, hmem]
  · rw [Registry.get_eq]
    cases hfile : r.file? hash with
    | none => simp [attach_missing hmem hfile, hmem]
    | some file =>
      obtain ⟨r', hattach⟩ := attach_registered hmem hfile
      simp [hattach]

end Block

/-! ## Reloads -/

/-- If the registry has the files of a stored block, none is missing. -/
theorem BlockRecord.warnings_restore_ofBlock {b : Block} {r : Registry} (hr : r.Keyed)
    (hb : b.hashes.Nodup) (hfiles : ∀ f ∈ b.files, r.file? f.hash = some f) (toolchain : Option String) :
    ((ofBlock b).restore r toolchain).2.2 = stateWarnings b.id ((ofBlock b).state toolchain) := by
  have hmissing : b.missing r = 0 := by
    rw [Block.missing, List.length_eq_zero_iff, List.filter_eq_nil_iff]
    intro hash hmem
    obtain ⟨f, hf, rfl⟩ := List.mem_map.1 hmem
    rw [hfiles f hf]
    exact Bool.false_ne_true
  have hlinked := (Block.relink_ofBlock hb hr).1
  rw [hmissing, if_pos rfl] at hlinked
  rw [warnings_restore, show (ofBlock b).hashes = b.hashes from rfl, hlinked]
  rfl

/-- Linked blocks come back with all their files, and the warnings tell of artifacts alone. -/
theorem ProjectRecord.warnings_restoreAll {r r' : Registry} (hr : r.Keyed)
    (hsame : ∀ hash, r.file? hash = r'.file? hash) (toolchain : Option String) {blocks : List Block}
    (hblocks : ∀ b ∈ blocks, b.hashes.Nodup ∧ r'.Links b) :
    (restoreAll r toolchain (blocks.map .ofBlock)).2.2
      = blocks.flatMap fun b => BlockRecord.stateWarnings b.id ((BlockRecord.ofBlock b).state toolchain) := by
  induction blocks generalizing r with
  | nil => rfl
  | cons b rest ih =>
    obtain ⟨⟨hb, hlinks⟩, hrest⟩ := List.forall_mem_cons.1 hblocks
    -- to restore a block changes no file of the registry
    have hkept := (BlockRecord.ofBlock b).file?_restore r toolchain
    have hhere := BlockRecord.warnings_restore_ofBlock hr hb
      (fun f hf => (hsame f.hash).trans (hlinks.registered f hf)) toolchain
    have hthere := ih (hr.of_file? hkept) (fun hash => (hkept hash).trans (hsame hash)) hrest
    rw [List.flatMap_cons, ← hhere, ← hthere]
    rfl

/-! ## Projects -/

namespace Project

variable {p : Project} {hash : FileHash}

/-- No block of a project that was made by changes has a file twice. -/
theorem Managed.nodup (h : p.Managed) : ∀ b ∈ p.blocks, b.hashes.Nodup := by
  induction h with
  | empty => exact fun _ hb => nomatch hb
  | load hload _ => exact fun b hb => ((wellFormed_of_ofText hload).blocks b hb).hashes
  | @change p dropped q hp hchange ih =>
    -- a change concerns one block at the most
    cases hchange with
    | insert hinsert => exact ih
    | prune => exact ih
    | create fragments shape hnew =>
      intro b hb
      rcases List.mem_append.1 hb with hold | hlast
      · exact ih b hold
      · rw [List.mem_singleton.1 hlast]
        exact List.Pairwise.nil
    | @operate i b op hb =>
      intro c hc
      rcases List.mem_or_eq_of_mem_set hc with hold | rfl
      · exact ih c hold
      · exact Block.nodup_perform hp.linked.registry.keyed (ih b (List.mem_of_getElem? hb)) op
    | @toVariant i b shape hb =>
      intro c hc
      rcases List.mem_or_eq_of_mem_set hc with hold | rfl
      · exact ih c hold
      · exact ih b (List.mem_of_getElem? hb)

/-- The users of a file are the blocks that have it attached, and no others. -/
theorem Linked.hasUser_iff (h : p.Linked) {id : BlockId} :
    p.registry.HasUser hash id ↔ ∃ b ∈ p.blocks, b.id = id ∧ hash ∈ b.hashes := by
  constructor
  · intro huser
    obtain ⟨b, hb, rfl⟩ := h.owned hash id huser
    exact ⟨b, hb, rfl, ((h.links b hb).users hash).1 huser⟩
  · rintro ⟨b, hb, rfl, hmem⟩
    exact ((h.links b hb).users hash).2 hmem

/-- A registered file stays when the unused ones are dropped just if some block has it attached. -/
theorem Linked.get?_prune (h : p.Linked) (hash : FileHash) :
    p.registry.prune.entries.get? hash
      = if ∃ b ∈ p.blocks, hash ∈ b.hashes then p.registry.entries.get? hash else none := by
  split
  · next hused =>
    obtain ⟨b, hb, hmem⟩ := hused
    exact Registry.get?_prune_of_hasUser (((h.links b hb).users hash).2 hmem)
  · next hunused =>
    rw [Registry.get?_prune]
    cases hentry : p.registry.entries.get? hash with
    | none => rfl
    | some entry =>
      -- a user of the file would be a block that has it attached
      have hsize : entry.users.size = 0 := by
        by_contra hsize
        obtain ⟨id, huser⟩ := SortedMap.exists_contains_of_size_ne_zero hsize
        obtain ⟨b, hb, -, hmem⟩ := h.hasUser_iff.1 ⟨entry, hentry, huser⟩
        exact hunused ⟨b, hb, hmem⟩
      simp [Option.filter, hsize]

/-- What is stored of a project comes back with all files of all blocks. -/
theorem Managed.exists_reloaded_files (h : p.Managed) (hshapes : ∀ b ∈ p.blocks, b.shape.Storable)
    (toolchain : Option String) : ∃ q warnings, ofText p.text toolchain = .ok (q, warnings) ∧ q.Managed ∧
      ∀ w ∈ warnings, ∃ id reason, w = .artifactsDiscarded id reason := by
  have hrecord : (ProjectRecord.ofProject p).Storable := by
    refine ⟨show projectFormat ≤ Json.limit32 by decide, fun r hr => ?_⟩
    obtain ⟨b, hb, rfl⟩ := List.mem_map.1 hr
    exact ⟨hshapes b hb, b.status.ordinal_le⟩
  have hload := ofText_text_of_record hrecord toolchain
  obtain ⟨hskipped, hfiles⟩ := ProjectRecord.registerAll_files h.linked.registry
  have hkeyed : (ProjectRecord.registerAll .empty p.registry.files).1.Keyed :=
    (ProjectRecord.registerAll_wellFormed .empty p.registry.files).keyed
  -- every file of a block is registered, so linking finds them all and warns of none
  have hrestored := ProjectRecord.warnings_restoreAll hkeyed hfiles toolchain
    fun b hb => ⟨h.nodup b hb, h.linked.links b hb⟩
  refine ⟨_, _, hload, .load hload ?_, fun w hw => ?_⟩
  · have hids := ProjectRecord.ids_restoreAll (ProjectRecord.registerAll .empty p.registry.files).1 toolchain
      (p.blocks.map .ofBlock)
    rw [List.map_map] at hids
    exact hids ▸ h.linked.distinct
  · have hwarnings : ((ProjectRecord.ofProject p).project toolchain).2 = p.blocks.flatMap fun b =>
        BlockRecord.stateWarnings b.id ((BlockRecord.ofBlock b).state toolchain) := by
      show (ProjectRecord.registerAll .empty p.registry.files).2 ++ _ = _
      rw [hskipped, ← hrestored]
      rfl
    have hmem : w ∈ ((ProjectRecord.ofProject p).project toolchain).2 := hw
    rw [hwarnings] at hmem
    -- what is left are warnings about artifacts
    obtain ⟨b, -, hb⟩ := List.mem_flatMap.1 hmem
    cases hstate : (BlockRecord.ofBlock b).state toolchain with
    | ok state => simp [hstate, BlockRecord.stateWarnings] at hb
    | error reason =>
      rw [hstate] at hb
      exact ⟨b.id, reason, List.mem_singleton.1 hb⟩

/-- **The users of files mirror what is attached.** In a project that was made by changes a block is among the
users of a file just if it has the file attached; what is attached is registered under its hash, with the same
name and contents, and has the name of a crate; and no file is attached twice. So a prune drops just the files
that no block has attached. An attachment is refused just for a file that is not registered, and changes
nothing then. If the numbers of the ports can be stored, the project comes back with all its files: the only
warnings are about artifacts. -/
theorem Managed.attachments (h : p.Managed) :
    (∀ hash id, p.registry.HasUser hash id ↔ ∃ b ∈ p.blocks, b.id = id ∧ hash ∈ b.hashes) ∧
    (∀ b ∈ p.blocks,
      (∀ hash, p.registry.HasUser hash b.id ↔ hash ∈ b.hashes) ∧
      (∀ f ∈ b.files, p.registry.get f.hash = .ok f ∧ isCrateName f.crate = true) ∧
      b.hashes.Nodup) ∧
    (∀ hash, p.registry.prune.entries.get? hash
      = if ∃ b ∈ p.blocks, hash ∈ b.hashes then p.registry.entries.get? hash else none) ∧
    (∀ b ∈ p.blocks, ∀ hash e, b.attach p.registry hash = .error e ↔ p.registry.get hash = .error e) ∧
    (∀ b ∈ p.blocks, ∀ hash e, p.registry.get hash = .error e →
      b.perform p.registry (.attach hash) = (b, p.registry)) ∧
    ((∀ b ∈ p.blocks, b.shape.Storable) → ∀ toolchain, ∃ q warnings,
      ofText p.text toolchain = .ok (q, warnings) ∧ q.Managed ∧
      ∀ w ∈ warnings, ∃ id reason, w = .artifactsDiscarded id reason) := by
  have hlinked := h.linked
  have hregistered : ∀ b ∈ p.blocks, ∀ f ∈ b.files, p.registry.get f.hash = .ok f := by
    intro b hb f hf
    rw [Registry.get_eq, (hlinked.links b hb).registered f hf]
  -- an attached file is registered, so that it is not what an attachment is refused for
  have hrefused : ∀ b ∈ p.blocks, ∀ hash e,
      b.attach p.registry hash = .error e ↔ p.registry.get hash = .error e := by
    intro b hb hash e
    rw [Block.attach_eq_error_iff]
    refine and_iff_right_of_imp fun hget hmem => ?_
    obtain ⟨f, hf, rfl⟩ := List.mem_map.1 hmem
    rw [hregistered b hb f hf] at hget
    cases hget
  refine ⟨fun hash id => hlinked.hasUser_iff, fun b hb => ⟨(hlinked.links b hb).users, fun f hf => ?_,
    h.nodup b hb⟩, hlinked.get?_prune, hrefused, fun b hb hash e hget => ?_, h.exists_reloaded_files⟩
  · exact ⟨hregistered b hb f hf,
      hlinked.registry.named f.hash f ((hlinked.links b hb).registered f hf)⟩
  · rw [Block.perform, (hrefused b hb hash e).2 hget]
    rfl

/-- A block has a file attached, and so the file is kept and comes back. -/
theorem attachments_single : ∃ (p : Project) (b : Block), p.Managed ∧ b ∈ p.blocks ∧
    b.hashes = [AuxiliaryFile.hash ⟨"util.rs", "A"⟩] ∧
    p.registry.HasUser (AuxiliaryFile.hash ⟨"util.rs", "A"⟩) b.id ∧
    p.registry.prune.get (AuxiliaryFile.hash ⟨"util.rs", "A"⟩) = .ok ⟨"util.rs", "A"⟩ ∧
    ∃ q warnings, ofText p.text none = .ok (q, warnings) ∧
      ∀ w ∈ warnings, ∃ id reason, w = .artifactsDiscarded id reason := by
  have hcrate : isCrateName (AuxiliaryFile.crate ⟨"util.rs", "A"⟩) = true := by decide
  -- only the crate of the file matters, and not what its hash is
  generalize (⟨"util.rs", "A"⟩ : AuxiliaryFile) = f at hcrate ⊢
  have hp : (single f (.bare {})).Managed := managed_single hcrate "b" {} .standard
  obtain ⟨-, hblocks, hprune, -, -, hreload⟩ := hp.attachments
  obtain ⟨husers, hfiles, -⟩ := hblocks _ (mem_single f)
  have hshapes : ∀ b ∈ (single f (.bare {})).blocks, b.shape.Storable :=
    List.forall_mem_singleton.2 SignalShape.storable_standard
  obtain ⟨q, warnings, hload, -, hwarnings⟩ := hreload hshapes none
  refine ⟨_, _, hp, mem_single f, rfl, (husers f.hash).2 (List.mem_singleton_self _), ?_, q, warnings, hload,
    hwarnings⟩
  have hkept := (hprune f.hash).trans (if_pos ⟨_, mem_single f, List.mem_singleton_self _⟩)
  exact (Registry.get_congr hkept).trans (hfiles f (List.mem_singleton_self f)).1

end Project

end CircuitBlocks
