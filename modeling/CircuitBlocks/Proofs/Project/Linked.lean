import CircuitBlocks.Proofs.Counting
import CircuitBlocks.Proofs.Project.Reachable

/-!
# Linked projects — the registry tells what the blocks have attached

Which blocks use a file is kept twice: by each block in its list of files, and by the registry in its sets of
users. As long as no two blocks have one identity the two agree, and a file that is attached is neither dropped
nor exchanged.

* `Registry.HasUser` — whether a block is among the users of a file.
* `Registry.Links` — a registry that agrees with one block, with one lemma for each operation on the block.
* **`Project.Linked`** — the projects whose registry agrees with all blocks.
* `Project.Change` — what is done to a project, with the hashes of the files that it drops.
* **`Project.Managed.linked`** — a project that was made by changes alone is linked.
-/

namespace CircuitBlocks

/-! ## Users -/

namespace Registry

variable {r r' : Registry} {id block : BlockId} {hash other : FileHash}

/-- Whether a block is among the users of the file under a hash. -/
def HasUser (r : Registry) (hash : FileHash) (id : BlockId) : Prop :=
  ∃ entry, r.entries.get? hash = some entry ∧ entry.users.contains id = true

/-- The hashes of the files that no block uses. -/
def unused (r : Registry) : List FileHash := r.entries.keys.filter fun hash => r.userCount hash = 0

theorem hasUser_empty (hash : FileHash) (id : BlockId) : ¬ Registry.empty.HasUser hash id := by
  rintro ⟨_, ⟨⟩, -⟩

/-- The users of one file are changed, and of no other. -/
theorem hasUser_changeUsers {change : NameSet → NameSet} (h : r.changeUsers hash change = .ok r')
    (other : FileHash) (id : BlockId) : ∃ entry, r.entries.get? hash = some entry ∧ (r'.HasUser other id ↔
      if other = hash then (change entry.users).contains id = true else r.HasUser other id) := by
  obtain ⟨entry, hentry, rfl⟩ := changeUsers_eq_ok_iff.1 h
  refine ⟨entry, hentry, ?_⟩
  unfold HasUser
  simp only [SortedMap.get?_insert]
  split
  · simp
  · rfl

/-- A user is added to one file. -/
theorem hasUser_addUser (h : r.addUser hash block = .ok r') :
    r'.HasUser other id ↔ r.HasUser other id ∨ (other = hash ∧ id = block) := by
  obtain ⟨entry, hentry, husers⟩ := hasUser_changeUsers h other id
  rw [husers]
  split
  · next heq =>
    subst heq
    simp [HasUser, hentry, SortedMap.contains_insert, or_comm]
  · next hne => simp [hne]

/-- A user is removed from one file. -/
theorem hasUser_removeUser (h : r.removeUser hash block = .ok r') :
    r'.HasUser other id ↔ r.HasUser other id ∧ ¬ (other = hash ∧ id = block) := by
  obtain ⟨entry, hentry, husers⟩ := hasUser_changeUsers h other id
  rw [husers]
  split
  · next heq =>
    subst heq
    simp [HasUser, hentry, SortedMap.contains_erase, and_comm]
  · next hne => simp [hne]

/-- A file that is new has no users, and the others keep theirs. -/
theorem hasUser_insert {file : AuxiliaryFile} (h : r.insert file = .ok (hash, r')) :
    r'.HasUser other id ↔ r.HasUser other id := by
  obtain ⟨-, rfl | ⟨hnew, rfl⟩⟩ := insert_eq_ok h
  · rfl
  · unfold HasUser
    simp only [SortedMap.get?_insert]
    split
    · next heq =>
      rw [heq, hnew]
      simp [SortedMap.contains]
    · rfl

/-- A file that is there stays as it is when another one is added. -/
theorem file?_insert {file f : AuxiliaryFile} (h : r.insert file = .ok (hash, r'))
    (hf : r.file? other = some f) : r'.file? other = some f := by
  obtain ⟨-, rfl | ⟨hnew, rfl⟩⟩ := insert_eq_ok h
  · exact hf
  · rw [file?, SortedMap.get?_insert, if_neg]
    · exact hf
    · rintro rfl
      rw [file?, hnew] at hf
      cases hf

/-! ### Pruning -/

theorem get?_prune (r : Registry) (hash : FileHash) :
    r.prune.entries.get? hash = (r.entries.get? hash).filter fun entry => entry.users.size ≠ 0 :=
  SortedMap.get?_filter _ _ _

theorem not_mem_unused (h : r.HasUser hash id) : hash ∉ r.unused := by
  obtain ⟨entry, hentry, huser⟩ := h
  intro hmem
  have hzero : r.userCount hash = 0 := by simpa using (List.mem_filter.1 hmem).2
  rw [userCount, hentry] at hzero
  exact SortedMap.size_ne_zero_of_contains huser hzero

/-- What is dropped are the unused files. -/
theorem get?_prune_of_not_mem_unused (h : hash ∉ r.unused) :
    r.prune.entries.get? hash = r.entries.get? hash := by
  rw [get?_prune]
  cases hentry : r.entries.get? hash with
  | none => rfl
  | some entry =>
    have hmem : hash ∈ r.entries.keys := SortedMap.mem_keys_iff.2 (by rw [SortedMap.contains, hentry]; rfl)
    have hsize : entry.users.size ≠ 0 := by
      intro hzero
      refine h (List.mem_filter.2 ⟨hmem, ?_⟩)
      simp [userCount, hentry, hzero]
    simp [Option.filter, hsize]

/-- A file that has users stays. -/
theorem get?_prune_of_hasUser (h : r.HasUser hash id) : r.prune.entries.get? hash = r.entries.get? hash :=
  get?_prune_of_not_mem_unused (not_mem_unused h)

/-- To prune the registry leaves all users. -/
theorem hasUser_prune : r.prune.HasUser hash id ↔ r.HasUser hash id := by
  constructor
  · rintro ⟨entry, hentry, huser⟩
    exact ⟨entry, SortedMap.get?_of_filter hentry, huser⟩
  · intro h
    have hkept := get?_prune_of_hasUser h
    obtain ⟨entry, hentry, huser⟩ := h
    exact ⟨entry, hkept.trans hentry, huser⟩

/-! ## Links -/

/-- A registry that agrees with a block: the files of the block are registered as they are attached, and the
block is among the users of a file just if it has it attached. -/
structure Links (r : Registry) (b : Block) : Prop where
  registered : ∀ f ∈ b.files, r.file? f.hash = some f
  users : ∀ hash, r.HasUser hash b.id ↔ hash ∈ b.hashes

namespace Links

variable {b c : Block}

/-- Only the identity and the files of a block count. -/
theorem congr (h : r.Links b) (hid : c.id = b.id) (hfiles : c.files = b.files) : r.Links c where
  registered := hfiles ▸ h.registered
  users := by
    rw [hid, Block.hashes, hfiles]
    exact h.users

/-- A change of the registry that keeps the files and the block among their users. -/
theorem change (h : r.Links b) (hfile : ∀ f ∈ b.files, r'.file? f.hash = r.file? f.hash)
    (husers : ∀ hash, r'.HasUser hash b.id ↔ r.HasUser hash b.id) : r'.Links b where
  registered := fun f hf => (hfile f hf).trans (h.registered f hf)
  users := fun hash => (husers hash).trans (h.users hash)

theorem insert (h : r.Links b) {file : AuxiliaryFile} (hinsert : r.insert file = .ok (hash, r')) :
    r'.Links b where
  registered := fun f hf => file?_insert hinsert (h.registered f hf)
  users := fun other => (hasUser_insert hinsert).trans (h.users other)

/-- What is attached to a block is used. -/
theorem hasUser (h : r.Links b) {f : AuxiliaryFile} (hf : f ∈ b.files) : r.HasUser f.hash b.id :=
  (h.users f.hash).2 (List.mem_map_of_mem hf)

/-- So it is not dropped. -/
theorem prune (h : r.Links b) : r.prune.Links b := by
  refine h.change (fun f hf => ?_) fun hash => hasUser_prune
  rw [file?, get?_prune_of_hasUser (h.hasUser hf)]
  rfl

/-- To attach a file makes its block a user of it. -/
theorem attach (hr : r.Keyed) (h : r.Links b) (hattach : b.attach r hash = .ok (c, r')) : r'.Links c := by
  have hkept := Block.file?_attach hattach
  rcases Block.attach_eq_ok hattach with ⟨-, rfl, rfl⟩ | ⟨file, -, hfile, huser, rfl⟩
  · exact h
  · refine ⟨fun f hf => (hkept _).trans ?_, fun other => ?_⟩
    · rcases List.mem_append.1 hf with hf | hf
      · exact h.registered f hf
      · rw [List.mem_singleton.1 hf, hr.hash_eq hfile, hfile]
    · rw [hasUser_addUser huser, Block.hashes_append_file hr hfile, List.mem_append, List.mem_singleton]
      exact or_congr (h.users other) (and_iff_left rfl)

/-- So do attachments made one after another. -/
theorem relinkEach (hr : r.Keyed) (h : r.Links b) (hashes : List FileHash) :
    (b.relinkEach r hashes).2.2.Links (b.relinkEach r hashes).2.1 := by
  induction hashes generalizing b r with
  | nil => exact h
  | cons hash rest ih =>
    rw [Block.relinkEach]
    split
    · next hattach => exact ih (hr.of_file? (Block.file?_attach hattach)) (h.attach hr hattach)
    · exact ih hr h

/-- To detach a file takes its user away. -/
theorem detach (h : r.Links b) (hash : FileHash) : (b.detach r hash).2.2.Links (b.detach r hash).2.1 := by
  have hhashes : ∀ other, other ∈ Block.hashes { b with files := b.files.filter fun f => f.hash ≠ hash } ↔
      other ∈ b.hashes ∧ other ≠ hash := by
    intro other
    simp only [Block.hashes, List.mem_map, List.mem_filter, decide_eq_true_eq]
    constructor
    · rintro ⟨f, ⟨hf, hne⟩, rfl⟩
      exact ⟨⟨f, hf, rfl⟩, hne⟩
    · rintro ⟨⟨f, hf, rfl⟩, hne⟩
      exact ⟨f, ⟨hf, hne⟩, rfl⟩
  refine ⟨fun f hf => (b.file?_detach r hash f.hash).trans ?_, fun other => ?_⟩
  · refine h.registered f ?_
    unfold Block.detach at hf
    simp only at hf
    split at hf <;> exact (List.mem_filter.1 hf).1
  · unfold Block.detach
    simp only
    split
    · next hunknown =>
      -- a file that is not registered has no users, so the block did not have it
      have hnone : ¬ r.HasUser hash b.id := by
        rintro ⟨entry, hentry, -⟩
        rw [removeUser, changeUsers, hentry] at hunknown
        cases hunknown
      rw [hhashes]
      refine (h.users other).trans (iff_self_and.2 fun hmem heq => hnone ?_)
      exact (h.users hash).2 (heq ▸ hmem)
    · next hremoved =>
      rw [hasUser_removeUser hremoved, hhashes]
      exact and_congr (h.users other) (not_congr (and_iff_left rfl))

end Links

end Registry

/-! ## Operations on a block -/

namespace Block

variable {b : Block} {r : Registry} {id : BlockId}

/-- An attachment concerns no other block. -/
theorem hasUser_attach {b' : Block} {r' : Registry} {hash : FileHash} (h : b.attach r hash = .ok (b', r'))
    (hid : id ≠ b.id) (other : FileHash) : r'.HasUser other id ↔ r.HasUser other id := by
  rcases attach_eq_ok h with ⟨-, -, rfl⟩ | ⟨_, -, -, huser, -⟩
  · rfl
  · rw [Registry.hasUser_addUser huser]
    exact or_iff_left fun heq => hid heq.2

theorem hasUser_relinkEach (r : Registry) (hashes : List FileHash) (hid : id ≠ b.id) (other : FileHash) :
    (b.relinkEach r hashes).2.2.HasUser other id ↔ r.HasUser other id := by
  induction hashes generalizing b r with
  | nil => rfl
  | cons hash rest ih =>
    rw [relinkEach]
    split
    · next b₁ r₁ hattach =>
      have hsame : b₁.id = b.id := (attach_sameButFiles hattach).continues.id
      exact (ih r₁ (hsame ▸ hid)).trans (hasUser_attach hattach hid other)
    · exact ih r hid

/-- Nor does the end of one. -/
theorem hasUser_detach (r : Registry) (hash : FileHash) (hid : id ≠ b.id) (other : FileHash) :
    (b.detach r hash).2.2.HasUser other id ↔ r.HasUser other id := by
  unfold detach
  simp only
  split
  · rfl
  · next hremoved =>
    rw [Registry.hasUser_removeUser hremoved]
    exact and_iff_left fun heq => hid heq.2

/-- An operation on a block does not change which files the other blocks use. -/
theorem hasUser_perform (b : Block) (r : Registry) (op : Operation) (hid : id ≠ b.id) (other : FileHash) :
    (b.perform r op).2.HasUser other id ↔ r.HasUser other id := by
  cases op with
  | attach hash =>
    simp only [perform]
    cases hattach : b.attach r hash with
    | error e => rfl
    | ok attached => exact hasUser_attach hattach hid other
  | detach hash => exact hasUser_detach r hash hid other
  | relink hashes => exact hasUser_relinkEach r hashes hid other
  | _ => rfl

/-- After an operation the registry goes on to agree with the block. -/
theorem links_perform (hr : r.Keyed) (h : r.Links b) (op : Operation) :
    (b.perform r op).2.Links (b.perform r op).1 := by
  -- only attaching, detaching and linking change files and users; every other operation keeps both
  cases op with
  | attach hash =>
    simp only [perform]
    cases hattach : b.attach r hash with
    | error e => exact h
    | ok attached => exact h.attach hr hattach
  | detach hash => exact h.detach hash
  | relink hashes => exact h.relinkEach hr hashes
  | _ => exact h.congr (b.id_perform r _) (b.id_and_files_perform r rfl).2

end Block

/-! ## Projects -/

namespace Project

/-- The projects without two blocks of one identity, whose registry agrees with each block and has no other
users. -/
structure Linked (p : Project) : Prop where
  registry : p.registry.WellFormed
  distinct : (p.blocks.map (·.id)).Nodup
  links : ∀ b ∈ p.blocks, p.registry.Links b
  owned : ∀ hash id, p.registry.HasUser hash id → ∃ b ∈ p.blocks, b.id = id

/-- What is done to a project, with the hashes of the files that are dropped: blocks are made under new
identities and stay in their places. -/
inductive Change (p : Project) : List FileHash → Project → Prop where
  | insert {file hash r} (h : p.registry.insert file = .ok (hash, r)) : Change p [] { p with registry := r }
  | prune : Change p p.registry.unused { p with registry := p.registry.prune }
  | create {id : BlockId} (fragments : Fragments) (shape : SignalShape) (hnew : ∀ b ∈ p.blocks, b.id ≠ id) :
      Change p [] { p with blocks := p.blocks ++ [{ id, fragments, shape }] }
  | operate {i b} (op : Block.Operation) (hb : p.blocks[i]? = some b) :
      Change p [] ⟨(b.perform p.registry op).2, p.blocks.set i (b.perform p.registry op).1⟩
  | toVariant {i b} (shape : ProcedureShape) (hb : p.blocks[i]? = some b) :
      Change p [] { p with blocks := p.blocks.set i (b.toVariant shape) }

/-- A sequence of changes, with the hashes of all files that are dropped on the way. -/
inductive Changes (p : Project) : List FileHash → Project → Prop where
  | refl : Changes p [] p
  | change {dropped q hashes q'} : Changes p dropped q → q.Change hashes q' → Changes p (dropped ++ hashes) q'

/-- The projects that are made by changes alone, from nothing or from a text whose blocks have different
identities. -/
inductive Managed : Project → Prop where
  | empty : Managed .empty
  | load {p text toolchain warnings} (h : ofText text toolchain = .ok (p, warnings))
      (hdistinct : (p.blocks.map (·.id)).Nodup) : Managed p
  | change {p dropped q} : Managed p → p.Change dropped q → Managed q

variable {p q : Project} {dropped : List FileHash}

/-! ### Changes -/

theorem Linked.empty : Linked .empty where
  registry := .empty
  distinct := List.Pairwise.nil
  links := fun _ h => nomatch h
  owned := fun hash id h => absurd h (Registry.hasUser_empty hash id)

/-- Another block with the same identity takes the place of one, and no other block has its uses changed. -/
theorem Linked.set (h : p.Linked) {r : Registry} (hr : r.WellFormed) {i : Nat} {b c : Block}
    (hb : p.blocks[i]? = some b) (hid : c.id = b.id) (hc : r.Links c)
    (hfile : ∀ hash, r.file? hash = p.registry.file? hash)
    (husers : ∀ hash id, id ≠ b.id → (r.HasUser hash id ↔ p.registry.HasUser hash id)) :
    Linked ⟨r, p.blocks.set i c⟩ := by
  obtain ⟨before, after, hblocks, rfl⟩ := exists_append_of_getElem? hb
  have hids : (before ++ c :: after).map (·.id) = p.blocks.map (·.id) := by
    rw [hblocks, List.map_append, List.map_append, List.map_cons, List.map_cons, hid]
  -- the other blocks have other identities
  have hothers : ∀ d ∈ before ++ after, d ∈ p.blocks ∧ d.id ≠ b.id := by
    have hnodup : ((b :: (before ++ after)).map (·.id)).Nodup :=
      (List.perm_middle.map Block.id).nodup_iff.1 (hblocks ▸ h.distinct)
    intro d hd
    refine ⟨hblocks ▸ (List.perm_middle.mem_iff.2 (List.mem_cons_of_mem b hd)), fun heq => ?_⟩
    exact (List.nodup_cons.1 hnodup).1 (List.mem_map.2 ⟨d, hd, heq⟩)
  rw [hblocks, set_length_append]
  refine ⟨hr, hids ▸ h.distinct, fun d hd => ?_, fun hash id huser => ?_⟩
  · rcases List.mem_cons.1 (List.perm_middle.mem_iff.1 hd) with rfl | hd
    · exact hc
    · obtain ⟨hmem, hne⟩ := hothers d hd
      exact (h.links d hmem).change (fun f _ => hfile f.hash) fun hash => husers hash d.id hne
  · by_cases hown : id = b.id
    · exact ⟨c, List.mem_append_right _ List.mem_cons_self, hid.trans hown.symm⟩
    · obtain ⟨d, hd, rfl⟩ := h.owned hash id ((husers hash id hown).1 huser)
      rw [hblocks] at hd
      rcases List.mem_cons.1 (List.perm_middle.mem_iff.1 hd) with rfl | hd
      · exact absurd rfl hown
      · exact ⟨d, List.perm_middle.mem_iff.2 (List.mem_cons_of_mem c hd), rfl⟩

/-- **Every change keeps a project linked.** -/
theorem Linked.change (h : p.Linked) (hchange : p.Change dropped q) : q.Linked := by
  cases hchange with
  | insert hinsert =>
    exact ⟨h.registry.insert hinsert, h.distinct, fun b hb => (h.links b hb).insert hinsert,
      fun hash id huser => h.owned hash id ((Registry.hasUser_insert hinsert).1 huser)⟩
  | prune =>
    exact ⟨h.registry.prune, h.distinct, fun b hb => (h.links b hb).prune,
      fun hash id huser => h.owned hash id (Registry.hasUser_prune.1 huser)⟩
  | @create id fragments shape hnew =>
    refine ⟨h.registry, ?_, fun b hb => ?_, fun hash id' huser => ?_⟩
    · rw [List.map_append, List.map_singleton, List.nodup_append]
      refine ⟨h.distinct, List.pairwise_singleton _ _, fun a ha a' ha' => ?_⟩
      obtain ⟨b, hb, rfl⟩ := List.mem_map.1 ha
      rw [List.mem_singleton.1 ha']
      exact hnew b hb
    · rcases List.mem_append.1 hb with hold | hlast
      · exact h.links b hold
      · rw [List.mem_singleton.1 hlast]
        refine ⟨(fun _ hf => nomatch hf), fun hash => iff_of_false (fun huser => ?_) (fun hmem => nomatch hmem)⟩
        -- a user of a file is a block of the project, and there was none with the new name
        obtain ⟨b', hb', hid⟩ := h.owned hash id huser
        exact hnew b' hb' hid
    · obtain ⟨b, hb, hid⟩ := h.owned hash id' huser
      exact ⟨b, List.mem_append_left _ hb, hid⟩
  | @operate i b op hb =>
    have hlinks := Block.links_perform h.registry.keyed (h.links b (List.mem_of_getElem? hb)) op
    have hfile := b.file?_perform p.registry op
    exact h.set (h.registry.of_file? hfile) hb (b.id_perform p.registry op) hlinks hfile
      fun hash id hne => b.hasUser_perform p.registry op hne hash
  | @toVariant i b shape hb =>
    exact h.set h.registry hb rfl ((h.links b (List.mem_of_getElem? hb)).congr rfl rfl) (fun _ => rfl)
      fun _ _ _ => Iff.rfl

/-- An operation on the first block, told by its result. -/
theorem Change.perform_head {r r' : Registry} {b c : Block} {rest : List Block} (op : Block.Operation)
    (h : b.perform r op = (c, r')) : Change ⟨r, b :: rest⟩ [] ⟨r', c :: rest⟩ := by
  have hchange := Change.operate (p := ⟨r, b :: rest⟩) (i := 0) op rfl
  rw [show b.perform (Project.mk r (b :: rest)).registry op = (c, r') from h] at hchange
  exact hchange

/-- A file that is not dropped stays under its hash. -/
theorem Change.file? (hchange : p.Change dropped q) {hash : FileHash} {f : AuxiliaryFile}
    (hf : p.registry.file? hash = some f) (hkept : hash ∉ dropped) : q.registry.file? hash = some f := by
  cases hchange with
  | insert hinsert => exact Registry.file?_insert hinsert hf
  | prune =>
    rw [Registry.file?, Registry.get?_prune_of_not_mem_unused hkept]
    exact hf
  | create fragments shape hnew => exact hf
  | @operate i b op hb => exact (b.file?_perform p.registry op hash).trans hf
  | toVariant shape hb => exact hf

theorem Changes.file? (hchanges : p.Changes dropped q) {hash : FileHash} {f : AuxiliaryFile}
    (hf : p.registry.file? hash = some f) (hkept : hash ∉ dropped) : q.registry.file? hash = some f := by
  induction hchanges with
  | refl => exact hf
  | change _ hchange ih =>
    rw [List.mem_append, not_or] at hkept
    exact hchange.file? (ih hkept.1) hkept.2

theorem Changes.managed (hchanges : p.Changes dropped q) (h : p.Managed) : q.Managed := by
  induction hchanges with
  | refl => exact h
  | change _ hchange ih => exact .change ih hchange

end Project

/-! ### Loading -/

namespace BlockRecord

variable {registry : Registry}

theorem id_restore (r : BlockRecord) (registry : Registry) (toolchain : Option String) :
    (r.restore registry toolchain).1.id = r.id := by
  obtain ⟨files, state, heq, -⟩ := r.exists_restore_eq registry toolchain
  rw [heq]
  rfl

/-- A block that nothing is attached to yet has its files attached one after another. -/
theorem links_restore (r : BlockRecord) (hr : registry.Keyed) (toolchain : Option String)
    (hnew : ∀ hash, ¬ registry.HasUser hash r.id) :
    (r.restore registry toolchain).2.1.Links (r.restore registry toolchain).1 := by
  have hplain : registry.Links r.plain :=
    ⟨(fun _ hf => nomatch hf), fun hash => iff_of_false (hnew hash) fun hmem => nomatch hmem⟩
  have hlinks := hplain.relinkEach hr r.hashes
  rw [(r.restore_eq registry toolchain).1, (r.restore_eq registry toolchain).2]
  cases r.state toolchain with
  | error reason => exact hlinks
  | ok state => exact hlinks.congr rfl rfl

theorem hasUser_restore (r : BlockRecord) (registry : Registry) (toolchain : Option String) {id : BlockId}
    (hid : id ≠ r.id) (hash : FileHash) :
    (r.restore registry toolchain).2.1.HasUser hash id ↔ registry.HasUser hash id := by
  rw [(r.restore_eq registry toolchain).1]
  exact Block.hasUser_relinkEach registry r.hashes hid hash

end BlockRecord

namespace ProjectRecord

variable {r : Registry} {toolchain : Option String}

/-- Files that are registered have no users yet. -/
theorem hasUser_registerAll (files : List AuxiliaryFile) (hash : FileHash) (id : BlockId) :
    (registerAll r files).1.HasUser hash id ↔ r.HasUser hash id := by
  induction files generalizing r with
  | nil => rfl
  | cons f rest ih =>
    cases hinsert : r.insert f with
    | error e =>
      rw [registerAll_error hinsert]
      exact ih
    | ok inserted =>
      rw [registerAll_ok hinsert]
      exact ih.trans (Registry.hasUser_insert hinsert)

theorem ids_restoreAll (r : Registry) (toolchain : Option String) (records : List BlockRecord) :
    (restoreAll r toolchain records).1.map (·.id) = records.map (·.id) := by
  induction records generalizing r with
  | nil => rfl
  | cons record rest ih => exact congrArg₂ List.cons (record.id_restore r toolchain) (ih _)

/-- Blocks that are restored are the only ones to be made users. -/
theorem hasUser_restoreAll (r : Registry) (toolchain : Option String) (records : List BlockRecord)
    {id : BlockId} (hid : id ∉ records.map (·.id)) (hash : FileHash) :
    (restoreAll r toolchain records).2.1.HasUser hash id ↔ r.HasUser hash id := by
  induction records generalizing r with
  | nil => rfl
  | cons record rest ih =>
    rw [List.map_cons, List.mem_cons, not_or] at hid
    obtain ⟨hne, hrest⟩ := hid
    exact (ih _ hrest).trans (record.hasUser_restore r toolchain hne hash)

/-- Blocks of different identities do not get in each other's way. -/
theorem links_restoreAll (hr : r.Keyed) {records : List BlockRecord}
    (hdistinct : (records.map (·.id)).Nodup) (hnew : ∀ hash id, ¬ r.HasUser hash id) :
    ∀ b ∈ (restoreAll r toolchain records).1, (restoreAll r toolchain records).2.1.Links b := by
  -- only the identities that are still to come have no users
  replace hnew : ∀ id ∈ records.map (·.id), ∀ hash, ¬ r.HasUser hash id := fun id _ hash => hnew hash id
  induction records generalizing r with
  | nil => exact fun _ hb => nomatch hb
  | cons record rest ih =>
    obtain ⟨hid, hrest⟩ := List.nodup_cons.1 hdistinct
    have hfile := record.file?_restore r toolchain
    intro b hb
    rcases List.mem_cons.1 hb with rfl | hb
    · have hlinks := record.links_restore hr toolchain (hnew record.id List.mem_cons_self)
      refine hlinks.change (fun f _ => file?_restoreAll _ toolchain rest f.hash) fun hash => ?_
      rw [record.id_restore r toolchain]
      exact hasUser_restoreAll _ toolchain rest hid hash
    · refine ih (hr.of_file? hfile) hrest (fun id hmem hash huser => ?_) b hb
      have hne : id ≠ record.id := by
        rintro rfl
        exact hid hmem
      exact hnew id (List.mem_cons_of_mem _ hmem) hash ((record.hasUser_restore r toolchain hne hash).1 huser)

end ProjectRecord

namespace Project

variable {p : Project}

/-- Whatever a text says, the registry of the project agrees with its blocks if these are different. -/
theorem linked_of_ofText {text : String} {toolchain : Option String} {warnings : List LoadWarning}
    (h : ofText text toolchain = .ok (p, warnings)) (hdistinct : (p.blocks.map (·.id)).Nodup) : p.Linked := by
  have hwell := (wellFormed_of_ofText h).registry
  obtain ⟨record, rfl⟩ := ofText_eq_ok h
  have hids := ProjectRecord.ids_restoreAll (ProjectRecord.registerAll .empty record.files).1 toolchain
    record.blocks
  -- the files that are read from the text have no users yet
  have hnone : ∀ hash id, ¬ (ProjectRecord.registerAll .empty record.files).1.HasUser hash id :=
    fun hash id huser => Registry.hasUser_empty hash id ((ProjectRecord.hasUser_registerAll _ hash id).1 huser)
  refine ⟨hwell, hdistinct, ?_, fun hash id huser => ?_⟩
  · exact ProjectRecord.links_restoreAll (ProjectRecord.registerAll_wellFormed .empty _).keyed
      (hids ▸ hdistinct) hnone
  · -- each user has come with a block
    by_contra hother
    refine hnone hash id ((ProjectRecord.hasUser_restoreAll _ toolchain record.blocks ?_ hash).1 huser)
    rw [← hids, List.mem_map]
    exact hother

/-- **A project that was made by changes is linked.** -/
theorem Managed.linked (h : p.Managed) : p.Linked := by
  induction h with
  | empty => exact .empty
  | load hload hdistinct => exact linked_of_ofText hload hdistinct
  | change _ hchange ih => exact ih.change hchange

end Project

end CircuitBlocks
