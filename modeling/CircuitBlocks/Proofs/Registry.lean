import CircuitBlocks.Block.Basic
import CircuitBlocks.Proofs.SortedMap

/-!
# The registry — files under the hashes of their contents

Every operation on the registry, and every one of a block on its registry, keeps each file under its own
hash. What a block attaches by a hash is therefore a file with that hash.

* `Registry.insert_eq_ok`, `Registry.changeUsers_eq_ok_iff` — all that an insertion and a change of users can do.
* `Registry.file?` — the file under a hash, which only `insert` and `prune` change.
* `Registry.Keyed` — the registries with each file under its hash; `insert` and `changeUsers` keep them.
* `Registry.WellFormed` — the keyed registries whose files have the names of crates.
* `Block.attach_keyed` — what is attached by a hash has that hash.
* **`Block.relink_keyed`** — what is attached again by the hashes of some files has the hash of one of them.
-/

namespace CircuitBlocks

/-! ## Files -/

namespace Registry

variable {r r' : Registry}

/-- The file under a hash. -/
def file? (r : Registry) (hash : FileHash) : Option AuxiliaryFile := (r.entries.get? hash).map (·.file)

/-- A file is got from the registry just if it is there. -/
theorem get_eq (r : Registry) (hash : FileHash) :
    r.get hash = match r.file? hash with
      | none => .error (.unknownFile hash)
      | some file => .ok file := by
  unfold get file?
  cases r.entries.get? hash <;> rfl

theorem get_congr {hash : FileHash} (h : r.entries.get? hash = r'.entries.get? hash) :
    r.get hash = r'.get hash := by
  rw [get, get, h]

/-- Registries with the same files under each hash list the same files. -/
theorem files_eq (h : ∀ hash, r.file? hash = r'.file? hash) : r.files = r'.files :=
  SortedMap.map_values_eq h

/-- The users of a file are changed in its entry, if there is one. -/
theorem changeUsers_eq_ok_iff {hash : FileHash} {change : NameSet → NameSet} :
    r.changeUsers hash change = .ok r' ↔ ∃ entry, r.entries.get? hash = some entry ∧
      r' = ⟨r.entries.insert hash { entry with users := change entry.users }⟩ := by
  unfold changeUsers
  cases r.entries.get? hash with
  | none => exact ⟨fun h => (nomatch h), fun ⟨_, h, _⟩ => nomatch h⟩
  | some entry =>
    constructor
    · rintro ⟨⟩
      exact ⟨entry, rfl, rfl⟩
    · rintro ⟨_, ⟨⟩, rfl⟩
      rfl

/-- To change the users of a file changes no file. -/
theorem file?_changeUsers {hash : FileHash} {change : NameSet → NameSet}
    (h : r.changeUsers hash change = .ok r') (other : FileHash) : r'.file? other = r.file? other := by
  obtain ⟨entry, hentry, rfl⟩ := changeUsers_eq_ok_iff.1 h
  rw [file?, file?, SortedMap.get?_insert]
  split
  · next heq =>
    rw [heq, hentry]
    rfl
  · rfl

/-- The users of a file that is there can be changed. -/
theorem exists_changeUsers {hash : FileHash} {file : AuxiliaryFile} (h : r.file? hash = some file)
    (change : NameSet → NameSet) : ∃ r', r.changeUsers hash change = .ok r' := by
  obtain ⟨entry, hentry, -⟩ := Option.map_eq_some_iff.1 h
  exact ⟨_, changeUsers_eq_ok_iff.2 ⟨entry, hentry, rfl⟩⟩

/-- An insertion is of a file with the name of a crate. It changes nothing, or puts the file under its own hash,
where there was none. -/
theorem insert_eq_ok {file : AuxiliaryFile} {hash : FileHash} (h : r.insert file = .ok (hash, r')) :
    isCrateName file.crate = true ∧
      (r' = r ∨ r.entries.get? file.hash = none ∧ r' = ⟨r.entries.insert file.hash ⟨file, ∅⟩⟩) := by
  unfold insert at h
  split at h
  · cases h
  · next hname =>
    refine ⟨by simpa using hname, ?_⟩
    split at h
    · split at h
      · cases h
        exact .inl rfl
      · cases h
    · next hnew =>
      cases h
      exact .inr ⟨hnew, rfl⟩

/-- A file that is there after an insertion was there before, or is the one that was inserted. -/
theorem file?_of_insert {file : AuxiliaryFile} {hash : FileHash} (h : r.insert file = .ok (hash, r'))
    {other : FileHash} {f : AuxiliaryFile} (hget : r'.file? other = some f) :
    r.file? other = some f ∨ (other = file.hash ∧ f = file ∧ isCrateName file.crate = true) := by
  obtain ⟨hname, rfl | ⟨-, rfl⟩⟩ := insert_eq_ok h
  · exact .inl hget
  · rw [file?, SortedMap.get?_insert] at hget
    -- only the hash of the new file finds something new
    split at hget
    · next heq =>
      cases hget
      exact .inr ⟨heq, rfl, hname⟩
    · exact .inl hget

/-- A new file of a proper name is registered. -/
theorem insert_new {file : AuxiliaryFile} (hname : isCrateName file.crate = true)
    (hnew : r.file? file.hash = none) : ∃ r', r.insert file = .ok (file.hash, r') ∧
      ∀ hash, r'.file? hash = if hash = file.hash then some file else r.file? hash := by
  have hentry : r.entries.get? file.hash = none := Option.map_eq_none_iff.1 hnew
  refine ⟨⟨r.entries.insert file.hash ⟨file, ∅⟩⟩, ?_, fun hash => ?_⟩
  · simp [insert, hname, hentry]
  · rw [file?, SortedMap.get?_insert]
    split <;> rfl

theorem file?_of_prune {hash : FileHash} {f : AuxiliaryFile} (h : r.prune.file? hash = some f) :
    r.file? hash = some f := by
  obtain ⟨entry, hentry, hfile⟩ := Option.map_eq_some_iff.1 h
  exact Option.map_eq_some_iff.2 ⟨entry, SortedMap.get?_of_filter hentry, hfile⟩

end Registry

/-! ## Keys -/

namespace Registry

/-- Each file is under the hash of its contents. -/
def Keyed (r : Registry) : Prop :=
  ∀ hash entry, r.entries.get? hash = some entry → entry.file.hash = hash

variable {r r' : Registry}

theorem Keyed.empty : Registry.empty.Keyed := fun _ _ h => nomatch h

/-- To register a file keeps each under its own hash. -/
theorem Keyed.insert (h : r.Keyed) {file : AuxiliaryFile} {hash : FileHash}
    (hinsert : r.insert file = .ok (hash, r')) : r'.Keyed := by
  obtain ⟨-, rfl | ⟨-, rfl⟩⟩ := insert_eq_ok hinsert
  · exact h
  · intro hash' entry hget
    rw [SortedMap.get?_insert] at hget
    split at hget
    · next heq =>
      cases hget
      exact heq.symm
    · exact h hash' entry hget

theorem Keyed.hash_eq (h : r.Keyed) {hash : FileHash} {file : AuxiliaryFile}
    (hfile : r.file? hash = some file) : file.hash = hash := by
  obtain ⟨entry, hentry, rfl⟩ := Option.map_eq_some_iff.1 hfile
  exact h hash entry hentry

/-- Only the files count, not their users. -/
theorem Keyed.of_file? (h : r.Keyed) (hsame : ∀ hash, r'.file? hash = r.file? hash) : r'.Keyed := by
  intro hash entry hentry
  have hfile : r'.file? hash = some entry.file := Option.map_eq_some_iff.2 ⟨entry, hentry, rfl⟩
  exact h.hash_eq ((hsame hash).symm.trans hfile)

/-- The files of a keyed registry are those that are found under their hashes. -/
theorem Keyed.mem_files (h : r.Keyed) {file : AuxiliaryFile} :
    file ∈ r.files ↔ r.file? file.hash = some file := by
  constructor
  · intro hmem
    obtain ⟨entry, hentry, rfl⟩ := List.mem_map.1 hmem
    obtain ⟨hash, hget⟩ := SortedMap.exists_get?_of_mem_values hentry
    rw [h hash entry hget]
    exact Option.map_eq_some_iff.2 ⟨entry, hget, rfl⟩
  · intro hfile
    obtain ⟨entry, hget, rfl⟩ := Option.map_eq_some_iff.1 hfile
    exact List.mem_map_of_mem (SortedMap.mem_values_of_get? hget)

theorem Keyed.hashes_files (h : r.Keyed) : r.files.map (·.hash) = r.entries.keys := by
  unfold files SortedMap.values SortedMap.keys
  rw [List.map_map, List.map_map]
  refine List.map_congr_left fun e he => ?_
  exact h e.1 e.2 (SortedMap.mem_entries_iff.1 he)

/-- Each file is under its hash and has the name of a crate. -/
structure WellFormed (r : Registry) : Prop where
  keyed : r.Keyed
  named : ∀ hash file, r.file? hash = some file → isCrateName file.crate = true

theorem WellFormed.empty : Registry.empty.WellFormed := ⟨.empty, fun _ _ h => nomatch h⟩

theorem WellFormed.insert (h : r.WellFormed) {file : AuxiliaryFile} {hash : FileHash}
    (hinsert : r.insert file = .ok (hash, r')) : r'.WellFormed := by
  refine ⟨h.keyed.insert hinsert, fun other f hget => ?_⟩
  rcases file?_of_insert hinsert hget with hold | ⟨-, rfl, hname⟩
  · exact h.named other f hold
  · exact hname

theorem WellFormed.of_file? (h : r.WellFormed) (hsame : ∀ hash, r'.file? hash = r.file? hash) :
    r'.WellFormed :=
  ⟨h.keyed.of_file? hsame, fun hash f hget => h.named hash f ((hsame hash).symm.trans hget)⟩

theorem WellFormed.prune (h : r.WellFormed) : r.prune.WellFormed := by
  refine ⟨fun hash entry hget => h.keyed hash entry (SortedMap.get?_of_filter hget), fun hash f hget => ?_⟩
  exact h.named hash f (file?_of_prune hget)

end Registry

/-! ## Attached files -/

namespace Block

variable {b b' : Block} {r r' : Registry} {hash : FileHash}

/-- A file is attached already, or the registered one is attached and the block becomes one of its users. -/
theorem attach_eq_ok (h : b.attach r hash = .ok (b', r')) :
    (hash ∈ b.hashes ∧ b' = b ∧ r' = r) ∨
    ∃ file, hash ∉ b.hashes ∧ r.file? hash = some file ∧ r.addUser hash b.id = .ok r' ∧
      b' = { b with files := b.files ++ [file] } := by
  unfold attach at h
  split at h
  · next hmem =>
    cases h
    exact .inl ⟨hmem, rfl, rfl⟩
  · next hnew =>
    -- a new file is looked up first, and then the block is noted as its user
    rw [Registry.get_eq] at h
    cases hfile : r.file? hash with
    | none =>
      rw [hfile] at h
      cases h
    | some file =>
      cases huser : r.addUser hash b.id with
      | error e =>
        rw [hfile, huser] at h
        cases h
      | ok registry =>
        rw [hfile, huser] at h
        cases h
        exact .inr ⟨file, hnew, rfl, rfl, rfl⟩

/-- A file that is not registered is not attached. -/
theorem attach_missing (hnew : hash ∉ b.hashes) (h : r.file? hash = none) :
    b.attach r hash = .error (.unknownFile hash) := by
  rw [attach, if_neg hnew, Registry.get_eq, h]
  rfl

/-- A registered file that is not attached yet is attached behind the others. -/
theorem attach_registered (hnew : hash ∉ b.hashes) {file : AuxiliaryFile} (h : r.file? hash = some file) :
    ∃ r', b.attach r hash = .ok ({ b with files := b.files ++ [file] }, r') := by
  obtain ⟨r', huser⟩ := Registry.exists_changeUsers h fun users => users.insert b.id ()
  refine ⟨r', ?_⟩
  rw [attach, if_neg hnew, Registry.get_eq, h, show r.addUser hash b.id = .ok r' from huser]
  rfl

/-! ### The registry keeps its files -/

theorem file?_attach (h : b.attach r hash = .ok (b', r')) (other : FileHash) :
    r'.file? other = r.file? other := by
  rcases attach_eq_ok h with ⟨-, -, rfl⟩ | ⟨_, -, -, huser, -⟩
  · rfl
  · exact Registry.file?_changeUsers huser other

/-- To detach a file leaves it registered. -/
theorem file?_detach (b : Block) (r : Registry) (hash other : FileHash) :
    (b.detach r hash).2.2.file? other = r.file? other := by
  unfold detach
  simp only
  split
  · rfl
  · next hchange => exact Registry.file?_changeUsers hchange other

theorem file?_relinkEach (b : Block) (r : Registry) (hashes : List FileHash) (other : FileHash) :
    (b.relinkEach r hashes).2.2.file? other = r.file? other := by
  induction hashes generalizing b r with
  | nil => rfl
  | cons hash rest ih =>
    rw [relinkEach]
    split
    · next b₁ r₁ hattach => exact (ih b₁ r₁).trans (file?_attach hattach other)
    · exact ih b r

/-! ### Hashes -/

/-- What is attached by a hash has that hash. -/
theorem attach_keyed (h : r.Keyed) (hattach : b.attach r hash = .ok (b', r')) :
    r'.Keyed ∧ ∀ f ∈ b'.files, f ∈ b.files ∨ f.hash = hash := by
  refine ⟨h.of_file? (file?_attach hattach), ?_⟩
  rcases attach_eq_ok hattach with ⟨-, rfl, -⟩ | ⟨file, -, hfile, -, rfl⟩
  · exact fun _ hf => .inl hf
  · intro f hf
    rcases List.mem_append.1 hf with hf | hf
    · exact .inl hf
    · rw [List.mem_singleton.1 hf]
      exact .inr (h.hash_eq hfile)

/-- Linking keeps every file under its own hash, and links none that was not asked for. -/
theorem relinkEach_keyed (b : Block) (h : r.Keyed) (hashes : List FileHash) :
    (b.relinkEach r hashes).2.2.Keyed ∧
      ∀ f ∈ (b.relinkEach r hashes).2.1.files, f ∈ b.files ∨ f.hash ∈ hashes := by
  refine ⟨h.of_file? (b.file?_relinkEach r hashes), ?_⟩
  induction hashes generalizing b r with
  | nil => exact fun _ hf => .inl hf
  | cons hash rest ih =>
    rw [relinkEach]
    split
    · next b₁ r₁ hattach =>
      obtain ⟨hkeyed, hfiles⟩ := attach_keyed h hattach
      intro f hf
      -- a file is the first one, one of the others, or was there before
      rcases ih b₁ hkeyed f hf with hf | hf
      · rcases hfiles f hf with hf | hf
        · exact .inl hf
        · exact .inr (hf ▸ List.mem_cons_self)
      · exact .inr (List.mem_cons_of_mem _ hf)
    · -- a file that is not registered is left out
      intro f hf
      rcases ih b h f hf with hf | hf
      · exact .inl hf
      · exact .inr (List.mem_cons_of_mem _ hf)

/-- What is attached again by hashes has one of these hashes. -/
theorem relink_keyed (b : Block) (h : r.Keyed) (hashes : List FileHash) :
    (b.relink r hashes).2.2.Keyed ∧
      ∀ f ∈ (b.relink r hashes).2.1.files, f ∈ b.files ∨ f.hash ∈ hashes :=
  b.relinkEach_keyed h hashes

theorem hashes_append_file (hr : r.Keyed) {file : AuxiliaryFile} (h : r.file? hash = some file) :
    hashes { b with files := b.files ++ [file] } = b.hashes ++ [hash] := by
  rw [hashes, List.map_append, List.map_singleton, hr.hash_eq h]
  rfl

/-- No file is attached twice. -/
theorem nodup_attach (hr : r.Keyed) (hb : b.hashes.Nodup) (h : b.attach r hash = .ok (b', r')) :
    b'.hashes.Nodup := by
  rcases attach_eq_ok h with ⟨-, rfl, -⟩ | ⟨file, hnew, hfile, -, rfl⟩
  · exact hb
  · rw [hashes_append_file hr hfile, List.nodup_append]
    refine ⟨hb, List.pairwise_singleton _ _, fun other hother same hsame => ?_⟩
    rw [List.mem_singleton.1 hsame]
    exact fun heq => hnew (heq ▸ hother)

/-- To detach a file leaves none twice. -/
theorem nodup_detach (hb : b.hashes.Nodup) (r : Registry) (hash : FileHash) :
    (b.detach r hash).2.1.hashes.Nodup := by
  have hfiles : (b.detach r hash).2.1.files = b.files.filter fun f => f.hash ≠ hash := by
    unfold detach
    simp only
    split <;> rfl
  rw [hashes, hfiles]
  exact hb.sublist (List.filter_sublist.map _)

theorem nodup_relinkEach (hr : r.Keyed) (hb : b.hashes.Nodup) (hashes : List FileHash) :
    (b.relinkEach r hashes).2.1.hashes.Nodup := by
  induction hashes generalizing b r with
  | nil => exact hb
  | cons hash rest ih =>
    rw [relinkEach]
    split
    · next b₁ r₁ hattach => exact ih (attach_keyed hr hattach).1 (nodup_attach hr hb hattach)
    · exact ih hr hb

end Block

end CircuitBlocks
