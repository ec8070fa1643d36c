import CircuitBlocks.Proofs.Project.Exchange
import CircuitBlocks.Proofs.Project.Reachable

/-!
# Round trips — what comes back of a project that was stored

A project that was stored comes back with its files and its blocks. Two things are lost: files of a block
that the registry does not have, and the failure of a block that never succeeded. A warning tells each of
them. What was not stored of an attempt is read off its artifacts.

* `Block.lossWarnings` — the warnings that a block gives.
* `Block.Reloaded` — what a block comes back as.
* **`Project.Reachable.exists_reloaded`** — a project that the library has made comes back.
-/

namespace CircuitBlocks

/-! ## The registry -/

namespace ProjectRecord

/-- New files with different hashes are all registered. -/
theorem registerAll_new {r : Registry} {files : List AuxiliaryFile}
    (hnamed : ∀ f ∈ files, isCrateName f.crate = true) (hnodup : (files.map (·.hash)).Nodup)
    (hnew : ∀ f ∈ files, r.file? f.hash = none) :
    (registerAll r files).2 = [] ∧ ∀ hash f, (registerAll r files).1.file? hash = some f ↔
      r.file? hash = some f ∨ f ∈ files ∧ f.hash = hash := by
  induction files generalizing r with
  | nil =>
    refine ⟨rfl, fun hash f => ⟨.inl, ?_⟩⟩
    rintro (hold | ⟨hmem, -⟩)
    · exact hold
    · cases hmem
  | cons f rest ih =>
    obtain ⟨hname, hnamed⟩ := List.forall_mem_cons.1 hnamed
    obtain ⟨hf, hnodup⟩ := List.nodup_cons.1 hnodup
    obtain ⟨hfnew, hnew⟩ := List.forall_mem_cons.1 hnew
    obtain ⟨r', hinsert, hfile⟩ := Registry.insert_new hname hfnew
    -- no two files have one hash, so the others are still new after the first one
    have hother : ∀ g ∈ rest, r'.file? g.hash = none := by
      intro g hg
      rw [hfile, if_neg, hnew g hg]
      exact fun heq => hf (List.mem_map.2 ⟨g, hg, heq⟩)
    obtain ⟨hwarnings, hall⟩ := ih hnamed hnodup hother
    rw [registerAll_ok hinsert]
    refine ⟨hwarnings, fun hash g => (hall hash g).trans ?_⟩
    rw [hfile, List.mem_cons]
    -- the first file is found under its own hash, and another hash finds what it found before
    by_cases hhash : hash = f.hash
    · rw [if_pos hhash]
      constructor
      · rintro (hg | ⟨hg, rfl⟩)
        · exact .inr ⟨.inl (Option.some.inj hg).symm, Option.some.inj hg ▸ hhash.symm⟩
        · exact .inr ⟨.inr hg, rfl⟩
      · rintro (hg | ⟨rfl | hg, rfl⟩)
        · rw [hhash, hfnew] at hg
          cases hg
        · exact .inl rfl
        · exact .inr ⟨hg, rfl⟩
    · rw [if_neg hhash]
      constructor
      · exact Or.imp_right fun ⟨hg, heq⟩ => ⟨.inr hg, heq⟩
      · rintro (hg | ⟨rfl | hg, heq⟩)
        · exact .inl hg
        · exact absurd heq.symm hhash
        · exact .inr ⟨hg, heq⟩

/-- The files of a registry make up a registry with the same files. -/
theorem registerAll_files {r : Registry} (h : r.WellFormed) :
    (registerAll .empty r.files).2 = [] ∧
      ∀ hash, (registerAll .empty r.files).1.file? hash = r.file? hash := by
  have hnodup : (r.files.map (·.hash)).Nodup := by
    rw [h.keyed.hashes_files]
    exact r.entries.nodup_keys
  obtain ⟨hwarnings, hall⟩ := registerAll_new (r := .empty)
    (fun f hf => h.named f.hash f (h.keyed.mem_files.1 hf)) hnodup (fun _ _ => rfl)
  -- the registry was empty before, so what is found was registered
  refine ⟨hwarnings, fun hash => Option.ext fun f => (hall hash f).trans ?_⟩
  constructor
  · rintro (hnone | ⟨hf, rfl⟩)
    · cases hnone
    · exact h.keyed.mem_files.1 hf
  · intro hf
    obtain rfl := h.keyed.hash_eq hf
    exact .inr ⟨h.keyed.mem_files.2 hf, rfl⟩

end ProjectRecord

/-! ## Files of a block -/

namespace Block

/-- How many of the files of a block are not registered. -/
def missing (r : Registry) (b : Block) : Nat := (b.hashes.filter fun hash => (r.file? hash).isNone).length

/-- Those files that are registered are attached, in their order, and the others are counted. -/
theorem relinkEach_eq {b : Block} {r : Registry} (hr : r.Keyed) (hashes : List FileHash)
    (hnodup : (b.hashes ++ hashes).Nodup) :
    (b.relinkEach r hashes).1 = (hashes.filter fun hash => (r.file? hash).isNone).length ∧
      (b.relinkEach r hashes).2.1 = { b with files := b.files ++ hashes.filterMap r.file? } := by
  induction hashes generalizing b r with
  | nil => exact ⟨rfl, by rw [List.filterMap_nil, List.append_nil]; rfl⟩
  | cons hash rest ih =>
    have hnew : hash ∉ b.hashes := fun hmem =>
      (List.nodup_append.1 hnodup).2.2 hash hmem hash List.mem_cons_self rfl
    -- a file that the registry lacks is counted and left out; any other is attached, which changes no file of the
    -- registry
    cases hfile : r.file? hash with
    | none =>
      have hrest : (b.hashes ++ rest).Nodup :=
        hnodup.sublist (List.Sublist.append_left (List.sublist_cons_self hash rest) _)
      obtain ⟨hcount, hblock⟩ := ih hr hrest
      rw [relinkEach, attach_missing hnew hfile]
      refine ⟨?_, ?_⟩
      · rw [List.filter_cons_of_pos (by rw [hfile]; rfl), List.length_cons]
        exact congrArg (· + 1) hcount
      · rw [List.filterMap_cons_none hfile]
        exact hblock
    | some file =>
      obtain ⟨r', hattach⟩ := attach_registered hnew hfile
      have hsame := file?_attach hattach
      have hrest : (Block.hashes { b with files := b.files ++ [file] } ++ rest).Nodup := by
        rw [hashes_append_file hr hfile, List.append_assoc]
        exact hnodup
      obtain ⟨hcount, hblock⟩ := ih (hr.of_file? hsame) hrest
      rw [relinkEach, hattach]
      rw [funext hsame] at hblock
      refine ⟨?_, ?_⟩
      · rw [List.filter_cons_of_neg (by rw [hfile]; exact Bool.false_ne_true)]
        exact hcount.trans (congrArg List.length (List.filter_congr fun other _ => by rw [hsame]))
      · rw [List.filterMap_cons_some hfile]
        refine hblock.trans ?_
        simp only [List.append_assoc, List.singleton_append]

/-- The files that are registered, told by their hashes. -/
theorem hashes_filterMap {r : Registry} (hr : r.Keyed) (hashes : List FileHash) :
    (hashes.filterMap r.file?).map (·.hash) = hashes.filter fun hash => (r.file? hash).isSome := by
  induction hashes with
  | nil => rfl
  | cons hash rest ih =>
    cases hfile : r.file? hash with
    | none =>
      rw [List.filterMap_cons_none hfile, ih, List.filter_cons_of_neg]
      rw [hfile]
      exact Bool.false_ne_true
    | some file =>
      rw [List.filterMap_cons_some hfile, List.map_cons, ih, hr.hash_eq hfile, List.filter_cons_of_pos]
      rw [hfile]
      rfl

end Block

/-! ## Compile states -/

/-- Whether the artifacts of a block are for a toolchain, as far as both are known. -/
def Block.SuitsToolchain (toolchain : Option String) (b : Block) : Prop :=
  ∀ s fingerprint, b.state.store? = some s → s.toolchain = some fingerprint →
    toolchain = none ∨ toolchain = some fingerprint

namespace BlockRecord

variable {b : Block} {toolchain : Option String}

/-- The artifacts of a storable block are read back for the toolchain that they suit. -/
theorem store?_stored (h : b.Storable) (ht : b.SuitsToolchain toolchain) {s : ArtifactStore}
    (hstored : b.state.store? = some s) : (ofBlock b).store? toolchain = .ok s := by
  -- the gate is passed: no toolchain to compare, or the same
  have hbuilt : s.builtBy toolchain = .ok s := by
    unfold ArtifactStore.builtBy
    split
    · next fingerprint current hfingerprint =>
      rcases ht s fingerprint hstored hfingerprint with hnone | hsame
      · cases hnone
      · rw [if_pos (Option.some.inj hsame).symm]
    · rfl
  rw [store?_ofBlock h, hstored]
  show (s.builtBy toolchain).mapError DiscardReason.blob = .ok s
  rw [hbuilt]
  rfl

/-- With artifacts, the state is restored with what they tell of the attempt. -/
theorem stateOf_stored (h : b.Storable) (ht : b.SuitsToolchain toolchain) {s : ArtifactStore}
    {primary : Artifact} (hstored : b.state.store? = some s) (hprimary : s.get? b.artifactName = some primary)
    (failed : Bool) : (ofBlock b).stateOf failed toolchain = .ok
      (if failed then .failed { attempt b.artifactName primary.source s with message := errorTrailer } [] (some s)
      else .compiled (attempt b.artifactName primary.source s) s) :=
  stateOf_of_store? rfl (store?_stored h ht hstored) hprimary failed

/-- Without artifacts there is nothing to restore a state from. -/
theorem stateOf_nothing (hstored : b.state.store? = none) (failed : Bool) :
    (ofBlock b).stateOf failed toolchain = .error .nothingStored := by
  have hname : ¬ (ofBlock b).artifactName ≠ (ofBlock b).id.artifactName := fun hne => hne rfl
  have hblob : (ofBlock b).blob = none := by
    show b.state.store?.map _ = none
    rw [hstored]
    rfl
  rw [stateOf, if_neg hname, store?, hblob]

/-- The record of a block has its status. -/
theorem state_ofStatus (b : Block) (toolchain : Option String) :
    (ofBlock b).state toolchain = match b.status with
      | .notCompiled => .ok .uncompiled
      | .success => (ofBlock b).stateOf false toolchain
      | .error => (ofBlock b).stateOf true toolchain := by
  unfold state
  rw [show (ofBlock b).status = b.status.ordinal from rfl, CompileStatus.ofOrdinal?_ordinal]
  rfl

end BlockRecord

/-! ## Blocks -/

namespace Block

/-- The warnings that a block gives when it is stored and loaded. -/
def lossWarnings (r : Registry) (b : Block) : List LoadWarning :=
  (if b.missing r = 0 then [] else [.missingFiles (.missingFiles b.id (b.missing r))]) ++
    if b.status = .error ∧ b.state.store? = none then [.artifactsDiscarded b.id .nothingStored] else []

/-- What a block comes back as when it is stored and loaded with a registry. -/
structure Reloaded (r : Registry) (b b' : Block) : Prop where
  id : b'.id = b.id
  fragments : b'.fragments = b.fragments
  shape : b'.shape = b.shape
  run : b'.run = none
  /-- The files are what the registry has for the hashes. -/
  files : b'.files = b.hashes.filterMap r.file?
  hashes : b'.hashes = b.hashes.filter fun hash => (r.file? hash).isSome
  /-- If the registry has the files as they are attached, they are the same. -/
  same : (∀ f ∈ b.files, r.file? f.hash = some f) → b'.files = b.files
  store : b'.state.store? = b.state.store?
  status : b'.status = if b.status = .error ∧ b.state.store? = none then .notCompiled else b.status
  /-- The record is read off the artifacts. -/
  record : ∀ s, b.state.store? = some s → ∃ primary record, s.get? b.artifactName = some primary ∧
    b'.state.record? = some record ∧ record.artifactName = b.artifactName ∧
    record.source = primary.source ∧ record.crates = s.auxiliaryNames b.artifactName
  noRecord : b.state.store? = none → b'.state.record? = none
  /-- A success whose record agrees with its artifacts is as stale as its files make it. -/
  staleness : ∀ record s primary, b.state = .compiled record s → s.get? b.artifactName = some primary →
    record.source = primary.source → record.crates = s.auxiliaryNames b.artifactName →
    b'.staleness = { b with files := b'.files }.staleness

variable {b : Block} {r : Registry} {toolchain : Option String}

/-- If all files of a block are registered, they are the ones that are found. -/
theorem filterMap_file? (h : ∀ f ∈ b.files, r.file? f.hash = some f) : b.hashes.filterMap r.file? = b.files := by
  unfold hashes
  generalize b.files = files at h
  induction files with
  | nil => rfl
  | cons f rest ih =>
    obtain ⟨hf, hrest⟩ := List.forall_mem_cons.1 h
    rw [List.map_cons, List.filterMap_cons_some hf, ih hrest]

/-- The files of a stored block are attached again, and those that are missing are counted. -/
theorem relink_ofBlock (hb : b.hashes.Nodup) (hr : r.Keyed) :
    ((BlockRecord.ofBlock b).plain.relink r b.hashes).1
        = (if b.missing r = 0 then .ok () else .error (.missingFiles b.id (b.missing r))) ∧
      ((BlockRecord.ofBlock b).plain.relink r b.hashes).2.1
        = { (BlockRecord.ofBlock b).plain with files := b.hashes.filterMap r.file? } := by
  obtain ⟨hcount, hblock⟩ := relinkEach_eq (b := (BlockRecord.ofBlock b).plain) hr b.hashes hb
  refine ⟨?_, hblock⟩
  show (if ((BlockRecord.ofBlock b).plain.relinkEach r b.hashes).1 = 0 then Except.ok ()
    else .error (RegistryError.missingFiles ((BlockRecord.ofBlock b).plain.relinkEach r b.hashes).2.1.id _))
      = _
  rw [hcount, hblock]
  rfl

/-- How the compile state of a block with an artifact name is changed by storing and loading it. -/
inductive Reloads (name : String) : CompileState → CompileState → Prop where
  | uncompiled : Reloads name .uncompiled .uncompiled
  | compiled {record s primary} (hprimary : s.get? name = some primary) :
      Reloads name (.compiled record s) (.compiled (BlockRecord.attempt name primary.source s) s)
  | failed {record diagnostics s primary} (hprimary : s.get? name = some primary) :
      Reloads name (.failed record diagnostics (some s))
        (.failed { BlockRecord.attempt name primary.source s with message := errorTrailer } [] (some s))
  /-- Nothing is known of a failure that has no artifacts. -/
  | lost {record diagnostics} : Reloads name (.failed record diagnostics none) .uncompiled

namespace Reloads

variable {name : String} {before after : CompileState}

theorem store? (h : Reloads name before after) : after.store? = before.store? := by
  cases h <;> rfl

theorem status (h : Reloads name before after) : after.status
    = if before.status = .error ∧ before.store? = none then .notCompiled else before.status := by
  cases h <;> rfl

/-- The record that is read back names what the artifacts are of. -/
theorem record (h : Reloads name before after) {s : ArtifactStore} (hs : before.store? = some s) :
    ∃ primary record, s.get? name = some primary ∧ after.record? = some record ∧
      record.artifactName = name ∧ record.source = primary.source ∧ record.crates = s.auxiliaryNames name := by
  cases h with
  | uncompiled => cases hs
  | compiled hprimary =>
    cases hs
    exact ⟨_, _, hprimary, rfl, rfl, rfl, rfl⟩
  | failed hprimary =>
    cases hs
    exact ⟨_, _, hprimary, rfl, rfl, rfl, rfl⟩
  | lost => cases hs

theorem noRecord (h : Reloads name before after) (hs : before.store? = none) : after.record? = none := by
  cases h with
  | uncompiled => rfl
  | compiled => cases hs
  | failed => cases hs
  | lost => rfl

end Reloads

/-- A block that failed and holds nothing cannot be reloaded; every other state can, to one that tells the same. -/
theorem exists_reloads (hb : b.WellFormed) (hs : b.Storable) (ht : b.SuitsToolchain toolchain) :
    ((b.status = .error ∧ b.state.store? = none) ∧ Reloads b.artifactName b.state .uncompiled ∧
      (BlockRecord.ofBlock b).state toolchain = .error .nothingStored) ∨
    ∃ state, ¬ (b.status = .error ∧ b.state.store? = none) ∧ Reloads b.artifactName b.state state ∧
      (BlockRecord.ofBlock b).state toolchain = .ok state := by
  rw [BlockRecord.state_ofStatus, status]
  cases hstate : b.state with
  | uncompiled => exact .inr ⟨.uncompiled, (by rintro ⟨⟨⟩, -⟩), .uncompiled, rfl⟩
  | compiled record s =>
    have hstored : b.state.store? = some s := by rw [hstate]; rfl
    obtain ⟨primary, hprimary⟩ := hb.primary s hstored
    exact .inr ⟨_, (by rintro ⟨⟨⟩, -⟩), .compiled hprimary,
      BlockRecord.stateOf_stored hs ht hstored hprimary false⟩
  -- the record of a failure comes back with its artifacts, or not at all
  | failed record diagnostics retained =>
    cases retained with
    | none =>
      have hstored : b.state.store? = none := by rw [hstate]; rfl
      exact .inl ⟨⟨rfl, rfl⟩, .lost, BlockRecord.stateOf_nothing hstored true⟩
    | some s =>
      have hstored : b.state.store? = some s := by rw [hstate]; rfl
      obtain ⟨primary, hprimary⟩ := hb.primary s hstored
      exact .inr ⟨_, (by rintro ⟨-, ⟨⟩⟩), .failed hprimary,
        BlockRecord.stateOf_stored hs ht hstored hprimary true⟩

/-- The message of a record does not count for the staleness. -/
theorem staleness_eq_of_record {b' c : Block} {record record' : CompileRecord}
    (hrecord : c.state.record? = some record) (hrecord' : b'.state.record? = some record')
    (hfragments : b'.fragments = c.fragments) (hshape : b'.shape = c.shape) (hfiles : b'.files = c.files)
    (hname : record'.artifactName = record.artifactName) (hsource : record'.source = record.source)
    (hcrates : record'.crates = record.crates) : b'.staleness = c.staleness := by
  unfold staleness Staleness.check crates
  rw [hrecord, hrecord', hfragments, hshape, hfiles]
  show Staleness.ofRecord _ _ _ record' = Staleness.ofRecord _ _ _ record
  unfold Staleness.ofRecord
  rw [hname, hsource, hcrates]

/-- What a stored block comes back as, told by its files and its state. -/
theorem reloaded_of_reloads (hb : b.WellFormed) (hr : r.Keyed) {state : CompileState}
    (h : Reloads b.artifactName b.state state) :
    b.Reloaded r { (BlockRecord.ofBlock b).plain with files := b.hashes.filterMap r.file?, state } where
  id := rfl
  fragments := rfl
  shape := rfl
  run := rfl
  files := rfl
  hashes := hashes_filterMap hr b.hashes
  same := filterMap_file?
  store := h.store?
  status := h.status
  record := fun _ hs => h.record hs
  noRecord := h.noRecord
  staleness := by
    intro record s primary hcompiled hprimary hsource hcrates
    have hstored : b.state.store? = some s := by rw [hcompiled]; rfl
    have hnamed := hb.named record (by rw [hcompiled]; rfl)
    -- what is reloaded is told by the primary artifact, and so was the record that it is compared with
    obtain ⟨primary', record', hprimary', hrecord', hname', hsource', hcrates'⟩ := h.record hstored
    obtain rfl : primary = primary' := Option.some.inj (hprimary.symm.trans hprimary')
    exact staleness_eq_of_record (c := { b with files := b.hashes.filterMap r.file? })
      (by rw [hcompiled]; rfl) hrecord' rfl rfl rfl (hname'.trans hnamed.symm) (hsource'.trans hsource.symm)
      (hcrates'.trans hcrates.symm)

end Block

/-! ## Projects -/

namespace BlockRecord

/-- The warning for files that could not be attached again. -/
def linkWarnings : Except RegistryError Unit → List LoadWarning
  | .ok _ => []
  | .error e => [.missingFiles e]

/-- The warning for artifacts that could not be restored. -/
def stateWarnings (id : BlockId) : Except DiscardReason CompileState → List LoadWarning
  | .ok _ => []
  | .error reason => [.artifactsDiscarded id reason]

/-- First the warning about files, and then the one about the state. -/
theorem warnings_restore (r : BlockRecord) (registry : Registry) (toolchain : Option String) :
    (r.restore registry toolchain).2.2
      = linkWarnings (r.plain.relink registry r.hashes).1 ++ stateWarnings r.id (r.state toolchain) := by
  unfold restore
  cases r.state toolchain with
  | ok state => exact (List.append_nil _).symm
  | error reason => rfl

/-- A block that was stored comes back, with the warnings for what is lost. -/
theorem reloaded_restore {b : Block} (hb : b.WellFormed) (hs : b.Storable) {toolchain : Option String}
    (ht : b.SuitsToolchain toolchain) {r : Registry} (hr : r.Keyed) :
    b.Reloaded r ((ofBlock b).restore r toolchain).1 ∧
      ((ofBlock b).restore r toolchain).2.2 = b.lossWarnings r := by
  obtain ⟨hmissing, hfiles⟩ := Block.relink_ofBlock hb.hashes hr
  -- a warning about files just if some are missing
  have hunlinked : linkWarnings ((ofBlock b).plain.relink r b.hashes).1
      = if b.missing r = 0 then [] else [.missingFiles (.missingFiles b.id (b.missing r))] := by
    rw [hmissing]
    split <;> rfl
  rw [((ofBlock b).restore_eq r toolchain).2, warnings_restore, Block.lossWarnings,
    show (ofBlock b).hashes = b.hashes from rfl, hunlinked, hfiles]
  -- the artifacts are lost, with a warning, or kept without one
  rcases Block.exists_reloads hb hs ht with ⟨hlost, hreloads, hstate⟩ | ⟨state, hkept, hreloads, hstate⟩
  · rw [hstate, if_pos hlost]
    exact ⟨Block.reloaded_of_reloads hb hr hreloads, rfl⟩
  · rw [hstate, if_neg hkept]
    exact ⟨Block.reloaded_of_reloads hb hr hreloads, rfl⟩

end BlockRecord

/-- What a block comes back as depends on the files of the registry alone. -/
theorem Block.Reloaded.of_file? {r r' : Registry} {b b' : Block} (h : b.Reloaded r b')
    (hsame : r.file? = r'.file?) : b.Reloaded r' b' where
  id := h.id
  fragments := h.fragments
  shape := h.shape
  run := h.run
  files := hsame ▸ h.files
  hashes := hsame ▸ h.hashes
  same := hsame ▸ h.same
  store := h.store
  status := h.status
  record := h.record
  noRecord := h.noRecord
  staleness := h.staleness

/-- Stored blocks come back in order, each with its warnings. -/
theorem ProjectRecord.reloaded_restoreAll {r r' : Registry} (hr : r.Keyed) (hsame : r.file? = r'.file?)
    {toolchain : Option String} {blocks : List Block}
    (h : ∀ b ∈ blocks, b.WellFormed ∧ b.Storable ∧ b.SuitsToolchain toolchain) :
    List.Forall₂ (Block.Reloaded r') blocks (restoreAll r toolchain (blocks.map .ofBlock)).1 ∧
      (restoreAll r toolchain (blocks.map .ofBlock)).2.2 = blocks.flatMap (Block.lossWarnings r') := by
  induction blocks generalizing r with
  | nil => exact ⟨.nil, rfl⟩
  | cons b rest ih =>
    obtain ⟨⟨hb, hs, ht⟩, hrest⟩ := List.forall_mem_cons.1 h
    -- the later blocks find the same files
    have hkept := (BlockRecord.ofBlock b).file?_restore r toolchain
    obtain ⟨hreloaded, hwarnings⟩ := BlockRecord.reloaded_restore hb hs ht hr
    obtain ⟨hblocks, hothers⟩ := ih (hr.of_file? hkept) ((funext hkept).trans hsame) hrest
    have hloss : b.lossWarnings r = b.lossWarnings r' := by
      unfold Block.lossWarnings Block.missing
      rw [hsame]
    refine ⟨.cons (hreloaded.of_file? hsame) hblocks, ?_⟩
    rw [List.flatMap_cons, ← hloss, ← hwarnings, ← hothers]
    rfl

namespace Project

variable {p : Project}

/-- A project that the library has made comes back when it is stored and loaded: with its files, and with
its blocks in order. The warnings tell what is lost, block by block. -/
theorem Reachable.exists_reloaded (h : p.Reachable) (hs : p.Storable) {toolchain : Option String}
    (ht : ∀ b ∈ p.blocks, b.SuitsToolchain toolchain) :
    ∃ q, ofText p.text toolchain = .ok (q, p.blocks.flatMap (Block.lossWarnings p.registry)) ∧
      q.registry.files = p.registry.files ∧ (∀ hash, q.registry.get hash = p.registry.get hash) ∧
      List.Forall₂ (Block.Reloaded p.registry) p.blocks q.blocks := by
  have hwell := h.wellFormed
  obtain ⟨hskipped, hfiles⟩ := ProjectRecord.registerAll_files hwell.registry
  have hregistered : (ProjectRecord.registerAll .empty p.registry.files).1.Keyed :=
    (ProjectRecord.registerAll_wellFormed .empty p.registry.files).keyed
  obtain ⟨hblocks, hwarnings⟩ := ProjectRecord.reloaded_restoreAll hregistered (funext hfiles)
    fun b hb => ⟨hwell.blocks b hb, hs b hb, ht b hb⟩
  -- the registry comes back first, from the files alone, and linking the blocks changes no file of it
  let q := ((ProjectRecord.ofProject p).project toolchain).1
  have hsame : ∀ hash, q.registry.file? hash = p.registry.file? hash := fun hash =>
    (ProjectRecord.file?_restoreAll _ toolchain (p.blocks.map .ofBlock) hash).trans (hfiles hash)
  refine ⟨q, ?_, Registry.files_eq hsame, fun hash => ?_, hblocks⟩
  · rw [ofText_text hs, ← hwarnings]
    show Except.ok (q, (ProjectRecord.registerAll .empty p.registry.files).2 ++ _) = _
    rw [hskipped]
    rfl
  · rw [Registry.get_eq, Registry.get_eq, hsame]

end Project

/-! ## A stored success -/

/-- A store with one small artifact, which was built by `c`. -/
def ArtifactStore.small : ArtifactStore := (ArtifactStore.empty (some "c")).put "unit_b" ⟨.primary, [0], "fn"⟩

/-- A block that was compiled to it. -/
def Block.small : Block :=
  { id := "b", fragments := {}, shape := .standard, state := .compiled ⟨"unit_b", "fn", ∅, ""⟩ .small }

/-- A store with one artifact can be stored if that artifact and the fingerprint can. -/
theorem ArtifactStore.storable_put_empty {fingerprint name : String} {a : Artifact}
    (hfingerprint : (Text.Utf8.encode fingerprint).length < BigEndian.capacity 4) (ha : a.Storable name) :
    ((ArtifactStore.empty (some fingerprint)).put name a).Storable where
  size := show 1 < BigEndian.capacity 4 by decide
  toolchain := by
    rintro t ⟨⟩
    exact hfingerprint
  artifacts := by
    show ∀ e ∈ [(name, a)], e.2.Storable e.1
    exact List.forall_mem_singleton.2 ha

theorem ArtifactStore.storable_small : ArtifactStore.small.Storable :=
  storable_put_empty (by decide) ⟨by decide, by decide, by decide⟩

theorem SignalShape.storable_standard : SignalShape.standard.Storable :=
  ⟨by decide, by decide, fun _ h => nomatch h⟩

/-- A block of the standard shape that holds the small store can be stored. -/
theorem Block.storable_of_small {b : Block} (hshape : b.shape = .standard)
    (hstore : b.state.store? = some .small) : b.Storable := by
  refine ⟨hshape ▸ SignalShape.storable_standard, fun s hs => ?_⟩
  obtain rfl := Option.some.inj (hstore.symm.trans hs)
  exact ArtifactStore.storable_small

theorem Block.wellFormed_small : Block.small.WellFormed where
  hashes := List.Pairwise.nil
  primary := by
    rintro s ⟨⟩
    exact ⟨⟨.primary, [0], "fn"⟩, by decide⟩
  named := by
    rintro record ⟨⟩
    decide

namespace Project

/-- A block without files comes back alone. -/
theorem exists_ofText_single {b : Block} (hb : b.Storable) (hfiles : b.files = [])
    (toolchain : Option String) : ∃ warnings, ofText (Project.text ⟨.empty, [b]⟩) toolchain
      = .ok (⟨.empty, [((BlockRecord.ofBlock b).restore .empty toolchain).1]⟩, warnings) := by
  have hstorable : Project.Storable ⟨.empty, [b]⟩ := List.forall_mem_singleton.2 hb
  have hregistry : ((BlockRecord.ofBlock b).restore .empty toolchain).2.1 = .empty := by
    rw [((BlockRecord.ofBlock b).restore_eq .empty toolchain).1,
      show (BlockRecord.ofBlock b).hashes = [] by rw [BlockRecord.ofBlock, Block.hashes, hfiles]; rfl]
    rfl
  have hproject : ((ProjectRecord.ofProject ⟨.empty, [b]⟩).project toolchain).1
      = ⟨((BlockRecord.ofBlock b).restore .empty toolchain).2.1,
        [((BlockRecord.ofBlock b).restore .empty toolchain).1]⟩ := rfl
  rw [hregistry] at hproject
  exact ⟨_, (ofText_text hstorable toolchain).trans (congrArg Except.ok (Prod.ext hproject rfl))⟩

/-- The small block is loaded from a project file. -/
theorem exists_loaded_small : ∃ b, Reachable ⟨.empty, [b]⟩ ∧ Block.small.Reloaded .empty b := by
  have hstorable : Block.small.Storable := Block.storable_of_small rfl rfl
  have hsuits : Block.small.SuitsToolchain none := fun _ _ _ _ => .inl rfl
  obtain ⟨hreloaded, -⟩ :=
    BlockRecord.reloaded_restore Block.wellFormed_small hstorable hsuits Registry.Keyed.empty
  obtain ⟨warnings, htext⟩ := exists_ofText_single hstorable rfl none
  exact ⟨_, .load htext, hreloaded⟩

/-- A block is loaded with its artifacts, and a file is attached to it. This project comes back. -/
theorem exists_reloaded_small : ∃ p : Project, p.Reachable ∧ p.Storable ∧
    (∀ b ∈ p.blocks, b.SuitsToolchain (some "c")) ∧
    (∃ b ∈ p.blocks, b.status = .success ∧ b.files ≠ []) ∧
    ∃ q warnings, ofText p.text (some "c") = .ok (q, warnings) ∧ q.registry.files = p.registry.files ∧
      List.Forall₂ (Block.Reloaded p.registry) p.blocks q.blocks := by
  obtain ⟨b, hloaded, hb⟩ := exists_loaded_small
  let f : AuxiliaryFile := ⟨"u.rs", "A"⟩
  -- a file is registered and then attached to the block, which is stale with it
  have hinserted : Reachable ⟨.single f ∅, [b]⟩ := hloaded.insert (Registry.insert_empty (by decide))
  have hattached : b.perform (.single f ∅) (.attach f.hash)
      = ({ b with files := [f] }, .single f (SortedMap.insert ∅ b.id ())) := by
    rw [Block.perform, Block.attach_single hb.files f]
    rfl
  have hreachable : Reachable ⟨.single f (SortedMap.insert ∅ b.id ()), [{ b with files := [f] }]⟩ := by
    have hgenuine : Block.Operation.Genuine (.attach f.hash) := trivial
    have hstep := hinserted.operate (i := 0) (b := b) rfl hgenuine
    rw [hattached] at hstep
    exact hstep
  have hstore : b.state.store? = some .small := hb.store
  have hstatus : b.status = .success := hb.status
  have hstorable : Project.Storable ⟨.single f (SortedMap.insert ∅ b.id ()), [{ b with files := [f] }]⟩ :=
    List.forall_mem_singleton.2 (Block.storable_of_small hb.shape hstore)
  have hsuits : ∀ c ∈ [{ b with files := [f] }], c.SuitsToolchain (some "c") := by
    rw [List.forall_mem_singleton]
    intro s fingerprint hs hfingerprint
    obtain rfl := Option.some.inj (hstore.symm.trans hs)
    exact .inr hfingerprint
  obtain ⟨q, hload, hfiles, -, hblocks⟩ := hreachable.exists_reloaded hstorable hsuits
  exact ⟨_, hreachable, hstorable, hsuits, ⟨_, List.mem_singleton_self _, hstatus, List.cons_ne_nil f []⟩,
    q, _, hload, hfiles, hblocks⟩

end Project

end CircuitBlocks
