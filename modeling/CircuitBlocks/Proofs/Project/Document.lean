import CircuitBlocks.Project.Document
import CircuitBlocks.Proofs.Artifact.Blob
import CircuitBlocks.Proofs.Block.Edit
import CircuitBlocks.Proofs.Hex
import CircuitBlocks.Proofs.Json.Building
import CircuitBlocks.Proofs.Registry
import CircuitBlocks.Proofs.Shape.Document
import Mathlib.Data.List.Forall2

/-!
# Project files — a project's text reads back

A project's text holds its record. What is not in the record is restored from it: the files of a block
by their hashes, and the last attempt from the stored artifacts.

* `Project.Storable` — the projects whose sizes and numbers have a format.
* **`Project.ofText_text`** — the text of a project gives the project of its record.
* `BlockRecord.restore_ofBlock` — what a block comes back as.
-/

namespace CircuitBlocks

open Json (limit32 limit64)

/-! ## Documents -/

/-- A file is read back from its document. -/
theorem AuxiliaryFile.ofDocument?_document (f : AuxiliaryFile) : ofDocument? f.document = some f := by
  have hfields : f.document.fields? ["name", "contents"]
      = some ⟨false, [("name", .text f.name), ("contents", .text f.contents)]⟩ :=
    Json.fields?_record (by simp) (show ["name", "contents"].Nodup by decide)
  rw [ofDocument?, hfields]
  simp [Json.Fields.required, Json.Fields.get?, List.lookup_cons]

theorem AuxiliaryFile.spelled_document (f : AuxiliaryFile) : Json.Spelled f.document := by
  refine Json.spelled_record ?_
  simp only [List.forall_mem_cons]
  exact ⟨Json.spelled_text _, Json.spelled_text _, fun _ h => nomatch h⟩

namespace BlockRecord

/-- A record whose numbers have a format. -/
structure Storable (r : BlockRecord) : Prop where
  shape : r.shape.Storable
  status : r.status ≤ limit32

/-- The fields of a record's document. -/
def members (r : BlockRecord) : List (String × Json) :=
  [("id", .text r.id), ("sourceCode", .text r.fragments.body),
    ("importsCode", .text r.fragments.imports), ("initCode", .text r.fragments.init),
    ("variablesCode", .text r.fragments.fields),
    ("extraSourceFiles", .array (r.hashes.map Json.text)), ("className", .text r.artifactName),
    ("CompileStatus", .natural r.status)] ++
  (r.blob.map fun blob => ("classMapBytes", Json.text blob)).toList ++
  [("signalShape", r.shape.document)]

theorem document_eq (r : BlockRecord) : r.document = .record r.members := rfl

/-- The fields come in their declared order; only the artifacts may be left out. -/
theorem names_members (r : BlockRecord) : (r.members.map (·.1)).Sublist fieldNames := by
  unfold members
  cases r.blob with
  | none =>
    show ["id", "sourceCode", "importsCode", "initCode", "variablesCode", "extraSourceFiles",
      "className", "CompileStatus", "signalShape"].Sublist fieldNames
    decide
  | some blob => exact List.Sublist.refl fieldNames

theorem fields?_document (r : BlockRecord) : r.document.fields? fieldNames = some ⟨false, r.members⟩ :=
  Json.fields?_record (fun _ hm => r.names_members.subset (List.mem_map_of_mem hm))
    (r.names_members.nodup (by decide))

/-- A storable block is read back from its document. -/
theorem ofDocument?_document {r : BlockRecord} (h : r.Storable) :
    ofDocument? r.document = some r := by
  rw [ofDocument?, fields?_document]
  obtain ⟨id, ⟨imports, fields, init, body⟩, hashes, artifactName, status, blob, shape⟩ := r
  have hhashes : Json.readList Json.readText (.array (hashes.map Json.text)) = some hashes :=
    Json.readList_map fun s _ => Json.readText_text s
  have hstatus : Json.readNatural limit32 (.natural status) = some status :=
    Json.readNatural_natural h.status
  have hshape : SignalShape.ofDocument? shape.document = some shape :=
    SignalShape.ofDocument?_document h.shape
  cases blob <;>
    simp [members, Json.Fields.required, Json.Fields.withDefault, Json.Fields.get?, List.lookup_cons,
      hhashes, hstatus, hshape]

theorem spelled_document (r : BlockRecord) : Json.Spelled r.document := by
  rw [document_eq]
  refine Json.spelled_record ?_
  unfold members
  simp only [List.forall_mem_append, List.forall_mem_cons, Option.mem_toList]
  refine ⟨⟨⟨Json.spelled_text _, Json.spelled_text _, Json.spelled_text _, Json.spelled_text _,
    Json.spelled_text _, .array ?_, Json.spelled_text _, Json.spelled_natural _, fun _ h => nomatch h⟩,
    ?_⟩, r.shape.spelled_document, fun _ h => nomatch h⟩
  · rw [List.forall_mem_map]
    exact fun s _ => Json.spelled_text s
  · intro m hm
    obtain ⟨blob, -, rfl⟩ := Option.map_eq_some_iff.1 hm
    exact Json.spelled_text blob

end BlockRecord

namespace ProjectRecord

/-- A project record whose numbers have a format. -/
structure Storable (r : ProjectRecord) : Prop where
  format : r.format ≤ limit32
  blocks : ∀ b ∈ r.blocks, b.Storable

/-- A storable project is read back from its document. -/
theorem ofDocument?_document {r : ProjectRecord} (h : r.Storable) :
    ofDocument? r.document = some r := by
  have hfields : r.document.fields? ["format", "files", "blocks"]
      = some ⟨false, [("format", .natural r.format),
        ("files", .array (r.files.map AuxiliaryFile.document)),
        ("blocks", .array (r.blocks.map BlockRecord.document))]⟩ :=
    Json.fields?_record (by simp) (show ["format", "files", "blocks"].Nodup by decide)
  have hfiles : Json.readList AuxiliaryFile.ofDocument?
      (.array (r.files.map AuxiliaryFile.document)) = some r.files :=
    Json.readList_map fun f _ => f.ofDocument?_document
  have hblocks : Json.readList BlockRecord.ofDocument?
      (.array (r.blocks.map BlockRecord.document)) = some r.blocks :=
    Json.readList_map fun b hb => BlockRecord.ofDocument?_document (h.blocks b hb)
  rw [ofDocument?, hfields]
  simp [Json.Fields.required, Json.Fields.withDefault, Json.Fields.get?, List.lookup_cons,
    Json.readNatural_natural h.format, hfiles, hblocks]

theorem spelled_document (r : ProjectRecord) : Json.Spelled r.document := by
  refine Json.spelled_record ?_
  simp only [List.forall_mem_cons]
  refine ⟨Json.spelled_natural _, .array ?_, .array ?_, fun _ h => nomatch h⟩
  · rw [List.forall_mem_map]
    exact fun f _ => f.spelled_document
  · rw [List.forall_mem_map]
    exact fun b _ => b.spelled_document

end ProjectRecord

/-! ## Texts -/

/-- A block whose sizes and numbers have a format. -/
structure Block.Storable (b : Block) : Prop where
  shape : b.shape.Storable
  store : ∀ s, b.state.store? = some s → s.Storable

/-- A project whose sizes and numbers have a format. -/
def Project.Storable (p : Project) : Prop := ∀ b ∈ p.blocks, b.Storable

theorem CompileStatus.ordinal_le (s : CompileStatus) : s.ordinal ≤ limit32 := by
  cases s <;> decide

/-- The record of a storable project can be stored. -/
theorem Project.Storable.record {p : Project} (h : p.Storable) :
    (ProjectRecord.ofProject p).Storable where
  format := by
    show projectFormat ≤ limit32
    decide
  blocks := by
    intro r hr
    obtain ⟨b, hb, rfl⟩ := List.mem_map.1 hr
    exact ⟨(h b hb).shape, b.status.ordinal_le⟩

/-- The text of a project gives the project of its record, if the numbers of the record have a format. -/
theorem Project.ofText_text_of_record {p : Project} (h : (ProjectRecord.ofProject p).Storable)
    (toolchain : Option String) :
    ofText p.text toolchain = .ok ((ProjectRecord.ofProject p).project toolchain) := by
  have hparse : Json.parse? p.text = some (ProjectRecord.ofProject p).document :=
    Json.parse?_pretty (ProjectRecord.ofProject p).spelled_document
  have hrecord : ProjectRecord.ofDocument? (ProjectRecord.ofProject p).document
      = some (ProjectRecord.ofProject p) := ProjectRecord.ofDocument?_document h
  have hformat : ¬ projectFormat < (ProjectRecord.ofProject p).format := Nat.lt_irrefl projectFormat
  unfold ofText
  rw [hparse, Option.bind_some, hrecord]
  exact if_neg hformat

/-- The text of a project gives the project of its record. -/
theorem Project.ofText_text {p : Project} (h : p.Storable) (toolchain : Option String) :
    ofText p.text toolchain = .ok ((ProjectRecord.ofProject p).project toolchain) :=
  ofText_text_of_record h.record toolchain

/-! ## Restored blocks -/

namespace BlockRecord

/-- What the state of a stored block comes back as: as not compiled, or as what its artifacts tell of
the attempt that built them. -/
def RestoredState (b : Block) (state : CompileState) : Prop :=
  state = .uncompiled ∨
  ∃ s primary message, b.state.store? = some s ∧ s.get? b.artifactName = some primary ∧
    state.store? = some s ∧
    state.record? = some { attempt b.artifactName primary.source s with message }

/-- A state is restored from a store that has the block's artifact, with what it tells of the attempt. -/
theorem stateOf_eq_ok {r : BlockRecord} {failed : Bool} {toolchain : Option String} {state : CompileState}
    (h : r.stateOf failed toolchain = .ok state) :
    r.artifactName = r.id.artifactName ∧ ∃ s primary message, r.store? toolchain = .ok s ∧
      s.get? r.artifactName = some primary ∧ state.store? = some s ∧
      state.record? = some { attempt r.artifactName primary.source s with message } := by
  unfold stateOf at h
  split at h
  · cases h
  · next hname =>
    split at h
    · cases h
    · next s hstore =>
      split at h
      · cases h
      · next primary hprimary =>
        refine ⟨Decidable.not_not.1 hname, s, primary, ?_⟩
        -- a success and a failure are made of the same artifacts
        cases failed <;>
        · cases h
          exact ⟨_, hstore, hprimary, rfl, rfl⟩

/-- A store that has the block's artifact gives a state, with what the artifact tells of the attempt. -/
theorem stateOf_of_store? {r : BlockRecord} {toolchain : Option String} {s : ArtifactStore} {primary : Artifact}
    (hname : r.artifactName = r.id.artifactName) (hstore : r.store? toolchain = .ok s)
    (hprimary : s.get? r.artifactName = some primary) (failed : Bool) : r.stateOf failed toolchain = .ok
      (if failed then .failed { attempt r.artifactName primary.source s with message := errorTrailer } [] (some s)
      else .compiled (attempt r.artifactName primary.source s) s) := by
  simp only [stateOf, if_neg (not_not_intro hname), hstore, hprimary]
  cases failed <;> rfl

/-- What is stored of a block is its store, unless that is for another toolchain. -/
theorem store?_ofBlock {b : Block} (h : b.Storable) (toolchain : Option String) :
    (ofBlock b).store? toolchain
      = match b.state.store? with
        | none => .error .nothingStored
        | some s => (s.builtBy toolchain).mapError .blob := by
  have hblob : (ofBlock b).blob = b.state.store?.map fun s => Hex.encode s.toBlob := rfl
  rw [store?, hblob]
  cases hstored : b.state.store? with
  | none => rfl
  | some s =>
    -- the bytes behind the hexadecimal text are the artifacts' own
    have hbytes : ArtifactStore.ofBytes s.toBlob (ofBlock b).artifactName = .ok s :=
      ArtifactStore.ofBytes_toBlob (h.store s hstored) _
    simp only [Option.map_some, Hex.decode?_encode, ArtifactStore.ofBlob, hbytes]
    cases s.builtBy toolchain <;> rfl

/-- What is restored from the record of a storable block is made up from the block's own store. -/
theorem stateOf_ofBlock {b : Block} (h : b.Storable) {failed : Bool} {toolchain : Option String}
    {state : CompileState} (hstate : (ofBlock b).stateOf failed toolchain = .ok state) :
    RestoredState b state := by
  obtain ⟨-, s, primary, message, hstore, hprimary, hheld, hrecord⟩ := stateOf_eq_ok hstate
  rw [store?_ofBlock h] at hstore
  cases hstored : b.state.store? with
  | none =>
    rw [hstored] at hstore
    cases hstore
  | some stored =>
    rw [hstored] at hstore
    change (stored.builtBy toolchain).mapError DiscardReason.blob = .ok s at hstore
    cases hbuilt : stored.builtBy toolchain with
    | error e =>
      rw [hbuilt] at hstore
      cases hstore
    | ok built =>
      rw [hbuilt] at hstore
      obtain rfl : built = s := Except.ok.inj hstore
      -- a fingerprint that fits changes nothing of the store
      rw [← ArtifactStore.builtBy_eq_ok hbuilt] at hstored
      exact .inr ⟨built, primary, message, hstored, hprimary, hheld, hrecord⟩

/-- A state that is read off the record of a block is what the block had. -/
theorem state_ofBlock {b : Block} (h : b.Storable) {toolchain : Option String} {state : CompileState}
    (hstate : (ofBlock b).state toolchain = .ok state) : RestoredState b state := by
  unfold BlockRecord.state at hstate
  split at hstate
  · cases hstate
    exact .inl rfl
  · exact stateOf_ofBlock h hstate
  · exact stateOf_ofBlock h hstate

end BlockRecord

/-- What a stored block comes back as. Its files are those of its hashes that are registered. -/
structure Block.Restored (b b' : Block) : Prop where
  id : b'.id = b.id
  fragments : b'.fragments = b.fragments
  shape : b'.shape = b.shape
  /-- A file that is attached again has the hash of one that was attached. -/
  files : ∀ f ∈ b'.files, ∃ g ∈ b.files, f.hash = g.hash
  run : b'.run = none
  state : BlockRecord.RestoredState b b'.state

namespace BlockRecord

/-- The block of a record before its files are attached and its artifacts restored. -/
def plain (r : BlockRecord) : Block := { id := r.id, fragments := r.fragments, shape := r.shape }

/-- The files are attached, which changes nothing else of the block, and then the state is put in. -/
theorem restore_eq (r : BlockRecord) (registry : Registry) (toolchain : Option String) :
    (r.restore registry toolchain).2.1 = (r.plain.relink registry r.hashes).2.2 ∧
    (r.restore registry toolchain).1 = match r.state toolchain with
      | .ok state => { (r.plain.relink registry r.hashes).2.1 with state }
      | .error _ => (r.plain.relink registry r.hashes).2.1 := by
  unfold restore
  cases r.state toolchain <;> exact ⟨rfl, rfl⟩

theorem file?_restore (r : BlockRecord) (registry : Registry) (toolchain : Option String)
    (hash : FileHash) : (r.restore registry toolchain).2.1.file? hash = registry.file? hash := by
  rw [(r.restore_eq registry toolchain).1]
  exact r.plain.file?_relinkEach registry r.hashes hash

/-- A block is restored from its own record. -/
theorem restore_ofBlock {b : Block} (h : b.Storable) {r : Registry} (hr : r.Keyed)
    (toolchain : Option String) : b.Restored ((ofBlock b).restore r toolchain).1 := by
  have hlinked := (ofBlock b).plain.relink_sameButFiles r b.hashes
  have hfiles : ∀ f ∈ ((ofBlock b).plain.relink r b.hashes).2.1.files, ∃ g ∈ b.files, f.hash = g.hash := by
    intro f hf
    rcases ((ofBlock b).plain.relink_keyed hr b.hashes).2 f hf with hf | hf
    · cases hf
    · obtain ⟨g, hg, heq⟩ := List.mem_map.1 hf
      exact ⟨g, hg, heq.symm⟩
  rw [((ofBlock b).restore_eq r toolchain).2]
  show b.Restored (match (ofBlock b).state toolchain with
    | .ok state => { ((ofBlock b).plain.relink r b.hashes).2.1 with state }
    | .error _ => ((ofBlock b).plain.relink r b.hashes).2.1)
  -- what the links are does not matter to the state
  generalize ((ofBlock b).plain.relink r b.hashes).2.1 = linked at hlinked hfiles
  rw [hlinked]
  cases hstate : (ofBlock b).state toolchain with
  | error reason => exact ⟨rfl, rfl, rfl, hfiles, rfl, .inl rfl⟩
  | ok state => exact ⟨rfl, rfl, rfl, hfiles, rfl, state_ofBlock h hstate⟩

end BlockRecord

namespace ProjectRecord

/-- Each record gives one block, in order, with the registry as it is then. -/
theorem forall₂_restoreAll (r : Registry) (toolchain : Option String) (records : List BlockRecord) :
    List.Forall₂ (fun record b => ∃ registry, b = (record.restore registry toolchain).1) records
      (restoreAll r toolchain records).1 := by
  induction records generalizing r with
  | nil => exact .nil
  | cons record rest ih => exact .cons ⟨r, rfl⟩ (ih _)

theorem registerAll_cons (r : Registry) (f : AuxiliaryFile) (rest : List AuxiliaryFile) :
    registerAll r (f :: rest) = match r.insert f with
      | .ok (_, r) => registerAll r rest
      | .error e => ((registerAll r rest).1, .fileSkipped e :: (registerAll r rest).2) := (rfl)

theorem registerAll_ok {r r' : Registry} {f : AuxiliaryFile} {hash : FileHash}
    (h : r.insert f = .ok (hash, r')) (rest : List AuxiliaryFile) :
    registerAll r (f :: rest) = registerAll r' rest := by
  rw [registerAll_cons, h]

/-- A file that is refused leaves the registry as it is. -/
theorem registerAll_error {r : Registry} {f : AuxiliaryFile} {e : RegistryError}
    (h : r.insert f = .error e) (rest : List AuxiliaryFile) :
    registerAll r (f :: rest) = ((registerAll r rest).1, .fileSkipped e :: (registerAll r rest).2) := by
  rw [registerAll_cons, h]

theorem registerAll_wellFormed {r : Registry} (h : r.WellFormed) (files : List AuxiliaryFile) :
    (registerAll r files).1.WellFormed := by
  induction files generalizing r with
  | nil => exact h
  | cons f rest ih =>
    cases hinsert : r.insert f with
    | error e =>
      rw [registerAll_error hinsert]
      exact ih h
    | ok inserted =>
      rw [registerAll_ok hinsert]
      exact ih (h.insert hinsert)

end ProjectRecord

/-- The blocks of a stored project come back in order. -/
theorem Project.restored_of_ofText {p q : Project} {toolchain : Option String}
    {warnings : List LoadWarning} (h : p.Storable)
    (hload : ofText p.text toolchain = .ok (q, warnings)) :
    List.Forall₂ Block.Restored p.blocks q.blocks := by
  -- restoring one block changes the registry for the next ones
  have hall : ∀ (blocks : List Block) (r : Registry), r.Keyed → (∀ b ∈ blocks, b.Storable) →
      List.Forall₂ Block.Restored blocks
        (ProjectRecord.restoreAll r toolchain (blocks.map .ofBlock)).1 := by
    intro blocks
    induction blocks with
    | nil => exact fun _ _ _ => .nil
    | cons b bs ih =>
      intro r hr hblocks
      have hb := BlockRecord.restore_ofBlock (hblocks b List.mem_cons_self) hr toolchain
      have hkeyed := hr.of_file? ((BlockRecord.ofBlock b).file?_restore r toolchain)
      exact .cons hb (ih _ hkeyed fun c hc => hblocks c (List.mem_cons_of_mem _ hc))
  rw [ofText_text h] at hload
  cases hload
  exact hall p.blocks _ (ProjectRecord.registerAll_wellFormed .empty _).keyed h

end CircuitBlocks
