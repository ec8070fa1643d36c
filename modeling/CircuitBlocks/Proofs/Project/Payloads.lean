import CircuitBlocks.Proofs.Block.Unbuilt
import CircuitBlocks.Proofs.Project.Damage

/-!
# Maps of payloads in project files — old successes are kept, and compiled anew

A record may store its artifacts in the older form, which knows no sources. Such a success is loaded with all its
artifacts, but the block does not run them: the source that its record tells is empty, so the block is stale
whatever its code is, and it takes an accepted compile to run it.

* `BlockRecord.RestoredFrom` — the block that comes of such a record.
* `ProjectRecord.getElem?_loaded` — where in a project file a record stands only decides on the registry.
* **`BlockRecord.restored_of_payloads`** — maps of payloads are read without loss, and never run as they are.
-/

namespace CircuitBlocks

open BigEndian (capacity)
open Text (Utf8.encode)

variable {entries : List (String × List UInt8)}

namespace BlockRecord

/-- What comes of a record of a success whose artifacts are a map of payloads: a block with the code and the ports
of the record, whose success holds just those payloads, and that is not run without a compile. -/
structure RestoredFrom (r : BlockRecord) (entries : List (String × List UInt8)) (b : Block) : Prop where
  id : b.id = r.id
  fragments : b.fragments = r.fragments
  shape : b.shape = r.shape
  success : b.status = .success
  store : ∃ s, b.state.store? = some s ∧ s.HasPayloads r.artifactName entries
  stale : ∀ fragments shape files, { b with fragments, shape, files }.staleness = .sourceChanged
  refused : ∀ context dt m, context.toolchain = none → (b.start context dt m).1 = .error .noToolchain
  compiled : ∀ context dt m, (b.start context dt m).1 = .ok () → ∃ t s diagnostics message,
    context.toolchain = some t ∧ (b.job.run t m).1 = .ok (.success s diagnostics message)
  accepted : ∀ ops, (b.performAll ops).run ≠ none → StoreEvent.Accepts (b.history ops)

/-- A block that has taken payloads without a source is restored from them. -/
theorem RestoredFrom.of_state {r : BlockRecord} {b : Block} {record : CompileRecord} {s : ArtifactStore}
    (hplain : b.id = r.id ∧ b.fragments = r.fragments ∧ b.shape = r.shape ∧ b.run = none)
    (hstate : b.state = .compiled record s) (hsource : record.source = "")
    (hs : s.HasPayloads r.artifactName entries) : r.RestoredFrom entries b := by
  obtain ⟨hid, hfragments, hshape, hrun⟩ := hplain
  have hstatus : b.state.status = .success := by rw [hstate]; rfl
  have hunbuilt : b.Unbuilt := by
    refine ⟨hrun, fun record' s' h => ?_⟩
    rw [hstate] at h
    cases h
    exact hsource
  -- no assembled unit is empty, so the source has changed whatever the block is edited to
  have hstale : ∀ fragments shape files, { b with fragments, shape, files }.staleness = .sourceChanged :=
    fun _ _ _ => Block.staleness_of_unbuilt hunbuilt.state hstatus
  refine ⟨hid, hfragments, hshape, hstatus, ⟨s, by rw [hstate]; rfl, hs⟩, hstale, fun context dt m ht => ?_,
    fun _ _ _ => hunbuilt.exists_success_of_start, fun _ => hunbuilt.exists_accepted⟩
  have hrequired : ({ b with run := none } : Block).staleness.recompileRequired = true := by
    rw [show ({ b with run := none } : Block).staleness = .sourceChanged from hstale _ _ _]
    rfl
  simp [Block.start, Block.prepare, ht, hrequired]

/-- Whatever the registry and the toolchain are, a record of a success is restored from its map of payloads. -/
theorem restoredFrom_restore (hnodup : (entries.map (·.1)).Nodup) {r : BlockRecord} {blob : String}
    {bytes : List UInt8} (hstatus : r.status = 1) (hname : r.artifactName = r.id.artifactName)
    (hblob : r.blob = some blob) (hbytes : Hex.decode? blob = some bytes) (hmap : HoldsMap bytes entries)
    (hprimary : r.artifactName ∈ entries.map (·.1)) (registry : Registry) (toolchain : Option String) :
    r.RestoredFrom entries (r.restore registry toolchain).1 := by
  obtain ⟨s, hs, hpayloads⟩ := ArtifactStore.exists_ofBlob_of_holdsMap hnodup hmap r.artifactName toolchain
  obtain ⟨⟨name, payload⟩, hentry, heq⟩ := List.mem_map.1 hprimary
  obtain rfl : name = r.artifactName := heq
  -- the payload of the block's own name is loadable, and has no source
  have hget : s.get? r.artifactName = some ⟨.primary, payload, ""⟩ :=
    (hpayloads.artifacts _ _).2 ⟨hentry, iff_of_true rfl List.prefix_rfl, rfl⟩
  have hstate : r.state toolchain = .ok (.compiled (attempt r.artifactName "" s) s) := by
    rw [state_eq, if_pos hstatus, stateOf_of_store? hname (store?_eq_ok.2 ⟨blob, bytes, hblob, hbytes, hs⟩) hget]
    rfl
  obtain ⟨files, hblock⟩ := r.exists_files_restore registry toolchain
  rw [hblock, hstate]
  exact .of_state ⟨rfl, rfl, rfl, rfl⟩ rfl rfl hpayloads

end BlockRecord

/-- What is loaded of a record is the block that is restored from it, with the registry as it is then. -/
theorem ProjectRecord.getElem?_loaded (registry : Registry) (toolchain : Option String) {records : List BlockRecord}
    {i : Nat} {record : BlockRecord} (h : records[i]? = some record) : ∃ registry' warnings,
      (loaded registry toolchain records)[i]? = some ((record.restore registry' toolchain).1, warnings) := by
  induction records generalizing registry i with
  | nil => cases h
  | cons first rest ih =>
    cases i with
    | zero =>
      obtain rfl : first = record := Option.some.inj h
      exact ⟨registry, _, rfl⟩
    | succ i => exact ih _ h

namespace BlockRecord

/-- **Maps of payloads are read without loss and never run as they are.** A map from names to payloads whose sizes
have a format is written as bytes that hold it. From bytes that hold a map of payloads, whatever the names are, a
store with just these artifacts is read, for every primary name and every toolchain. So a record of a success that
has such bytes, with an artifact of its block among them, gives the block a success with just these artifacts,
wherever in a project file it stands. The block is stale, whatever its code and its ports are, and it is not
started without a compile. -/
theorem restored_of_payloads (hnodup : (entries.map (·.1)).Nodup) :
    (entries.length < capacity 4 →
      (∀ e ∈ entries, (Utf8.encode e.1).length < capacity 4 ∧ e.2.length < capacity 4) →
      ∀ rest, HoldsMap ((MessagePack.payloads entries).encode ++ rest) entries) ∧
    (∀ bytes, HoldsMap bytes entries → ∀ primary current,
      ∃ s, ArtifactStore.ofBlob bytes primary current = .ok s ∧ s.HasPayloads primary entries) ∧
    ∀ (r : BlockRecord) (blob : String) (bytes : List UInt8), r.status = 1 → r.artifactName = r.id.artifactName →
      r.blob = some blob → Hex.decode? blob = some bytes → HoldsMap bytes entries →
      r.artifactName ∈ entries.map (·.1) → ∀ toolchain : Option String,
        (∀ registry, r.RestoredFrom entries (r.restore registry toolchain).1) ∧
        ∀ (text : String) (p : ProjectRecord) (i : Nat), ProjectRecord.ofText? text = some p →
          p.format ≤ projectFormat → p.blocks[i]? = some r → ∃ project warnings b,
            Project.ofText text toolchain = .ok (project, warnings) ∧ project.blocks[i]? = some b ∧
            r.RestoredFrom entries b := by
  refine ⟨holdsMap_encode, fun bytes hmap => ArtifactStore.exists_ofBlob_of_holdsMap hnodup hmap,
    fun r blob bytes hstatus hname hblob hbytes hmap hprimary toolchain => ?_⟩
  have hrestored := restoredFrom_restore hnodup hstatus hname hblob hbytes hmap hprimary
  refine ⟨fun registry => hrestored registry toolchain, fun text p i htext hformat hblock => ?_⟩
  -- the block of a record in a document is restored on its own, with the registry that has come about before it
  obtain ⟨registry, warnings, hloaded⟩ :=
    ProjectRecord.getElem?_loaded (ProjectRecord.registerAll .empty p.files).1 toolchain hblock
  refine ⟨_, _, _, Project.ofText_eq_loaded htext hformat toolchain, ?_, hrestored registry toolchain⟩
  rw [List.getElem?_map, hloaded]
  rfl

/-- A map of payloads with the names of an envelope's fields, and with an artifact of the block "b". -/
def envelopeNames : List (String × List UInt8) :=
  [("format", [2]), ("toolchain", [49]), ("artifacts", []), ("unit_b", [1, 2])]

/-- The map is not taken for an envelope, and its artifact of the block is not run. -/
theorem restored_of_payloads_envelopeNames : ∃ (r : BlockRecord) (b : Block) (s : ArtifactStore),
    (envelopeNames.map (·.1)).Nodup ∧ r.blob = some (Hex.encode (MessagePack.payloads envelopeNames).encode) ∧
    b = (r.restore .empty (some "rustc 1.80.0")).1 ∧ b.status = .success ∧ b.state.store? = some s ∧
    s.toolchain = none ∧ s.get? "format" = some ⟨.auxiliary, [2], ""⟩ ∧
    s.get? "unit_b" = some ⟨.primary, [1, 2], ""⟩ ∧ b.staleness = .sourceChanged ∧
    (b.start {} 0.5 (.willing [])).1 = .error .noToolchain := by
  have hnodup : (envelopeNames.map (·.1)).Nodup := by decide
  obtain ⟨hencode, -, hrestored⟩ := restored_of_payloads hnodup
  have hmap := hencode (by decide) (by decide) []
  rw [List.append_nil] at hmap
  obtain ⟨r, hr⟩ : ∃ r, r = storing (some (Hex.encode (MessagePack.payloads envelopeNames).encode)) := ⟨_, rfl⟩
  have hblob : r.blob = some (Hex.encode (MessagePack.payloads envelopeNames).encode) := by rw [hr]; rfl
  have hname : r.artifactName = "unit_b" := by rw [hr]; rfl
  have hid : r.artifactName = r.id.artifactName := by rw [hr]; decide
  obtain ⟨hblock, -⟩ := hrestored r _ _ (by rw [hr]; rfl) hid hblob (Hex.decode?_encode _) hmap
    (by rw [hname]; decide) (some "rustc 1.80.0")
  -- the names of the envelope are artifacts like others here
  obtain ⟨-, -, -, hsuccess, ⟨s, hs, htoolchain, hartifacts⟩, hstale, hrefused, -, -⟩ := hblock .empty
  rw [hname] at hartifacts
  exact ⟨r, _, s, hnodup, hblob, rfl, hsuccess, hs, htoolchain, (hartifacts _ _).2 ⟨by decide, by decide, rfl⟩,
    (hartifacts _ _).2 ⟨by decide, by decide, rfl⟩, hstale _ _ _, hrefused _ _ _ rfl⟩

end BlockRecord

end CircuitBlocks
