import CircuitBlocks.Proofs.Artifact.Payloads
import CircuitBlocks.Proofs.Project.RoundTrip
import CircuitBlocks.Proofs.Project.Trials

/-!
# Damage — what a project file with broken artifacts is loaded as

What a project file stores of artifacts may have been written by anyone. Whatever it is, it is no reason to refuse
the file: a block whose artifacts cannot be restored is not compiled, and one warning says so. The other blocks do
not notice, nor do the code, the ports and the files of that block.

* `BlockRecord.Restorable` and `BlockRecord.Damaged` — the records whose artifacts can be restored, and those that
  tell of others.
* `BlockRecord.LoadedAs` — the block and the warnings that come of a record.
* `BlockRecord.SameButArtifacts` — the records of one block with other artifacts.
* **`Project.exists_loaded`** — every project file of a known format is loaded, and damage stays where it is.
* `Project.exists_success_of_plus` — artifacts are loaded from a text that is not hexadecimal.
-/

namespace CircuitBlocks

/-- Whether a warning is about artifacts that were not restored. -/
def LoadWarning.isDiscard : LoadWarning → Bool
  | artifactsDiscarded .. => true
  | _ => false

/-! ## Records -/

namespace BlockRecord

variable {r r' : BlockRecord} {toolchain : Option String}

/-- Whether the artifacts of a record can be restored: they are stored under the name of the block, as bytes that
hold a store for the toolchain with an artifact of that name. -/
def Restorable (r : BlockRecord) (toolchain : Option String) : Prop :=
  r.artifactName = r.id.artifactName ∧ ∃ text bytes s, r.blob = some text ∧ Hex.decode? text = some bytes ∧
    ArtifactStore.ofBlob bytes r.artifactName toolchain = .ok s ∧ (s.get? r.artifactName).isSome

/-- Whether a record tells of a compile whose artifacts cannot be restored. -/
def Damaged (r : BlockRecord) (toolchain : Option String) : Prop :=
  (r.status = 1 ∨ r.status = 2) ∧ ¬ r.Restorable toolchain

theorem restorable_of_not_damaged (h : ¬ r.Damaged toolchain) (hstatus : r.status = 1 ∨ r.status = 2) :
    r.Restorable toolchain :=
  not_not.1 fun hr => h ⟨hstatus, hr⟩

/-- The artifacts of a record are read from hexadecimal text, and then from the bytes. -/
theorem store?_eq_ok {s : ArtifactStore} : r.store? toolchain = .ok s ↔ ∃ text bytes, r.blob = some text ∧
    Hex.decode? text = some bytes ∧ ArtifactStore.ofBlob bytes r.artifactName toolchain = .ok s := by
  unfold store?
  cases hblob : r.blob with
  | none => simp
  | some text =>
    cases hbytes : Hex.decode? text with
    | none => simp [hbytes]
    | some bytes =>
      cases hstore : ArtifactStore.ofBlob bytes r.artifactName toolchain <;> simp [hbytes, hstore]

/-- A state is restored just if the artifacts can be. -/
theorem stateOf_cases (r : BlockRecord) (failed : Bool) (toolchain : Option String) :
    (r.Restorable toolchain ∧ ∃ state, r.stateOf failed toolchain = .ok state ∧
      state.status = if failed then .error else .success) ∨
    ¬ r.Restorable toolchain ∧ ∃ reason, r.stateOf failed toolchain = .error reason := by
  cases hstate : r.stateOf failed toolchain with
  | ok state =>
    obtain ⟨hname, s, primary, message, hstore, hprimary, -, -⟩ := stateOf_eq_ok hstate
    obtain ⟨text, bytes, hblob, hbytes, hs⟩ := store?_eq_ok.1 hstore
    have hrestorable : r.Restorable toolchain :=
      ⟨hname, text, bytes, s, hblob, hbytes, hs, by rw [hprimary]; rfl⟩
    exact .inl ⟨hrestorable, state, rfl, status_of_stateOf hstate⟩
  | error reason =>
    refine .inr ⟨?_, reason, rfl⟩
    rintro ⟨hname, text, bytes, s, hblob, hbytes, hs, hprimary⟩
    obtain ⟨primary, hprimary⟩ := Option.isSome_iff_exists.1 hprimary
    have hstore : r.store? toolchain = .ok s := store?_eq_ok.2 ⟨text, bytes, hblob, hbytes, hs⟩
    rw [stateOf_of_store? hname hstore hprimary] at hstate
    cases hstate

/-- A state is made of artifacts for two of the statuses. -/
theorem state_eq (r : BlockRecord) (toolchain : Option String) :
    r.state toolchain = if r.status = 1 then r.stateOf false toolchain
      else if r.status = 2 then r.stateOf true toolchain else .ok .uncompiled := by
  unfold state
  match r.status with
  | 0 => rfl
  | 1 => rfl
  | 2 => rfl
  | n + 3 => rfl

/-- The compile state that a record tells of, or the reason why it is lost. -/
theorem state_cases (r : BlockRecord) (toolchain : Option String) :
    (¬ r.Damaged toolchain ∧ ∃ state, r.state toolchain = .ok state ∧
      (state.status = .success ↔ r.status = 1) ∧ (state.status = .error ↔ r.status = 2)) ∨
    r.Damaged toolchain ∧ ∃ reason, r.state toolchain = .error reason := by
  rw [state_eq]
  -- the status that was stored is one of the two with artifacts, or any other
  by_cases hsuccess : r.status = 1
  · rw [if_pos hsuccess, hsuccess]
    rcases r.stateOf_cases false toolchain with ⟨hr, state, hstate, hstatus⟩ | ⟨hr, reason, hstate⟩
    · exact .inl ⟨fun h => h.2 hr, state, hstate, by simp [hstatus]⟩
    · exact .inr ⟨⟨.inl hsuccess, hr⟩, reason, hstate⟩
  · rw [if_neg hsuccess]
    by_cases herror : r.status = 2
    · rw [if_pos herror, herror]
      rcases r.stateOf_cases true toolchain with ⟨hr, state, hstate, hstatus⟩ | ⟨hr, reason, hstate⟩
      · exact .inl ⟨fun h => h.2 hr, state, hstate, by simp [hstatus]⟩
      · exact .inr ⟨⟨.inr herror, hr⟩, reason, hstate⟩
    · rw [if_neg herror]
      exact .inl ⟨fun h => h.1.elim hsuccess herror, .uncompiled, rfl,
        by simp [CompileState.status, hsuccess, herror]⟩

/-- What comes of a record: its block, with the compile state that can be restored, and its warnings. At most one
of them is about the artifacts. -/
structure LoadedAs (toolchain : Option String) (r : BlockRecord) (b : Block) (warnings : List LoadWarning) :
    Prop where
  id : b.id = r.id
  fragments : b.fragments = r.fragments
  shape : b.shape = r.shape
  run : b.run = none
  success : b.status = .success ↔ r.status = 1 ∧ r.Restorable toolchain
  error : b.status = .error ↔ r.status = 2 ∧ r.Restorable toolchain
  discarded : r.Damaged toolchain → ∃ reason, warnings.filter (·.isDiscard) = [.artifactsDiscarded r.id reason]
  kept : ¬ r.Damaged toolchain → warnings.filter (·.isDiscard) = []
  others : ∀ w ∈ warnings, w.isDiscard = false → ∃ e, w = .missingFiles e

theorem isDiscard_linkWarnings (linked : Except RegistryError Unit) :
    ∀ w ∈ linkWarnings linked, w.isDiscard = false ∧ ∃ e, w = .missingFiles e := by
  cases linked with
  | ok _ => exact fun _ h => nomatch h
  | error e => exact List.forall_mem_singleton.2 ⟨rfl, e, rfl⟩

theorem filter_linkWarnings (linked : Except RegistryError Unit) (others : List LoadWarning) :
    (linkWarnings linked ++ others).filter (·.isDiscard) = others.filter (·.isDiscard) := by
  cases linked <;> rfl

/-- The block of a record, told by the state that can be restored. -/
theorem exists_files_restore (r : BlockRecord) (registry : Registry) (toolchain : Option String) :
    ∃ files, (r.restore registry toolchain).1
      = { r.plain with files, state := (r.state toolchain).toOption.getD .uncompiled } := by
  have hlinked := r.plain.relink_sameButFiles registry r.hashes
  rw [(r.restore_eq registry toolchain).2]
  cases r.state toolchain with
  | ok state => exact ⟨_, congrArg (fun b : Block => { b with state }) hlinked⟩
  | error reason => exact ⟨_, hlinked⟩

/-- Whatever a record says, a block comes of it. -/
theorem loadedAs_restore (r : BlockRecord) (registry : Registry) (toolchain : Option String) :
    r.LoadedAs toolchain (r.restore registry toolchain).1 (r.restore registry toolchain).2.2 := by
  obtain ⟨files, hblock⟩ := r.exists_files_restore registry toolchain
  rw [hblock, warnings_restore]
  have hlinked := isDiscard_linkWarnings (r.plain.relink registry r.hashes).1
  -- the warnings that are no discard come from the links alone
  have hothers : ∀ w ∈ linkWarnings (r.plain.relink registry r.hashes).1 ++ stateWarnings r.id (r.state toolchain),
      w.isDiscard = false → ∃ e, w = .missingFiles e := by
    intro w hw hkind
    rcases List.mem_append.1 hw with hw | hw
    · exact (hlinked w hw).2
    · cases hstate : r.state toolchain with
      | ok state => rw [hstate] at hw; cases hw
      | error reason =>
        rw [hstate] at hw
        rw [List.mem_singleton.1 hw] at hkind
        cases hkind
  -- an intact record is restored with its state, and of a damaged one the artifacts are discarded
  rcases r.state_cases toolchain with ⟨hintact, state, hstate, hsuccess, herror⟩ | ⟨hdamaged, reason, hstate⟩ <;>
    rw [hstate] at hothers ⊢
  · exact ⟨rfl, rfl, rfl, rfl,
      hsuccess.trans (iff_self_and.2 fun h => restorable_of_not_damaged hintact (.inl h)),
      herror.trans (iff_self_and.2 fun h => restorable_of_not_damaged hintact (.inr h)),
      (fun h => absurd h hintact), (fun _ => filter_linkWarnings _ _), hothers⟩
  · exact ⟨rfl, rfl, rfl, rfl, iff_of_false nofun fun h => hdamaged.2 h.2, iff_of_false nofun fun h => hdamaged.2 h.2,
      (fun _ => ⟨reason, filter_linkWarnings _ _⟩), (fun h => absurd hdamaged h), hothers⟩

/-! ### Other artifacts -/

/-- The records of one block with other artifacts. -/
structure SameButArtifacts (r r' : BlockRecord) : Prop where
  id : r'.id = r.id
  fragments : r'.fragments = r.fragments
  hashes : r'.hashes = r.hashes
  shape : r'.shape = r.shape

/-- Other artifacts make another compile state and another warning about them. -/
theorem SameButArtifacts.restore (h : r.SameButArtifacts r') (registry : Registry) (toolchain : Option String) :
    (r'.restore registry toolchain).2.1 = (r.restore registry toolchain).2.1 ∧
    (∃ state, (r'.restore registry toolchain).1 = { (r.restore registry toolchain).1 with state }) ∧
    (r'.restore registry toolchain).2.2.filter (!·.isDiscard)
      = (r.restore registry toolchain).2.2.filter (!·.isDiscard) := by
  have hplain : r'.plain = r.plain := by
    rw [plain, plain, h.id, h.fragments, h.shape]
  -- all that can be said about the state is that it is discarded
  have hdiscards : ∀ (linked : Except RegistryError Unit) (id : BlockId) (state : Except DiscardReason CompileState),
      (linkWarnings linked ++ stateWarnings id state).filter (!·.isDiscard) = linkWarnings linked := by
    intro linked id state
    cases linked <;> cases state <;> rfl
  refine ⟨?_, ?_, ?_⟩
  · rw [(r'.restore_eq registry toolchain).1, (r.restore_eq registry toolchain).1, hplain, h.hashes]
  · rw [(r'.restore_eq registry toolchain).2, (r.restore_eq registry toolchain).2, hplain, h.hashes]
    cases r'.state toolchain <;> cases r.state toolchain <;> exact ⟨_, rfl⟩
  · rw [warnings_restore, warnings_restore, hdiscards, hdiscards, hplain, h.hashes]

end BlockRecord

/-! ## Project files -/

namespace ProjectRecord

/-- What a text stores of a project. -/
def ofText? (text : String) : Option ProjectRecord := (Json.parse? text).bind ofDocument?

/-- The text of a record whose numbers have a format gives the record. -/
theorem ofText?_pretty {r : ProjectRecord} (h : r.Storable) : ofText? r.document.pretty = some r := by
  rw [ofText?, Json.parse?_pretty r.spelled_document, Option.bind_some, ofDocument?_document h]

/-- The blocks of records with the warnings of each, the registry going from one to the next. -/
def loaded (registry : Registry) (toolchain : Option String) : List BlockRecord → List (Block × List LoadWarning)
  | [] => []
  | record :: rest =>
    let (b, registry, warnings) := record.restore registry toolchain
    (b, warnings) :: loaded registry toolchain rest

theorem loaded_cons (registry : Registry) (toolchain : Option String) (record : BlockRecord)
    (rest : List BlockRecord) : loaded registry toolchain (record :: rest)
      = ((record.restore registry toolchain).1, (record.restore registry toolchain).2.2) ::
        loaded (record.restore registry toolchain).2.1 toolchain rest := rfl

/-- Blocks are restored one by one, each from its own record. -/
theorem restoreAll_eq_loaded (registry : Registry) (toolchain : Option String) (records : List BlockRecord) :
    (restoreAll registry toolchain records).1 = (loaded registry toolchain records).map (·.1) ∧
      (restoreAll registry toolchain records).2.2 = (loaded registry toolchain records).flatMap (·.2) := by
  induction records generalizing registry with
  | nil => exact ⟨rfl, rfl⟩
  | cons record rest ih =>
    obtain ⟨hblocks, hwarnings⟩ := ih (record.restore registry toolchain).2.1
    rw [loaded_cons, List.map_cons, List.flatMap_cons, ← hblocks, ← hwarnings]
    exact ⟨rfl, rfl⟩

/-- Each record is loaded, in its place. -/
theorem forall₂_loaded (registry : Registry) (toolchain : Option String) (records : List BlockRecord) :
    List.Forall₂ (fun record l => record.LoadedAs toolchain l.1 l.2) records
      (loaded registry toolchain records) := by
  induction records generalizing registry with
  | nil => exact .nil
  | cons record rest ih => exact .cons (record.loadedAs_restore registry toolchain) (ih _)

/-- Other artifacts of one record change what is loaded of that record, and nothing else. -/
theorem loaded_set (registry : Registry) (toolchain : Option String) {records : List BlockRecord} {i : Nat}
    {record record' : BlockRecord} (h : records[i]? = some record) (hsame : record.SameButArtifacts record') :
    (restoreAll registry toolchain (records.set i record')).2.1 = (restoreAll registry toolchain records).2.1 ∧
    ∃ l state warnings, (loaded registry toolchain records)[i]? = some l ∧
      loaded registry toolchain (records.set i record')
        = (loaded registry toolchain records).set i ({ l.1 with state }, warnings) ∧
      record'.LoadedAs toolchain { l.1 with state } warnings ∧
      warnings.filter (!·.isDiscard) = l.2.filter (!·.isDiscard) := by
  -- the records before the one that is set are restored as before, and so is the registry that they leave
  induction records generalizing registry i with
  | nil => cases h
  | cons first rest ih =>
    cases i with
    | zero =>
      obtain rfl : first = record := Option.some.inj h
      obtain ⟨hregistry, ⟨state, hblock⟩, hothers⟩ := hsame.restore registry toolchain
      have hloaded := record'.loadedAs_restore registry toolchain
      rw [hblock] at hloaded
      refine ⟨?_, _, state, _, rfl, ?_, hloaded, hothers⟩
      · show (restoreAll (record'.restore registry toolchain).2.1 toolchain rest).2.1 = _
        rw [hregistry]
        rfl
      · show loaded registry toolchain (record' :: rest) = _
        rw [loaded_cons, loaded_cons, hblock, hregistry]
        rfl
    | succ i =>
      obtain ⟨hregistry, l, state, warnings, hl, hset, hloaded, hothers⟩ :=
        ih (first.restore registry toolchain).2.1 h
      refine ⟨hregistry, l, state, warnings, hl, ?_, hloaded, hothers⟩
      show loaded registry toolchain (first :: rest.set i record') = _
      rw [loaded_cons, loaded_cons, hset]
      rfl

theorem fileSkipped_of_registerAll (registry : Registry) (files : List AuxiliaryFile) :
    ∀ w ∈ (registerAll registry files).2, ∃ e, w = .fileSkipped e := by
  induction files generalizing registry with
  | nil => exact fun _ h => nomatch h
  | cons f rest ih =>
    cases hinsert : registry.insert f with
    | ok inserted =>
      rw [registerAll_ok hinsert]
      exact ih _
    | error e =>
      rw [registerAll_error hinsert]
      exact List.forall_mem_cons.2 ⟨⟨e, rfl⟩, ih registry⟩

end ProjectRecord

namespace Project

/-- A text of a known format is loaded, record by record. -/
theorem ofText_eq_loaded {text : String} {r : ProjectRecord} (h : ProjectRecord.ofText? text = some r)
    (hformat : r.format ≤ projectFormat) (toolchain : Option String) :
    ofText text toolchain = .ok
      (⟨(ProjectRecord.restoreAll (ProjectRecord.registerAll .empty r.files).1 toolchain r.blocks).2.1,
        (ProjectRecord.loaded (ProjectRecord.registerAll .empty r.files).1 toolchain r.blocks).map (·.1)⟩,
      (ProjectRecord.registerAll .empty r.files).2 ++
        (ProjectRecord.loaded (ProjectRecord.registerAll .empty r.files).1 toolchain r.blocks).flatMap (·.2)) := by
  obtain ⟨hblocks, hwarnings⟩ :=
    ProjectRecord.restoreAll_eq_loaded (ProjectRecord.registerAll .empty r.files).1 toolchain r.blocks
  -- no newer format, so the text is taken
  have hofText : ofText text toolchain = .ok (r.project toolchain) := by
    unfold ofText
    rw [show (Json.parse? text).bind ProjectRecord.ofDocument? = some r from h]
    exact if_neg (Nat.not_lt.2 hformat)
  rw [hofText, ← hblocks, ← hwarnings]
  rfl

/-- **Damage stays where it is.** A text that holds a project record of a known format is loaded, whatever it
stores of artifacts, with one block for each record. A block has a success or an error just if its record says so
and its artifacts can be restored; a record that says so otherwise gives one warning about them, and no other
record gives one. Bytes are read off hexadecimal texts, and off others only if they have a plus sign.
If the artifacts of one record are replaced, only the compile state of its block and the warning about its
artifacts change. -/
theorem exists_loaded {text : String} {r : ProjectRecord} (h : ProjectRecord.ofText? text = some r)
    (hformat : r.format ≤ projectFormat) (toolchain : Option String) :
    ∃ registry skipped loaded,
      ofText text toolchain = .ok (⟨registry, loaded.map (·.1)⟩, skipped ++ loaded.flatMap (·.2)) ∧
      (∀ w ∈ skipped, ∃ e, w = .fileSkipped e) ∧
      List.Forall₂ (fun record l => record.LoadedAs toolchain l.1 l.2) r.blocks loaded ∧
      (∀ record ∈ r.blocks, ∀ blob, record.blob = some blob → '+' ∉ blob.toList →
        ((Hex.decode? blob).isSome ↔ Hex.Valid blob)) ∧
      ∀ text' i record record', r.blocks[i]? = some record → record.SameButArtifacts record' →
        ProjectRecord.ofText? text' = some { r with blocks := r.blocks.set i record' } →
        ∃ l state warnings, loaded[i]? = some l ∧
          ofText text' toolchain = .ok (⟨registry, (loaded.map (·.1)).set i { l.1 with state }⟩,
            skipped ++ (loaded.set i ({ l.1 with state }, warnings)).flatMap (·.2)) ∧
          record'.LoadedAs toolchain { l.1 with state } warnings ∧
          warnings.filter (!·.isDiscard) = l.2.filter (!·.isDiscard) := by
  refine ⟨_, _, _, ofText_eq_loaded h hformat toolchain, ProjectRecord.fileSkipped_of_registerAll .empty r.files,
    ProjectRecord.forall₂_loaded _ toolchain r.blocks, fun _ _ blob _ hplus => Hex.isSome_decode?_iff hplus, ?_⟩
  -- another blob in one record changes what is loaded there, and nothing else
  intro text' i record record' hrecord hsame h'
  obtain ⟨hregistry, l, state, warnings, hl, hset, hloaded, hothers⟩ :=
    ProjectRecord.loaded_set (ProjectRecord.registerAll .empty r.files).1 toolchain hrecord hsame
  refine ⟨l, state, warnings, hl, ?_, hloaded, hothers⟩
  rw [ofText_eq_loaded h' hformat toolchain]
  show Except.ok (Project.mk (ProjectRecord.restoreAll (ProjectRecord.registerAll .empty r.files).1 toolchain
    (r.blocks.set i record')).2.1 _, _) = _
  rw [hregistry, hset, List.map_set]

end Project

/-! ### A map of payloads -/

/-- A map of payloads with one artifact. -/
def MessagePack.onePayload : MessagePack := .map [(.text "unit_b", .binary [])]

/-- The store of that map. -/
def ArtifactStore.onePayload : ArtifactStore := (empty none).put "unit_b" ⟨.primary, [], ""⟩

theorem ArtifactStore.ofBlob_onePayload (toolchain : Option String) :
    ofBlob MessagePack.onePayload.encode "unit_b" toolchain = .ok onePayload := by
  have hbytes : HoldsMap (MessagePack.payloads [("unit_b", [])]).encode [("unit_b", [])] := by
    have hencode : HoldsMap ((MessagePack.payloads [("unit_b", [])]).encode ++ []) [("unit_b", [])] :=
      holdsMap_encode (by decide) (List.forall_mem_singleton.2 ⟨by decide, by decide⟩) []
    rwa [List.append_nil] at hencode
  rw [show MessagePack.onePayload = .payloads [("unit_b", [])] from rfl, ofBlob_of_holdsMap hbytes]
  decide

namespace BlockRecord

/-- A record of a success with some text for its artifacts. -/
def storing (blob : Option String) : BlockRecord where
  id := "b"
  fragments := {}
  hashes := []
  artifactName := "unit_b"
  status := 1
  blob := blob
  shape := .standard

theorem restorable_storing {blob : String} (h : Hex.decode? blob = some MessagePack.onePayload.encode)
    (toolchain : Option String) : (storing (some blob)).Restorable toolchain := by
  have hname : "unit_b" = BlockId.artifactName "b" := by decide
  have hprimary : (ArtifactStore.onePayload.get? "unit_b").isSome := by decide
  exact ⟨hname, blob, _, _, rfl, h, ArtifactStore.ofBlob_onePayload toolchain, hprimary⟩

theorem not_restorable_storing (toolchain : Option String) : ¬ (storing none).Restorable toolchain := by
  rintro ⟨-, blob, _, _, hblob, -⟩
  cases hblob

end BlockRecord

namespace ProjectRecord

/-- A project file with that record. -/
def storing (blob : Option String) : ProjectRecord := ⟨projectFormat, [], [.storing blob]⟩

theorem ofText?_storing (blob : Option String) : ofText? (storing blob).document.pretty = some (storing blob) := by
  have hnumber : 1 ≤ Json.limit32 := by decide
  exact ofText?_pretty ⟨hnumber, List.forall_mem_singleton.2 ⟨SignalShape.storable_standard, hnumber⟩⟩

end ProjectRecord

namespace Project

/-- What comes of one record without files whose state can be restored. -/
theorem ofText_single {text : String} {record : BlockRecord} {toolchain : Option String} {state : CompileState}
    (h : ProjectRecord.ofText? text = some ⟨projectFormat, [], [record]⟩) (hhashes : record.hashes = [])
    (hstate : record.state toolchain = .ok state) :
    ofText text toolchain = .ok (⟨.empty, [{ record.plain with state }]⟩, []) := by
  -- without hashes nothing is linked, and so nothing is told
  have hrestore : record.restore .empty toolchain = ({ record.plain with state }, .empty, []) := by
    refine Prod.ext ?_ (Prod.ext ?_ ?_)
    · rw [(record.restore_eq .empty toolchain).2, hstate, hhashes]
      rfl
    · rw [(record.restore_eq .empty toolchain).1, hhashes]
      rfl
    · rw [record.warnings_restore, hstate, hhashes]
      rfl
  have hloaded : ProjectRecord.loaded .empty toolchain [record] = [({ record.plain with state }, [])] := by
    rw [ProjectRecord.loaded_cons, hrestore]
    rfl
  have hregistry : (ProjectRecord.restoreAll .empty toolchain [record]).2.1 = .empty := congrArg (·.2.1) hrestore
  rw [ofText_eq_loaded h (Nat.le_refl projectFormat)]
  show Except.ok (Project.mk (ProjectRecord.restoreAll .empty toolchain [record]).2.1
    ((ProjectRecord.loaded .empty toolchain [record]).map (·.1)),
    [] ++ (ProjectRecord.loaded .empty toolchain [record]).flatMap (·.2)) = _
  rw [hloaded, hregistry]
  rfl

/-- A success is loaded. When the text of its artifacts is taken away, the block is not compiled, and a warning
says so. -/
theorem exists_loaded_storing : ∃ (text text' : String) (registry : Registry) (b : Block) (state : CompileState)
    (warnings warnings' : List LoadWarning) (reason : DiscardReason),
    ofText text none = .ok (⟨registry, [b]⟩, warnings) ∧ b.status = .success ∧
    warnings.filter (·.isDiscard) = [] ∧
    ofText text' none = .ok (⟨registry, [{ b with state }]⟩, warnings') ∧ state.status = .notCompiled ∧
    warnings'.filter (·.isDiscard) = [.artifactsDiscarded "b" reason] := by
  have hbytes : Hex.decode? "81a6756e69745f62c400" = some MessagePack.onePayload.encode := by decide
  obtain ⟨registry, skipped, loaded, hload, hskipped, hloaded, -, hother⟩ :=
    exists_loaded (ProjectRecord.ofText?_storing (some "81a6756e69745f62c400")) (Nat.le_refl projectFormat) none
  obtain ⟨l, state, warnings, hl, hload', hloaded', -⟩ := hother (ProjectRecord.storing none).document.pretty 0
    (.storing (some "81a6756e69745f62c400")) (.storing none) rfl ⟨rfl, rfl, rfl, rfl⟩
    (ProjectRecord.ofText?_storing none)
  -- there is one record, which is loaded once with its blob and once without
  cases hloaded with
  | @cons _ l' _ rest hfirst hrest =>
    cases hrest
    obtain rfl : l' = l := Option.some.inj hl
    have hnone : skipped.filter (·.isDiscard) = [] := by
      rw [List.filter_eq_nil_iff]
      intro w hw
      obtain ⟨e, rfl⟩ := hskipped w hw
      exact Bool.false_ne_true
    have hlost := BlockRecord.not_restorable_storing none
    have hrestorable := BlockRecord.restorable_storing hbytes none
    obtain ⟨reason, hreason⟩ := hloaded'.discarded ⟨.inl rfl, hlost⟩
    refine ⟨_, _, registry, l'.1, state, _, _, reason, hload, hfirst.success.2 ⟨rfl, hrestorable⟩, ?_, hload', ?_, ?_⟩
    · rw [List.filter_append, hnone, List.flatMap_singleton]
      exact hfirst.kept fun h => h.2 hrestorable
    · cases hstatus : state.status with
      | notCompiled => rfl
      | success => exact absurd (hloaded'.success.1 hstatus).2 hlost
      | error => exact absurd (hloaded'.error.1 hstatus).2 hlost
    · rw [List.filter_append, hnone, List.set_cons_zero, List.flatMap_singleton]
      exact hreason

/-- The text of the artifacts is not hexadecimal, and yet they are loaded. -/
theorem exists_success_of_plus : ∃ (text : String) (r : ProjectRecord) (b : Block),
    ProjectRecord.ofText? text = some r ∧ r.format ≤ projectFormat ∧
    r.blocks = [.storing (some "81a6756e69745f62c4+0")] ∧ ¬ Hex.Valid "81a6756e69745f62c4+0" ∧
    ofText text none = .ok (⟨.empty, [b]⟩, []) ∧ b.status = .success := by
  have hbytes : Hex.decode? "81a6756e69745f62c4+0" = some MessagePack.onePayload.encode := by decide
  have hinvalid : ¬ Hex.Valid "81a6756e69745f62c4+0" := by decide
  have hrestorable := BlockRecord.restorable_storing hbytes none
  obtain ⟨-, state, hstate, hsuccess, -⟩ | ⟨hdamaged, -⟩ :=
    (BlockRecord.storing (some "81a6756e69745f62c4+0")).state_cases none
  · exact ⟨_, _, _, ProjectRecord.ofText?_storing _, Nat.le_refl projectFormat, rfl, hinvalid,
      ofText_single (ProjectRecord.ofText?_storing _) rfl hstate, hsuccess.2 rfl⟩
  · exact absurd hrestorable hdamaged.2

end Project

end CircuitBlocks
