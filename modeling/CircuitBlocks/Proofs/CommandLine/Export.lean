import CircuitBlocks.CommandLine.Basic
import CircuitBlocks.Proofs.Compilation.Completeness
import CircuitBlocks.Proofs.FileTree.Folders
import CircuitBlocks.Proofs.Project.RoundTrip

/-!
# Exports — what a directory of exported libraries holds

Every block is exported to the file that its artifact name stands for. Identities that differ only in signs
other than letters and digits have one artifact name, so that of two such blocks the later one is what is left.

* `lastPayload?` — the payload of the last block with an artifact name.
* `Machine.Finds` — a directory has a library of some name, with these bytes.
* `exportBlocks_of_takes` — what is found after blocks were exported, one after another.
* **`Arguments.run_export`** — every block finds its own library again just if blocks with one artifact name have
  one payload.
-/

namespace CircuitBlocks

/-! ## Payloads -/

/-- The bytes that are exported for a block. -/
def Block.payload? (b : Block) : Option (List UInt8) :=
  (b.state.store?.bind (·.get? b.artifactName)).map (·.payload)

theorem Block.payload?_eq_some {b : Block} {bytes : List UInt8} (h : b.payload? = some bytes) :
    ∃ s artifact, b.state.store? = some s ∧ s.get? b.artifactName = some artifact ∧ artifact.payload = bytes := by
  obtain ⟨artifact, hartifact, hbytes⟩ := Option.map_eq_some_iff.1 h
  obtain ⟨s, hs, hget⟩ := Option.bind_eq_some_iff.1 hartifact
  exact ⟨s, artifact, hs, hget, hbytes⟩

/-- The payload of the last of some blocks that have an artifact name. -/
def lastPayload? (name : String) : List Block → Option (List UInt8)
  | [] => none
  | b :: rest => (lastPayload? name rest).or (if b.artifactName = name then b.payload? else none)

/-- The last payload for a name is one of a block of that name. -/
theorem exists_of_lastPayload? {name : String} {blocks : List Block} {bytes : List UInt8}
    (h : lastPayload? name blocks = some bytes) :
    ∃ b ∈ blocks, b.artifactName = name ∧ b.payload? = some bytes := by
  induction blocks with
  | nil => cases h
  | cons b rest ih =>
    rw [lastPayload?, Option.or_eq_some_iff] at h
    rcases h with hrest | ⟨-, hhere⟩
    · obtain ⟨d, hd, hname⟩ := ih hrest
      exact ⟨d, List.mem_cons_of_mem b hd, hname⟩
    · split at hhere
      · next hname => exact ⟨b, List.mem_cons_self, hname, hhere⟩
      · cases hhere

/-- A name for which there is a payload has a last one. -/
theorem exists_lastPayload? {blocks : List Block} {b : Block} (hb : b ∈ blocks) {bytes : List UInt8}
    (hbytes : b.payload? = some bytes) : ∃ last, lastPayload? b.artifactName blocks = some last := by
  induction blocks with
  | nil => cases hb
  | cons d rest ih =>
    rw [lastPayload?]
    cases hlast : lastPayload? b.artifactName rest with
    | some last => exact ⟨last, rfl⟩
    | none =>
      rcases List.mem_cons.1 hb with rfl | hrest
      · exact ⟨bytes, by simp [hbytes]⟩
      · obtain ⟨last, hsome⟩ := ih hrest
        rw [hlast] at hsome
        cases hsome

/-! ## Directories of libraries -/

/-- The directory has a library of this name, with these bytes, and it is the one that is resolved. -/
def Machine.Finds (m : Machine) (directory name : String) (bytes : List UInt8) : Prop :=
  ∃ path, (libraryPaths directory name).find? (m.files.isFile m.here) = some path ∧
    m.files.read m.here path = .ok bytes ∧
    (LibraryTier.directory directory).resolve? m name = some ((m.loader bytes).open name)

/-- There is no more than one such library. -/
theorem Machine.Finds.unique {m : Machine} {directory name : String} {bytes other : List UInt8}
    (h : m.Finds directory name bytes) (hother : m.Finds directory name other) : bytes = other := by
  obtain ⟨path, hpath, hread, -⟩ := h
  obtain ⟨path', hpath', hread', -⟩ := hother
  obtain rfl : path = path' := Option.some.inj (hpath.symm.trans hpath')
  exact Except.ok.inj (hread.symm.trans hread')

/-- A directory that libraries of some names can be written to. It is made if need be. -/
def FileTree.Writable (tree : FileTree) (here : Location) (directory : String) (names : List String) : Prop :=
  ∃ tree', tree.createDirectories here directory = (.ok (), tree') ∧ ∀ name ∈ names,
    ∃ tree'', tree'.write here (Path.join directory (libraryFileName name)) [] = .ok tree''

theorem isName_libraryFileName {name : String} (h : '/' ∉ name.toList) : Path.IsName (libraryFileName name) := by
  have hchars : (libraryFileName name).toList = 'l' :: 'i' :: 'b' :: (name ++ libraryEnd).toList := by
    simp [libraryFileName, libraryStart]
  refine ⟨not_slash_libraryFileName h, ?_, ?_, ?_⟩ <;>
  · intro heq
    rw [heq] at hchars
    simp at hchars

/-- Libraries of other names have other files. -/
theorem libraryFileName_injective {name other : String} (h : libraryFileName name = libraryFileName other) :
    name = other := by
  have hlists := congrArg String.toList h
  simp only [libraryFileName, String.toList_append, List.append_assoc, List.append_cancel_left_eq,
    List.append_cancel_right_eq] at hlists
  exact String.toList_injective hlists

/-- The library that is written into the directory is found there. -/
theorem Machine.finds_of_takes {m : Machine} {directory name : String} {d : Location} {bytes : List UInt8}
    (h : m.files.Takes m.here directory d (libraryFileName name)) (hname : '/' ∉ name.toList)
    (hfile : m.files.node? (d ++ [libraryFileName name]) = some (.file bytes)) :
    m.Finds directory name bytes := by
  obtain ⟨hread, hisFile⟩ := h.read (isName_libraryFileName hname) hfile
  have hfind : (libraryPaths directory name).find? (m.files.isFile m.here)
      = some (Path.join directory (libraryFileName name)) := List.find?_cons_of_pos hisFile
  refine ⟨_, hfind, hread, ?_⟩
  rw [LibraryTier.resolve?, hfind, Option.map_some, Machine.openLibrary, hread]

/-! ## Exports -/

variable {directory : String} {d : Location} {c : Console}

/-- An artifact is written into a directory that takes its library. -/
theorem ArtifactStore.exportLibrary_of_takes {s : ArtifactStore} {name : String} {artifact : Artifact}
    {here : Location} {files : FileTree} (hget : s.get? name = some artifact) (hname : '/' ∉ name.toList)
    (hready : files.Ready here directory) (htakes : files.Takes here directory d (libraryFileName name)) :
    s.exportLibrary name directory here files = (.ok (Path.join directory (libraryFileName name)),
      files.install (d ++ [libraryFileName name]) (.file artifact.payload)) := by
  have hwrite : files.write here (Path.join directory (libraryFileName name)) artifact.payload
      = .ok (files.install (d ++ [libraryFileName name]) (.file artifact.payload)) :=
    (FileTree.write_join_eq_ok (isName_libraryFileName hname)).2 ⟨d, htakes, rfl⟩
  simp only [exportLibrary, hget, FileTree.createDirectories_of_ready hready, hwrite]

/-- A library that is written is left under its own name, and the others are as they were. -/
theorem node?_install_library (tree : FileTree) (d : Location) (own name : String) (bytes : List UInt8) :
    (tree.install (d ++ [libraryFileName own]) (.file bytes)).node? (d ++ [libraryFileName name])
      = if own = name then some (.file bytes) else tree.node? (d ++ [libraryFileName name]) := by
  split
  · next hsame => rw [hsame, FileTree.node?_install _ (by simp)]
  · next hother => rw [FileTree.node?_install_of_ne fun heq => hother (libraryFileName_injective heq).symm]

/-- Blocks are exported one after another into a directory that takes their libraries. The last one with a name is
what is left under it, and what has another name stays. -/
theorem exportBlocks_of_takes {blocks : List Block}
    (hpayload : ∀ b ∈ blocks, ∃ bytes, b.payload? = some bytes)
    (hready : c.machine.files.Ready c.machine.here directory)
    (htakes : ∀ b ∈ blocks, c.machine.files.Takes c.machine.here directory d (libraryFileName b.artifactName)) :
    ∃ c' files, exportBlocks directory blocks c = (.ok 0, c') ∧ c'.machine = { c.machine with files } ∧
      ∀ name, c.machine.files.Takes c.machine.here directory d (libraryFileName name) →
        files.Takes c.machine.here directory d (libraryFileName name) ∧
        files.node? (d ++ [libraryFileName name]) = match lastPayload? name blocks with
          | some bytes => some (.file bytes)
          | none => c.machine.files.node? (d ++ [libraryFileName name]) := by
  induction blocks generalizing c with
  | nil => exact ⟨c, c.machine.files, rfl, rfl, fun name h => ⟨h, rfl⟩⟩
  | cons b rest ih =>
    obtain ⟨⟨bytes, hbytes⟩, hpayload⟩ := List.forall_mem_cons.1 hpayload
    obtain ⟨htake, htakes⟩ := List.forall_mem_cons.1 htakes
    obtain ⟨s, artifact, hs, hget, rfl⟩ := Block.payload?_eq_some hbytes
    have hexport := s.exportLibrary_of_takes hget b.id.not_slash_artifactName hready htake
    generalize hfiles : c.machine.files.install (d ++ [libraryFileName b.artifactName])
      (.file artifact.payload) = files at hexport
    -- a file that is written leaves the directory as it is for the files after it
    have hstill : ∀ {name : String}, c.machine.files.Takes c.machine.here directory d (libraryFileName name) →
        files.Takes c.machine.here directory d (libraryFileName name) :=
      fun hother => hfiles ▸ htake.install hother _
    have hready' : files.Ready c.machine.here directory :=
      hready.mono fun _ => hfiles ▸ FileTree.hasDirectory_install htake.not_hasDirectory _
    let printed : Console := { c with machine := { c.machine with files } }.print
      (Path.join directory (libraryFileName b.artifactName) ++ "\n")
    have hprinted : printed.machine = { c.machine with files } := rfl
    obtain ⟨c', files', hrest, hmachine, hleft⟩ := @ih printed hpayload (by rw [hprinted]; exact hready')
      fun b' hb' => by rw [hprinted]; exact hstill (htakes b' hb')
    rw [hprinted] at hmachine hleft
    refine ⟨c', files', ?_, hmachine, fun name hname => ?_⟩
    · simp only [exportBlocks, hs, hexport]
      exact hrest
    · obtain ⟨htakes', hnode⟩ := hleft name (hstill hname)
      refine ⟨htakes', hnode.trans ?_⟩
      rw [lastPayload?]
      -- a later block of the same name has the last word
      cases lastPayload? name rest with
      | some last => rfl
      | none =>
        -- with none after it, this block's file is there under its own name
        show files.node? (d ++ [libraryFileName name]) = _
        rw [← hfiles, node?_install_library, hbytes]
        split <;> rfl

/-- A directory that is made by the first export is there for all of them. -/
theorem exportBlocks_of_createDirectories {files : FileTree}
    (hcreate : c.machine.files.createDirectories c.machine.here directory = (.ok (), files)) {b : Block}
    {bytes : List UInt8} (hbytes : b.payload? = some bytes) (rest : List Block) :
    exportBlocks directory (b :: rest) c
      = exportBlocks directory (b :: rest) { c with machine := { c.machine with files } } := by
  obtain ⟨s, artifact, hs, hget, -⟩ := Block.payload?_eq_some hbytes
  have hagain := FileTree.createDirectories_of_ready (FileTree.ready_of_createDirectories hcreate)
  simp only [exportBlocks, hs, ArtifactStore.exportLibrary, hget, hcreate, hagain]

/-- Blocks are exported into a writable directory, and under the name of each of them the last one with the name
is found. -/
theorem exists_exportBlocks {blocks : List Block}
    (hpayload : ∀ b ∈ blocks, ∃ bytes, b.payload? = some bytes)
    (hwritable : c.machine.files.Writable c.machine.here directory (blocks.map (·.artifactName))) :
    ∃ c', exportBlocks directory blocks c = (.ok 0, c') ∧ ∀ b ∈ blocks, ∃ bytes,
      lastPayload? b.artifactName blocks = some bytes ∧ c'.machine.Finds directory b.artifactName bytes := by
  cases blocks with
  | nil => exact ⟨c, rfl, fun _ hb => nomatch hb⟩
  | cons b rest =>
    obtain ⟨files, hcreate, hwrite⟩ := hwritable
    have hready : files.Ready c.machine.here directory := FileTree.ready_of_createDirectories hcreate
    have htakes : ∀ b' ∈ b :: rest,
        ∃ d, files.Takes c.machine.here directory d (libraryFileName b'.artifactName) := by
      intro b' hb'
      obtain ⟨files', hwritten⟩ := hwrite _ (List.mem_map_of_mem hb')
      obtain ⟨d, htake, -⟩ :=
        (FileTree.write_join_eq_ok (isName_libraryFileName b'.id.not_slash_artifactName)).1 hwritten
      exact ⟨d, htake⟩
    obtain ⟨d, htake⟩ := htakes b List.mem_cons_self
    -- all libraries go to the one directory that the path leads to
    have hall : ∀ b' ∈ b :: rest,
        files.Takes c.machine.here directory d (libraryFileName b'.artifactName) := by
      intro b' hb'
      obtain ⟨d', htake'⟩ := htakes b' hb'
      obtain rfl : d' = d := Except.ok.inj (htake'.around.symm.trans htake.around)
      exact htake'
    obtain ⟨bytes, hbytes⟩ := hpayload b List.mem_cons_self
    obtain ⟨c', files', hexport, hmachine, hleft⟩ :=
      exportBlocks_of_takes (c := { c with machine := { c.machine with files } }) hpayload hready hall
    refine ⟨c', (exportBlocks_of_createDirectories hcreate hbytes rest).trans hexport, fun b' hb' => ?_⟩
    obtain ⟨own, hown⟩ := hpayload b' hb'
    obtain ⟨last, hlast⟩ := exists_lastPayload? hb' hown
    obtain ⟨htakes', hnode⟩ := hleft _ (hall b' hb')
    rw [hlast] at hnode
    refine ⟨last, hlast, ?_⟩
    rw [hmachine]
    exact Machine.finds_of_takes htakes' b'.id.not_slash_artifactName hnode

/-! ## Commands -/

theorem Project.pick_range (p : Project) : p.pick (List.range p.blocks.length) = p.blocks := by
  unfold pick
  induction p.blocks with
  | nil => rfl
  | cons b rest ih =>
    rw [List.length_cons, List.range_succ_eq_map, List.filterMap_cons, List.filterMap_map]
    exact congrArg (List.cons b) ih

namespace Arguments

variable {a : Arguments} {p : Project} {warnings : List LoadWarning} {config : ToolchainConfig}

/-- A command that exports all blocks of a project. -/
structure Exports (a : Arguments) (c : Console) (directory : String) (p : Project) : Prop where
  stage : a.stage = .exportLibraries
  block : a.block = none
  outputDirectory : a.outputDirectory = some directory
  config : ∃ config, a.config c.machine = .ok config
  project : ∃ warnings, Project.load a.project none c.machine.here c.machine.files = .ok (p, warnings)

/-- The command goes on to export all blocks. -/
theorem Exports.run (h : a.Exports c directory p) :
    ∃ text, a.run c = exportBlocks directory p.blocks (c.printError text) := by
  obtain ⟨config, hconfig⟩ := h.config
  obtain ⟨warnings, hload⟩ := h.project
  have hfingerprint : a.fingerprint config c.machine = none := by rw [fingerprint, h.stage]
  refine ⟨a.loadingText p warnings, ?_⟩
  simp only [Arguments.run, hconfig, hfingerprint, hload, selection, h.block, runOn, h.stage, h.outputDirectory,
    p.pick_range]

/-- **What an export keeps apart.** A command exports all blocks of a project, which all hold an artifact of
their own, into a directory that the libraries can be written to. It succeeds, and then the directory has a library
for each block: that of the last block with the same artifact name. So every block finds its own payload again just
if blocks with one artifact name have one payload. -/
theorem run_export (h : a.Exports c directory p) (hpayload : ∀ b ∈ p.blocks, ∃ bytes, b.payload? = some bytes)
    (hwritable : c.machine.files.Writable c.machine.here directory (p.blocks.map (·.artifactName))) :
    ∃ c', a.run c = (.ok 0, c') ∧
      (∀ b ∈ p.blocks, ∃ bytes, lastPayload? b.artifactName p.blocks = some bytes ∧
        c'.machine.Finds directory b.artifactName bytes) ∧
      ((∀ b ∈ p.blocks, ∃ bytes, b.payload? = some bytes ∧ c'.machine.Finds directory b.artifactName bytes) ↔
        ∀ b ∈ p.blocks, ∀ b' ∈ p.blocks, b'.artifactName = b.artifactName → b'.payload? = b.payload?) := by
  obtain ⟨text, hrun⟩ := h.run
  obtain ⟨c', hexport, hfinds⟩ := exists_exportBlocks (c := c.printError text) hpayload hwritable
  refine ⟨c', hrun.trans hexport, hfinds, fun hown b hb b' hb' hname => ?_, fun hsame b hb => ?_⟩
  · -- one file cannot hold two payloads
    obtain ⟨bytes, hbytes, hfound⟩ := hown b hb
    obtain ⟨bytes', hbytes', hfound'⟩ := hown b' hb'
    rw [hname] at hfound'
    rw [hbytes, hbytes', hfound'.unique hfound]
  · obtain ⟨last, hlast, hfound⟩ := hfinds b hb
    obtain ⟨b', hb', hname, hbytes⟩ := exists_of_lastPayload? hlast
    exact ⟨last, (hsame b hb b' hb' hname).symm.trans hbytes, hfound⟩

end Arguments

/-! ### Two blocks -/

/-- A store with one artifact, which has these bytes. -/
def ArtifactStore.exported (name : String) (bytes : List UInt8) : ArtifactStore :=
  (empty (some "c")).put name ⟨.primary, bytes, "fn"⟩

theorem ArtifactStore.get?_exported (name : String) (bytes : List UInt8) :
    (exported name bytes).get? name = some ⟨.primary, bytes, "fn"⟩ := by
  rw [exported, get?_put, if_pos rfl]

/-- A block that was compiled to these bytes. -/
def Block.exported (id : BlockId) (bytes : List UInt8) : Block :=
  { id, fragments := {}, shape := .standard,
    state := .compiled ⟨id.artifactName, "fn", ∅, ""⟩ (.exported id.artifactName bytes) }

theorem Block.wellFormed_exported (id : BlockId) (bytes : List UInt8) : (exported id bytes).WellFormed where
  hashes := List.Pairwise.nil
  primary := by
    rintro s ⟨⟩
    exact ⟨_, ArtifactStore.get?_exported id.artifactName bytes⟩
  named := by
    rintro record ⟨⟩
    rfl

theorem Block.payload?_exported (id : BlockId) (bytes : List UInt8) :
    (exported id bytes).payload? = some bytes := by
  have hstore : (exported id bytes).state.store? = some (.exported id.artifactName bytes) := rfl
  have hname : (exported id bytes).artifactName = id.artifactName := rfl
  rw [payload?, hstore, hname, Option.bind_some, ArtifactStore.get?_exported, Option.map_some]

/-- A block with a short library can be stored. -/
theorem Block.storable_exported {id : BlockId} {bytes : List UInt8}
    (hname : (Text.Utf8.encode id.artifactName).length < BigEndian.capacity 4)
    (hbytes : bytes.length < BigEndian.capacity 4) : (exported id bytes).Storable := by
  refine ⟨SignalShape.storable_standard, ?_⟩
  rintro s ⟨⟩
  have hsource : (Text.Utf8.encode "fn").length < BigEndian.capacity 4 := by decide
  exact ArtifactStore.storable_put_empty (by decide) ⟨hname, hbytes, hsource⟩

theorem Block.Reloaded.payload? {r : Registry} {b b' : Block} (h : b.Reloaded r b') :
    b'.payload? = b.payload? := by
  rw [Block.payload?, Block.payload?, h.store, artifactName, artifactName, h.id]

/-- The command that exports the project in `p` to the directory `d`. -/
def Arguments.exporting : Arguments where
  project := "p"
  block := none
  stage := .exportLibraries
  inputs := ""
  steps := 0
  dt := 0
  force := false
  compiler := none
  libraryPaths := []
  toolchain := none
  outputDirectory := some "d"
  verbose := false

/-- A machine with that project and an empty directory. -/
def Console.exporting (p : Project) : Console where
  machine := { Machine.willing [] with
    files := ⟨[("p", .file (Text.Utf8.encode p.text)), ("d", .directory [])]⟩ }

theorem Project.load_exporting (p : Project) :
    load "p" none [] (Console.exporting p).machine.files = ofText p.text none := by
  have hread : (Console.exporting p).machine.files.read [] "p" = .ok (Text.Utf8.encode p.text) := rfl
  have htext : (Console.exporting p).machine.files.readText [] "p" = .ok p.text := by
    simp only [FileTree.readText, hread, bind, Except.bind, Text.Utf8.decode?_encode]
    rfl
  rw [load, htext]

/-- Blocks are loaded that were stored without files. -/
theorem Project.exists_ofText_blocks {blocks : List Block} {toolchain : Option String}
    (h : ∀ b ∈ blocks, b.WellFormed ∧ b.Storable ∧ b.SuitsToolchain toolchain) :
    ∃ registry reloaded warnings,
      ofText (text ⟨.empty, blocks⟩) toolchain = .ok (⟨registry, reloaded⟩, warnings) ∧
      List.Forall₂ (Block.Reloaded .empty) blocks reloaded := by
  have htext := ofText_text (p := ⟨.empty, blocks⟩) (fun b hb => (h b hb).2.1) toolchain
  obtain ⟨hreloaded, -⟩ := ProjectRecord.reloaded_restoreAll Registry.Keyed.empty rfl h
  exact ⟨_, _, _, htext, hreloaded⟩

theorem Console.takes_exporting (p : Project) {file : String} (hcheck : Path.check (Path.join "d" file) = .ok ())
    (hshort : file.utf8ByteSize ≤ Path.nameLimit) : (exporting p).machine.files.Takes [] "d" ["d"] file where
  check := hcheck
  around := rfl
  directory := ⟨[], rfl⟩
  short := hshort
  free := .inl rfl

/-- A block `a-b` and another one, which were compiled to different bytes, are loaded, and all are exported. -/
theorem Arguments.exists_exporting (other : BlockId)
    (hother : (Text.Utf8.encode other.artifactName).length < BigEndian.capacity 4)
    (hcheck : Path.check (Path.join "d" (libraryFileName other.artifactName)) = .ok ())
    (hshort : (libraryFileName other.artifactName).utf8ByteSize ≤ Path.nameLimit) :
    ∃ (c : Console) (p : Project) (b b' : Block), p.blocks = [b, b'] ∧ exporting.Exports c "d" p ∧
      c.machine.files.Writable c.machine.here "d" (p.blocks.map (·.artifactName)) ∧
      b.id = "a-b" ∧ b'.id = other ∧ b.payload? = some [1] ∧ b'.payload? = some [2] := by
  let p : Project := ⟨.empty, [.exported "a-b" [1], .exported other [2]]⟩
  have hfine : ∀ b ∈ p.blocks, b.WellFormed ∧ b.Storable ∧ b.SuitsToolchain none := by
    refine List.forall_mem_cons.2 ⟨?_, List.forall_mem_cons.2 ⟨?_, fun _ h => nomatch h⟩⟩
    · exact ⟨Block.wellFormed_exported _ _, Block.storable_exported (by decide) (by decide),
        fun _ _ _ _ => .inl rfl⟩
    · exact ⟨Block.wellFormed_exported _ _, Block.storable_exported hother (by decide),
        fun _ _ _ _ => .inl rfl⟩
  obtain ⟨registry, reloaded, warnings, htext, hblocks⟩ := Project.exists_ofText_blocks hfine
  cases hblocks with
  | @cons _ b _ _ hb hrest =>
    cases hrest with
    | @cons _ b' _ _ hb' hnone =>
      cases hnone
      -- any name without a slash that is short enough can be written
      have hwrites : ∀ {name : String}, Path.check (Path.join "d" (libraryFileName name)) = .ok () →
          (libraryFileName name).utf8ByteSize ≤ Path.nameLimit → '/' ∉ name.toList → ∃ files,
          (Console.exporting p).machine.files.write [] (Path.join "d" (libraryFileName name)) [] = .ok files :=
        fun hcheck hshort hname => ⟨_, (FileTree.write_join_eq_ok (isName_libraryFileName hname)).2
          ⟨_, Console.takes_exporting p hcheck hshort, rfl⟩⟩
      refine ⟨.exporting p, ⟨registry, [b, b']⟩, b, b', rfl, ⟨rfl, rfl, rfl, ⟨_, rfl⟩, warnings, ?_⟩, ?_, hb.id,
        hb'.id, ?_, ?_⟩
      · exact p.load_exporting.trans htext
      · refine ⟨(Console.exporting p).machine.files, FileTree.createDirectories_of_ready (.inr rfl), ?_⟩
        have hname : b.artifactName = BlockId.artifactName "a-b" := congrArg BlockId.artifactName hb.id
        have hname' : b'.artifactName = other.artifactName := congrArg BlockId.artifactName hb'.id
        rw [List.map_cons, List.map_cons, hname, hname']
        refine List.forall_mem_cons.2 ⟨?_, List.forall_mem_cons.2 ⟨?_, fun _ h => nomatch h⟩⟩
        · exact hwrites rfl (by decide) (by decide)
        · exact hwrites hcheck hshort other.not_slash_artifactName
      · exact hb.payload?.trans (Block.payload?_exported "a-b" [1])
      · exact hb'.payload?.trans (Block.payload?_exported other [2])

/-- Blocks `a-b` and `c` are exported, and both of them find their own libraries again. -/
theorem Arguments.run_export_apart : ∃ (a : Arguments) (c c' : Console) (p : Project) (b b' : Block),
    p.blocks = [b, b'] ∧ b.id = "a-b" ∧ b'.id = "c" ∧ a.Exports c "d" p ∧ a.run c = (.ok 0, c') ∧
      b.payload? = some [1] ∧ c'.machine.Finds "d" b.artifactName [1] ∧
      b'.payload? = some [2] ∧ c'.machine.Finds "d" b'.artifactName [2] := by
  obtain ⟨c, p, b, b', hblocks, hexports, hwritable, hb, hb', hone, htwo⟩ :=
    exists_exporting "c" (by decide) rfl (by decide)
  have hpayload : ∀ d ∈ p.blocks, ∃ bytes, d.payload? = some bytes := by
    simp [hblocks, hone, htwo]
  obtain ⟨c', hrun, -, hown⟩ := run_export hexports hpayload hwritable
  have hnames : b.artifactName = "unit_a_b" ∧ b'.artifactName = "unit_c" :=
    ⟨congrArg BlockId.artifactName hb, congrArg BlockId.artifactName hb'⟩
  -- with names apart, no block of another payload shares the name
  have hfound := hown.2 (by simp [hblocks, hnames])
  simp only [hblocks, List.forall_mem_cons, hone, htwo, Option.some.injEq, exists_eq_left'] at hfound
  exact ⟨_, c, c', p, b, b', hblocks, hb, hb', hexports, hrun, hone, hfound.1, htwo, hfound.2.1⟩

/-- Blocks `a-b` and `a.b` are exported to one file, without an error. The first one does not find its library. -/
theorem Arguments.export_overwrites : ∃ (a : Arguments) (c c' : Console) (p : Project) (b b' : Block),
    p.blocks = [b, b'] ∧ b.id = "a-b" ∧ b'.id = "a.b" ∧ a.Exports c "d" p ∧
      c.machine.files.Writable c.machine.here "d" (p.blocks.map (·.artifactName)) ∧ a.run c = (.ok 0, c') ∧
      b.payload? = some [1] ∧ c'.machine.Finds "d" b.artifactName [2] ∧
      ¬ c'.machine.Finds "d" b.artifactName [1] := by
  obtain ⟨c, p, b, b', hblocks, hexports, hwritable, hb, hb', hone, htwo⟩ :=
    exists_exporting "a.b" (by decide) rfl (by decide)
  have hpayload : ∀ d ∈ p.blocks, ∃ bytes, d.payload? = some bytes := by
    simp [hblocks, hone, htwo]
  obtain ⟨text, hrun⟩ := hexports.run
  obtain ⟨c', hexport, hfinds⟩ := exists_exportBlocks (c := c.printError text) hpayload hwritable
  have hnames : b.artifactName = "unit_a_b" ∧ b'.artifactName = "unit_a_b" :=
    ⟨congrArg BlockId.artifactName hb, congrArg BlockId.artifactName hb'⟩
  -- the second of the two is written last
  have hlast : lastPayload? b.artifactName p.blocks = some [2] := by
    simp [hblocks, lastPayload?, hnames, htwo]
  obtain ⟨bytes, hbytes, hfound⟩ := hfinds b (by simp [hblocks])
  obtain rfl : [2] = bytes := Option.some.inj (hlast.symm.trans hbytes)
  exact ⟨_, c, c', p, b, b', hblocks, hb, hb', hexports, hwritable, hrun.trans hexport, hone, hfound,
    fun hfirst => nomatch hfirst.unique hfound⟩

end CircuitBlocks
