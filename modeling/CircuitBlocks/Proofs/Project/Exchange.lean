import CircuitBlocks.Proofs.Project.Trace

/-!
# Exchanges — files that are exchanged behind a compile

A file that was compiled may be detached and dropped, and another one with the same crate name attached in
its place. The block's text and crates are what they were.

* **`TracedProject.exists_exchanged`** — a block stays fresh when a file is exchanged like this.
* `Block.exists_outcome_withFile` — a block with a file compiles on the willing machine.
-/

namespace CircuitBlocks

/-! ## One registered file -/

namespace Registry

/-- The registry of one file and the blocks that use it. -/
def single (f : AuxiliaryFile) (users : NameSet) : Registry := ⟨SortedMap.insert ∅ f.hash ⟨f, users⟩⟩

theorem insert_empty {f : AuxiliaryFile} (hf : isCrateName f.crate = true) :
    Registry.empty.insert f = .ok (f.hash, single f ∅) := by
  simp [insert, hf, empty, single]

theorem changeUsers_single (f : AuxiliaryFile) (users : NameSet) (change : NameSet → NameSet) :
    (single f users).changeUsers f.hash change = .ok (single f (change users)) := by
  have hreplace : ∀ e e' : RegistryEntry, (SortedMap.insert (SortedMap.insert ∅ f.hash e) f.hash e')
      = SortedMap.insert ∅ f.hash e' := by
    intro e e'
    refine SortedMap.ext_get? fun k => ?_
    simp only [SortedMap.get?_insert]
    split <;> rfl
  simp [changeUsers, single, hreplace]

theorem prune_single (f : AuxiliaryFile) {users : NameSet} (h : users.size = 0) :
    (single f users).prune = Registry.empty := by
  simp [prune, single, empty, SortedMap.filter, SortedMap.insert, h, SortedMap.insertEntry,
    EmptyCollection.emptyCollection, SortedMap.empty]

theorem size_erase_insert (id : BlockId) :
    (SortedMap.erase (SortedMap.insert (∅ : NameSet) id ()) id).size = 0 := by
  simp [SortedMap.erase, SortedMap.filter, SortedMap.size, SortedMap.insert, SortedMap.insertEntry,
    EmptyCollection.emptyCollection, SortedMap.empty]

end Registry

namespace Block

theorem attach_single {b : Block} (hb : b.files = []) (f : AuxiliaryFile) :
    b.attach (.single f ∅) f.hash
      = .ok ({ b with files := [f] }, .single f (SortedMap.insert ∅ b.id ())) := by
  have hget : (Registry.single f ∅).get f.hash = .ok f := by
    simp [Registry.get, Registry.single]
  have huser := Registry.changeUsers_single f ∅ fun users => users.insert b.id ()
  unfold attach
  rw [if_neg (by simp [hashes, hb]), hget]
  show (Registry.changeUsers _ _ _).map _ = _
  rw [huser, hb]
  rfl

theorem detach_single {b : Block} {f : AuxiliaryFile} (hb : b.files = [f]) (users : NameSet) :
    b.detach (.single f users) f.hash
      = (.ok (), { b with files := [] }, .single f (users.erase b.id)) := by
  have huser := Registry.changeUsers_single f users fun users => users.erase b.id
  have hfiles : (b.files.filter fun g => g.hash ≠ f.hash) = [] := by
    simp [hb]
  simp only [detach, Registry.removeUser, hfiles, huser]

end Block

/-! ## Exchanging a file -/

/-- A file may be exchanged for another one with its crate name, and the block stays fresh. -/
theorem TracedProject.exists_exchanged {f g : AuxiliaryFile} (hf : isCrateName f.crate = true)
    (hcrate : g.crate = f.crate) {id : BlockId} {fragments : Fragments} {shape : SignalShape} {b : Block}
    (hb : b = { id, fragments, shape, files := [f] }) {toolchain : Toolchain} {m : Machine}
    {outcome : CompileOutcome} (hrun : b.outcome? toolchain m = some outcome) :
    ∃ p t, Reachable p ∧ t ∈ p.blocks ∧ t.block = { b.settleOwn (some outcome) with files := [g] } ∧
      t.block.staleness = .fresh ∧ t.described = some ⟨b.job, [g], false⟩ := by
  subst hb
  let t₀ : TracedBlock := { block := { id, fragments, shape } }
  have h₀ : Reachable ⟨.single f ∅, [t₀]⟩ :=
    (Reachable.empty.insert (Registry.insert_empty hf)).create id fragments shape
  -- the first file is attached, compiled, detached and dropped
  let t₁ := t₀.follow { t₀.block with files := [f] }
  have h₁ : Reachable ⟨.single f (SortedMap.insert ∅ id ()), [t₁]⟩ :=
    h₀.block (i := 0) rfl (.attach (Block.attach_single rfl f))
  let t₂ := t₁.settle (.now t₁.block) outcome
  have h₂ : Reachable ⟨.single f (SortedMap.insert ∅ id ()), [t₂]⟩ := by
    have hcompiled := h₁.block (i := 0) rfl (.compile toolchain m)
    rw [show t₁.block.outcome? toolchain m = some outcome from hrun] at hcompiled
    exact hcompiled
  let t₃ := t₂.follow { t₂.block with files := [] }
  have h₃ : Reachable ⟨.empty, [t₃]⟩ := by
    rw [← Registry.prune_single f (Registry.size_erase_insert id)]
    exact (h₂.block (i := 0) rfl (.detach (Block.detach_single rfl _))).prune
  -- the second one takes its place
  let t₄ := t₃.follow { t₃.block with files := [g] }
  have h₄ : Reachable ⟨_, [t₄]⟩ :=
    (h₃.insert (Registry.insert_empty (hcrate ▸ hf))).block (i := 0) rfl
      (.attach (Block.attach_single rfl g))
  refine ⟨_, t₄, h₄, List.mem_singleton_self t₄, rfl, ?_, rfl⟩
  refine Block.staleness_eq_fresh_iff.2 ⟨_, CompileState.record?_settle _ _ _, rfl, ?_⟩
  show NameSet.ofList [f.crate] = NameSet.ofList [g.crate]
  rw [hcrate]

/-! ## A block with a file -/

/-- A block with the file `u.rs`. -/
def Block.withFile (contents : String) : Block :=
  { id := "b", fragments := {}, shape := .standard, files := [⟨"u.rs", contents⟩] }

theorem Block.artifactName_withFile (contents : String) : (withFile contents).artifactName = "unit_b" := by
  have hname : BlockId.artifactName "b" = "unit_b" := by decide
  exact hname

/-- A library with the name of the unit is left by the compile of the unit. -/
theorem Block.collect_withFile (contents : String) {p : CompileProgress}
    (hp : p.scratch = [("libunit_b.so", [])]) :
    (withFile contents).job.request.collect .willing p
      = .succeed (.willing (withFile contents).source) p.diagnostics := by
  have hother : (withFile contents).job.request.auxiliary? "unit_b" = none := by
    have hcrate : ¬ AuxiliaryFile.crate ⟨"u.rs", contents⟩ = "unit_b" := by
      show ¬ (Path.fileStem? "u.rs").getD "u.rs" = "unit_b"
      decide
    show List.find? _ [_] = none
    rw [List.find?_cons_of_neg (by rw [decide_eq_false hcrate]; exact Bool.false_ne_true)]
    rfl
  exact CompileRequest.collect_willing (artifactName_withFile contents) hother hp

/-- All calls for a block with one file succeed, and leave the library of the unit. -/
theorem Block.callAll_withFile (contents : String) :
    ∃ p, Toolchain.willing.callAll (withFile contents).job.request ⟨.willing [], [], []⟩ = (.ok true, p) ∧
      p.scratch = [("libunit_b.so", [])] := by
  let b := withFile contents
  let file : AuxiliaryFile := ⟨"u.rs", contents⟩
  let fileTask : CompileTask := ⟨"u", "rlib", contents, "libu.rlib", []⟩
  let unitTask : CompileTask := ⟨"unit_b", "cdylib", b.source, "libunit_b.so", ["u"]⟩
  -- the sources are taken out before the arguments are evaluated
  have hfile : (fileTask.arguments Toolchain.willing.config "/s").any (fun a => '\x00' ∈ a.toList)
      = false := by
    rw [CompileTask.arguments_mk]
    decide
  have hunit : (unitTask.arguments Toolchain.willing.config "/s").any (fun a => '\x00' ∈ a.toList)
      = false := by
    rw [CompileTask.arguments_mk]
    decide
  obtain ⟨p₁, calls, hfirst, hmachine, -⟩ :=
    Toolchain.call_willing fileTask (p := ⟨.willing [], [], []⟩) rfl hfile
  obtain ⟨p₂, -, hlast, -, hscratch⟩ := Toolchain.call_willing unitTask hmachine hunit
  refine ⟨p₂, ?_, hscratch⟩
  have hcrate : file.crate = "u" := by
    have hstem : (Path.fileStem? "u.rs").getD "u.rs" = "u" := by decide
    exact hstem
  have hfiles : Toolchain.willing.callAuxiliaries [] [file] ⟨.willing [], [], []⟩ = (.ok true, p₁) := by
    have hvalid : isCrateName "u" = true := by decide
    have htask : file.task [] = fileTask := by
      rw [AuxiliaryFile.task, hcrate]
      rfl
    simp only [Toolchain.callAuxiliaries, hcrate, hvalid, htask, hfirst]
    rfl
  have htask : b.job.request.primaryTask (b.job.request.auxiliaries.map (·.crate)) = unitTask := by
    have hlibrary : libraryFileName "unit_b" = "libunit_b.so" := by decide
    show CompileTask.mk b.artifactName _ _ (libraryFileName b.artifactName) [file.crate] = _
    rw [artifactName_withFile, hcrate, hlibrary]
    rfl
  rw [Toolchain.callAll_of_auxiliaries hfiles]
  show Toolchain.willing.call _ p₁ = _
  rw [htask, hlast]

/-- A block with one file compiles on that machine. -/
theorem Block.exists_outcome_withFile (contents : String) :
    ∃ s diagnostics primary, (withFile contents).outcome? .willing (.willing [])
        = some (.succeed s diagnostics) ∧ s.get? "unit_b" = some primary ∧ primary.kind = .primary := by
  obtain ⟨p, hall, hscratch⟩ := callAll_withFile contents
  refine ⟨.willing (withFile contents).source, p.diagnostics, _, ?_, ArtifactStore.get?_willing _, rfl⟩
  show ((withFile contents).job.request.run Toolchain.willing (.willing [])).1.toOption = _
  rw [CompileRequest.run, hall, ← collect_withFile contents hscratch]
  rfl

end CircuitBlocks
