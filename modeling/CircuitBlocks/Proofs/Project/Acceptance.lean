import CircuitBlocks.Proofs.Project.Exchange
import CircuitBlocks.Proofs.Project.Linked

/-!
# Acceptance — outcomes that come back late

A block takes the outcome of a job if its code, its ports and the hashes of its files are those of the job.
Whether it is fresh then goes by the crates of its files, which are named for the files and not for the hashes.
Hash and name come apart only where a file is dropped and its contents are registered under another name.

* `Block.apply_fresh_iff` — a block that takes an outcome is fresh just if it has the crates of the job.
* `Project.Changes.forall₂_files` — a file with a hash that was not dropped is the same file.
* **`Project.Managed.staleness_of_apply`** — which blocks are fresh after they have taken an outcome.
* `Project.exists_apply_stale` — a file comes back under another name, and the block is stale at once.
-/

namespace CircuitBlocks

/-! ## Blocks -/

namespace Block

variable {b₀ b b' : Block} {outcome : CompileOutcome}

/-- A block takes the outcome of the job of another one if the two differ in nothing but their compile states,
their runs and the names of their files. -/
theorem apply_job_eq_true (h : b.apply b₀.job outcome = (true, b')) :
    b.id = b₀.id ∧ b.fragments = b₀.fragments ∧ b.shape = b₀.shape ∧ b.hashes = b₀.hashes ∧
      b' = { b with state := b.state.settle b₀.job outcome } := by
  unfold apply at h
  split at h
  · next hmatch =>
    obtain ⟨hid, hfragments, hshape, hhashes⟩ := matchesJob_iff.1 hmatch
    exact ⟨hid.symm, hfragments.symm, hshape.symm, hhashes.symm, (congrArg Prod.snd h).symm⟩
  · cases h

/-- The text of such a block is that of the job, so that only the crates can differ. -/
theorem apply_fresh_iff (h : b.apply b₀.job outcome = (true, b')) :
    b'.source = b₀.source ∧ (b'.staleness = .fresh ↔ b'.crates = b₀.crates) := by
  obtain ⟨hid, hfragments, hshape, -, rfl⟩ := apply_job_eq_true h
  have hsource : b.source = b₀.source := by
    rw [source, source, artifactName, artifactName, hid, hfragments, hshape]
  refine ⟨hsource, ?_⟩
  -- the record that was left is the job's, so the unit is the same and the names are to be compared
  rw [staleness_eq_fresh_iff, CompileState.record?_settle]
  constructor
  · rintro ⟨r, hr, -, hcrates⟩
    obtain rfl := Option.some.inj hr
    exact hcrates.symm
  · intro hcrates
    refine ⟨b₀.job.record outcome.message, rfl, ?_, hcrates.symm⟩
    show unitText b₀.fragments b₀.shape b₀.artifactName = unitText b.fragments b.shape b₀.artifactName
    rw [hfragments, hshape]

/-- If it has another crate than the job, it is stale for that. -/
theorem auxiliaryAdded_of_apply (h : b.apply b₀.job outcome = (true, b')) {added : String}
    {rest : List String} (hadded : b'.crates.missingFrom b₀.crates = added :: rest) :
    b'.staleness = .auxiliaryAdded added := by
  obtain ⟨-, hfragments, hshape, -, rfl⟩ := apply_job_eq_true h
  rw [staleness, Staleness.check, CompileState.record?_settle]
  refine Staleness.ofRecord_eq_added ?_ hadded
  show unitText b₀.fragments b₀.shape b₀.artifactName = unitText b.fragments b.shape b₀.artifactName
  rw [hfragments, hshape]

end Block

/-! ## Projects -/

/-- Lists whose elements agree in their images are related if the elements that agree are. -/
theorem forall₂_of_map_eq {α β γ : Type} {f : α → γ} {g : β → γ} {R : α → β → Prop} {as : List α}
    {bs : List β} (h : as.map f = bs.map g) (hR : ∀ a ∈ as, ∀ b ∈ bs, f a = g b → R a b) :
    List.Forall₂ R as bs := by
  induction as generalizing bs with
  | nil =>
    cases bs with
    | nil => exact .nil
    | cons b bs => cases h
  | cons a as ih =>
    cases bs with
    | nil => cases h
    | cons b bs =>
      obtain ⟨hhead, htail⟩ := List.cons.inj h
      exact .cons (hR a List.mem_cons_self b List.mem_cons_self hhead)
        (ih htail fun a' ha' b' hb' => hR a' (List.mem_cons_of_mem _ ha') b' (List.mem_cons_of_mem _ hb'))

namespace Project

variable {p₀ p : Project} {b₀ b b' : Block} {dropped : List FileHash} {outcome : CompileOutcome}

/-- What is attached by one hash, earlier and later, is one file, unless the hash was dropped in between. -/
theorem Changes.forall₂_files (hp : p₀.Managed) (hchanges : p₀.Changes dropped p) (hb₀ : b₀ ∈ p₀.blocks)
    (hb : b ∈ p.blocks) (hhashes : b.hashes = b₀.hashes) :
    List.Forall₂ (fun f g => f = g ∨ f.hash ∈ dropped) b₀.files b.files := by
  have hbefore := (hp.linked.links b₀ hb₀).registered
  have hafter := ((hchanges.managed hp).linked.links b hb).registered
  refine forall₂_of_map_eq hhashes.symm fun f hf g hg heq => ?_
  by_cases hkept : f.hash ∈ dropped
  · exact .inr hkept
  · have hfile : p.registry.file? f.hash = some f := hchanges.file? (hbefore f hf) hkept
    exact .inl (Option.some.inj (hfile.symm.trans (heq ▸ hafter g hg)))

/-- **What an outcome is taken for.** A job is taken from a block, and later a block of the project takes an
outcome for it. It has the text and the hashes of the job then, and it is fresh just if it has the crates of
the job. Each of its files is that of the job, or has been dropped since the job was made; so if none of them
has been dropped, the block is fresh. -/
theorem Managed.staleness_of_apply (hp : p₀.Managed) (hb₀ : b₀ ∈ p₀.blocks) (hchanges : p₀.Changes dropped p)
    (hb : b ∈ p.blocks) (h : b.apply b₀.job outcome = (true, b')) :
    b'.source = b₀.source ∧ b'.hashes = b₀.hashes ∧ (b'.staleness = .fresh ↔ b'.crates = b₀.crates) ∧
      List.Forall₂ (fun f g => f = g ∨ f.hash ∈ dropped) b₀.files b'.files ∧
      ((∀ f ∈ b₀.files, f.hash ∉ dropped) → b'.staleness = .fresh) := by
  obtain ⟨hsource, hfresh⟩ := Block.apply_fresh_iff h
  obtain ⟨-, -, -, hhashes, rfl⟩ := Block.apply_job_eq_true h
  have hfiles := hchanges.forall₂_files hp hb₀ hb hhashes
  refine ⟨hsource, hhashes, hfresh, hfiles, fun hkept => hfresh.2 ?_⟩
  have hsame : List.Forall₂ (· = ·) b₀.files b.files :=
    ((List.forall₂_and_left _ _).2 ⟨hkept, hfiles⟩).imp fun f g hfg => hfg.2.resolve_right hfg.1
  rw [List.forall₂_eq_eq_eq] at hsame
  exact congrArg crateNames hsame.symm

/-! ### One block with one file -/

/-- The registry of one file that a block has attached, and the block. -/
def single (f : AuxiliaryFile) (b : Block) : Project :=
  ⟨.single f (SortedMap.insert ∅ b.id ()), [{ b with files := [f] }]⟩

theorem change_attach_single {b : Block} (hb : b.files = []) (f : AuxiliaryFile) :
    Change ⟨.single f ∅, [b]⟩ [] (single f b) :=
  .perform_head (.attach f.hash) (by rw [Block.perform, Block.attach_single hb]; rfl)

theorem managed_single {f : AuxiliaryFile} (hf : isCrateName f.crate = true) (id : BlockId)
    (fragments : Fragments) (shape : SignalShape) : (single f { id, fragments, shape }).Managed := by
  have hinserted : Managed ⟨.single f ∅, []⟩ := .change .empty (.insert (Registry.insert_empty hf))
  have hcreated : Managed ⟨.single f ∅, [{ id, fragments, shape }]⟩ :=
    hinserted.change (.create fragments shape fun _ hb => nomatch hb)
  exact hcreated.change (change_attach_single rfl f)

/-- The file is detached and dropped, and another one is attached in its place. -/
theorem exists_changes_single (f : AuxiliaryFile) {g : AuxiliaryFile} (hg : isCrateName g.crate = true)
    {b : Block} (hb : b.files = []) : ∃ dropped, (single f b).Changes dropped (single g b) := by
  let detached : Registry := .single f ((SortedMap.insert ∅ b.id ()).erase b.id)
  have hdetached : Change (single f b) [] ⟨detached, [b]⟩ := by
    refine .perform_head (.detach f.hash) ?_
    rw [Block.perform, Block.detach_single rfl, ← hb]
  have hpruned : Change ⟨detached, [b]⟩ detached.unused ⟨.empty, [b]⟩ := by
    rw [← Registry.prune_single f (Registry.size_erase_insert b.id)]
    exact .prune
  have hinserted : Change ⟨.empty, [b]⟩ [] ⟨.single g ∅, [b]⟩ := .insert (Registry.insert_empty hg)
  exact ⟨_, (((Changes.refl.change hdetached).change hpruned).change hinserted).change (change_attach_single hb g)⟩

end Project

/-- A block with one file. -/
def Block.holding (f : AuxiliaryFile) : Block := { id := "b", fragments := {}, shape := .standard, files := [f] }

/-- The name of its file does not count when it takes an outcome. -/
theorem Block.exists_apply_holding {f g : AuxiliaryFile} (h : f.contents = g.contents) (outcome : CompileOutcome) :
    ∃ b', (holding g).apply (holding f).job outcome = (true, b') ∧ b'.crates = NameSet.ofList [g.crate] := by
  have hhash : f.hash = g.hash := congrArg Sha256.hexOfText h
  have hmatch : (holding g).matchesJob (holding f).job = true :=
    matchesJob_iff.2 ⟨rfl, rfl, rfl, congrArg (fun hash => [hash]) hhash⟩
  exact ⟨_, by rw [Block.apply, if_pos hmatch], rfl⟩

namespace Project

theorem mem_single (f : AuxiliaryFile) : Block.holding f ∈ (single f (.bare {})).blocks :=
  List.mem_singleton_self _

/-- The code of the block is edited and edited back, and unused files are dropped in between. -/
theorem exists_changes_edited_back {f : AuxiliaryFile} (hp : (single f (.bare {})).Managed) :
    ∃ p dropped, (single f (.bare {})).Changes dropped p ∧ Block.holding f ∈ p.blocks ∧ f.hash ∉ dropped := by
  let r := (single f (.bare {})).registry
  let b := Block.holding f
  have hedited : Change (single f (.bare {})) [] ⟨r, [b.setFragment .body "return"]⟩ :=
    .perform_head (.edit (.fragment .body "return")) rfl
  have hback : Change ⟨r.prune, [b.setFragment .body "return"]⟩ [] ⟨r.prune, [b]⟩ :=
    .perform_head (.edit (.fragment .body "")) rfl
  have hkept : f.hash ∉ r.unused :=
    Registry.not_mem_unused ((hp.linked.links b (mem_single f)).hasUser (List.mem_singleton_self f))
  refine ⟨_, _, ((Changes.refl.change hedited).change .prune).change hback, List.mem_singleton_self b, ?_⟩
  rw [List.append_nil, List.nil_append, List.nil_append]
  exact hkept

/-- The outcome of the job that was made before is taken, and the block is fresh. -/
theorem staleness_of_apply_edited_back : ∃ (p₀ p : Project) (dropped : List FileHash),
    p₀.Managed ∧ p₀.Changes dropped p ∧
    Block.holding ⟨"util.rs", "A"⟩ ∈ p₀.blocks ∧ Block.holding ⟨"util.rs", "A"⟩ ∈ p.blocks ∧
    ∃ b', (Block.holding ⟨"util.rs", "A"⟩).apply (Block.holding ⟨"util.rs", "A"⟩).job (.fail []) = (true, b') ∧
      b'.staleness = .fresh := by
  let f : AuxiliaryFile := ⟨"util.rs", "A"⟩
  have hp : (single f (.bare {})).Managed := managed_single (by decide) "b" {} .standard
  obtain ⟨p, dropped, hchanges, hmem, hkept⟩ := exists_changes_edited_back hp
  obtain ⟨b', happly, -⟩ := Block.exists_apply_holding (f := f) (g := f) rfl (.fail [])
  obtain ⟨-, -, -, -, hfresh⟩ := hp.staleness_of_apply (mem_single f) hchanges hmem happly
  exact ⟨_, p, dropped, hp, hchanges, mem_single f, hmem, b', happly, hfresh (List.forall_mem_singleton.2 hkept)⟩

/-- The contents of `util.rs` come back as `tools.rs`. The outcome of the job that was made before is taken,
and the block is stale at once. -/
theorem exists_apply_stale : ∃ (p₀ p : Project) (dropped : List FileHash),
    p₀.Managed ∧ p₀.Changes dropped p ∧
    Block.holding ⟨"util.rs", "A"⟩ ∈ p₀.blocks ∧ Block.holding ⟨"tools.rs", "A"⟩ ∈ p.blocks ∧
    ∀ outcome, ∃ b', (Block.holding ⟨"tools.rs", "A"⟩).apply (Block.holding ⟨"util.rs", "A"⟩).job outcome
        = (true, b') ∧ b'.staleness = .auxiliaryAdded "tools" := by
  let f : AuxiliaryFile := ⟨"util.rs", "A"⟩
  let g : AuxiliaryFile := ⟨"tools.rs", "A"⟩
  obtain ⟨dropped, hchanges⟩ := exists_changes_single f (g := g) (by decide) (b := .bare {}) rfl
  have hp : (single f (.bare {})).Managed := managed_single (by decide) "b" {} .standard
  refine ⟨_, _, dropped, hp, hchanges, mem_single f, mem_single g, fun outcome => ?_⟩
  obtain ⟨b', happly, hcrates⟩ := Block.exists_apply_holding (f := f) (g := g) rfl outcome
  have hadded : (NameSet.ofList [g.crate]).missingFrom (NameSet.ofList [f.crate]) = ["tools"] := by decide
  exact ⟨b', happly, Block.auxiliaryAdded_of_apply happly (hcrates ▸ hadded)⟩

end Project

end CircuitBlocks
