import CircuitBlocks.Proofs.Compilation.Attribution
import CircuitBlocks.Proofs.Project.Exchange

/-!
# Provenance — what a fresh block was compiled from

The staleness compares the text of the unit and the set of crate names. It does not look at the contents
of the files, so a file may be exchanged for another one with the same crate name.

* `TracedBlock.Sound` — what every step preserves: the record is that of the attempt it describes, or was
  read off the artifacts of the attempt that built them.
* `TracedBlock.Describes` — how far an attempt agrees with the inputs that a block has now.
* **`TracedProject.Reachable.fresh_describes`** — a fresh block was compiled from the text and the crates
  that it has now, and from the files that it has now unless they were attached later; and only a library
  of such an attempt is started.
-/

namespace CircuitBlocks

/-! ## Attempts -/

namespace Attempt

variable {a : Attempt} {s : ArtifactStore}

theorem Built.ran (h : a.Built s) : a.Ran := by
  obtain ⟨t, m, diagnostics, message, m', hrun⟩ := h
  exact ⟨t, m, _, m', hrun⟩

theorem Built.sourced (h : a.Built s) : a.request.Sourced s := by
  obtain ⟨t, m, diagnostics, message, m', hrun⟩ := h
  exact CompileRequest.sourced_of_run hrun

end Attempt

namespace TracedBlock

/-! ## What every step preserves -/

/-- The record is that of an attempt. -/
def RecordOf (t : TracedBlock) (a : Attempt) : Prop :=
  ∀ r, t.block.state.record? = some r → ∃ message, r = a.job.record message

/-- The record was read off the artifacts. -/
def RecordOfStore (t : TracedBlock) : Prop :=
  ∀ r, t.block.state.record? = some r → ∃ s primary message, t.block.state.store? = some s ∧
    s.get? t.block.artifactName = some primary ∧
    r = { BlockRecord.attempt t.block.artifactName primary.source s with message }

/-- What holds of a block and its attempts after every step. -/
structure Sound (t : TracedBlock) : Prop where
  named : ∀ a ∈ t.attempts, a.request.primaryName = t.block.artifactName
  covers : ∀ a ∈ t.attempts, a.Covers t.block.files
  /-- The record describes an attempt that was made. -/
  direct : t.restored = false → t.block.state.record? ≠ none →
    ∃ a, t.described = some a ∧ a.Ran ∧ t.RecordOf a
  /-- After loading, the attempt that is described is the one that built the artifacts. -/
  restored : t.restored = true → t.described = t.built ∧ t.RecordOfStore
  store : ∀ s, t.block.state.store? = some s → ∃ a, t.built = some a ∧ a.Built s
  /-- The artifacts of a success come from the attempt that succeeded. -/
  success : ∀ r s, t.block.state = .compiled r s → t.described = t.built

variable {t : TracedBlock}

theorem Sound.create (id : BlockId) (fragments : Fragments) (shape : SignalShape) :
    Sound { block := { id, fragments, shape } } where
  named := fun _ h => nomatch h
  covers := fun _ h => nomatch h
  direct := fun _ h => absurd rfl h
  restored := fun h => nomatch h
  store := fun _ h => nomatch h
  success := fun _ _ _ => rfl

/-! ### Other operations than compiles -/

/-- The attempts that are followed are the earlier ones, with the files that came since. -/
theorem mem_attempts_follow {b : Block} {a : Attempt} (ha : a ∈ (t.follow b).attempts) :
    ∃ earlier ∈ t.attempts, a = earlier.attach (b.files.filter fun f => f ∉ t.block.files) := by
  have hattempts : (t.follow b).attempts
      = t.attempts.map (.attach (b.files.filter fun f => f ∉ t.block.files)) := by
    unfold attempts follow
    rw [List.map_append, List.map_append]
    cases t.described <;> cases t.built <;> rfl
  rw [hattempts] at ha
  obtain ⟨earlier, hmem, heq⟩ := List.mem_map.1 ha
  exact ⟨earlier, hmem, heq.symm⟩

theorem Sound.named_follow (h : t.Sound) {b : Block} (hid : b.id = t.block.id) :
    ∀ a ∈ (t.follow b).attempts, a.request.primaryName = b.artifactName := by
  intro a ha
  obtain ⟨earlier, hmem, rfl⟩ := mem_attempts_follow ha
  rw [Block.artifactName_eq hid]
  exact h.named earlier hmem

/-- Files that the block has gained are noted, so every attempt still covers its files. -/
theorem Sound.covers_follow (h : t.Sound) (b : Block) :
    ∀ a ∈ (t.follow b).attempts, a.Covers b.files := by
  intro a ha f hf
  obtain ⟨earlier, hmem, rfl⟩ := mem_attempts_follow ha
  by_cases hold : f ∈ t.block.files
  · obtain ⟨g, hg, heq⟩ := h.covers earlier hmem f hold
    exact ⟨g, hg.imp_right (List.mem_append_left _), heq⟩
  · exact ⟨f, .inr (List.mem_append_right _ (List.mem_filter.2 ⟨hf, decide_eq_true hold⟩)), .inl rfl⟩

theorem Sound.store_follow (h : t.Sound) {b : Block} {s : ArtifactStore}
    (hs : t.block.state.store? = some s) : ∃ a, (t.follow b).built = some a ∧ a.Built s := by
  obtain ⟨a, ha, hbuilt⟩ := h.store s hs
  exact ⟨a.attach _, congrArg (Option.map _) ha, hbuilt⟩

/-- A block keeps its provenance when it is not compiled. -/
theorem Sound.follow (h : t.Sound) {b : Block} (hb : t.block.Continues b) : (t.follow b).Sound where
  named := h.named_follow hb.id
  covers := h.covers_follow b
  direct := by
    intro hrestored hsome
    -- the record is the one of before up to its message, and so the same attempt is described
    obtain ⟨r, hr⟩ := Option.ne_none_iff_exists'.1 hsome
    obtain ⟨earlier, hearlier, -⟩ := hb.state.record? hr
    obtain ⟨a, ha, hran, hrecord⟩ := h.direct hrestored (by rw [hearlier]; exact Option.some_ne_none _)
    refine ⟨a.attach _, congrArg (Option.map _) ha, hran, ?_⟩
    intro r hr
    obtain ⟨earlier, hearlier, heq⟩ := hb.state.record? hr
    obtain ⟨message, rfl⟩ := hrecord earlier hearlier
    exact ⟨r.message, heq⟩
  restored := by
    intro hrestored
    obtain ⟨hsame, hrecord⟩ := h.restored hrestored
    refine ⟨congrArg (Option.map _) hsame, ?_⟩
    intro r hr
    obtain ⟨earlier, hearlier, heq⟩ := hb.state.record? hr
    obtain ⟨s, primary, message, hstore, hprimary, rfl⟩ := hrecord earlier hearlier
    have hname : (t.follow b).block.artifactName = t.block.artifactName := Block.artifactName_eq hb.id
    refine ⟨s, primary, r.message, (hb.state.store?_eq hr).trans hstore, ?_, ?_⟩
    · rw [hname]
      exact hprimary
    · rw [hname]
      exact heq
  store := fun s hs => h.store_follow (hb.state.store? hs)
  -- an edit never makes a success, so this one was there before
  success := by
    intro r s hstate
    have hearlier : t.block.state = .compiled r s := by
      have hleaves := hb.state
      rw [show b.state = .compiled r s from hstate] at hleaves
      exact hleaves.compiled
    exact congrArg (Option.map _) (h.success r s hearlier)

/-! ### Compiles -/

/-- A block has the provenance of the outcome that it took. -/
theorem Sound.settle (h : t.Sound) {a : Attempt} {toolchain : Toolchain} {m m' : Machine}
    {outcome : CompileOutcome} (hnamed : a.request.primaryName = t.block.artifactName)
    (hcovers : a.Covers t.block.files) (hrun : a.job.run toolchain m = (.ok outcome, m')) :
    (t.settle a outcome).Sound := by
  -- a failure keeps the earlier artifacts, and with them the attempt that they come from
  have hattempts : ∀ a' ∈ (t.settle a outcome).attempts, a' = a ∨ a' ∈ t.attempts := by
    intro a' ha'
    rcases mem_attempts.1 ha' with hdescribed | hbuilt | hpending
    · exact .inl (Option.some.inj hdescribed).symm
    · cases outcome with
      | success s diagnostics message => exact .inl (Option.some.inj hbuilt).symm
      | failed diagnostics message => exact .inr (mem_attempts.2 (.inr (.inl hbuilt)))
    · exact .inr (mem_attempts.2 (.inr (.inr hpending)))
  exact {
    named := by
      intro a' ha'
      rcases hattempts a' ha' with rfl | hmem
      · exact hnamed
      · exact h.named a' hmem
    covers := by
      intro a' ha'
      rcases hattempts a' ha' with rfl | hmem
      · exact hcovers
      · exact h.covers a' hmem
    direct := by
      intro _ _
      refine ⟨a, rfl, ⟨toolchain, m, outcome, m', hrun⟩, ?_⟩
      intro r hr
      have hsettled := t.block.state.record?_settle a.job outcome
      exact ⟨outcome.message, Option.some.inj (hr.symm.trans hsettled)⟩
    restored := fun hrestored => nomatch hrestored
    store := by
      intro s hs
      cases outcome with
      | success s' diagnostics message =>
        obtain rfl : s' = s := Option.some.inj hs
        exact ⟨a, rfl, toolchain, m, diagnostics, message, m', hrun⟩
      | failed diagnostics message => exact h.store s hs
    success := by
      intro r s hstate
      cases outcome with
      | success s' diagnostics message => rfl
      | failed diagnostics message => cases hstate }

theorem covers_now (b : Block) : (Attempt.now b).Covers b.files := fun f hf => ⟨f, .inl hf, .inl rfl⟩

/-- The outcome of the block's own job is the attempt that describes it. -/
theorem Sound.settleOwn (h : t.Sound) {outcome : Option CompileOutcome}
    (hrun : ∀ o, outcome = some o → ∃ toolchain m m', t.block.job.run toolchain m = (.ok o, m')) :
    (t.settleOwn outcome).Sound := by
  cases outcome with
  | none => exact h
  | some o =>
    obtain ⟨toolchain, m, m', hrun⟩ := hrun o rfl
    exact h.settle (a := .now t.block) rfl (covers_now t.block) hrun

/-- To take a job is to begin an attempt with what the block has now. -/
theorem Sound.request (h : t.Sound) : Sound { t with pending := .now t.block :: t.pending } := by
  -- the new attempt is the only one that is not already sound
  have hattempts : ∀ a ∈ attempts { t with pending := .now t.block :: t.pending },
      a = .now t.block ∨ a ∈ t.attempts := by
    intro a ha
    rcases mem_attempts.1 ha with hdescribed | hbuilt | hpending
    · exact .inr (mem_attempts.2 (.inl hdescribed))
    · exact .inr (mem_attempts.2 (.inr (.inl hbuilt)))
    · rcases List.mem_cons.1 hpending with rfl | hpending
      · exact .inl rfl
      · exact .inr (mem_attempts.2 (.inr (.inr hpending)))
  exact {
    named := by
      intro a ha
      rcases hattempts a ha with rfl | hmem
      · rfl
      · exact h.named a hmem
    covers := by
      intro a ha
      rcases hattempts a ha with rfl | hmem
      · exact covers_now t.block
      · exact h.covers a hmem
    direct := h.direct
    restored := h.restored
    store := h.store
    success := h.success }

/-- The block that a start leaves behind continues the one that it has prepared. -/
theorem Sound.afterStart (h : t.Sound) {context : StartContext} {dt : Float} {m m' : Machine}
    {result : Except RunFault Unit} {b : Block}
    (hstart : t.block.start context dt m = (result, b, m')) : (t.afterStart context m b).Sound := by
  -- a start is a compile, if one is needed, followed by something that is none
  let outcome := { t.block with run := none }.compiles? context.toolchain m
  have hsettled : (t.settleOwn outcome).Sound := h.settleOwn fun o ho => by
    obtain ⟨toolchain, m', hrun⟩ := Block.compiles?_eq_some ho
    exact ⟨toolchain, m, m', hrun⟩
  have hrun : ∀ o, { t.block with run := none }.settleOwn o = { t.block.settleOwn o with run := none } := by
    intro o
    cases o <;> rfl
  have hprepared : t.block.prepared context m = { (t.settleOwn outcome).block with run := none } := by
    rw [block_settleOwn]
    exact hrun outcome
  have hcases := t.block.start_cases context dt m
  rw [hstart, hprepared] at hcases
  refine hsettled.follow ?_
  rcases hcases with ⟨run, rfl⟩ | ⟨e, rfl⟩
  · exact ⟨rfl, .same⟩
  · have hfailed :=
      Block.continues_recordLoadFailure { (t.settleOwn outcome).block with run := none } e
    exact ⟨hfailed.id, hfailed.state⟩

/-! ### Storing and loading -/

theorem mem_attempts_reload {b : Block} {a : Attempt} (ha : a ∈ (t.reload b).attempts) :
    ∃ earlier ∈ t.attempts, a = earlier.reload := by
  have hbuilt : t.built.map .reload = some a → ∃ earlier ∈ t.attempts, a = earlier.reload := by
    intro hmap
    obtain ⟨earlier, hearlier, heq⟩ := Option.map_eq_some_iff.1 hmap
    exact ⟨earlier, mem_attempts.2 (.inr (.inl hearlier)), heq.symm⟩
  -- what is described afterwards is what was built
  rcases mem_attempts.1 ha with hdescribed | hstored | hpending
  · exact hbuilt hdescribed
  · exact hbuilt hstored
  · obtain ⟨earlier, hmem, heq⟩ := List.mem_map.1 hpending
    exact ⟨earlier, mem_attempts.2 (.inr (.inr hmem)), heq.symm⟩

/-- What is loaded has the hash of a file that was attached, so every attempt still covers it. -/
theorem Sound.covers_reload (h : t.Sound) {b : Block} (hb : t.block.Restored b) :
    ∀ a ∈ (t.reload b).attempts, a.Covers b.files := by
  intro a ha f hf
  obtain ⟨earlier, hmem, rfl⟩ := mem_attempts_reload ha
  obtain ⟨stored, hstored, hhash⟩ := hb.files f hf
  obtain ⟨g, hg, hsame⟩ := h.covers earlier hmem stored hstored
  refine ⟨g, hg, .inr ⟨rfl, ?_⟩⟩
  rcases hsame with rfl | ⟨-, heq⟩
  · exact hhash
  · exact hhash.trans heq

/-- A block that was loaded describes the attempt that built its artifacts. -/
theorem Sound.reload (h : t.Sound) {b : Block} (hb : t.block.Restored b) : (t.reload b).Sound := by
  have hname : (t.reload b).block.artifactName = t.block.artifactName := Block.artifactName_eq hb.id
  exact {
    named := by
      intro a ha
      obtain ⟨earlier, hmem, rfl⟩ := mem_attempts_reload ha
      rw [hname]
      exact h.named earlier hmem
    covers := h.covers_reload hb
    direct := fun hrestored => nomatch hrestored
    restored := by
      refine fun _ => ⟨rfl, fun r hr => ?_⟩
      -- a record that is reloaded is made up from the primary artifact
      rcases hb.state with hnone | ⟨s, primary, message, -, hprimary, hstore, hrecord⟩
      · rw [show (t.reload b).block.state = b.state from rfl, hnone] at hr
        cases hr
      · refine ⟨s, primary, message, hstore, ?_, ?_⟩
        · rw [hname]
          exact hprimary
        · rw [hname]
          exact Option.some.inj (hr.symm.trans hrecord)
    store := by
      intro s hs
      rcases hb.state with hnone | ⟨s', primary, message, hstore', hprimary, hstore, hrecord⟩
      · rw [show (t.reload b).block.state = b.state from rfl, hnone] at hs
        cases hs
      · obtain rfl : s' = s := Option.some.inj (hstore.symm.trans hs)
        obtain ⟨a, ha, hbuilt⟩ := h.store s' hstore'
        exact ⟨a.reload, congrArg (Option.map _) ha, hbuilt⟩
    success := fun _ _ _ => rfl }

/-! ### Steps -/

/-- Every step keeps a traced block sound. -/
theorem Sound.step (h : t.Sound) {r r' : Registry} {t' : TracedBlock} (hstep : Step r t r' t') :
    t'.Sound := by
  -- only an accepted outcome, a compile and a start set the state; everything else leaves it alone or drops it
  cases hstep with
  | edit edit => exact h.follow (t.block.continues_edit edit)
  | toVariant shape => exact h.follow (t.block.continues_toVariant shape)
  | reset => exact h.follow t.block.continues_reset
  | attach hattach => exact h.follow (Block.attach_sameButFiles hattach).continues
  | @detach hash _ _ _ hdetach =>
    have hsame := t.block.detach_sameButFiles r hash
    rw [hdetach] at hsame
    exact h.follow hsame.continues
  | @relink hashes _ _ _ hrelink =>
    have hsame := t.block.relink_sameButFiles r hashes
    rw [hrelink] at hsame
    exact h.follow hsame.continues
  | request => exact h.request
  | @accept a _ _ _ _ _ ha hrun _ =>
    have hmem : a ∈ t.attempts := mem_attempts.2 (.inr (.inr ha))
    exact h.settle (h.named a hmem) (h.covers a hmem) hrun
  | compile toolchain m =>
    refine h.settleOwn fun o ho => ?_
    obtain ⟨m', hrun⟩ := Block.outcome?_eq_some ho
    exact ⟨toolchain, m, m', hrun⟩
  | compileIfRequired toolchain m =>
    refine h.settleOwn fun o ho => ?_
    obtain ⟨toolchain', m', hrun⟩ := Block.compiles?_eq_some ho
    exact ⟨toolchain', m, m', hrun⟩
  | start hstart => exact h.afterStart hstart
  | step time dt inputs => exact h.follow (t.block.continues_step time dt inputs)
  | endRun => exact h.follow t.block.continues_endRun

end TracedBlock

/-- A loaded block comes from the one at its place. -/
theorem TracedBlock.mem_reload {ts : List TracedBlock} {bs : List Block}
    (h : List.Forall₂ Block.Restored (ts.map (·.block)) bs) {t : TracedBlock}
    (ht : t ∈ List.zipWith reload ts bs) :
    ∃ t₀ ∈ ts, ∃ b, t₀.block.Restored b ∧ t = t₀.reload b := by
  induction ts generalizing bs with
  | nil => cases ht
  | cons t₀ ts ih =>
    cases h with
    | @cons _ b _ bs hb hbs =>
      rcases List.mem_cons.1 ht with rfl | ht
      · exact ⟨t₀, List.mem_cons_self, b, hb, rfl⟩
      · obtain ⟨t₁, hmem, hrest⟩ := ih hbs ht
        exact ⟨t₁, List.mem_cons_of_mem _ hmem, hrest⟩

/-- All blocks of a traced project are sound. -/
theorem TracedProject.Reachable.sound {p : TracedProject} (hp : Reachable p) :
    ∀ t ∈ p.blocks, t.Sound := by
  induction hp with
  | empty => exact fun _ ht => nomatch ht
  | insert _ _ ih => exact ih
  | prune _ ih => exact ih
  | create id fragments shape _ ih =>
    intro t ht
    rcases List.mem_append.1 ht with ht | ht
    · exact ih t ht
    · rw [List.mem_singleton.1 ht]
      exact .create id fragments shape
  -- a step is made by one block, and the others are as they were
  | block _ hi hstep ih =>
    intro t ht
    rcases List.mem_or_eq_of_mem_set ht with ht | rfl
    · exact ih t ht
    · exact (ih _ (List.mem_of_getElem? hi)).step hstep
  | reload _ hstorable hload ih =>
    intro t ht
    obtain ⟨t₀, hmem, b, hb, rfl⟩ :=
      TracedBlock.mem_reload (Project.restored_of_ofText hstorable hload) ht
    exact (ih t₀ hmem).reload hb

/-! ## Fresh blocks -/

namespace TracedBlock

variable {t : TracedBlock}

/-- How far an attempt agrees with the inputs that a block has now. The exceptions are for a record that
was read off the artifacts: they tell a text by their name and crates by what was left of them. -/
structure Describes (t : TracedBlock) (a : Attempt) : Prop where
  ran : a.Ran
  record : t.RecordOf a ∨ (t.restored = true ∧ t.RecordOfStore ∧
    ∃ s, t.block.state.store? = some s ∧ a.Built s)
  source : a.request.primarySource = t.block.source ∨
    (t.restored = true ∧ ∃ f ∈ a.request.auxiliaries, f.crate = t.block.artifactName)
  /-- Every crate that is attached was compiled. -/
  crates : ∀ f ∈ t.block.files, ∃ g ∈ a.request.auxiliaries, g.crate = f.crate
  /-- Every crate that was compiled is attached. -/
  compiled : ∀ g ∈ a.request.auxiliaries, (∃ f ∈ t.block.files, f.crate = g.crate) ∨
    (t.restored = true ∧ ∀ s, t.block.state.store? = some s →
      g.crate = t.block.artifactName ∨ s.get? g.crate = none)
  /-- Every attached file was compiled or attached since, or loaded by the hash of one that was. -/
  files : a.Covers t.block.files

/-- The record of a job has its text and its crates. -/
theorem Describes.of_record {a : Attempt} (ht : t.Sound) (ha : a ∈ t.attempts) (hran : a.Ran)
    (hrecord : t.RecordOf a) (hfresh : t.block.staleness = .fresh) : t.Describes a := by
  obtain ⟨r, hr, hsource, hcrates⟩ := Block.staleness_eq_fresh_iff.1 hfresh
  obtain ⟨message, rfl⟩ := hrecord r hr
  have hname : a.request.primaryName = t.block.artifactName := ht.named a ha
  have hsource : a.request.primarySource
      = unitText t.block.fragments t.block.shape a.request.primaryName := hsource
  have hcrates : crateNames a.request.auxiliaries = crateNames t.block.files := hcrates
  -- the two sets are compared by their members, since the files may come in another order
  have hiff : ∀ crate, (∃ g ∈ a.request.auxiliaries, g.crate = crate) ↔
      ∃ f ∈ t.block.files, f.crate = crate := by
    intro crate
    rw [← CompileRequest.contains_crateNames, hcrates, CompileRequest.contains_crateNames]
  rw [hname] at hsource
  exact {
    ran := hran
    record := .inl hrecord
    source := .inl hsource
    crates := fun f hf => (hiff f.crate).2 ⟨f, hf, rfl⟩
    compiled := fun g hg => .inl ((hiff g.crate).1 ⟨g, hg, rfl⟩)
    files := ht.covers a ha }

/-- A record that was read off the artifacts has what they tell of the attempt that built them. -/
theorem Describes.of_store {a : Attempt} {s : ArtifactStore} (ht : t.Sound) (ha : a ∈ t.attempts)
    (hrestored : t.restored = true) (hstore : t.block.state.store? = some s) (hbuilt : a.Built s)
    (hfresh : t.block.staleness = .fresh) : t.Describes a := by
  obtain ⟨r, hr, hsource, hcrates⟩ := Block.staleness_eq_fresh_iff.1 hfresh
  obtain ⟨s', primary, message, hstore', hprimary, rfl⟩ := (ht.restored hrestored).2 r hr
  obtain rfl : s' = s := Option.some.inj (hstore'.symm.trans hstore)
  have hsource : primary.source = t.block.source := hsource
  have hcrates : s'.auxiliaryNames t.block.artifactName = crateNames t.block.files := hcrates
  -- the record has the crates of the artifacts, but for the name of the unit
  have hiff : ∀ crate, (∃ f ∈ t.block.files, f.crate = crate) ↔
      crate ≠ t.block.artifactName ∧ (s'.get? crate).isSome ∧
        ∃ g ∈ a.request.auxiliaries, g.crate = crate := by
    intro crate
    rw [← CompileRequest.contains_crateNames, ← hcrates, hbuilt.sourced.contains_auxiliaryNames]
  exact {
    ran := hbuilt.ran
    record := .inr ⟨hrestored, (ht.restored hrestored).2, s', hstore, hbuilt⟩
    source := by
      by_cases hcrate : ∃ f ∈ a.request.auxiliaries, f.crate = t.block.artifactName
      · exact .inr ⟨hrestored, hcrate⟩
      · have hne : ∀ f ∈ a.request.auxiliaries, f.crate ≠ t.block.artifactName :=
          fun f hf heq => hcrate ⟨f, hf, heq⟩
        exact .inl ((hbuilt.sourced.source_of_ne hprimary hne).symm.trans hsource)
    crates := fun f hf => ((hiff f.crate).1 ⟨f, hf, rfl⟩).2.2
    compiled := by
      intro g hg
      by_cases hattached : ∃ f ∈ t.block.files, f.crate = g.crate
      · exact .inl hattached
      · refine .inr ⟨hrestored, fun s'' hs'' => ?_⟩
        obtain rfl : s' = s'' := Option.some.inj (hstore.symm.trans hs'')
        by_cases hname : g.crate = t.block.artifactName
        · exact .inl hname
        · refine .inr (Option.not_isSome_iff_eq_none.1 fun hsome => ?_)
          exact hattached ((hiff g.crate).2 ⟨hname, hsome, g, hg, rfl⟩)
    files := ht.covers a ha }

/-- The attempt that a fresh block's record describes agrees with the block. -/
theorem Sound.describes (ht : t.Sound) (hfresh : t.block.staleness = .fresh) :
    ∃ a, t.described = some a ∧ t.Describes a := by
  obtain ⟨r, hr, -, -⟩ := Block.staleness_eq_fresh_iff.1 hfresh
  have hsome : t.block.state.record? ≠ none := by
    rw [hr]
    exact Option.some_ne_none r
  -- the record is that of its attempt, unless it was read off the artifacts
  cases hrestored : t.restored with
  | false =>
    obtain ⟨a, ha, hran, hrecord⟩ := ht.direct hrestored hsome
    have hmem : a ∈ t.attempts := mem_attempts.2 (.inl ha)
    exact ⟨a, ha, .of_record ht hmem hran hrecord hfresh⟩
  | true =>
    obtain ⟨hsame, hrecord⟩ := ht.restored hrestored
    obtain ⟨s, primary, message, hstore, -, -⟩ := hrecord r hr
    obtain ⟨a, ha, hbuilt⟩ := ht.store s hstore
    have hmem : a ∈ t.attempts := mem_attempts.2 (.inr (.inl ha))
    exact ⟨a, hsame.trans ha, .of_store ht hmem hrestored hstore hbuilt hfresh⟩

/-- The library that a block runs was built by an attempt, from the text that the block has now. -/
structure Runs (t : TracedBlock) (a : Attempt) (m : Machine) : Prop where
  source : a.request.primarySource = t.block.source
  library : ∃ s primary run, t.block.state.store? = some s ∧ a.Built s ∧
    s.get? t.block.artifactName = some primary ∧ primary.kind = .primary ∧
    primary.source = t.block.source ∧ t.block.run = some run ∧
    m.loader primary.payload = .procedure run.table

/-- A fresh block that runs its own artifact runs the library of the attempt that its record describes. -/
theorem Sound.runs (ht : t.Sound) (hfresh : t.block.staleness = .fresh) {record : CompileRecord}
    {s : ArtifactStore} {primary : Artifact} {run : ActiveRun} {m : Machine}
    (hstate : t.block.state = .compiled record s) (hprimary : s.get? t.block.artifactName = some primary)
    (hkind : primary.kind = .primary) (hrun : t.block.run = some run)
    (hloader : m.loader primary.payload = .procedure run.table) :
    ∃ a, t.described = some a ∧ t.Describes a ∧ t.Runs a m := by
  obtain ⟨a, ha, hdescribes⟩ := ht.describes hfresh
  have hstore : t.block.state.store? = some s := by
    rw [hstate]
    rfl
  obtain ⟨a', ha', hbuilt⟩ := ht.store s hstore
  -- of a success, the described attempt is the one that built the artifacts
  obtain rfl : a = a' := by
    rw [ht.success record s hstate, ha'] at ha
    exact (Option.some.inj ha).symm
  have hsource : a.request.primarySource = t.block.source := by
    rcases hdescribes.source with hsource | ⟨-, f, hf, hcrate⟩
    · exact hsource
    · -- a file with the name of the unit would have taken the place of its library
      rw [← hcrate] at hprimary
      rw [hbuilt.sourced.kind_of_crate hf hprimary] at hkind
      cases hkind
  have hprimarySource := hbuilt.sourced.source_of_primary hprimary hkind
  exact ⟨a, ha, hdescribes, hsource, s, primary, run, hstore, hbuilt, hprimary, hkind,
    hprimarySource.trans hsource, hrun, hloader⟩

/-- A start that succeeds runs the library of the attempt that the record then describes. -/
theorem Sound.runs_of_start (ht : t.Sound) (hwell : t.block.WellFormed) {context : StartContext} {dt : Float}
    {m m' : Machine} {b : Block} (hstart : t.block.start context dt m = (.ok (), b, m')) :
    ∃ a, (t.afterStart context m b).described = some a ∧ (t.afterStart context m b).Describes a ∧
      (t.afterStart context m b).Runs a m' := by
  have hsound := ht.afterStart hstart
  obtain ⟨record, s, primary, run, hstate, hprimary, hkind, hrun, hloader⟩ := hwell.start_runs hstart
  obtain ⟨hfresh, -, table, memory, -, rfl⟩ := Block.start_ok hstart
  exact hsound.runs hfresh hstate hprimary hkind hrun hloader

end TracedBlock

/-- **Provenance.** Whatever was done to a project: the attempt that a fresh block's record describes was
made from the text and the crates that the block has now, and each file that is attached now was compiled
by it or attached since, or was loaded by the hash of such a file. A start that succeeds runs the library
that such an attempt has built. -/
theorem TracedProject.Reachable.fresh_describes {p : TracedProject} (hp : Reachable p) {t : TracedBlock}
    (ht : t ∈ p.blocks) :
    (t.block.staleness = .fresh → ∃ a, t.described = some a ∧ t.Describes a) ∧
    (∀ context dt m b m', t.block.start context dt m = (.ok (), b, m') →
      ∃ a, (t.afterStart context m b).described = some a ∧ (t.afterStart context m b).Describes a ∧
        (t.afterStart context m b).Runs a m') :=
  ⟨(hp.sound t ht).describes, fun _ _ _ _ _ =>
    -- without its trace the project is one that the library makes, so its blocks are well-formed
    (hp.sound t ht).runs_of_start (hp.reachable.wellFormed.blocks _ (List.mem_map_of_mem ht))⟩

/-- A block is compiled with one file, which is then exchanged for another one. The block is fresh all the
same, and a start runs what was compiled. -/
theorem TracedProject.fresh_describes_exchanged :
    ∃ p t b, Reachable p ∧ t ∈ p.blocks ∧ t.block.staleness = .fresh ∧
      t.block.start {} 0.5 (.willing []) = (.ok (), b, .willing []) ∧
      (∃ a, t.described = some a ∧ t.Describes a) ∧
      ∃ a, (t.afterStart {} (.willing []) b).described = some a ∧
        (t.afterStart {} (.willing []) b).Describes a ∧
        (t.afterStart {} (.willing []) b).Runs a (.willing []) := by
  obtain ⟨s, diagnostics, primary, houtcome, hprimary, hkind⟩ := Block.exists_outcome_withFile "A"
  -- the file is exchanged for one of the same crate and other contents
  obtain ⟨p, t, hp, ht, hblock, hfresh, -⟩ :=
    exists_exchanged (f := ⟨"u.rs", "A"⟩) (g := ⟨"u.rs", "B"⟩) (by decide) rfl rfl houtcome
  obtain ⟨b, hstart⟩ := Block.start_willing (b := t.block) (by rw [hblock]; rfl) (by rw [hblock]; rfl)
    (by rw [hblock]; rfl) (by rw [hblock]; rfl) hfresh hprimary hkind none 0.5
  have hall := hp.fresh_describes ht
  exact ⟨p, t, b, hp, ht, hfresh, hstart, hall.1 hfresh, hall.2 _ _ _ _ _ hstart⟩

/-- A fresh block need not have been compiled from the contents that are attached now. -/
theorem TracedProject.not_fresh_contents :
    ¬ ∀ p, Reachable p → ∀ t ∈ p.blocks, t.block.staleness = .fresh →
      ∃ a, t.described = some a ∧ a.request.primarySource = t.block.source ∧
        crateNames a.request.auxiliaries = t.block.crates ∧
        ∀ f ∈ t.block.files, ∃ g ∈ a.request.auxiliaries, g.crate = f.crate ∧ g.contents = f.contents := by
  intro hall
  obtain ⟨s, diagnostics, primary, houtcome, -, -⟩ := Block.exists_outcome_withFile "A"
  obtain ⟨p, t, hp, ht, hblock, hfresh, hdescribed⟩ :=
    exists_exchanged (f := ⟨"u.rs", "A"⟩) (g := ⟨"u.rs", "B"⟩) (by decide) rfl rfl houtcome
  obtain ⟨a, ha, -, -, hcontents⟩ := hall p hp t ht hfresh
  -- the block has the new contents, and the attempt had the old ones
  have hfile : (⟨"u.rs", "B"⟩ : AuxiliaryFile) ∈ t.block.files := by
    rw [hblock]
    exact List.mem_singleton_self _
  obtain ⟨g, hg, -, hsame⟩ := hcontents _ hfile
  obtain rfl : a = ⟨(Block.withFile "A").job, [⟨"u.rs", "B"⟩], false⟩ :=
    Option.some.inj (ha.symm.trans hdescribed)
  obtain rfl : g = ⟨"u.rs", "A"⟩ := List.mem_singleton.1 hg
  exact absurd hsame (by decide)

end CircuitBlocks
