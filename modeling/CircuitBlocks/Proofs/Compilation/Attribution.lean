import CircuitBlocks.Proofs.Compilation.Run
import CircuitBlocks.Proofs.SortedMap

/-!
# Attribution — a store has the sources of its request

A library is stored with the source that it is attributed to, so an artifact of a store tells its source
by its kind and its name. A compile that succeeds has also left the primary library.

* `CompileRequest.Sourced` — the stores whose artifacts come from a request's sources.
* `CompileRequest.Sourced.contains_auxiliaryNames` — the auxiliary names of such a store are crates of the
  request.
* **`CompileRequest.sourced_of_run`** — the store of a compile that succeeded comes from its request.
-/

namespace CircuitBlocks

/-! ## Libraries -/

/-- A library comes from the file of its name, or else from the primary unit. -/
theorem ProducedLibrary.attribute?_eq_some {r : CompileRequest} {p : ProducedLibrary} {a : Artifact}
    (h : p.attribute? r = some a) :
    (∃ f, r.auxiliary? p.name = some f ∧ a = ⟨.auxiliary, p.payload, f.contents⟩) ∨
    (r.auxiliary? p.name = none ∧ a = ⟨.primary, p.payload, r.primarySource⟩) := by
  unfold attribute? at h
  split at h
  · next f hf =>
    cases h
    exact .inl ⟨f, hf, rfl⟩
  · next hnone =>
    split at h
    · cases h
      exact .inr ⟨hnone, rfl⟩
    · cases h

/-- The names of auxiliary artifacts, but for the given one. -/
theorem ArtifactStore.contains_auxiliaryNames {s : ArtifactStore} {primary name : String} :
    (s.auxiliaryNames primary).contains name = true ↔
      name ≠ primary ∧ ∃ a, s.get? name = some a ∧ a.kind = .auxiliary := by
  unfold auxiliaryNames
  rw [NameSet.contains_ofList, List.mem_map]
  constructor
  · rintro ⟨⟨name', a⟩, he, rfl⟩
    obtain ⟨hmem, htest⟩ := List.mem_filter.1 he
    simp only [Bool.and_eq_true, decide_eq_true_eq] at htest
    exact ⟨htest.1, a, SortedMap.mem_entries_iff.1 hmem, htest.2⟩
  · rintro ⟨hne, a, ha, hkind⟩
    refine ⟨(name, a), List.mem_filter.2 ⟨SortedMap.mem_entries_iff.2 ha, ?_⟩, rfl⟩
    simp only [Bool.and_eq_true, decide_eq_true_eq]
    exact ⟨hne, hkind⟩

namespace CompileRequest

variable {r : CompileRequest} {s : ArtifactStore}

theorem mem_of_auxiliary? {crate : String} {f : AuxiliaryFile} (h : r.auxiliary? crate = some f) :
    f ∈ r.auxiliaries ∧ f.crate = crate := by
  unfold auxiliary? at h
  have hcrate := List.find?_some h
  exact ⟨List.mem_of_find?_eq_some h, of_decide_eq_true hcrate⟩

theorem auxiliary?_isSome {f : AuxiliaryFile} (h : f ∈ r.auxiliaries) :
    ∃ g, r.auxiliary? f.crate = some g := by
  cases hfind : r.auxiliary? f.crate with
  | some g => exact ⟨g, rfl⟩
  | none =>
    have hnone := List.find?_eq_none.1 hfind f h
    simp at hnone

theorem contains_crateNames {files : List AuxiliaryFile} {crate : String} :
    (crateNames files).contains crate = true ↔ ∃ f ∈ files, f.crate = crate := by
  rw [crateNames, NameSet.contains_ofList, List.mem_map]

/-! ## Stores -/

/-- A store whose artifacts come from the sources of a request. -/
def Sourced (r : CompileRequest) (s : ArtifactStore) : Prop :=
  ∀ name a, s.get? name = some a → (⟨name, a.payload⟩ : ProducedLibrary).attribute? r = some a

theorem Sourced.empty (toolchain : Option String) : r.Sourced (.empty toolchain) :=
  fun _ _ h => nomatch h

/-- A library that is added is attributed, and the others stay so. -/
theorem Sourced.addProduced (hs : r.Sourced s) (p : ProducedLibrary) : r.Sourced (s.addProduced r p) := by
  unfold ArtifactStore.addProduced
  split
  · exact hs
  · next artifact hp =>
    intro name a hget
    rw [ArtifactStore.get?_put] at hget
    split at hget
    · -- the name is the library's: either kind of artifact carries its payload
      next hname =>
      obtain rfl : artifact = a := Option.some.inj hget
      have hpayload : artifact.payload = p.payload := by
        rcases ProducedLibrary.attribute?_eq_some hp with ⟨f, -, rfl⟩ | ⟨-, rfl⟩ <;> rfl
      rw [hname, hpayload]
      exact hp
    · exact hs name a hget

/-- All artifacts of a collection come from libraries that were produced. -/
theorem sourced_attribute (r : CompileRequest) (produced : List ProducedLibrary)
    (toolchain : Option String) : r.Sourced (r.attribute produced toolchain) := by
  -- each library is put into a store that is sourced already
  have hall : ∀ (produced : List ProducedLibrary) (s : ArtifactStore), r.Sourced s →
      r.Sourced (produced.foldl (ArtifactStore.addProduced r) s) := by
    intro produced
    induction produced with
    | nil => exact fun _ hs => hs
    | cons p rest ih => exact fun s hs => ih _ (hs.addProduced p)
  exact hall produced _ (.empty toolchain)

/-- An artifact with the name of a crate comes from the file of that crate. -/
theorem Sourced.auxiliary (hs : r.Sourced s) {name : String} {a : Artifact}
    (hget : s.get? name = some a) (hkind : a.kind = .auxiliary) : ∃ f ∈ r.auxiliaries, f.crate = name := by
  rcases ProducedLibrary.attribute?_eq_some (hs name a hget) with ⟨f, hf, -⟩ | ⟨-, ha⟩
  · exact ⟨f, mem_of_auxiliary? hf⟩
  · rw [ha] at hkind
    cases hkind

/-- A file's crate names no loadable artifact. -/
theorem Sourced.kind_of_crate (hs : r.Sourced s) {f : AuxiliaryFile} (hf : f ∈ r.auxiliaries)
    {a : Artifact} (hget : s.get? f.crate = some a) : a.kind = .auxiliary := by
  obtain ⟨g, hg⟩ := auxiliary?_isSome hf
  rcases ProducedLibrary.attribute?_eq_some (hs _ a hget) with ⟨_, -, ha⟩ | ⟨hnone, -⟩
  · rw [ha]
  · rw [hg] at hnone
    cases hnone

/-- A loadable artifact comes from the primary unit. -/
theorem Sourced.source_of_primary (hs : r.Sourced s) {name : String} {a : Artifact}
    (hget : s.get? name = some a) (hkind : a.kind = .primary) : a.source = r.primarySource := by
  rcases ProducedLibrary.attribute?_eq_some (hs name a hget) with ⟨f, -, ha⟩ | ⟨-, ha⟩
  · rw [ha] at hkind
    cases hkind
  · rw [ha]

/-- An artifact that is not named like a crate comes from the primary unit. -/
theorem Sourced.source_of_ne (hs : r.Sourced s) {name : String} {a : Artifact}
    (hget : s.get? name = some a) (hname : ∀ f ∈ r.auxiliaries, f.crate ≠ name) :
    a.source = r.primarySource := by
  rcases ProducedLibrary.attribute?_eq_some (hs name a hget) with ⟨f, hf, -⟩ | ⟨-, ha⟩
  · obtain ⟨hmem, hcrate⟩ := mem_of_auxiliary? hf
    exact absurd hcrate (hname f hmem)
  · rw [ha]

/-- The auxiliary names of a store are the crates of the request that left an artifact. -/
theorem Sourced.contains_auxiliaryNames (hs : r.Sourced s) {primary name : String} :
    (s.auxiliaryNames primary).contains name = true ↔
      name ≠ primary ∧ (s.get? name).isSome ∧ ∃ f ∈ r.auxiliaries, f.crate = name := by
  rw [ArtifactStore.contains_auxiliaryNames]
  constructor
  · rintro ⟨hne, a, ha, hkind⟩
    exact ⟨hne, Option.isSome_of_eq_some ha, hs.auxiliary ha hkind⟩
  · rintro ⟨hne, hsome, f, hf, rfl⟩
    obtain ⟨a, ha⟩ := Option.isSome_iff_exists.1 hsome
    exact ⟨hne, a, ha, hs.kind_of_crate hf ha⟩

/-! ## Compiles -/

/-- A compile that succeeded has collected its store from the libraries that were left, the primary one
among them. -/
theorem success_of_run {t : Toolchain} {m m' : Machine} {diagnostics : List Diagnostic}
    {message : String} (h : r.run t m = (.ok (.success s diagnostics message), m')) :
    (∃ produced, s = r.attribute produced (some t.fingerprint)) ∧
      ∃ primary, s.get? r.primaryName = some primary := by
  obtain ⟨p, -, -, hstore, hprimary⟩ := run_eq_success h
  exact ⟨⟨_, hstore⟩, hprimary⟩

/-- The store of a compile that succeeded comes from its request. -/
theorem sourced_of_run {t : Toolchain} {m m' : Machine} {diagnostics : List Diagnostic}
    {message : String} (h : r.run t m = (.ok (.success s diagnostics message), m')) : r.Sourced s := by
  obtain ⟨⟨produced, rfl⟩, -⟩ := success_of_run h
  exact r.sourced_attribute produced _

end CompileRequest

end CircuitBlocks
