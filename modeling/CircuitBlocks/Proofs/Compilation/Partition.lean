import CircuitBlocks.Proofs.Compilation.Libraries

/-!
# Partition — each library goes to one source

Two rules tell where a library comes from. One takes the names of auxiliary crates, the other what begins with the
primary name, and as a crate may be named like that, both can apply; the first one wins. A library that neither
takes is dropped. As long as no two libraries have one name, the store holds one artifact for each of the others.

* `ProducedLibrary.ComesFrom` — the source of a library, one case for each rule.
* `ProducedLibrary.attribute?_eq_some_iff` — this is where a library is attributed.
* **`CompileRequest.attribute_partition`** — what a store is collected to, whatever the order of the libraries.
-/

namespace CircuitBlocks

/-! ## One library -/

/-- The artifact that a library becomes by its source: the first file whose crate has its name, or the primary unit,
if there is no such file. -/
inductive ProducedLibrary.ComesFrom (r : CompileRequest) (p : ProducedLibrary) : Artifact → Prop where
  | file {before after : List AuxiliaryFile} {f : AuxiliaryFile} (hfiles : r.auxiliaries = before ++ f :: after)
      (hcrate : f.crate = p.name) (hfirst : ∀ g ∈ before, g.crate ≠ p.name) :
      ComesFrom r p ⟨.auxiliary, p.payload, f.contents⟩
  | unit (hnone : ∀ f ∈ r.auxiliaries, f.crate ≠ p.name) (hname : r.primaryName.toList <+: p.name.toList) :
      ComesFrom r p ⟨.primary, p.payload, r.primarySource⟩

namespace CompileRequest

variable {r : CompileRequest}

/-- The file of a crate is the first one that compiles to it. -/
theorem auxiliary?_eq_some_iff {crate : String} {f : AuxiliaryFile} : r.auxiliary? crate = some f ↔
    f.crate = crate ∧ ∃ before after, r.auxiliaries = before ++ f :: after ∧ ∀ g ∈ before, g.crate ≠ crate := by
  simp only [auxiliary?, List.find?_eq_some_iff_append, decide_eq_true_eq, Bool.not_eq_true',
    decide_eq_false_iff_not]

theorem auxiliary?_eq_none_iff {crate : String} :
    r.auxiliary? crate = none ↔ ∀ f ∈ r.auxiliaries, f.crate ≠ crate := by
  simp only [auxiliary?, List.find?_eq_none, decide_eq_true_eq]

end CompileRequest

/-- A library is attributed to a source just if it comes from that source. -/
theorem ProducedLibrary.attribute?_eq_some_iff {r : CompileRequest} {p : ProducedLibrary} {a : Artifact} :
    p.attribute? r = some a ↔ p.ComesFrom r a := by
  constructor
  · intro h
    unfold attribute? at h
    -- the files are tried first, and the unit only if no file has the name for a crate
    split at h
    · next f hf =>
      obtain ⟨hcrate, before, after, hfiles, hfirst⟩ := CompileRequest.auxiliary?_eq_some_iff.1 hf
      cases h
      exact .file hfiles hcrate hfirst
    · next hnone =>
      split at h
      · next hname =>
        cases h
        exact .unit (CompileRequest.auxiliary?_eq_none_iff.1 hnone) (Text.startsWith_iff.1 hname)
      · cases h
  · rintro (⟨hfiles, hcrate, hfirst⟩ | ⟨hnone, hname⟩)
    · rw [attribute?, CompileRequest.auxiliary?_eq_some_iff.2 ⟨hcrate, _, _, hfiles, hfirst⟩]
    · rw [attribute?, CompileRequest.auxiliary?_eq_none_iff.2 hnone]
      exact if_pos (Text.startsWith_iff.2 hname)

/-- A library has a source just if one of the rules takes it. -/
theorem ProducedLibrary.exists_comesFrom_iff {r : CompileRequest} {p : ProducedLibrary} :
    (∃ a, p.ComesFrom r a) ↔
      (∃ f ∈ r.auxiliaries, f.crate = p.name) ∨ r.primaryName.toList <+: p.name.toList := by
  constructor
  · rintro ⟨_, ⟨hfiles, hcrate, -⟩ | ⟨-, hname⟩⟩
    · exact .inl ⟨_, hfiles ▸ List.mem_append_right _ List.mem_cons_self, hcrate⟩
    · exact .inr hname
  · intro h
    -- the first file of that crate takes it, and only without one the unit
    cases hfile : r.auxiliary? p.name with
    | some f =>
      obtain ⟨hcrate, before, after, hfiles, hfirst⟩ := CompileRequest.auxiliary?_eq_some_iff.1 hfile
      exact ⟨_, .file hfiles hcrate hfirst⟩
    | none =>
      have hnone := CompileRequest.auxiliary?_eq_none_iff.1 hfile
      exact ⟨_, .unit hnone (h.resolve_left fun ⟨f, hf, hcrate⟩ => hnone f hf hcrate)⟩

/-! ## Stores -/

theorem ArtifactStore.mem_names_iff {s : ArtifactStore} {name : String} :
    name ∈ s.names ↔ ∃ a, s.get? name = some a :=
  SortedMap.mem_keys_iff.trans Option.isSome_iff_exists

namespace CompileRequest

variable {r : CompileRequest} {produced : List ProducedLibrary} {name : String}

theorem get?_attribute_iff (hnodup : (produced.map (·.name)).Nodup) (toolchain : Option String) {a : Artifact} :
    (r.attribute produced toolchain).get? name = some a ↔ ∃ p ∈ produced, p.name = name ∧ p.ComesFrom r a := by
  simp only [get?_attribute hnodup, ProducedLibrary.attribute?_eq_some_iff]

/-- A library is kept if its name is a file's crate, or begins with the unit's name. -/
theorem mem_names_attribute_iff (hnodup : (produced.map (·.name)).Nodup) (toolchain : Option String) :
    name ∈ (r.attribute produced toolchain).names ↔ name ∈ produced.map (·.name) ∧
      ((∃ f ∈ r.auxiliaries, f.crate = name) ∨ r.primaryName.toList <+: name.toList) := by
  rw [ArtifactStore.mem_names_iff, List.mem_map]
  constructor
  · rintro ⟨a, ha⟩
    obtain ⟨p, hp, rfl, hfrom⟩ := (get?_attribute_iff hnodup toolchain).1 ha
    exact ⟨⟨p, hp, rfl⟩, ProducedLibrary.exists_comesFrom_iff.1 ⟨a, hfrom⟩⟩
  · rintro ⟨⟨p, hp, rfl⟩, hrule⟩
    obtain ⟨a, hfrom⟩ := ProducedLibrary.exists_comesFrom_iff.2 hrule
    exact ⟨a, (get?_attribute_iff hnodup toolchain).2 ⟨p, hp, rfl, hfrom⟩⟩

/-- The auxiliary names of a store are the crates among the libraries. -/
theorem auxiliaryNames_attribute (hnodup : (produced.map (·.name)).Nodup) (toolchain : Option String)
    (primary : String) : (r.attribute produced toolchain).auxiliaryNames primary
      = .ofList ((produced.map (·.name)).filter fun name =>
          name ∈ r.auxiliaries.map (·.crate) ∧ name ≠ primary) := by
  refine NameSet.ext_contains fun name => ?_
  rw [(r.sourced_attribute produced toolchain).contains_auxiliaryNames, NameSet.contains_ofList, List.mem_filter,
    Option.isSome_iff_exists, ← ArtifactStore.mem_names_iff, mem_names_attribute_iff hnodup, decide_eq_true_eq,
    List.mem_map (l := r.auxiliaries)]
  constructor
  · rintro ⟨hne, ⟨hproduced, -⟩, hfile⟩
    exact ⟨hproduced, hfile, hne⟩
  · rintro ⟨hproduced, hfile, hne⟩
    exact ⟨hne, ⟨hproduced, .inl hfile⟩, hfile⟩

/-- **Attribution is a partition.** Libraries with different names are collected to the store of the given toolchain
that has just the names of those that are named like an auxiliary crate or begin with the primary name, and under
each of them the one artifact that the library becomes by its source; every order of the libraries gives the same
store. Its auxiliary names, but for the one that is left out, are just those of the libraries that are named like an
auxiliary crate. -/
theorem attribute_partition (r : CompileRequest) {produced : List ProducedLibrary}
    (hnodup : (produced.map (·.name)).Nodup) (toolchain : Option String) :
    (r.attribute produced toolchain).toolchain = toolchain ∧
    (∀ name, name ∈ (r.attribute produced toolchain).names ↔ name ∈ produced.map (·.name) ∧
      ((∃ f ∈ r.auxiliaries, f.crate = name) ∨ r.primaryName.toList <+: name.toList)) ∧
    (∀ name a, (r.attribute produced toolchain).get? name = some a ↔
      ∃ p ∈ produced, p.name = name ∧ p.ComesFrom r a) ∧
    (∀ produced', produced.Perm produced' → r.attribute produced' toolchain = r.attribute produced toolchain) ∧
    ∀ primary, (r.attribute produced toolchain).auxiliaryNames primary
      = .ofList ((produced.map (·.name)).filter fun name =>
          name ∈ r.auxiliaries.map (·.crate) ∧ name ≠ primary) :=
  ⟨r.toolchain_attribute produced toolchain, fun _ => mem_names_attribute_iff hnodup toolchain,
    fun _ _ => get?_attribute_iff hnodup toolchain, fun _ h => (attribute_perm hnodup h toolchain).symm,
    auxiliaryNames_attribute hnodup toolchain⟩

/-- A request with two files of one crate, whose name begins with the primary name. -/
def filtersRequest : CompileRequest where
  primaryName := "unit_b1"
  primarySource := "pub struct Unit;"
  auxiliaries := [⟨"unit_b1_filters.rs", "pub fn hp() \x7b\x7d"⟩, ⟨"unit_b1_filters.old", "pub fn lp() \x7b\x7d"⟩]

/-- What is found after its compile, a library of no source among it. -/
def filtersLibraries : List ProducedLibrary := [⟨"unit_b1_filters", [1]⟩, ⟨"unit_b1", [2]⟩, ⟨"core", [3]⟩]

/-- The crate goes to the first of its files, although it begins with the primary name, and what is named like
neither is dropped. -/
theorem attribute_partition_filters :
    ((filtersLibraries.map (·.name)).Nodup) ∧
    (filtersRequest.attribute filtersLibraries none).get? "unit_b1_filters"
      = some ⟨.auxiliary, [1], "pub fn hp() \x7b\x7d"⟩ ∧
    (filtersRequest.attribute filtersLibraries none).get? "unit_b1" = some ⟨.primary, [2], "pub struct Unit;"⟩ ∧
    "core" ∉ (filtersRequest.attribute filtersLibraries none).names ∧
    filtersRequest.attribute filtersLibraries.reverse none = filtersRequest.attribute filtersLibraries none ∧
    (filtersRequest.attribute filtersLibraries none).auxiliaryNames "unit_b1" = .ofList ["unit_b1_filters"] := by
  have hnodup : (filtersLibraries.map (·.name)).Nodup := by decide
  obtain ⟨-, hnames, hget, horder, hauxiliary⟩ := filtersRequest.attribute_partition hnodup none
  -- the crate of the file begins like the name of the unit, and yet goes to the file
  have hcrate : (⟨"unit_b1_filters", [1]⟩ : ProducedLibrary).ComesFrom filtersRequest
      ⟨.auxiliary, [1], "pub fn hp() \x7b\x7d"⟩ :=
    .file (f := ⟨"unit_b1_filters.rs", "pub fn hp() \x7b\x7d"⟩) (List.nil_append _).symm (by decide)
      (List.forall_mem_nil _)
  have hunit : (⟨"unit_b1", [2]⟩ : ProducedLibrary).ComesFrom filtersRequest ⟨.primary, [2], "pub struct Unit;"⟩ :=
    .unit (by decide) (by decide)
  refine ⟨hnodup, (hget _ _).2 ⟨_, by decide, rfl, hcrate⟩, (hget _ _).2 ⟨_, by decide, rfl, hunit⟩,
    fun hcore => ?_, horder _ (List.reverse_perm _).symm, (hauxiliary "unit_b1").trans ?_⟩
  · exact absurd ((hnames "core").1 hcore).2 (by decide)
  · decide

end CompileRequest

end CircuitBlocks
