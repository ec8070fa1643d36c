import CircuitBlocks.Proofs.Compilation.Attribution
import CircuitBlocks.Proofs.Text.Lines
import Mathlib.Data.List.Basic

/-!
# Libraries — what a set of library files is collected to

The file that a call is asked to write has the name of its crate, and only of that crate. As long as no
two libraries have one name, each of them is attributed on its own, in whatever order they are found.

* `ProducedLibrary.artifactName?_crateFileName`, `ProducedLibrary.artifactName?_libraryFileName` — the
  names of library files read back.
* `CompileRequest.isSome_get?_attribute_iff` — when there is an artifact of the unit.
* `CompileRequest.get?_attribute` — what is collected from libraries with different names.
* **`CompileRequest.attribute_perm`** — the order of such libraries does not matter.
-/

namespace CircuitBlocks

/-- A text does not end like one with another last character. -/
theorem Text.stripEnd?_append_of_ne (rest : String) {ending other : String} (hending : ending.toList ≠ [])
    (hother : other.toList ≠ []) (h : ending.toList.getLast? ≠ other.toList.getLast?) :
    stripEnd? (rest ++ ending) other = none := by
  refine if_neg fun hsuffix => h ?_
  obtain ⟨before, heq⟩ := List.isSuffixOf_iff_suffix.1 hsuffix
  have hlast := congrArg List.getLast? heq
  rw [String.toList_append, List.getLast?_append_of_ne_nil _ hother,
    List.getLast?_append_of_ne_nil _ hending] at hlast
  exact hlast.symm

/-! ## File names -/

namespace ProducedLibrary

/-- The name of a crate is read off its file. -/
theorem artifactName?_crateFileName (crate : String) :
    artifactName? (crateFileName crate) = some crate := by
  unfold artifactName? crateFileName
  rw [Text.stripEnd?_append]
  show some ((Text.stripStart? (libraryStart ++ crate) libraryStart).getD _) = _
  rw [Text.stripStart?_append, Option.getD_some]

/-- So is the name of a library off its own. -/
theorem artifactName?_libraryFileName (name : String) :
    artifactName? (libraryFileName name) = some name := by
  have hcrate : Text.stripEnd? (libraryStart ++ name ++ libraryEnd) crateEnd = none :=
    Text.stripEnd?_append_of_ne _ (by decide) (by decide) (by decide)
  unfold artifactName? libraryFileName
  rw [hcrate, Text.stripEnd?_append]
  show some ((Text.stripStart? (libraryStart ++ name) libraryStart).getD _) = _
  rw [Text.stripStart?_append, Option.getD_some]

theorem ofFile?_crateFileName (crate : String) (bytes : List UInt8) :
    ofFile? (crateFileName crate, bytes) = some ⟨crate, bytes⟩ := by
  rw [ofFile?, artifactName?_crateFileName]
  rfl

theorem ofFile?_libraryFileName (name : String) (bytes : List UInt8) :
    ofFile? (libraryFileName name, bytes) = some ⟨name, bytes⟩ := by
  rw [ofFile?, artifactName?_libraryFileName]
  rfl

end ProducedLibrary

theorem crateFileName_inj {crate other : String} (h : crateFileName crate = crateFileName other) :
    crate = other := by
  have hname := congrArg ProducedLibrary.artifactName? h
  rw [ProducedLibrary.artifactName?_crateFileName, ProducedLibrary.artifactName?_crateFileName] at hname
  exact Option.some.inj hname

theorem eq_of_crateFileName_eq_libraryFileName {crate name : String}
    (h : crateFileName crate = libraryFileName name) : crate = name := by
  have hname := congrArg ProducedLibrary.artifactName? h
  rw [ProducedLibrary.artifactName?_crateFileName, ProducedLibrary.artifactName?_libraryFileName] at hname
  exact Option.some.inj hname

/-! ## Collected stores -/

namespace CompileRequest

variable {r : CompileRequest} {s : ArtifactStore}

theorem toolchain_foldl (r : CompileRequest) (produced : List ProducedLibrary) (s : ArtifactStore) :
    (produced.foldl (ArtifactStore.addProduced r) s).toolchain = s.toolchain := by
  induction produced generalizing s with
  | nil => rfl
  | cons p rest ih =>
    rw [List.foldl_cons, ih, ArtifactStore.addProduced]
    split <;> rfl

theorem toolchain_attribute (r : CompileRequest) (produced : List ProducedLibrary)
    (toolchain : Option String) : (r.attribute produced toolchain).toolchain = toolchain :=
  r.toolchain_foldl produced (.empty toolchain)

/-! ### The library of the unit -/

/-- An artifact may be replaced by one of the same name, but is not removed. -/
theorem isSome_get?_addProduced {name : String} (hs : (s.get? name).isSome) (p : ProducedLibrary) :
    ((s.addProduced r p).get? name).isSome := by
  unfold ArtifactStore.addProduced
  split
  · exact hs
  · rw [ArtifactStore.get?_put]
    split
    · rfl
    · exact hs

/-- The library of the unit is always attributed, be it to a file. -/
theorem isSome_get?_addProduced_unit (r : CompileRequest) (s : ArtifactStore) (library : List UInt8) :
    ((s.addProduced r ⟨r.primaryName, library⟩).get? r.primaryName).isSome := by
  unfold ArtifactStore.addProduced ProducedLibrary.attribute?
  cases r.auxiliary? r.primaryName <;> simp [Text.startsWith_self]

/-- The unit's library, once collected, is among the artifacts. -/
theorem isSome_get?_foldl {produced : List ProducedLibrary} {library : List UInt8}
    (h : (s.get? r.primaryName).isSome ∨ ⟨r.primaryName, library⟩ ∈ produced) :
    ((produced.foldl (ArtifactStore.addProduced r) s).get? r.primaryName).isSome := by
  -- it is put at its turn, and what comes later only replaces it
  induction produced generalizing s with
  | nil =>
    rcases h with hs | hmem
    · exact hs
    · cases hmem
  | cons p rest ih =>
    rcases h with hs | hmem
    · exact ih (.inl (isSome_get?_addProduced hs p))
    · rcases List.mem_cons.1 hmem with rfl | hmem
      · exact ih (.inl (r.isSome_get?_addProduced_unit s library))
      · exact ih (.inr hmem)

/-- If the library of the unit is found, there is an artifact with its name. -/
theorem isSome_get?_attribute (r : CompileRequest) {produced : List ProducedLibrary} {library : List UInt8}
    (h : ⟨r.primaryName, library⟩ ∈ produced) (toolchain : Option String) :
    ((r.attribute produced toolchain).get? r.primaryName).isSome := isSome_get?_foldl (.inr h)

/-- A library under a new name adds the one artifact that it is attributed to. -/
theorem get?_addProduced {p : ProducedLibrary} (hfresh : s.get? p.name = none) {name : String}
    {a : Artifact} : (s.addProduced r p).get? name = some a ↔
      s.get? name = some a ∨ p.name = name ∧ p.attribute? r = some a := by
  unfold ArtifactStore.addProduced
  split
  · next hnone => simp [hnone]
  · next artifact hsome =>
    rw [ArtifactStore.get?_put, hsome]
    by_cases hname : name = p.name
    · subst hname
      simp [hfresh]
    · simp [hname, Ne.symm hname]

theorem get?_addProduced_of_ne {p : ProducedLibrary} (hfresh : s.get? p.name = none) {name : String}
    (hname : s.get? name = none) (hne : p.name ≠ name) : (s.addProduced r p).get? name = none := by
  rw [Option.eq_none_iff_forall_ne_some]
  intro a hget
  rcases (get?_addProduced hfresh).1 hget with hold | ⟨heq, -⟩
  · rw [hname] at hold
    cases hold
  · exact hne heq

/-- Libraries of different names add one artifact each, if they are attributed at all. -/
theorem get?_foldl {produced : List ProducedLibrary} (hnodup : (produced.map (·.name)).Nodup)
    (hfresh : ∀ p ∈ produced, s.get? p.name = none) {name : String} {a : Artifact} :
    (produced.foldl (ArtifactStore.addProduced r) s).get? name = some a ↔
      s.get? name = some a ∨ ∃ p ∈ produced, p.name = name ∧ p.attribute? r = some a := by
  -- the names that are to come are not in the store yet
  induction produced generalizing s with
  | nil => simp
  | cons p rest ih =>
    obtain ⟨hp, hrest⟩ := List.nodup_cons.1 hnodup
    obtain ⟨hnew, hlater⟩ := List.forall_mem_cons.1 hfresh
    have hothers : ∀ q ∈ rest, (s.addProduced r p).get? q.name = none := fun q hq =>
      get?_addProduced_of_ne hnew (hlater q hq) fun heq => hp (List.mem_map.2 ⟨q, hq, heq.symm⟩)
    rw [List.foldl_cons, ih hrest hothers, get?_addProduced hnew, or_assoc, List.exists_mem_cons_iff]

/-- Libraries with different names are attributed each on its own. -/
theorem get?_attribute {produced : List ProducedLibrary} (hnodup : (produced.map (·.name)).Nodup)
    {toolchain : Option String} {name : String} {a : Artifact} :
    (r.attribute produced toolchain).get? name = some a ↔
      ∃ p ∈ produced, p.name = name ∧ p.attribute? r = some a := by
  refine (get?_foldl hnodup fun _ _ => rfl).trans (or_iff_right fun hempty => ?_)
  cases hempty

/-- Libraries with different names are collected to the same store in every order. -/
theorem attribute_perm {produced produced' : List ProducedLibrary}
    (hnodup : (produced.map (·.name)).Nodup) (h : produced.Perm produced') (toolchain : Option String) :
    r.attribute produced toolchain = r.attribute produced' toolchain := by
  have hnodup' : (produced'.map (·.name)).Nodup := ((h.map (·.name)).nodup_iff).1 hnodup
  have hget : ∀ name, (r.attribute produced toolchain).artifacts.get? name
      = (r.attribute produced' toolchain).artifacts.get? name := by
    intro name
    refine Option.ext fun a => (get?_attribute hnodup).trans (Iff.trans ?_ (get?_attribute hnodup').symm)
    exact ⟨fun ⟨p, hp, hrest⟩ => ⟨p, h.mem_iff.1 hp, hrest⟩,
      fun ⟨p, hp, hrest⟩ => ⟨p, h.mem_iff.2 hp, hrest⟩⟩
  -- two stores with the same entries are the same store
  have hartifacts := SortedMap.ext_get? hget
  have htoolchain := (r.toolchain_attribute produced toolchain).trans
    (r.toolchain_attribute produced' toolchain).symm
  cases hs : r.attribute produced toolchain with
  | mk artifacts fingerprint =>
    cases hs' : r.attribute produced' toolchain with
    | mk artifacts' fingerprint' =>
      rw [hs, hs'] at hartifacts htoolchain
      rw [show artifacts = artifacts' from hartifacts, show fingerprint = fingerprint' from htoolchain]

end CompileRequest

end CircuitBlocks
