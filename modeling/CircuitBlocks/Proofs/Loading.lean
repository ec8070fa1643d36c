import CircuitBlocks.Loading
/-!
# Loading — where an opened library comes from

A library is opened just if everything about it is in order: its artifact, its name, its image and its
contract. Which tier it comes from is decided by the first one that knows the name.

* `LibraryImage.open_eq_ok_iff` — what is opened is a table of this contract.
* **`Artifact.open_eq_ok_iff`** — an artifact opens just if it is loadable, can be staged, and its payload holds
  such a table.
* `asked` — the tiers that are asked for a name; after a store that knows it there are none.
* `loadUnit_eq_ok_iff` — a library that is given has the shape that was asked for.
-/

namespace CircuitBlocks

/-- A library opens just if it holds a procedure of this contract, and is named as asked. -/
theorem LibraryImage.open_eq_ok_iff {image : LibraryImage} {name : String} {u : LibraryUnit} :
    image.open name = .ok u ↔
      image = .procedure u.table ∧ u.table.contractVersion = contractVersion ∧ u.name = name := by
  constructor
  · intro h
    cases image with
    | unreadable detail => cases h
    | tableMissing detail => cases h
    | procedure table =>
      rw [LibraryImage.open] at h
      split at h
      · next hcontract =>
        cases h
        exact ⟨rfl, hcontract, rfl⟩
      · cases h
  · rintro ⟨rfl, hcontract, rfl⟩
    rw [LibraryImage.open, if_pos hcontract]

/-- An artifact opens just if it is a block's own, has a name that can be staged, and is loaded as a procedure. -/
theorem Artifact.open_eq_ok_iff {a : Artifact} {name : String} {m : Machine} {u : LibraryUnit} :
    a.open name m = .ok u ↔ a.kind = .primary ∧ stagingError? name = none ∧
      m.loader a.payload = .procedure u.table ∧ u.table.contractVersion = contractVersion ∧
      u.name = name := by
  constructor
  · intro h
    unfold Artifact.open at h
    split at h
    · cases h
    · next hkind =>
      split at h
      · cases h
      · next hstaging => exact ⟨Decidable.of_not_not hkind, hstaging, LibraryImage.open_eq_ok_iff.1 h⟩
  · rintro ⟨hkind, hstaging, himage⟩
    rw [Artifact.open, if_neg (not_not_intro hkind), hstaging]
    exact LibraryImage.open_eq_ok_iff.2 himage

/-- The tiers that are asked for a name, up to the first that knows it. -/
def asked (m : Machine) (name : String) : List LibraryTier → List LibraryTier
  | [] => []
  | tier :: rest =>
    match tier.resolve? m name with
    | some _ => [tier]
    | none => tier :: asked m name rest

/-- The tiers that are not asked make no difference. -/
theorem resolve_asked (m : Machine) (name : String) (tiers : List LibraryTier) :
    resolve m (asked m name tiers) name = resolve m tiers name := by
  unfold resolve
  induction tiers with
  | nil => rfl
  | cons tier rest ih =>
    cases htier : tier.resolve? m name with
    | some found => simp [asked, htier]
    | none =>
      simp only [asked, htier, List.findSome?_cons]
      exact ih

/-- After a store that knows the name, no other tier is asked. -/
theorem asked_store {s : ArtifactStore} {name : String} {a : Artifact} (hget : s.get? name = some a)
    (m : Machine) (tiers : List LibraryTier) : asked m name (.store s :: tiers) = [.store s] := by
  rw [asked, LibraryTier.resolve?, hget]
  rfl

/-- The store comes before all other tiers, and what it holds under a name is taken from nowhere else. -/
theorem resolve_store {s : ArtifactStore} {name : String} {a : Artifact} (hget : s.get? name = some a)
    (m : Machine) (tiers : List LibraryTier) : resolve m (.store s :: tiers) name = a.open name m := by
  rw [← resolve_asked, asked_store hget, resolve, List.findSome?_singleton, LibraryTier.resolve?, hget]
  rfl

/-- An artifact that does not open is not missing. -/
theorem Artifact.open_ne_missing (a : Artifact) (name name' : String) (m : Machine) :
    a.open name m ≠ .error (.missing name') := by
  unfold Artifact.open LibraryImage.open
  split
  · exact fun h => nomatch h
  · split
    · exact fun h => nomatch h
    · split
      · exact fun h => nomatch h
      · exact fun h => nomatch h
      · split <;> exact fun h => nomatch h

/-- A library that is given for a shape is the one that its name resolves to, and has that shape. -/
theorem loadUnit_eq_ok_iff {m : Machine} {tiers : List LibraryTier} {name : String}
    {expected : ProcedureShape} {u : LibraryUnit} : loadUnit m tiers name expected = .ok u ↔
      resolve m tiers name = .ok u ∧ u.shape? = some expected := by
  unfold loadUnit
  cases resolve m tiers name with
  | error e => exact ⟨fun h => (nomatch h), fun h => (nomatch h.1)⟩
  | ok found =>
    simp only
    split
    · -- the shape is looked at last
      next hshape =>
      refine ⟨?_, And.left⟩
      rintro ⟨⟩
      exact ⟨rfl, hshape⟩
    · next hshape =>
      refine ⟨fun h => (nomatch h), ?_⟩
      rintro ⟨⟨⟩, hexpected⟩
      exact absurd hexpected hshape

/-- An instance is made just if the library gives it memory. -/
theorem LibraryUnit.instantiate_eq_ok_iff {u : LibraryUnit} {memory : Memory} :
    u.instantiate = .ok memory ↔ u.table.create = some memory := by
  unfold instantiate
  cases u.table.create with
  | none => exact ⟨fun h => (nomatch h), fun h => (nomatch h)⟩
  | some created => exact ⟨fun h => congrArg some (Except.ok.inj h), fun h => congrArg _ (Option.some.inj h)⟩

end CircuitBlocks
