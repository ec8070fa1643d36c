import CircuitBlocks.FileTree.Access
import Mathlib.Data.List.Infix

/-!
# Walks — where a path leads, told by locations alone

A walk asks one thing of the places that it passes: whether each is a directory. So it leads to the same
location in every tree that has the same directories, and what is put into one of them does not turn it aside.

* `FileTree.reach` — the location that pieces lead to; `FileTree.walk_eq_ok` ties it to the positions.
* `FileTree.reach_mono` — a tree with more directories is walked alike.
* **`FileTree.hasDirectory_install`** — what is put at a location that held no directory takes away none, and
  by `FileTree.node?_install_of_ne` what stands beside it is as it was.
-/

namespace CircuitBlocks

/-! ## Locations -/

namespace Node

/-- A walk down the nodes goes on from where it has come to. -/
theorem node?_append (n : Node) (place rest : Location) :
    n.node? (place ++ rest) = (n.node? place).bind (·.node? rest) := by
  induction place generalizing n with
  | nil => rfl
  | cons name place ih =>
    simp only [List.cons_append, node?]
    cases n.entries.lookup name with
    | none => rfl
    | some inner => exact ih inner

/-- Something is only below a directory. -/
theorem exists_directory_of_node? {n inner : Node} {name : String} {rest : Location}
    (h : n.node? (name :: rest) = some inner) : ∃ entries, n = .directory entries := by
  cases n with
  | directory entries => exact ⟨entries, rfl⟩
  | file contents => cases h
  | program compiler => cases h

theorem lookup_put_of_ne {entries : Entries} {name other : String} (h : other ≠ name) (n : Node) :
    (put entries name n).lookup other = entries.lookup other := by
  have hfilter : (entries.filter fun e => e.1 ≠ name).lookup other = entries.lookup other := by
    induction entries with
    | nil => rfl
    | cons e entries ih =>
      obtain ⟨key, inner⟩ := e
      by_cases hkey : key = name
      · rw [List.filter_cons_of_neg (by simp [hkey]), List.lookup_cons, beq_false_of_ne (hkey ▸ h)]
        exact ih
      · rw [List.filter_cons_of_pos (by simp [hkey]), List.lookup_cons, List.lookup_cons, ih]
  rw [put, List.lookup_cons, beq_false_of_ne h]
  exact hfilter

/-- What is neither above nor below a location stays when something is put there. -/
theorem node?_install_apart (n : Node) {place other : Location} (around : Option Node)
    (hbelow : ¬ place <+: other) (habove : ¬ other <+: place) :
    (n.install place around).node? other = around.bind (·.node? other) := by
  induction place generalizing other around with
  | nil => exact absurd List.nil_prefix hbelow
  | cons name place ih =>
    cases other with
    | nil => exact absurd List.nil_prefix habove
    | cons first other =>
      have hsame : around.bind (·.node? (first :: other))
          = (((around.map (·.entries)).getD []).lookup first).bind (·.node? other) := by
        cases around <;> rfl
      rw [hsame]
      simp only [install, node?, entries_directory]
      -- the two places go on together, or part here
      by_cases heq : first = name
      · subst heq
        rw [lookup_put, Option.bind_some]
        refine ih _ (fun h => hbelow ?_) fun h => habove ?_
        · exact List.cons_prefix_cons.2 ⟨rfl, h⟩
        · exact List.cons_prefix_cons.2 ⟨rfl, h⟩
      · rw [lookup_put_of_ne heq]

/-- On the way to what is put there are directories. -/
theorem node?_install_above (n : Node) (place : Location) (name : String) (rest : Location)
    (around : Option Node) :
    ∃ entries, (n.install (place ++ name :: rest) around).node? place = some (.directory entries) := by
  induction place generalizing around with
  | nil => exact ⟨_, rfl⟩
  | cons first place ih =>
    simp only [List.cons_append, install, node?, entries_directory, lookup_put, Option.bind_some]
    exact ih _

end Node

namespace FileTree

variable {tree tree' : FileTree} {place other : Location}

/-- Whether a location holds a directory. -/
def HasDirectory (tree : FileTree) (place : Location) : Prop :=
  ∃ entries, tree.node? place = some (.directory entries)

theorem hasDirectory_root (tree : FileTree) : tree.HasDirectory [] := ⟨tree.entries, rfl⟩

theorem node?_append (tree : FileTree) (place rest : Location) :
    tree.node? (place ++ rest) = (tree.node? place).bind (·.node? rest) :=
  tree.root.node?_append place rest

/-- Whatever is below a location, the location holds a directory then. -/
theorem hasDirectory_of_node? {name : String} {rest : Location} {n : Node}
    (h : tree.node? (place ++ name :: rest) = some n) : tree.HasDirectory place := by
  rw [node?_append] at h
  obtain ⟨inner, hinner, hn⟩ := Option.bind_eq_some_iff.1 h
  obtain ⟨entries, rfl⟩ := Node.exists_directory_of_node? hn
  exact ⟨entries, hinner⟩

theorem node?_install_eq (tree : FileTree) (hplace : place ≠ []) (n : Node) (other : Location) :
    (tree.install place n).node? other = (n.install place (some tree.root)).node? other := by
  obtain ⟨name, rest, rfl⟩ := List.exists_cons_of_ne_nil hplace
  rw [install, if_neg hplace]
  rfl

/-! ## Things that are put -/

/-- What is put where no directory is takes away no other directory. -/
theorem hasDirectory_install (h : ¬ tree.HasDirectory place) (n : Node)
    (hother : tree.HasDirectory other) : (tree.install place n).HasDirectory other := by
  have hplace : place ≠ [] := by
    rintro rfl
    exact h tree.hasDirectory_root
  have hne : other ≠ place := by
    rintro rfl
    exact h hother
  rw [HasDirectory, node?_install_eq tree hplace]
  -- a directory above the place stays one, below the place there is none, and apart from it nothing changes
  by_cases habove : other <+: place
  · obtain ⟨rest, rfl⟩ := habove
    cases rest with
    | nil => exact absurd (List.append_nil other).symm hne
    | cons name rest => exact n.node?_install_above other name rest _
  · rw [n.node?_install_apart _ ?_ habove]
    · exact hother
    · rintro ⟨rest, rfl⟩
      cases rest with
      | nil => exact hne (List.append_nil place)
      | cons name rest =>
        obtain ⟨entries, hentries⟩ := hother
        exact h (hasDirectory_of_node? hentries)

/-- What has another name in the same directory stays. -/
theorem node?_install_of_ne {parent : Location} {name other : String} (hne : other ≠ name) (n : Node) :
    (tree.install (parent ++ [name]) n).node? (parent ++ [other]) = tree.node? (parent ++ [other]) := by
  have hapart : ∀ {first second : String}, first ≠ second → ¬ parent ++ [first] <+: parent ++ [second] := by
    intro first second hdiffer hprefix
    have heq := hprefix.eq_of_length (by simp)
    exact hdiffer (by simpa using heq)
  rw [node?_install_eq tree (by simp), n.node?_install_apart _ (hapart hne.symm) (hapart hne)]
  rfl

/-! ## Walks -/

/-- The location that one piece of a path leads to from a directory. -/
def enter (place : Location) (piece : String) : Except SystemError Location :=
  if piece = "" ∨ piece = "." then .ok place
  else if piece = ".." then .ok place.dropLast
  else if Path.nameLimit < piece.utf8ByteSize then .error .nameTooLong
  else .ok (place ++ [piece])

/-- The location that one piece of a path leads to. -/
def next (tree : FileTree) (place : Location) (piece : String) : Except SystemError Location :=
  match tree.node? place with
  | none => .error .notFound
  | some (.directory _) => enter place piece
  | some _ => .error .notDirectory

/-- The location that the pieces of a path lead to from the root. -/
def reach (tree : FileTree) (pieces : List String) : Except SystemError Location :=
  pieces.foldlM tree.next []

/-- Whether the steps of a position are what the tree has on the way there. -/
def Tracks (tree : FileTree) : List (String × Node) → Prop
  | [] => True
  | (_, around) :: trail => tree.node? (trail.map (·.1)).reverse = some around ∧ tree.Tracks trail

/-- A position that was walked to in a tree. -/
structure Reached (tree : FileTree) (p : Position) : Prop where
  node : p.node? = tree.node? p.place
  trail : tree.Tracks p.trail

/-- To go up is to leave out the last name. -/
theorem reached_up {p : Position} (h : tree.Reached p) :
    tree.Reached p.up ∧ p.up.place = p.place.dropLast := by
  obtain ⟨trail, node⟩ := p
  cases trail with
  | nil => exact ⟨h, rfl⟩
  | cons step trail =>
    obtain ⟨name, around⟩ := step
    refine ⟨⟨h.trail.1.symm, h.trail.2⟩, ?_⟩
    simp [Position.up, Position.place]

/-- A step leads where the locations tell. -/
theorem step_place {p : Position} (h : tree.Reached p) (piece : String) :
    (p.step piece).map (·.place) = tree.next p.place piece ∧
      ∀ q, p.step piece = .ok q → tree.Reached q := by
  have hnode := h.node
  unfold Position.step next enter
  rw [← hnode]
  -- only a directory can be left to another position
  cases hp : p.node? with
  | none => exact ⟨rfl, fun q hq => nomatch hq⟩
  | some n =>
    cases n with
    | file contents => exact ⟨rfl, fun q hq => nomatch hq⟩
    | program compiler => exact ⟨rfl, fun q hq => nomatch hq⟩
    | directory entries =>
      simp only
      split
      · exact ⟨rfl, fun q hq => Except.ok.inj hq ▸ h⟩
      · split
        · obtain ⟨hup, hplace⟩ := reached_up h
          exact ⟨congrArg Except.ok hplace, fun q hq => Except.ok.inj hq ▸ hup⟩
        · split
          · exact ⟨rfl, fun q hq => nomatch hq⟩
          · refine ⟨by simp [Except.map, Position.place], fun q hq => ?_⟩
            rw [← Except.ok.inj hq]
            -- the position goes down by one entry
            have hinner : tree.node? (p.place ++ [piece]) = entries.lookup piece := by
              rw [node?_append, ← hnode, hp]
              simp [Node.node?]
            refine ⟨?_, hnode.symm.trans hp, h.trail⟩
            simpa [Position.place] using hinner.symm

/-- The position of a walk is at the place that its names lead to. -/
theorem foldlM_step_place {p : Position} (h : tree.Reached p) (pieces : List String) :
    (pieces.foldlM Position.step p).map (·.place) = pieces.foldlM tree.next p.place ∧
      ∀ q, pieces.foldlM Position.step p = .ok q → tree.Reached q := by
  induction pieces generalizing p with
  | nil => exact ⟨rfl, fun q hq => Except.ok.inj hq ▸ h⟩
  | cons piece pieces ih =>
    obtain ⟨hstep, hreached⟩ := step_place h piece
    rw [List.foldlM_cons, List.foldlM_cons, ← hstep]
    cases hp : p.step piece with
    | error e => exact ⟨rfl, fun q hq => nomatch hq⟩
    | ok next => exact ih (hreached next hp)

theorem reached_root (tree : FileTree) : tree.Reached ⟨[], some tree.root⟩ := ⟨rfl, trivial⟩

/-- A walk gives what is at the location that its pieces lead to. -/
theorem walk_eq_ok {pieces : List String} {p : Position} (h : tree.walk pieces = .ok p) :
    tree.reach pieces = .ok p.place ∧ p.node? = tree.node? p.place := by
  obtain ⟨hplace, hreached⟩ := foldlM_step_place tree.reached_root pieces
  refine ⟨?_, (hreached p h).node⟩
  rw [show pieces.foldlM Position.step ⟨[], some tree.root⟩ = .ok p from h] at hplace
  exact hplace.symm

/-- A place that is reached is walked to, and its node is what is found there. -/
theorem exists_walk {pieces : List String} (h : tree.reach pieces = .ok place) :
    ∃ p, tree.walk pieces = .ok p ∧ p.place = place ∧ p.node? = tree.node? place := by
  obtain ⟨hplace, hreached⟩ := foldlM_step_place tree.reached_root pieces
  rw [show pieces.foldlM tree.next (Position.place ⟨[], some tree.root⟩) = .ok place from h] at hplace
  cases hwalk : tree.walk pieces with
  | error e =>
    rw [show pieces.foldlM Position.step ⟨[], some tree.root⟩ = .error e from hwalk] at hplace
    cases hplace
  | ok p =>
    rw [show pieces.foldlM Position.step ⟨[], some tree.root⟩ = .ok p from hwalk] at hplace
    have hp : p.place = place := Except.ok.inj hplace
    exact ⟨p, rfl, hp, hp ▸ (hreached p hwalk).node⟩

/-! ### Trees with more directories -/

/-- Where a piece leads depends on whether a directory is there, and on nothing else in the tree. -/
theorem next_eq_ok {piece : String} :
    tree.next place piece = .ok other ↔ tree.HasDirectory place ∧ enter place piece = .ok other := by
  unfold next HasDirectory
  cases tree.node? place with
  | none => simp
  | some n => cases n <;> simp

theorem reach_append (tree : FileTree) (pieces rest : List String) :
    tree.reach (pieces ++ rest) = (tree.reach pieces).bind fun place => rest.foldlM tree.next place :=
  List.foldlM_append

/-- A tree with more directories is walked alike. -/
theorem reach_mono (hmore : ∀ place, tree.HasDirectory place → tree'.HasDirectory place)
    {pieces : List String} (h : tree.reach pieces = .ok place) : tree'.reach pieces = .ok place := by
  unfold reach at h ⊢
  -- over the steps of the walk, from any place where it may be
  generalize ([] : Location) = start at h ⊢
  induction pieces generalizing start with
  | nil => exact h
  | cons piece pieces ih =>
    rw [List.foldlM_cons] at h ⊢
    cases hnext : tree.next start piece with
    | error e =>
      rw [hnext] at h
      cases h
    | ok mid =>
      rw [hnext] at h
      obtain ⟨hdirectory, hlead⟩ := next_eq_ok.1 hnext
      rw [next_eq_ok.2 ⟨hmore start hdirectory, hlead⟩]
      exact ih mid h

end FileTree

end CircuitBlocks
