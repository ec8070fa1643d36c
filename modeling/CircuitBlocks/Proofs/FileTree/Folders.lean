import CircuitBlocks.Proofs.FileTree.Walks
import CircuitBlocks.Proofs.Text.Lines
import Mathlib.Data.List.TakeWhile

/-!
# Folders — the files that are written into one directory

The path of a file in a directory leads through the directory to the name of the file. So the files that are
written into a directory are kept apart by their names, whatever the path of the directory is and whatever is in
the tree besides.

* `Path.fromRoot_join` — the pieces of the path of a file are those of its directory and its name.
* `FileTree.createDirectories_of_ready` — a directory that is there is left alone.
* **`FileTree.read_write`** — what was written to a path is what is read there.
* `FileTree.Takes` — a directory that takes a file of some name.
* `FileTree.Takes.write`, `FileTree.Takes.install`, **`FileTree.Takes.read`** — the file is written, other files
  can be written after it, and what was written is what is read.
-/

namespace CircuitBlocks

/-! ## Paths -/

namespace Path

variable {directory file path : String}

/-- A name that a file can have in a directory. -/
structure IsName (file : String) : Prop where
  slash : '/' ∉ file.toList
  empty : file ≠ ""
  here : file ≠ "."
  up : file ≠ ".."

theorem IsName.pieces (h : IsName file) : Path.pieces file = [file] := by
  rw [Path.pieces, Text.splitAtChar_of_not_mem h.slash, List.map_singleton, String.ofList_toList]

/-- A path is absolute just if it begins with a slash. -/
theorem isAbsolute_iff : isAbsolute path = true ↔ ∃ rest, path.toList = '/' :: rest := by
  rw [isAbsolute, Text.startsWith, show ("/" : String).toList = ['/'] from rfl, List.isPrefixOf_iff_prefix]
  constructor
  · rintro ⟨rest, hrest⟩
    exact ⟨rest, hrest.symm⟩
  · rintro ⟨rest, hrest⟩
    exact ⟨rest, hrest.symm⟩

theorem IsName.not_isAbsolute (h : IsName file) : isAbsolute file = false := by
  rw [Bool.eq_false_iff]
  intro habsolute
  obtain ⟨rest, hrest⟩ := isAbsolute_iff.1 habsolute
  exact h.slash (hrest ▸ List.mem_cons_self)

/-- The pieces on the way to what is in a directory. -/
def around (here : Location) (directory : String) : List String :=
  if directory = "" then here
  else if directory.toList.getLast? = some '/' then (fromRoot here directory).dropLast
  else fromRoot here directory

theorem pieces_append_slash (start rest : List Char) :
    pieces (String.ofList (start ++ '/' :: rest))
      = pieces (String.ofList start) ++ pieces (String.ofList rest) := by
  simp only [pieces, String.toList_ofList, Text.splitAtChar_append_cons, List.map_append]

theorem isAbsolute_append (h : directory ≠ "") (rest : String) :
    isAbsolute (directory ++ rest) = isAbsolute directory := by
  rw [Bool.eq_iff_iff, isAbsolute_iff, isAbsolute_iff, String.toList_append]
  cases hchars : directory.toList with
  | nil => exact absurd (String.toList_eq_nil_iff.1 hchars) h
  | cons c cs => simp

/-- The pieces of the path of a file in a directory. -/
theorem fromRoot_join (h : IsName file) (here : Location) (directory : String) :
    fromRoot here (join directory file) = around here directory ++ [file] := by
  by_cases hempty : directory = ""
  · simp [around, join, hempty, fromRoot, h.not_isAbsolute, h.pieces]
  · have hrelative : ¬ (isAbsolute file = true ∨ directory = "") := by
      simp [h.not_isAbsolute, hempty]
    rw [around, join, if_neg hrelative, if_neg hempty]
    split
    · next hslash =>
      -- the slash at the end makes an empty last piece, which the name takes the place of
      obtain ⟨start, hstart⟩ := List.getLast?_eq_some_iff.1 hslash
      have hdirectory : directory = String.ofList (start ++ '/' :: []) := by
        rw [← hstart, String.ofList_toList]
      have hjoined : directory ++ file = String.ofList (start ++ '/' :: file.toList) := by
        rw [hdirectory]
        apply String.toList_injective
        simp
      have habsolute := isAbsolute_append hempty file
      unfold fromRoot
      rw [habsolute, hjoined, pieces_append_slash, String.ofList_toList, h.pieces, ← List.append_assoc]
      congr 1
      rw [hdirectory, pieces_append_slash, show pieces (String.ofList []) = [""] from rfl, ← List.append_assoc,
        List.dropLast_concat]
    · have hjoined : directory ++ "/" ++ file = String.ofList (directory.toList ++ '/' :: file.toList) := by
        apply String.toList_injective
        simp
      have habsolute : isAbsolute (directory ++ "/" ++ file) = isAbsolute directory := by
        rw [String.append_assoc]
        exact isAbsolute_append hempty _
      unfold fromRoot
      rw [habsolute, hjoined, pieces_append_slash, String.ofList_toList, String.ofList_toList, h.pieces,
        List.append_assoc]

end Path

namespace FileTree

variable {tree tree' : FileTree} {here place d : Location} {path directory file other : String}
  {bytes : List UInt8}

/-! ### Slashes at the end -/

/-- Slashes at the end leave empty pieces. -/
theorem splitAtChar_append_replicate (cs : List Char) (n : Nat) :
    Text.splitAtChar '/' (cs ++ List.replicate n '/') = Text.splitAtChar '/' cs ++ List.replicate n [] := by
  induction n with
  | zero => simp
  | succ n ih =>
    rw [List.replicate_succ', List.replicate_succ', ← List.append_assoc, ← List.append_assoc,
      Text.splitAtChar_append_cons, ih]
    rfl

/-- What is dropped from the end are slashes. -/
theorem exists_append_replicate (cs : List Char) :
    ∃ n, cs = (cs.reverse.dropWhile (· = '/')).reverse ++ List.replicate n '/' := by
  refine ⟨(cs.reverse.takeWhile (· = '/')).length, ?_⟩
  rw [← List.reverse_inj, List.reverse_append, List.reverse_reverse, List.reverse_replicate]
  conv_lhs => rw [← List.takeWhile_append_dropWhile (p := (· = '/')) (l := cs.reverse)]
  congr 1
  refine List.eq_replicate_iff.2 ⟨rfl, fun c hc => ?_⟩
  have hslash : decide (c = '/') = true := List.mem_takeWhile_imp (p := fun c => decide (c = '/')) hc
  exact of_decide_eq_true hslash

/-- The pieces of a path are those of the path without the slashes at its end, and empty ones. -/
theorem exists_pieces_withoutEndSlashes (path : String) : ∃ n,
    Path.pieces path = Path.pieces (withoutEndSlashes path) ++ List.replicate n "" ∧
      Path.isAbsolute (withoutEndSlashes path) = Path.isAbsolute path := by
  obtain ⟨n, hn⟩ := exists_append_replicate path.toList
  unfold withoutEndSlashes
  revert hn
  generalize (path.toList.reverse.dropWhile (· = '/')).reverse = cs
  intro hn
  have hpieces : Path.pieces path = Path.pieces (String.ofList cs) ++ List.replicate n "" := by
    simp [Path.pieces, hn, splitAtChar_append_replicate]
  cases cs with
  | cons c cs =>
    refine ⟨n, ?_, ?_⟩
    · simpa using hpieces
    · rw [if_neg (by simp), Bool.eq_iff_iff, Path.isAbsolute_iff, Path.isAbsolute_iff, hn]
      simp
  | nil =>
    cases n with
    | zero =>
      have hempty : path = "" := String.toList_eq_nil_iff.1 hn
      subst hempty
      exact ⟨0, rfl, rfl⟩
    | succ n =>
      -- of slashes alone, one is left
      have habsolute : Path.isAbsolute path = true := Path.isAbsolute_iff.2 ⟨_, hn⟩
      rw [if_pos ⟨rfl, habsolute⟩, habsolute]
      refine ⟨n, hpieces.trans ?_, rfl⟩
      rw [show Path.pieces (String.ofList []) = [""] from rfl, show Path.pieces "/" = ["", ""] from rfl]
      rfl

/-- Empty pieces lead nowhere else, but only a directory lets them pass. -/
theorem reach_append_replicate {pieces : List String} (n : Nat) :
    (tree.reach (pieces ++ List.replicate n "") = .ok place → tree.reach pieces = .ok place) ∧
      (tree.reach pieces = .ok place → tree.HasDirectory place →
        tree.reach (pieces ++ List.replicate n "") = .ok place) := by
  induction n with
  | zero =>
    rw [List.replicate_zero, List.append_nil]
    exact ⟨id, fun h _ => h⟩
  | succ n ih =>
    -- an empty name stays in its place, and asks that it is a directory
    have hnext : ∀ d, tree.next d "" = .ok place ↔ tree.HasDirectory d ∧ d = place := by
      intro d
      rw [next_eq_ok]
      simp [enter]
    rw [List.replicate_succ', ← List.append_assoc, reach_append]
    constructor
    · intro h
      cases hreach : tree.reach (pieces ++ List.replicate n "") with
      | error e =>
        rw [hreach] at h
        cases h
      | ok d =>
        rw [hreach] at h
        have hlast : tree.next d "" = .ok place := by simpa [Except.bind] using h
        obtain ⟨-, rfl⟩ := (hnext d).1 hlast
        exact ih.1 hreach
    · intro h hdirectory
      rw [ih.2 h hdirectory]
      simpa [Except.bind] using (hnext place).2 ⟨hdirectory, rfl⟩

/-- Slashes at the end of a path lead nowhere else, but only a directory lets them pass. -/
theorem reach_withoutEndSlashes (tree : FileTree) (here : Location) (path : String) :
    (tree.reach (Path.fromRoot here path) = .ok place →
      tree.reach (Path.fromRoot here (withoutEndSlashes path)) = .ok place) ∧
    (tree.reach (Path.fromRoot here (withoutEndSlashes path)) = .ok place → tree.HasDirectory place →
      tree.reach (Path.fromRoot here path) = .ok place) := by
  obtain ⟨n, hpieces, habsolute⟩ := exists_pieces_withoutEndSlashes path
  have hroot : Path.fromRoot here path
      = Path.fromRoot here (withoutEndSlashes path) ++ List.replicate n "" := by
    rw [Path.fromRoot, Path.fromRoot, hpieces, habsolute, List.append_assoc]
  rw [hroot]
  exact reach_append_replicate n

/-! ## Directories -/

theorem locate_eq (tree : FileTree) (here : Location) (path : String) :
    tree.locate here path = (Path.check path).bind fun _ => tree.walk (Path.fromRoot here path) := rfl

/-- A path names a directory just if it is a valid path to a place that holds one. -/
theorem isDirectory_iff : tree.isDirectory here path = true ↔ Path.check path = .ok () ∧
    ∃ place, tree.reach (Path.fromRoot here path) = .ok place ∧ tree.HasDirectory place := by
  unfold isDirectory
  rw [locate_eq]
  cases hcheck : Path.check path with
  | error e => simp [Except.bind]
  | ok u =>
    simp only [Except.bind, true_and]
    constructor
    · intro h
      -- the walk that is made to look at the node is the one that reaches the place
      cases hwalk : tree.walk (Path.fromRoot here path) with
      | error e =>
        rw [hwalk] at h
        cases h
      | ok p =>
        rw [hwalk] at h
        obtain ⟨hreach, hnode⟩ := walk_eq_ok hwalk
        refine ⟨p.place, hreach, ?_⟩
        simp only at h
        split at h
        · next entries hp => exact ⟨entries, hnode ▸ hp⟩
        · cases h
    · rintro ⟨place, hreach, entries, hentries⟩
      obtain ⟨p, hwalk, -, hnode⟩ := exists_walk hreach
      rw [hwalk]
      simp [hnode, hentries]

/-- A directory is made where the walk finds nothing. -/
theorem createDirectory_eq (tree : FileTree) (here : Location) (path : String) :
    tree.createDirectory here path = (Path.check path).bind fun _ =>
      (tree.walk (Path.fromRoot here (withoutEndSlashes path))).bind fun there =>
        match there.node? with
        | some _ => .error .alreadyExists
        | none => .ok (tree.install there.place (.directory [])) := rfl

/-- A directory that was created is there. -/
theorem isDirectory_of_createDirectory (h : tree.createDirectory here path = .ok tree') :
    tree'.isDirectory here path = true := by
  rw [createDirectory_eq] at h
  cases hcheck : Path.check path with
  | error e =>
    rw [hcheck] at h
    cases h
  | ok u =>
    rw [hcheck] at h
    cases hwalk : tree.walk (Path.fromRoot here (withoutEndSlashes path)) with
    | error e =>
      rw [hwalk] at h
      cases h
    | ok p =>
      rw [hwalk] at h
      simp only [Except.bind] at h
      obtain ⟨hreach, hnode⟩ := walk_eq_ok hwalk
      split at h
      · cases h
      · next hnone =>
        cases h
        rw [hnone] at hnode
        -- the new directory is put where nothing was, so the walk to it still goes the same way
        have hfree : ¬ tree.HasDirectory p.place := by
          rintro ⟨entries, hentries⟩
          rw [← hnode] at hentries
          cases hentries
        have hplace : p.place ≠ [] := fun hroot => hfree (hroot ▸ tree.hasDirectory_root)
        have hthere : (tree.install p.place (.directory [])).HasDirectory p.place :=
          ⟨[], tree.node?_install hplace _⟩
        have hstill := reach_mono (fun other => hasDirectory_install hfree (.directory [])) hreach
        exact isDirectory_iff.2 ⟨hcheck, p.place, (reach_withoutEndSlashes _ here path).2 hstill hthere, hthere⟩

/-- A directory that files can be written to: it is there, or it is the current one, which no path names. -/
def Ready (tree : FileTree) (here : Location) (directory : String) : Prop :=
  directory = "" ∨ tree.isDirectory here directory = true

/-- A directory that is there is left alone. -/
theorem createDirectories_of_ready (h : tree.Ready here directory) :
    tree.createDirectories here directory = (.ok (), tree) := by
  unfold createDirectories createMissing
  rcases h with rfl | h
  · rfl
  · obtain ⟨hcheck, place, hreach, entries, hentries⟩ := isDirectory_iff.1 h
    obtain ⟨p, hwalk, -, hnode⟩ := exists_walk ((reach_withoutEndSlashes tree here directory).1 hreach)
    -- there already, which is an error that is passed over
    have hcreate : tree.createDirectory here directory = .error .alreadyExists := by
      rw [createDirectory_eq, hcheck, hwalk]
      simp [Except.bind, hnode, hentries]
    by_cases hempty : directory = ""
    · rw [if_pos hempty]
    · rw [if_neg hempty, hcreate]
      simp [h]

/-- Where the missing directories are created, the directory is there, or none was asked for. -/
theorem ready_of_createMissing {fuel : Nat} (h : tree.createMissing here fuel directory = (.ok (), tree')) :
    tree'.Ready here directory := by
  cases fuel with
  | zero => cases h
  | succ fuel =>
    -- a refusal is passed over if the directory is there all the same
    have hasked : ∀ {e : SystemError} {left : FileTree},
        ((if left.isDirectory here directory then .ok () else .error e : Except SystemError Unit), left)
          = (.ok (), tree') → tree'.Ready here directory := by
      intro e left heq
      obtain ⟨hok, rfl⟩ := Prod.ext_iff.1 heq
      refine .inr ?_
      by_contra hno
      simp only [if_neg hno] at hok
      cases hok
    unfold createMissing at h
    split at h
    · next hempty => exact .inl hempty
    · split at h
      · next hcreate =>
        cases h
        exact .inr (isDirectory_of_createDirectory hcreate)
      · split at h
        · split at h
          · cases h
          · split at h
            · cases h
            · split at h
              · next hcreate =>
                cases h
                exact .inr (isDirectory_of_createDirectory hcreate)
              · exact hasked h
        · exact hasked h

/-- A directory that was created is ready. -/
theorem ready_of_createDirectories (h : tree.createDirectories here directory = (.ok (), tree')) :
    tree'.Ready here directory :=
  ready_of_createMissing h

theorem Ready.mono (h : tree.Ready here directory)
    (hmore : ∀ place, tree.HasDirectory place → tree'.HasDirectory place) : tree'.Ready here directory := by
  refine h.imp_right fun hdirectory => ?_
  obtain ⟨hcheck, place, hreach, hplace⟩ := isDirectory_iff.1 hdirectory
  exact isDirectory_iff.2 ⟨hcheck, place, reach_mono hmore hreach, hmore place hplace⟩

/-! ## Files -/

/-- A place that a file can be put to: nothing is there, or a file. -/
def Free (tree : FileTree) (place : Location) : Prop :=
  tree.node? place = none ∨ ∃ contents, tree.node? place = some (.file contents)

theorem Free.not_hasDirectory (h : tree.Free place) : ¬ tree.HasDirectory place := by
  rintro ⟨entries, hentries⟩
  rcases h with hnone | ⟨contents, hfile⟩
  · rw [hnone] at hentries
    cases hentries
  · rw [hfile] at hentries
    cases hentries

/-- A file that was written is put where its path leads to, and the place was free. -/
theorem write_eq_ok (h : tree.write here path bytes = .ok tree') :
    Path.check path = .ok () ∧ ∃ place, tree.reach (Path.fromRoot here path) = .ok place ∧ tree.Free place ∧
      tree' = tree.install place (.file bytes) := by
  unfold write at h
  cases hcheck : Path.check path with
  | error e =>
    rw [hcheck] at h
    cases h
  | ok u =>
    simp only [hcheck, bind, Except.bind] at h
    split at h
    · -- a path that ends in a slash names no file
      split at h <;> cases h
    next hpath =>
    rw [Decidable.not_not.1 hpath] at h
    split at h
    · cases h
    next there hwalk =>
    obtain ⟨hreach, hnode⟩ := walk_eq_ok hwalk
    refine ⟨rfl, there.place, hreach, ?_⟩
    rw [Free, ← hnode]
    -- what stands there decides, and only nothing and a file are left
    cases hthere : there.node? with
    | none =>
      rw [hthere] at h
      exact ⟨.inl rfl, (Except.ok.inj h).symm⟩
    | some n =>
      rw [hthere] at h
      cases n with
      | file contents => exact ⟨.inr ⟨contents, rfl⟩, (Except.ok.inj h).symm⟩
      | directory entries => cases h
      | program compiler => cases h

/-- A name leads from a directory to a place in it, unless it is too long. -/
theorem enter_eq_ok (hname : Path.IsName file) :
    enter d file = .ok place ↔ file.utf8ByteSize ≤ Path.nameLimit ∧ place = d ++ [file] := by
  unfold enter
  rw [if_neg (by simp [hname.empty, hname.here]), if_neg hname.up]
  split
  · next hlong => simp [Nat.not_le.2 hlong]
  · next hshort => simp [Nat.not_lt.1 hshort, eq_comm]

/-- The path of a file in a directory leads through that directory. -/
theorem reach_join_eq_ok (hname : Path.IsName file) :
    tree.reach (Path.fromRoot here (Path.join directory file)) = .ok place ↔
      ∃ d, tree.reach (Path.around here directory) = .ok d ∧ tree.HasDirectory d ∧
        file.utf8ByteSize ≤ Path.nameLimit ∧ place = d ++ [file] := by
  rw [Path.fromRoot_join hname, reach_append]
  cases tree.reach (Path.around here directory) with
  | error e => simp [Except.bind]
  | ok d =>
    have hnext : tree.next d file = .ok place ↔
        tree.HasDirectory d ∧ file.utf8ByteSize ≤ Path.nameLimit ∧ place = d ++ [file] := by
      rw [next_eq_ok, enter_eq_ok hname]
    simpa [Except.bind] using hnext

/-- A directory that takes a file of some name: its place is free, or there is a file already. -/
structure Takes (tree : FileTree) (here : Location) (directory : String) (d : Location) (file : String) :
    Prop where
  check : Path.check (Path.join directory file) = .ok ()
  around : tree.reach (Path.around here directory) = .ok d
  directory : tree.HasDirectory d
  short : file.utf8ByteSize ≤ Path.nameLimit
  free : tree.node? (d ++ [file]) = none ∨ ∃ contents, tree.node? (d ++ [file]) = some (.file contents)

namespace Takes

theorem not_hasDirectory (h : tree.Takes here directory d file) : ¬ tree.HasDirectory (d ++ [file]) :=
  Free.not_hasDirectory h.free

theorem reach (h : tree.Takes here directory d file) (hname : Path.IsName file) :
    tree.reach (Path.fromRoot here (Path.join directory file)) = .ok (d ++ [file]) :=
  (reach_join_eq_ok hname).2 ⟨d, h.around, h.directory, h.short, rfl⟩

end Takes

/-- A path to a name ends in no slash. -/
theorem withoutEndSlashes_join (hname : Path.IsName file) (directory : String) :
    withoutEndSlashes (Path.join directory file) = Path.join directory file := by
  obtain ⟨start, hstart⟩ : ∃ start, (Path.join directory file).toList = start ++ file.toList := by
    unfold Path.join
    split
    · exact ⟨[], rfl⟩
    · split
      · exact ⟨directory.toList, String.toList_append⟩
      · exact ⟨directory.toList ++ ['/'], by simp⟩
  -- a joined path ends like the name, and a name has no slash
  obtain ⟨init, c, hlast⟩ := List.eq_nil_or_concat file.toList |>.resolve_left
    fun hnil => hname.empty (String.toList_eq_nil_iff.1 hnil)
  have hslash : c ≠ '/' := by
    rintro rfl
    exact hname.slash (by simp [hlast])
  have hreverse : (Path.join directory file).toList.reverse.dropWhile (· = '/')
      = (Path.join directory file).toList.reverse := by
    rw [hstart, hlast]
    simp [hslash]
  unfold withoutEndSlashes
  simp only [hreverse, List.reverse_reverse]
  rw [if_neg, String.ofList_toList]
  rintro ⟨hnil, -⟩
  rw [hstart, hlast] at hnil
  simp at hnil

/-- How a file is written into a directory: the path is checked, the directory is walked to, and what stands in the
place decides. -/
theorem write_join (hname : Path.IsName file) (tree : FileTree) (here : Location) (directory : String)
    (bytes : List UInt8) : tree.write here (Path.join directory file) bytes
      = (Path.check (Path.join directory file)).bind fun _ =>
        (tree.walk (Path.fromRoot here (Path.join directory file))).bind fun there =>
          match there.node? with
          | some (.directory _) => .error .isDirectory
          | some (.program _) => .error .permissionDenied
          | _ => .ok (tree.install there.place (.file bytes)) := by
  unfold write
  rw [withoutEndSlashes_join hname]
  cases Path.check (Path.join directory file) with
  | error e => rfl
  | ok u =>
    simp only [ne_eq, not_true_eq_false, if_false]
    rfl

/-- A file can be written into a directory just if the directory takes it. -/
theorem write_join_eq_ok (hname : Path.IsName file) :
    tree.write here (Path.join directory file) bytes = .ok tree' ↔
      ∃ d, tree.Takes here directory d file ∧ tree' = tree.install (d ++ [file]) (.file bytes) := by
  constructor
  · intro h
    obtain ⟨hcheck, place, hreach, hfree, rfl⟩ := write_eq_ok h
    obtain ⟨d, haround, hdirectory, hshort, rfl⟩ := (reach_join_eq_ok hname).1 hreach
    exact ⟨d, ⟨hcheck, haround, hdirectory, hshort, hfree⟩, rfl⟩
  · rintro ⟨d, htakes, rfl⟩
    obtain ⟨there, hwalk, hplace, hnode⟩ := exists_walk (htakes.reach hname)
    rw [write_join hname, htakes.check, hwalk]
    -- nothing is in the way, or a file that is written over
    rcases htakes.free with hnone | ⟨contents, hfile⟩
    · simp [Except.bind, hnode, hnone, hplace]
    · simp [Except.bind, hnode, hfile, hplace]

/-- What was written is what is read. -/
theorem Takes.read (h : tree.Takes here directory d file) (hname : Path.IsName file)
    (hfile : tree.node? (d ++ [file]) = some (.file bytes)) :
    tree.read here (Path.join directory file) = .ok bytes ∧
      tree.isFile here (Path.join directory file) = true := by
  obtain ⟨there, hwalk, hplace, hnode⟩ := exists_walk (h.reach hname)
  -- reading goes by the path of writing
  have hlocate : tree.locate here (Path.join directory file) = .ok there := by
    rw [locate_eq, h.check]
    exact hwalk
  rw [hfile] at hnode
  constructor
  · unfold FileTree.read
    rw [hlocate]
    simp only [bind, Except.bind, hnode]
    rfl
  · unfold isFile
    rw [hlocate]
    simp only [hnode]

/-- After a file was written the directory takes the same files as before. -/
theorem Takes.install (h : tree.Takes here directory d file) (hother : tree.Takes here directory d other)
    (bytes : List UInt8) : (tree.install (d ++ [file]) (.file bytes)).Takes here directory d other where
  check := hother.check
  around := reach_mono (fun _ => hasDirectory_install h.not_hasDirectory _) hother.around
  directory := hasDirectory_install h.not_hasDirectory _ hother.directory
  short := hother.short
  free := by
    by_cases hsame : other = file
    · rw [hsame, node?_install tree (by simp)]
      exact .inr ⟨bytes, rfl⟩
    · rw [node?_install_of_ne hsame]
      exact hother.free

end FileTree

end CircuitBlocks
