import CircuitBlocks.Proofs.FileTree.Folders
import CircuitBlocks.Proofs.Text.Utf8
import Mathlib.Data.List.Flatten

/-!
# Parents — the directory that holds a file

The parent of a path is put together anew from the parts of the path, so it may be spelled otherwise than the path
begins. It leads to the same directory all the same, unless the path is a bare name: then the parent is the empty
path, which leads nowhere.

* `Path.parent?_eq` — the parent of a path that ends in a name.
* `FileTree.Holds` — the directory that holds what a path leads to.
* **`FileTree.exists_holds`** — a file is in a directory, and the parent of its path leads there, or is empty.
-/

namespace CircuitBlocks

/-! ## Pieces -/

namespace Text

/-- Pieces without separators are what their text is cut into. -/
theorem splitAtChar_intercalate {sep : Char} {pieces : List (List Char)} (h : ∀ p ∈ pieces, sep ∉ p)
    (hne : pieces ≠ []) : splitAtChar sep ([sep].intercalate pieces) = pieces := by
  induction pieces with
  | nil => exact absurd rfl hne
  | cons p ps ih =>
    obtain ⟨hp, hps⟩ := List.forall_mem_cons.1 h
    cases ps with
    | nil =>
      rw [List.intercalate_singleton]
      exact splitAtChar_of_not_mem hp
    | cons q qs =>
      rw [List.intercalate_cons_cons, List.append_assoc, List.singleton_append, splitAtChar_append_cons,
        ih hps (List.cons_ne_nil _ _), splitAtChar_of_not_mem hp, List.singleton_append]

/-- The text of pieces is theirs with a separator between. -/
theorem intercalate_splitAtChar (sep : Char) (cs : List Char) : [sep].intercalate (splitAtChar sep cs) = cs := by
  induction cs with
  | nil => rfl
  | cons c cs ih =>
    obtain ⟨p, ps, hps⟩ := List.exists_cons_of_ne_nil (splitAtChar_ne_nil sep cs)
    by_cases hc : c = sep
    · subst hc
      rw [splitAtChar_cons_self, hps, List.intercalate_cons_cons, ← hps, ih]
      rfl
    · rw [splitAtChar_cons_of_ne hc hps]
      rw [hps] at ih
      -- whether a separator follows the first piece depends on there being another one
      cases ps with
      | nil =>
        rw [List.intercalate_singleton] at ih ⊢
        rw [ih]
      | cons q qs =>
        rw [List.intercalate_cons_cons] at ih ⊢
        rw [List.cons_append, List.cons_append, ih]

theorem cons_intercalate {sep : Char} {pieces : List (List Char)} (h : pieces ≠ []) :
    sep :: [sep].intercalate pieces = pieces.flatMap (sep :: ·) := by
  induction pieces with
  | nil => exact absurd rfl h
  | cons p ps ih =>
    cases ps with
    | nil => simp
    | cons q qs =>
      rw [List.intercalate_cons_cons, List.flatMap_cons, ← ih (List.cons_ne_nil _ _)]
      simp

/-- With characters left out, a text has no more bytes. -/
theorem utf8ByteSize_le_of_sublist {s t : String} (h : s.toList.Sublist t.toList) :
    s.utf8ByteSize ≤ t.utf8ByteSize := by
  rw [← Utf8.length_encode, ← Utf8.length_encode, Utf8.encode_eq_flatMap, Utf8.encode_eq_flatMap]
  exact (h.flatMap _).length_le

end Text

/-! ## Paths -/

namespace Path

variable {path last : String} {init : List String}

/-- Whether a piece of a path names something. -/
def Names (piece : String) : Prop := piece ≠ "" ∧ piece ≠ "."

instance (piece : String) : Decidable (Names piece) := inferInstanceAs (Decidable (_ ∧ _))

/-- The pieces that are parts. A `.` counts at the beginning only. -/
def partsOf : List String → List String
  | "." :: rest => "." :: rest.filter Names
  | all => all.filter Names

/-- The parts of a path are those of its pieces. -/
theorem parts_eq (path : String) : parts path = partsOf (pieces path) := by
  rw [parts]
  split
  · next rest hpieces =>
    rw [hpieces]
    rfl
  · next hdot =>
    rw [partsOf]
    · rfl
    · exact hdot

theorem partsOf_of_ne {first : String} {rest : List String} (h : first ≠ ".") :
    partsOf (first :: rest) = (first :: rest).filter Names := by
  rw [partsOf]
  intro others heq
  exact h (List.cons.inj heq).1

/-- A last piece that is a name is the last part. -/
theorem partsOf_concat (h : Names last) : partsOf (init ++ [last]) = partsOf init ++ [last] := by
  have hlast : [last].filter Names = [last] := List.filter_cons_of_pos (decide_eq_true h)
  cases init with
  | nil => exact (partsOf_of_ne h.2).trans hlast
  | cons first rest =>
    by_cases hfirst : first = "."
    · subst hfirst
      show "." :: (rest ++ [last]).filter Names = "." :: rest.filter Names ++ [last]
      rw [List.filter_append, hlast, List.cons_append]
    · rw [List.cons_append, partsOf_of_ne hfirst, partsOf_of_ne hfirst, ← List.cons_append, List.filter_append, hlast]

/-- Parts are pieces, in their order. -/
theorem partsOf_sublist (pieces : List String) : (partsOf pieces).Sublist pieces := by
  cases pieces with
  | nil => exact List.Sublist.refl _
  | cons first rest =>
    by_cases hfirst : first = "."
    · subst hfirst
      exact List.filter_sublist.cons_cons "."
    · rw [partsOf_of_ne hfirst]
      exact List.filter_sublist

/-- The parts of a path are not empty, and a dot is one only in the first place. -/
theorem ne_empty_of_mem_partsOf {piece : String} {pieces : List String} (h : piece ∈ partsOf pieces) :
    piece ≠ "" := by
  have hnamed : ∀ {rest : List String}, piece ∈ rest.filter Names → piece ≠ "" := fun hmem =>
    (of_decide_eq_true (List.mem_filter.1 hmem).2).1
  cases pieces with
  | nil => cases h
  | cons first rest =>
    by_cases hfirst : first = "."
    · subst hfirst
      rcases List.mem_cons.1 h with rfl | h
      · decide
      · exact hnamed h
    · rw [partsOf_of_ne hfirst] at h
      exact hnamed h

theorem pieces_ne_nil (path : String) : pieces path ≠ [] := fun h =>
  Text.splitAtChar_ne_nil '/' path.toList (List.map_eq_nil_iff.1 h)

theorem not_slash_of_mem_pieces {piece : String} (h : piece ∈ pieces path) : '/' ∉ piece.toList := by
  obtain ⟨cs, hcs, rfl⟩ := List.mem_map.1 h
  rw [String.toList_ofList]
  exact Text.not_mem_of_mem_splitAtChar hcs

/-- The characters of a path are those of its pieces, with slashes between. -/
theorem toList_eq_intercalate (path : String) : path.toList = ['/'].intercalate ((pieces path).map String.toList) := by
  have hmap : (pieces path).map String.toList = Text.splitAtChar '/' path.toList := by
    rw [pieces, List.map_map]
    exact (List.map_congr_left fun cs _ => String.toList_ofList).trans (List.map_id _)
  rw [hmap, Text.intercalate_splitAtChar]

/-- A path begins with a slash just if its first piece is empty and others come after it. -/
theorem isAbsolute_iff_pieces : isAbsolute path = true ↔ ∃ second rest, pieces path = "" :: second :: rest := by
  rw [isAbsolute_iff]
  constructor
  · rintro ⟨rest, hrest⟩
    have hpieces : pieces path = "" :: pieces (String.ofList rest) := by
      rw [pieces, hrest, Text.splitAtChar_cons_self, List.map_cons, pieces, String.toList_ofList]
    obtain ⟨second, others, hothers⟩ := List.exists_cons_of_ne_nil (pieces_ne_nil (String.ofList rest))
    exact ⟨second, others, by rw [hpieces, hothers]⟩
  · rintro ⟨second, rest, hpieces⟩
    refine ⟨['/'].intercalate ((second :: rest).map String.toList), ?_⟩
    rw [toList_eq_intercalate, hpieces, List.map_cons, List.map_cons, List.intercalate_cons_cons]
    rfl

/-- A path that has no slash is one piece. -/
theorem pieces_eq_singleton_iff : (∃ piece, pieces path = [piece]) ↔ '/' ∉ path.toList := by
  constructor
  · rintro ⟨piece, hpiece⟩
    have hchars := toList_eq_intercalate path
    rw [hpiece, List.map_singleton, List.intercalate_singleton] at hchars
    rw [hchars]
    exact not_slash_of_mem_pieces (hpiece ▸ List.mem_singleton_self piece)
  · intro h
    exact ⟨path, by rw [pieces, Text.splitAtChar_of_not_mem h, List.map_singleton, String.ofList_toList]⟩

/-- The parent of a path that ends in a name. -/
theorem parent?_eq (hpieces : pieces path = init ++ [last]) (hlast : Names last) :
    parent? path = some (ofParts (isAbsolute path) (partsOf init)) := by
  have hparts : parts path = partsOf init ++ [last] := by rw [parts_eq, hpieces, partsOf_concat hlast]
  rw [parent?, hparts]
  split
  · next hnil => simp at hnil
  · rw [List.dropLast_concat]

/-! ### Parents as paths -/

section Parents

variable {parts : List String}

/-- A path of parts is cut into them again. -/
theorem pieces_ofParts (hslash : ∀ p ∈ parts, '/' ∉ p.toList) (hne : parts ≠ []) (absolute : Bool) :
    pieces (ofParts absolute parts) = (if absolute then [""] else []) ++ parts := by
  -- no part has a slash, so cutting takes the joining back
  have hchars : (String.intercalate "/" parts).toList = ['/'].intercalate (parts.map String.toList) :=
    String.toList_intercalate
  have hcut : Text.splitAtChar '/' (['/'].intercalate (parts.map String.toList)) = parts.map String.toList :=
    Text.splitAtChar_intercalate (List.forall_mem_map.2 hslash) (fun h => hne (List.map_eq_nil_iff.1 h))
  have hback : (parts.map String.toList).map String.ofList = parts := by
    rw [List.map_map]
    exact (List.map_congr_left fun p _ => String.ofList_toList).trans (List.map_id _)
  cases absolute with
  | false =>
    rw [ofParts, pieces]
    simp only [Bool.false_eq_true, if_false, String.empty_append, List.nil_append]
    rw [hchars, hcut, hback]
  | true =>
    rw [ofParts, pieces]
    simp only [if_true, String.toList_append, List.singleton_append]
    show (Text.splitAtChar '/' ('/' :: (String.intercalate "/" parts).toList)).map String.ofList = "" :: parts
    rw [Text.splitAtChar_cons_self, hchars, hcut, List.map_cons, hback]

theorem isAbsolute_ofParts (hempty : ∀ p ∈ parts, p ≠ "") (hslash : ∀ p ∈ parts, '/' ∉ p.toList)
    (absolute : Bool) : isAbsolute (ofParts absolute parts) = absolute := by
  cases absolute with
  | true =>
    refine isAbsolute_iff.2 ⟨(String.intercalate "/" parts).toList, ?_⟩
    rw [ofParts, if_pos rfl, String.toList_append]
    rfl
  | false =>
    rw [Bool.eq_false_iff]
    intro habsolute
    obtain ⟨second, rest, hpieces⟩ := isAbsolute_iff_pieces.1 habsolute
    by_cases hne : parts = []
    · rw [hne] at habsolute
      cases habsolute
    · rw [pieces_ofParts hslash hne] at hpieces
      -- a part would be empty
      exact hempty "" (by rw [show parts = "" :: second :: rest from hpieces]; exact List.mem_cons_self) rfl

/-- A path with fewer of the characters is short enough as well. -/
theorem check_of_sublist {path part : String} (h : check path = .ok ()) (hne : part ≠ "")
    (hsub : part.toList.Sublist path.toList) : check part = .ok () := by
  unfold check at h ⊢
  split at h
  · cases h
  · next hnul =>
    split at h
    · cases h
    · split at h
      · cases h
      · next hlimit =>
        have hsize := Text.utf8ByteSize_le_of_sublist hsub
        rw [if_neg fun hmem => hnul (hsub.subset hmem), if_neg hne, if_neg (by omega)]

/-- A path of parts of another one is no longer, and made of its characters. -/
theorem toList_ofParts_sublist (hempty : ∀ p ∈ parts, p ≠ "") (hsub : parts.Sublist (pieces path))
    (habsolute : isAbsolute path = true ∨ parts ≠ []) :
    (ofParts (isAbsolute path) parts).toList.Sublist path.toList := by
  -- with a slash in front of both, each piece has one of its own, and goes with it
  have hpath : '/' :: path.toList = ((pieces path).map String.toList).flatMap ('/' :: ·) := by
    rw [toList_eq_intercalate path, Text.cons_intercalate fun h => pieces_ne_nil path (List.map_eq_nil_iff.1 h)]
  have hparts : parts ≠ [] → '/' :: (String.intercalate "/" parts).toList
      = (parts.map String.toList).flatMap ('/' :: ·) := by
    intro hne
    rw [String.toList_intercalate]
    exact Text.cons_intercalate fun h => hne (List.map_eq_nil_iff.1 h)
  cases habs : isAbsolute path with
  | false =>
    have hne := habsolute.resolve_left (by rw [habs]; exact Bool.false_ne_true)
    have hall := (hsub.map String.toList).flatMap ('/' :: ·)
    rw [← hpath, ← hparts hne] at hall
    rw [ofParts, if_neg Bool.false_ne_true, String.empty_append]
    exact List.cons_sublist_cons.1 hall
  | true =>
    obtain ⟨second, rest, hpieces⟩ := isAbsolute_iff_pieces.1 habs
    have hmore : parts.Sublist (second :: rest) := by
      rw [hpieces] at hsub
      cases hsub with
      | cons _ h => exact h
      | cons_cons _ _ => exact absurd rfl (hempty "" List.mem_cons_self)
    rw [hpieces, List.map_cons, List.flatMap_cons] at hpath
    obtain ⟨-, hchars⟩ := List.cons.inj hpath
    rw [ofParts, if_pos rfl, String.toList_append, hchars]
    by_cases hne : parts = []
    · rw [hne, List.map_cons, List.flatMap_cons]
      exact (List.nil_sublist _).cons_cons '/'
    · have hall := (hmore.map String.toList).flatMap ('/' :: ·)
      rw [← hparts hne] at hall
      exact hall

/-- A path of parts is not the empty text, unless it has neither a root nor parts. -/
theorem ofParts_ne_empty (hempty : ∀ p ∈ parts, p ≠ "") (hslash : ∀ p ∈ parts, '/' ∉ p.toList) {absolute : Bool}
    (h : absolute = true ∨ parts ≠ []) : ofParts absolute parts ≠ "" := by
  intro hnone
  by_cases hne : parts = []
  · obtain rfl := h.resolve_right (not_not_intro hne)
    have habsolute := isAbsolute_ofParts hempty hslash true
    rw [hnone] at habsolute
    cases habsolute
  · -- the empty text has one piece, which is empty, as no part is
    have hpieces := pieces_ofParts hslash hne absolute
    rw [hnone, show pieces "" = [""] from rfl] at hpieces
    obtain ⟨part, rest, rfl⟩ := List.exists_cons_of_ne_nil hne
    cases absolute with
    | true =>
      cases hpieces
    | false =>
      obtain ⟨hpart, -⟩ := List.cons.inj hpieces
      exact hempty part List.mem_cons_self hpart.symm

/-- Before the last piece of a path with slashes, there is a part or the root. -/
theorem isAbsolute_or_partsOf_ne_nil (hpieces : pieces path = init ++ [last]) (hslash : '/' ∈ path.toList) :
    isAbsolute path = true ∨ partsOf init ≠ [] := by
  cases init with
  | nil => exact absurd hslash (pieces_eq_singleton_iff.1 ⟨last, hpieces⟩)
  | cons first rest =>
    by_cases hdot : first = "."
    · subst hdot
      exact .inr (List.cons_ne_nil _ _)
    · -- an empty first piece is what the slash at the root leaves
      by_cases hempty : first = ""
      · obtain ⟨second, others, hothers⟩ := List.exists_cons_of_ne_nil (List.append_ne_nil_of_right_ne_nil rest
          (List.cons_ne_nil last []))
        refine .inl (isAbsolute_iff_pieces.2 ⟨second, others, ?_⟩)
        rw [hpieces, hempty, List.cons_append, hothers]
      · refine .inr ?_
        rw [partsOf_of_ne hdot, List.filter_cons_of_pos (p := fun p => decide (Names p))
          (decide_eq_true ⟨hempty, hdot⟩)]
        exact List.cons_ne_nil _ _

end Parents

end Path

/-! ## Walks -/

namespace FileTree

variable {tree : FileTree} {here place d start : Location} {path : String} {pieces : List String}

/-- Pieces that name nothing lead nowhere else. -/
theorem foldlM_next_filter (h : pieces.foldlM tree.next start = .ok place) :
    (pieces.filter Path.Names).foldlM tree.next start = .ok place := by
  induction pieces generalizing start with
  | nil => exact h
  | cons piece pieces ih =>
    rw [List.foldlM_cons] at h
    cases hnext : tree.next start piece with
    | error e =>
      rw [hnext] at h
      cases h
    | ok mid =>
      rw [hnext] at h
      by_cases hnames : Path.Names piece
      · rw [List.filter_cons_of_pos (p := fun p => decide (Path.Names p)) (decide_eq_true hnames), List.foldlM_cons,
          hnext]
        exact ih h
      · rw [List.filter_cons_of_neg (p := fun p => decide (Path.Names p)) (by simpa using hnames)]
        -- such a piece stays where it is
        have hstay : mid = start := by
          have henter := (next_eq_ok.1 hnext).2
          have hpiece : piece = "" ∨ piece = "." := by
            rw [Path.Names] at hnames
            exact Decidable.or_iff_not_not_and_not.2 hnames
          rw [enter, if_pos hpiece] at henter
          exact (Except.ok.inj henter).symm
        exact hstay ▸ ih h

/-- The pieces that are left out do not change where a path leads. -/
theorem foldlM_next_partsOf (h : pieces.foldlM tree.next start = .ok place) :
    (Path.partsOf pieces).foldlM tree.next start = .ok place := by
  cases pieces with
  | nil => exact h
  | cons first rest =>
    by_cases hfirst : first = "."
    · -- a dot in the first place is a part, and is entered as before
      subst hfirst
      rw [List.foldlM_cons] at h
      cases hnext : tree.next start "." with
      | error e =>
        rw [hnext] at h
        cases h
      | ok mid =>
        rw [hnext] at h
        show ("." :: rest.filter Path.Names).foldlM tree.next start = _
        rw [List.foldlM_cons, hnext]
        exact foldlM_next_filter h
    · rw [Path.partsOf_of_ne hfirst]
      exact foldlM_next_filter h

/-! ## Files -/

/-- The directory that holds what a path leads to. -/
def Holds (tree : FileTree) (here : Location) (path : String) (d : Location) : Prop :=
  ∃ there name, tree.locate here path = .ok there ∧ there.place = d ++ [name]

/-- A path that names a file leads to a place where something is, and no directory. -/
theorem exists_of_isFile (h : tree.isFile here path = true) : ∃ there, tree.locate here path = .ok there ∧
    Path.check path = .ok () ∧ tree.reach (Path.fromRoot here path) = .ok there.place ∧
    ¬ tree.HasDirectory there.place ∧ ∃ n, tree.node? there.place = some n := by
  unfold isFile at h
  split at h
  · cases h
  · next there hlocate =>
    have hlocated := hlocate
    rw [locate_eq] at hlocate
    cases hcheck : Path.check path with
    | error e =>
      rw [hcheck] at hlocate
      cases hlocate
    | ok u =>
      rw [hcheck] at hlocate
      obtain ⟨hreach, hnode⟩ := walk_eq_ok hlocate
      -- the walk has found what the tree has at that place
      rw [hnode] at h
      refine ⟨there, hlocated, rfl, hreach, ?_, ?_⟩
      · rintro ⟨entries, hentries⟩
        rw [hentries] at h
        cases h
      · cases hfound : tree.node? there.place with
        | none =>
          rw [hfound] at h
          cases h
        | some n => exact ⟨n, rfl⟩

/-- Only a name leads from a directory to what is none. -/
theorem names_of_next {last : String} (h : tree.next d last = .ok place) (hfile : ¬ tree.HasDirectory place) :
    Path.Names last ∧ place = d ++ [last] := by
  obtain ⟨hdirectory, henter⟩ := next_eq_ok.1 h
  unfold enter at henter
  split at henter
  · -- an empty name and a dot stay in the directory
    exact absurd (Except.ok.inj henter ▸ hdirectory) hfile
  · next hnames =>
    split at henter
    · -- the directory around is one
      obtain rfl := Except.ok.inj henter
      refine absurd ?_ hfile
      rcases List.eq_nil_or_concat d with rfl | ⟨around, name, rfl⟩
      · exact hdirectory
      · rw [List.concat_eq_append] at hdirectory ⊢
        obtain ⟨entries, hentries⟩ := hdirectory
        rw [List.dropLast_concat]
        exact hasDirectory_of_node? hentries
    · split at henter
      · cases henter
      · exact ⟨not_or.1 hnames, (Except.ok.inj henter).symm⟩

/-- The path of parts leads where the pieces lead that they are parts of. -/
theorem reach_ofParts {absolute : Bool} (hslash : ∀ p ∈ Path.partsOf pieces, '/' ∉ p.toList)
    (h : tree.reach ((if absolute then [] else here) ++ pieces) = .ok d)
    (hsome : absolute = true ∨ Path.partsOf pieces ≠ []) :
    tree.reach ((if absolute then [] else here) ++ Path.pieces (Path.ofParts absolute (Path.partsOf pieces)))
      = .ok d := by
  rw [reach_append] at h ⊢
  cases hstart : tree.reach (if absolute then [] else here) with
  | error e =>
    rw [hstart] at h
    cases h
  | ok start =>
    rw [hstart] at h
    -- from the start on it is the parts alone that lead on
    have hparts : (Path.partsOf pieces).foldlM tree.next start = .ok d := foldlM_next_partsOf h
    show (Path.pieces _).foldlM tree.next start = .ok d
    by_cases hne : Path.partsOf pieces = []
    · -- only the root is left
      obtain rfl := hsome.resolve_right (not_not_intro hne)
      rw [hne] at hparts ⊢
      obtain rfl : [] = start := Except.ok.inj hstart
      exact hparts
    · rw [Path.pieces_ofParts hslash hne]
      cases absolute with
      | false => exact hparts
      | true =>
        obtain rfl : [] = start := Except.ok.inj hstart
        exact hparts

/-- A file is in a directory. The parent of its path leads to that directory, but the parent of a bare name is
empty. -/
theorem exists_holds (h : tree.isFile here path = true) : ∃ d parent, tree.Holds here path d ∧
    tree.HasDirectory d ∧ Path.parent? path = some parent ∧
    (('/' ∉ path.toList ∧ parent = "") ∨
      ('/' ∈ path.toList ∧ Path.check parent = .ok () ∧ tree.reach (Path.fromRoot here parent) = .ok d)) := by
  obtain ⟨there, hlocate, hcheck, hreach, hfile, n, hn⟩ := exists_of_isFile h
  obtain ⟨init, last, hpieces⟩ := (List.eq_nil_or_concat (Path.pieces path)).resolve_left (Path.pieces_ne_nil path)
  rw [List.concat_eq_append] at hpieces
  rw [Path.fromRoot, hpieces, ← List.append_assoc, reach_append] at hreach
  cases hinit : tree.reach ((if Path.isAbsolute path then [] else here) ++ init) with
  | error e =>
    rw [hinit] at hreach
    cases hreach
  | ok d =>
    -- the last piece leads from the directory to the file
    rw [hinit] at hreach
    have hnext : tree.next d last = .ok there.place := by simpa [Except.bind] using hreach
    obtain ⟨hlast, hplace⟩ := names_of_next hnext hfile
    refine ⟨d, _, ⟨there, last, hlocate, hplace⟩, (next_eq_ok.1 hnext).1, Path.parent?_eq hpieces hlast, ?_⟩
    have hsub : (Path.partsOf init).Sublist (Path.pieces path) := by
      rw [hpieces]
      exact (Path.partsOf_sublist init).trans (List.sublist_append_left init [last])
    have hempty : ∀ p ∈ Path.partsOf init, p ≠ "" := fun p => Path.ne_empty_of_mem_partsOf
    have hpart : ∀ p ∈ Path.partsOf init, '/' ∉ p.toList := fun p hp => Path.not_slash_of_mem_pieces (hsub.subset hp)
    by_cases hslash : '/' ∈ path.toList
    · have hsome := Path.isAbsolute_or_partsOf_ne_nil hpieces hslash
      refine .inr ⟨hslash, Path.check_of_sublist hcheck (Path.ofParts_ne_empty hempty hpart hsome)
        (Path.toList_ofParts_sublist hempty hsub hsome), ?_⟩
      rw [Path.fromRoot, Path.isAbsolute_ofParts hempty hpart]
      exact reach_ofParts hpart hinit hsome
    · obtain ⟨piece, hpiece⟩ := Path.pieces_eq_singleton_iff.2 hslash
      -- nothing is left before the only piece
      have hnone : init = [] := by
        rw [hpieces] at hpiece
        exact (List.append_eq_singleton_iff.1 hpiece).elim (·.1) fun h => absurd h.2 (List.cons_ne_nil _ _)
      have hrelative : Path.isAbsolute path = false := by
        rw [Bool.eq_false_iff]
        intro habsolute
        obtain ⟨rest, hrest⟩ := Path.isAbsolute_iff.1 habsolute
        exact hslash (hrest ▸ List.mem_cons_self)
      refine .inl ⟨hslash, ?_⟩
      rw [hnone, hrelative]
      rfl

end FileTree

end CircuitBlocks
