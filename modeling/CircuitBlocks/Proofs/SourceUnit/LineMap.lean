import CircuitBlocks.Proofs.SourceUnit.Layout
import Mathlib.Algebra.GroupWithZero.Nat
import Mathlib.Data.List.Chain

/-!
# Line maps — where the lines of a fragment stand in a unit

The spans of a unit are counted along its pieces and not read off its text. A piece that is copied is counted by its
newlines, since the name of a unit may hold some, and a fragment by its lines, which hold none. So the count agrees
with the text, and a span begins after as many lines as the pieces before it are cut into.

* `Piece.length_cut` — a piece is cut into as many lines as it is counted for.
* `SourceUnit.exists_of_mem_spansFrom` — a span belongs to a fragment among the pieces, and begins after those
  before it.
* `SourceUnit.locate?_eq_some_iff` — what is found for a line, when no two spans share one.
* **`SourceUnit.spans_exact`** — every line of a fragment is traced back to where it came from, and no other line is.
-/

namespace CircuitBlocks

open Text

/-! ## Pieces -/

namespace Piece

/-- Whether a piece is copied as it is. -/
def IsLine : Piece → Prop
  | line _ => True
  | fragment _ _ => False

@[simp] theorem isLine_line (text : String) : (line text).IsLine := trivial

@[simp] theorem not_isLine_fragment (kind : FragmentKind) (indent : Nat) : ¬(fragment kind indent).IsLine := id

/-- The kind of fragment that a piece is. -/
def kind? : Piece → Option FragmentKind
  | line _ => none
  | fragment kind _ => some kind

variable (f : Fragments)

/-- The lines that a piece is cut into at newlines. -/
def cut (p : Piece) : List (List Char) := (p.lines f).flatMap (splitAtChar '\n')

/-- The lines of a fragment are not cut again. -/
theorem cut_fragment (kind : FragmentKind) (indent : Nat) :
    (fragment kind indent).cut f = (fragment kind indent).lines f :=
  flatMap_splitAtChar fun _ => Template.newline_not_mem_of_mem_placed f

/-- A piece is cut into as many lines as it is counted for. -/
theorem length_cut (p : Piece) : (p.cut f).length = p.height f := by
  cases p with
  | line text =>
    show (splitAtChar '\n' text.toList ++ []).length = newlines text + 1
    rw [List.append_nil, length_splitAtChar, newlines]
  | fragment kind indent =>
    rw [cut_fragment]
    exact List.length_map _

theorem length_flatMap_cut (ps : List Piece) :
    (ps.flatMap (cut f)).length = (ps.map (height f)).sum := by
  rw [List.length_flatMap]
  simp only [length_cut]

/-- A text of pieces is cut into the lines of each piece, and the empty one after the last newline. -/
theorem splitAtChar_flatMap_chars (ps : List Piece) :
    splitAtChar '\n' (ps.flatMap (chars f)) = ps.flatMap (cut f) ++ [[]] := by
  have hcut := splitAtChar_joinLines_append (ps.flatMap (lines f)) []
  rw [List.append_nil, List.flatMap_assoc] at hcut
  rw [flatMap_chars_eq_joinLines, hcut]
  rfl

/-- The lines of a fragment stand after those of the pieces before it. -/
theorem getElem?_flatMap_cut (before after : List Piece) (kind : FragmentKind) (indent : Nat) {k : Nat}
    {l : List Char} (h : (linesOfChars (f.get kind).toList)[k]? = some l) :
    ((before ++ fragment kind indent :: after).flatMap (cut f))[(before.map (height f)).sum + k]?
      = some (List.replicate indent ' ' ++ l) := by
  have hown : ((fragment kind indent).cut f)[k]? = some (List.replicate indent ' ' ++ l) := by
    rw [cut_fragment, lines, List.getElem?_map, h]
    rfl
  obtain ⟨hk, -⟩ := List.getElem?_eq_some_iff.1 hown
  rw [List.flatMap_append, List.flatMap_cons, ← length_flatMap_cut, List.getElem?_append_right (by omega),
    Nat.add_sub_cancel_left, List.getElem?_append_left hk, hown]

end Piece

/-- What stands before each line of a fragment in a unit. -/
def FragmentKind.indentation : FragmentKind → String
  | imports => ""
  | fields => "    "
  | init => "        "
  | body => "        "

/-- The fragments of a template are indented as their kinds are. -/
theorem toList_indentation_of_mem_template {name : String} {s : SignalShape} {kind : FragmentKind} {indent : Nat}
    (h : Piece.fragment kind indent ∈ template name s) :
    kind.indentation.toList = List.replicate indent ' ' := by
  simp only [template, Template.header, Template.stateSection, Template.codeSection, Template.hostSection,
    List.mem_append, List.mem_cons, List.mem_map, List.not_mem_nil, reduceCtorEq, false_or, or_false, and_false,
    exists_false, Piece.fragment.injEq] at h
  rcases h with ((⟨rfl, rfl⟩ | ⟨rfl, rfl⟩) | ⟨rfl, rfl⟩ | ⟨rfl, rfl⟩) <;> rfl

namespace SourceUnit

/-! ## Spans -/

section Spans

variable {f : Fragments} {first : Nat} {ps : List Piece} {e : FragmentKind × LineSpan}

/-- A span belongs to a fragment among the pieces. It begins after the lines of the pieces before it and is as
long as the fragment. -/
theorem exists_of_mem_spansFrom (h : e ∈ spansFrom f first ps) :
    ∃ before indent after, ps = before ++ .fragment e.1 indent :: after ∧
      e.2.first = first + (before.map (Piece.height f)).sum ∧
      e.2.past = e.2.first + (linesOfChars (f.get e.1).toList).length := by
  induction ps generalizing first with
  | nil => cases h
  | cons p ps ih =>
    -- a piece in front moves all that follow down by its height
    have htail : e ∈ spansFrom f (first + p.height f) ps →
        ∃ before indent after, p :: ps = before ++ .fragment e.1 indent :: after ∧
          e.2.first = first + (before.map (Piece.height f)).sum ∧
          e.2.past = e.2.first + (linesOfChars (f.get e.1).toList).length := by
      intro hmem
      obtain ⟨before, indent, after, hps, hfirst, hpast⟩ := ih hmem
      refine ⟨p :: before, indent, after, by rw [hps, List.cons_append], ?_, hpast⟩
      rw [hfirst, List.map_cons, List.sum_cons, Nat.add_assoc]
    cases p with
    | line text => exact htail h
    | fragment kind indent =>
      rcases List.mem_cons.1 h with rfl | hmem
      · exact ⟨[], indent, ps, rfl, rfl, rfl⟩
      · exact htail hmem

/-- The spans belong to the fragments among the pieces, in their order. -/
theorem map_fst_spansFrom (f : Fragments) (first : Nat) (ps : List Piece) :
    (spansFrom f first ps).map Prod.fst = ps.filterMap Piece.kind? := by
  induction ps generalizing first with
  | nil => rfl
  | cons p ps ih =>
    cases p with
    | line text => exact ih _
    | fragment kind indent => exact congrArg (kind :: ·) (ih _)

theorem le_first_of_mem_spansFrom (h : e ∈ spansFrom f first ps) : first ≤ e.2.first := by
  obtain ⟨before, -, -, -, hfirst, -⟩ := exists_of_mem_spansFrom h
  omega

/-- Spans are disjoint, and between two of them is a line, if between two fragments a piece is copied. -/
theorem pairwise_spansFrom (h : ps.IsChain fun p q => p.IsLine ∨ q.IsLine) :
    (spansFrom f first ps).Pairwise fun d e => d.2.past < e.2.first := by
  induction ps generalizing first with
  | nil => exact List.Pairwise.nil
  | cons p ps ih =>
    cases p with
    | line text => exact ih h.tail
    | fragment kind indent =>
      refine List.Pairwise.cons (fun e he => ?_) (ih h.tail)
      cases ps with
      | nil => cases he
      | cons q ps =>
        -- the piece after the fragment is copied, so it takes up a line
        cases q with
        | line text =>
          exact Nat.lt_of_lt_of_le (Nat.lt_add_of_pos_right (Nat.succ_pos _)) (le_first_of_mem_spansFrom he)
        | fragment _ _ => exact absurd (List.isChain_cons_cons.1 h).1 (by simp)

/-- What is found for a line, when no two spans share one. -/
theorem locate?_eq_some_iff {u : SourceUnit} (h : u.spans.Pairwise fun d e => d.2.past < e.2.first) {n k : Nat}
    {kind : FragmentKind} :
    u.locate? n = some (kind, k) ↔
      ∃ span, (kind, span) ∈ u.spans ∧ span.first ≤ n ∧ n < span.past ∧ n + 1 = span.first + k := by
  have hholds : ∀ e : FragmentKind × LineSpan,
      (decide (e.2.first ≤ n) && decide (n < e.2.past)) = true ↔ e.2.first ≤ n ∧ n < e.2.past := by simp
  rw [locate?, Option.map_eq_some_iff]
  constructor
  · rintro ⟨⟨kind, span⟩, hfind, heq⟩
    obtain ⟨rfl, rfl⟩ := Prod.mk.inj heq
    obtain ⟨hfirst, hpast⟩ : span.first ≤ n ∧ n < span.past := (hholds (kind, span)).1 (List.find?_some hfind :)
    refine ⟨span, List.mem_of_find?_eq_some hfind, hfirst, hpast, ?_⟩
    show n + 1 = span.first + (n - span.first + 1)
    omega
  · rintro ⟨span, hspan, hfirst, hpast, hk⟩
    obtain ⟨before, after, hspans⟩ := List.append_of_mem hspan
    have hnumber : n - span.first + 1 = k := by omega
    refine ⟨(kind, span), List.find?_eq_some_iff_append.2 ⟨(hholds _).2 ⟨hfirst, hpast⟩, before, after, hspans,
      fun d hd => ?_⟩, congrArg (Prod.mk kind) hnumber⟩
    -- the spans before this one end before the line
    rw [hspans] at h
    have hbefore : d.2.past < span.first := (List.pairwise_append.1 h).2.2 d hd _ List.mem_cons_self
    rw [Bool.not_eq_true', ← Bool.not_eq_true, hholds]
    omega

end Spans

/-- Nothing is found for a line just if no span holds it. -/
theorem locate?_eq_none_iff (u : SourceUnit) (n : Nat) :
    u.locate? n = none ↔ ∀ e ∈ u.spans, n < e.2.first ∨ e.2.past ≤ n := by
  rw [locate?, Option.map_eq_none_iff, List.find?_eq_none]
  refine forall₂_congr fun e _ => ?_
  simp only [Bool.and_eq_true, decide_eq_true_eq]
  omega

/-! ## Templates -/

/-- A template holds the four fragments in their order. -/
theorem filterMap_kind?_template (name : String) (s : SignalShape) :
    (template name s).filterMap Piece.kind? = [.imports, .fields, .init, .body] := by
  have hhost : (Template.hostSection s.shape).filterMap Piece.kind? = [] := by
    rw [Template.hostSection, List.filterMap_map, List.filterMap_eq_nil_iff]
    exact fun _ _ => rfl
  rw [template, List.filterMap_append, hhost, List.append_nil]
  rfl

/-- Between two fragments of a template lines are copied. -/
theorem isChain_template (name : String) (s : SignalShape) :
    (template name s).IsChain fun p q => p.IsLine ∨ q.IsLine := by
  have hhost : (Template.hostSection s.shape).IsChain fun p q => p.IsLine ∨ q.IsLine := by
    rw [Template.hostSection, List.isChain_map]
    exact (List.pairwise_of_forall fun _ _ => Or.inl trivial).isChain
  have hcons : ∀ text {ps : List Piece}, (ps.IsChain fun p q => p.IsLine ∨ q.IsLine) →
      (Piece.line text :: ps).IsChain fun p q => p.IsLine ∨ q.IsLine :=
    fun _ _ h => h.cons fun _ _ => Or.inl trivial
  simp [template, Template.header, Template.stateSection, Template.codeSection, hcons, hhost]

/-! ## Lines -/

/-- The line of a unit with a number, counted from one. -/
def line? (u : SourceUnit) : (line : Nat) → Option String
  | 0 => none
  | n + 1 => ((splitAtChar '\n' u.source.toList)[n]?).map String.ofList

section Assemble

variable {f : Fragments} {s : SignalShape} {name : String} {kind : FragmentKind} {span : LineSpan}

/-- The lines of a span are those of its fragment, each after the fragment's indentation. -/
theorem line?_of_mem_spans (h : (kind, span) ∈ (assemble f s name).spans) {k : Nat} {line : String}
    (hline : (Text.lines (f.get kind))[k]? = some line) :
    (assemble f s name).line? (span.first + k) = some (kind.indentation ++ line) := by
  obtain ⟨before, indent, after, htemplate, hfirst, -⟩ := exists_of_mem_spansFrom h
  obtain ⟨l, hl, rfl⟩ : ∃ l, (linesOfChars (f.get kind).toList)[k]? = some l ∧ String.ofList l = line := by
    rwa [Text.lines, List.getElem?_map, Option.map_eq_some_iff] at hline
  have hindent : kind.indentation.toList = List.replicate indent ' ' :=
    toList_indentation_of_mem_template (htemplate ▸ List.mem_append_right _ List.mem_cons_self)
  have hsource : splitAtChar '\n' (assemble f s name).source.toList
      = (before ++ .fragment kind indent :: after).flatMap (Piece.cut f) ++ [[]] := by
    rw [assemble, String.toList_ofList, Piece.splitAtChar_flatMap_chars, htemplate]
  -- the lines before it are those of the pieces before its fragment, and of that fragment
  have hnumber : span.first + k = (before.map (Piece.height f)).sum + k + 1 := by
    rw [show span.first = _ from hfirst]
    omega
  have hget := Piece.getElem?_flatMap_cut f before after kind indent hl
  obtain ⟨hlt, -⟩ := List.getElem?_eq_some_iff.1 hget
  rw [hnumber, line?, hsource, List.getElem?_append_left hlt, hget, ← hindent, Option.map_some,
    String.ofList_append, String.ofList_toList]

/-- A span is as long as its fragment has lines. -/
theorem past_of_mem_spans (h : (kind, span) ∈ (assemble f s name).spans) :
    span.past = span.first + (Text.lines (f.get kind)).length := by
  obtain ⟨-, -, -, -, -, hpast⟩ := exists_of_mem_spansFrom h
  rw [Text.lines, List.length_map]
  exact hpast

/-- **Line maps are exact.** The spans of a unit belong to the imports, the fields, the initialisation and the body,
in this order; each ends before the next begins and is as long as its fragment. The lines of a span are those of its
fragment, each after the fragment's indentation. What is found for a line of a unit is the fragment and the number of
the line in it if the line is of a span, and nothing if it is not: so nothing for zero or past the end of the unit. -/
theorem spans_exact (f : Fragments) (s : SignalShape) (name : String) :
    (assemble f s name).spans.map Prod.fst = [.imports, .fields, .init, .body] ∧
    ((assemble f s name).spans.Pairwise fun d e => d.2.past < e.2.first) ∧
    (∀ kind span, (kind, span) ∈ (assemble f s name).spans →
      span.past = span.first + (Text.lines (f.get kind)).length ∧
      ∀ k line, (Text.lines (f.get kind))[k]? = some line →
        (assemble f s name).line? (span.first + k) = some (kind.indentation ++ line)) ∧
    (∀ n kind k, (assemble f s name).locate? n = some (kind, k) ↔
      ∃ span, (kind, span) ∈ (assemble f s name).spans ∧
        0 < k ∧ k ≤ (Text.lines (f.get kind)).length ∧ n + 1 = span.first + k) ∧
    (∀ n, (assemble f s name).locate? n = none ↔
      ∀ e ∈ (assemble f s name).spans, n < e.2.first ∨ e.2.past ≤ n) ∧
    ∀ n, (assemble f s name).line? n = none → (assemble f s name).locate? n = none := by
  have hpairwise : (assemble f s name).spans.Pairwise fun d e => d.2.past < e.2.first :=
    pairwise_spansFrom (isChain_template name s)
  have hsome : ∀ n kind k, (assemble f s name).locate? n = some (kind, k) ↔
      ∃ span, (kind, span) ∈ (assemble f s name).spans ∧
        0 < k ∧ k ≤ (Text.lines (f.get kind)).length ∧ n + 1 = span.first + k := by
    intro n kind k
    rw [locate?_eq_some_iff hpairwise]
    refine exists_congr fun span => and_congr_right fun hmem => ?_
    have := past_of_mem_spans hmem
    omega
  refine ⟨?_, hpairwise, fun kind span hmem => ⟨past_of_mem_spans hmem, fun k line => line?_of_mem_spans hmem⟩,
    hsome, locate?_eq_none_iff _, ?_⟩
  · rw [assemble, map_fst_spansFrom]
    exact filterMap_kind?_template name s
  · intro n hnone
    rw [Option.eq_none_iff_forall_ne_some]
    rintro ⟨kind, k⟩ hlocate
    obtain ⟨span, hmem, hpos, hle, hnumber⟩ := (hsome n kind k).1 hlocate
    -- a line that a fragment is found for is a line of the unit
    have hsource := line?_of_mem_spans hmem (List.getElem?_eq_getElem (i := k - 1) (by omega))
    rw [show span.first + (k - 1) = n by omega, hnone] at hsource
    cases hsource

end Assemble

end SourceUnit

end CircuitBlocks
