import CircuitBlocks.Text.Blank
import CircuitBlocks.Proofs.Text.Lines

/-!
# Blank characters — what is left of a trimmed text

* `Text.Trims` — a text is another one without the blanks at its two ends.
* **`Text.trim_eq_iff`** — trimming leaves that text.
* `Text.trim_dropReturn` — the carriage return at the end of a line is trimmed away.
-/

namespace CircuitBlocks.Text

/-! ## The end -/

theorem dropBlankEnd_append_of_blank {cs ds : List Char} (h : ∀ c ∈ ds, isBlank c = true) :
    dropBlankEnd (cs ++ ds) = dropBlankEnd cs := by
  rw [dropBlankEnd, List.reverse_append,
    List.dropWhile_append_of_pos fun c hc => h c (List.mem_reverse.1 hc), dropBlankEnd]

theorem dropBlankEnd_of_last {cs : List Char} (h : ∀ c ∈ cs.getLast?, isBlank c = false) :
    dropBlankEnd cs = cs := by
  rw [dropBlankEnd]
  rw [← List.head?_reverse] at h
  cases hrev : cs.reverse with
  | nil => rw [List.dropWhile_nil, ← hrev, List.reverse_reverse]
  | cons c rest =>
    rw [hrev] at h
    rw [List.dropWhile_cons_of_neg (by rw [h c rfl]; exact Bool.false_ne_true), ← hrev,
      List.reverse_reverse]

/-- Only blanks are taken from the end. -/
theorem exists_dropBlankEnd_append (cs : List Char) :
    ∃ after, cs = dropBlankEnd cs ++ after ∧ ∀ c ∈ after, isBlank c = true := by
  refine ⟨(cs.reverse.takeWhile isBlank).reverse, ?_, fun c hc => ?_⟩
  · rw [dropBlankEnd, ← List.reverse_append, List.takeWhile_append_dropWhile, List.reverse_reverse]
  · exact List.all_eq_true.1 List.all_takeWhile c (List.mem_reverse.1 hc)

/-- The last character that is left is no blank. -/
theorem getLast?_dropBlankEnd (cs : List Char) : ∀ c ∈ (dropBlankEnd cs).getLast?, isBlank c = false := by
  intro c hc
  rw [dropBlankEnd, List.getLast?_reverse] at hc
  have hnot := List.head?_dropWhile_not isBlank cs.reverse
  rw [hc] at hnot
  exact hnot

/-! ## Both ends -/

/-- The second text is the first one without the blanks at its two ends. -/
structure Trims (s t : String) : Prop where
  blanks : ∃ before after, s.toList = before ++ t.toList ++ after ∧
    (∀ c ∈ before, isBlank c = true) ∧ ∀ c ∈ after, isBlank c = true
  first : ∀ c ∈ t.toList.head?, isBlank c = false
  last : ∀ c ∈ t.toList.getLast?, isBlank c = false

/-- What trimming leaves is the text without the blanks at its ends. -/
theorem trims_trim (s : String) : Trims s (trim s) := by
  obtain ⟨after, hafter, hblank⟩ := exists_dropBlankEnd_append (s.toList.dropWhile isBlank)
  have htrim : (trim s).toList = dropBlankEnd (s.toList.dropWhile isBlank) := String.toList_ofList
  refine ⟨⟨s.toList.takeWhile isBlank, after, ?_, List.all_eq_true.1 List.all_takeWhile, hblank⟩, ?_, ?_⟩
  · rw [htrim, List.append_assoc, ← hafter, List.takeWhile_append_dropWhile]
  · -- the first character that is left is the first one that is no blank
    intro c hc
    rw [htrim] at hc
    have hhead : (s.toList.dropWhile isBlank).head? = some c := by
      rw [hafter, List.head?_append, hc]
      rfl
    have hnot := List.head?_dropWhile_not isBlank s.toList
    rw [hhead] at hnot
    exact hnot
  · rw [htrim]
    exact getLast?_dropBlankEnd _

/-- Trimming takes the blanks at the two ends, and nothing else. -/
theorem trim_eq_iff {s t : String} : trim s = t ↔ Trims s t := by
  refine ⟨fun h => h ▸ trims_trim s, fun h => ?_⟩
  obtain ⟨before, after, hs, hbefore, hafter⟩ := h.blanks
  have hchars : dropBlankEnd (s.toList.dropWhile isBlank) = t.toList := by
    rw [hs, List.append_assoc, List.dropWhile_append_of_pos hbefore]
    cases ht : t.toList with
    | nil =>
      -- nothing but blanks is left of what follows either
      have hrest : after.dropWhile isBlank = [] := by
        have hall : (after ++ []).dropWhile isBlank = [].dropWhile isBlank := List.dropWhile_append_of_pos hafter
        rwa [List.append_nil] at hall
      rw [List.nil_append, hrest]
      rfl
    | cons c rest =>
      have hc : isBlank c = false := h.first c (by rw [ht]; rfl)
      rw [List.cons_append, List.dropWhile_cons_of_neg (by rw [hc]; exact Bool.false_ne_true),
        ← List.cons_append, ← ht, dropBlankEnd_append_of_blank hafter, dropBlankEnd_of_last h.last]
  rw [trim, hchars, String.ofList_toList]

/-! ## Lines -/

/-- What is trimmed of a line does not depend on the carriage return before its end. -/
theorem trim_dropReturn (line : List Char) :
    trim (String.ofList (dropReturn line)) = trim (String.ofList line) := by
  rw [dropReturn]
  split
  · next hlast =>
    have hline : line = line.dropLast ++ ['\r'] := by
      obtain ⟨rest, hrest⟩ := List.getLast?_eq_some_iff.1 hlast
      rw [hrest, List.dropLast_concat]
    -- the return is one of the blanks at the end
    have htrims := trims_trim (String.ofList line.dropLast)
    obtain ⟨before, after, hblanks, hbefore, hafter⟩ := htrims.blanks
    refine (trim_eq_iff.2 ⟨⟨before, after ++ ['\r'], ?_, hbefore, ?_⟩, htrims.first, htrims.last⟩).symm
    · rw [String.toList_ofList] at hblanks ⊢
      rw [← List.append_assoc, ← hblanks, ← hline]
    · intro c hc
      rcases List.mem_append.1 hc with hc | hc
      · exact hafter c hc
      · rw [List.mem_singleton.1 hc]
        decide
  · rfl

end CircuitBlocks.Text
