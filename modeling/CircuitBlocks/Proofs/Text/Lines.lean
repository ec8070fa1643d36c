import CircuitBlocks.Text.Lines

/-!
# Lines — cutting a list where a property changes

A list that is put together of parts can be taken apart again if the parts can be told from the element
between them: here a newline that no line holds, a character that no number holds, or a line that is not
indented like those after it.

* `append_cons_inj` and `append_cons_inj_right` — the cut at the first and at the last such element.
* `newline_not_mem_of_mem_linesOfChars` — no line holds a newline.
* **`joinLines_inj`** — lines are determined by the text that they make up.
* `splitAtChar_joinLines_append` — a text of lines is cut into them again.
-/

namespace CircuitBlocks.Text

/-! ## Cuts -/

section Cuts

variable {α : Type} {P : α → Prop} {a₁ a₂ : α} {l₁ l₂ r₁ r₂ : List α}

/-- The first element without a property cuts a list in one way only. -/
theorem append_cons_inj (h₁ : ∀ x ∈ l₁, P x) (h₂ : ∀ x ∈ l₂, P x) (ha₁ : ¬P a₁) (ha₂ : ¬P a₂)
    (h : l₁ ++ a₁ :: r₁ = l₂ ++ a₂ :: r₂) : l₁ = l₂ ∧ a₁ = a₂ ∧ r₁ = r₂ := by
  -- the first element without the property ends the first part in both
  induction l₁ generalizing l₂ with
  | nil =>
    cases l₂ with
    | nil =>
      obtain ⟨ha, hr⟩ := List.cons.inj h
      exact ⟨rfl, ha, hr⟩
    | cons x l₂ =>
      obtain ⟨rfl, -⟩ := List.cons.inj h
      exact absurd (h₂ _ List.mem_cons_self) ha₁
  | cons x l₁ ih =>
    cases l₂ with
    | nil =>
      obtain ⟨rfl, -⟩ := List.cons.inj h
      exact absurd (h₁ _ List.mem_cons_self) ha₂
    | cons y l₂ =>
      obtain ⟨rfl, htail⟩ := List.cons.inj h
      obtain ⟨rfl, ha, hr⟩ := ih (fun z hz => h₁ z (List.mem_cons_of_mem _ hz))
        (fun z hz => h₂ z (List.mem_cons_of_mem _ hz)) htail
      exact ⟨rfl, ha, hr⟩

/-- The last element without a property cuts a list in one way only. -/
theorem append_cons_inj_right (h₁ : ∀ x ∈ r₁, P x) (h₂ : ∀ x ∈ r₂, P x) (ha₁ : ¬P a₁) (ha₂ : ¬P a₂)
    (h : l₁ ++ a₁ :: r₁ = l₂ ++ a₂ :: r₂) : l₁ = l₂ ∧ a₁ = a₂ ∧ r₁ = r₂ := by
  have hrev : r₁.reverse ++ a₁ :: l₁.reverse = r₂.reverse ++ a₂ :: l₂.reverse := by
    have := congrArg List.reverse h
    simpa using this
  obtain ⟨hr, ha, hl⟩ := append_cons_inj (fun x hx => h₁ x (List.mem_reverse.1 hx))
    (fun x hx => h₂ x (List.mem_reverse.1 hx)) ha₁ ha₂ hrev
  exact ⟨List.reverse_inj.1 hl, ha, List.reverse_inj.1 hr⟩

end Cuts

/-! ## Newlines -/

theorem splitAtChar_ne_nil (sep : Char) (cs : List Char) : splitAtChar sep cs ≠ [] := by
  cases cs with
  | nil => exact fun h => nomatch h
  | cons c cs =>
    rw [splitAtChar, List.foldr_cons]
    split
    · exact fun h => nomatch h
    · split <;> exact fun h => nomatch h

/-- A piece between separators holds none. -/
theorem not_mem_of_mem_splitAtChar {sep : Char} {cs piece : List Char}
    (h : piece ∈ splitAtChar sep cs) : sep ∉ piece := by
  induction cs generalizing piece with
  | nil =>
    obtain rfl := List.mem_singleton.1 h
    exact List.not_mem_nil
  | cons c cs ih =>
    rw [splitAtChar, List.foldr_cons, ← splitAtChar] at h
    split at h
    · rcases List.mem_cons.1 h with rfl | h
      · exact List.not_mem_nil
      · exact ih h
    · next hc =>
      -- the character comes in front of the first piece of the rest
      split at h
      · obtain rfl := List.mem_singleton.1 h
        exact fun hmem => hc (List.mem_singleton.1 hmem).symm
      · next p ps hsplit =>
        rw [hsplit] at ih
        rcases List.mem_cons.1 h with rfl | h
        · intro hmem
          rcases List.mem_cons.1 hmem with heq | hmem
          · exact hc heq.symm
          · exact ih List.mem_cons_self hmem
        · exact ih (List.mem_cons_of_mem _ h)

/-- A line is a piece, with or without the carriage return at its end. -/
theorem exists_subset_of_mem_linesOfPieces {pieces : List (List Char)} {line : List Char}
    (h : line ∈ linesOfPieces pieces) : ∃ piece ∈ pieces, line ⊆ piece := by
  induction pieces with
  | nil => cases h
  | cons p ps ih =>
    -- the last piece is a line only if it is not empty; any other one ends at a newline
    cases ps with
    | nil =>
      rw [linesOfPieces] at h
      split at h
      · cases h
      · exact ⟨p, List.mem_cons_self, by rw [List.mem_singleton.1 h]; exact List.Subset.refl p⟩
    | cons q ps =>
      rw [linesOfPieces] at h
      rcases List.mem_cons.1 h with rfl | h
      · refine ⟨p, List.mem_cons_self, ?_⟩
        rw [dropReturn]
        split
        · exact List.dropLast_subset p
        · exact List.Subset.refl p
      · obtain ⟨piece, hpiece, hsubset⟩ := ih h
        exact ⟨piece, List.mem_cons_of_mem _ hpiece, hsubset⟩

theorem newline_not_mem_of_mem_linesOfChars {cs line : List Char} (h : line ∈ linesOfChars cs) :
    '\n' ∉ line := by
  obtain ⟨piece, hpiece, hsubset⟩ := exists_subset_of_mem_linesOfPieces h
  exact fun hmem => not_mem_of_mem_splitAtChar hpiece (hsubset hmem)

/-- Two texts have the same lines just if their characters have. -/
theorem lines_eq_iff {s t : String} :
    lines s = lines t ↔ linesOfChars s.toList = linesOfChars t.toList :=
  List.map_inj_right fun _ _ => String.ofList_injective

/-! ## Texts of lines -/

/-- The text that lines make up, each ended by a newline. -/
def joinLines (ls : List (List Char)) : List Char := ls.flatMap fun l => l ++ ['\n']

@[simp] theorem joinLines_cons (l : List Char) (ls : List (List Char)) :
    joinLines (l :: ls) = l ++ '\n' :: joinLines ls := by
  rw [joinLines, List.flatMap_cons, List.append_assoc]
  rfl

theorem joinLines_append (ls ms : List (List Char)) :
    joinLines (ls ++ ms) = joinLines ls ++ joinLines ms := List.flatMap_append

/-- Lines without newlines are determined by the text that they make up. -/
theorem joinLines_inj {ls ms : List (List Char)} (hls : ∀ l ∈ ls, '\n' ∉ l)
    (hms : ∀ m ∈ ms, '\n' ∉ m) (h : joinLines ls = joinLines ms) : ls = ms := by
  induction ls generalizing ms with
  | nil =>
    cases ms with
    | nil => rfl
    | cons m ms => simp [joinLines] at h
  | cons l ls ih =>
    cases ms with
    | nil => simp [joinLines] at h
    | cons m ms =>
      rw [joinLines_cons, joinLines_cons] at h
      -- the first line ends at the first newline of the text
      have hl : ∀ c ∈ l, c ≠ '\n' := fun c hc heq => hls l List.mem_cons_self (heq ▸ hc)
      have hm : ∀ c ∈ m, c ≠ '\n' := fun c hc heq => hms m List.mem_cons_self (heq ▸ hc)
      obtain ⟨rfl, -, hrest⟩ := append_cons_inj hl hm (fun hne => hne rfl) (fun hne => hne rfl) h
      rw [ih (fun x hx => hls x (List.mem_cons_of_mem _ hx))
        (fun x hx => hms x (List.mem_cons_of_mem _ hx)) hrest]

/-! ## Starts and ends of texts -/

theorem startsWith_iff {s start : String} : startsWith s start = true ↔ start.toList <+: s.toList :=
  List.isPrefixOf_iff_prefix

theorem stripStart?_append (start rest : String) : stripStart? (start ++ rest) start = some rest := by
  have hprefix : startsWith (start ++ rest) start = true := by
    rw [startsWith_iff, String.toList_append]
    exact List.prefix_append _ _
  rw [stripStart?, if_pos hprefix, String.toList_append, List.drop_left, String.ofList_toList]

theorem startsWith_self (s : String) : startsWith s s = true := startsWith_iff.2 List.prefix_rfl

/-- An ending that is there is cut off. -/
theorem stripEnd?_append (rest ending : String) : stripEnd? (rest ++ ending) ending = some rest := by
  have hsuffix : ending.toList.isSuffixOf (rest ++ ending).toList = true := by
    rw [String.toList_append]
    exact List.isSuffixOf_iff_suffix.2 (List.suffix_append _ _)
  rw [stripEnd?, if_pos hsuffix, String.toList_append, List.length_append, Nat.add_sub_cancel,
    List.take_left, String.ofList_toList]

/-! ## Cutting a text of lines -/

theorem splitAtChar_cons_self (sep : Char) (cs : List Char) :
    splitAtChar sep (sep :: cs) = [] :: splitAtChar sep cs := if_pos rfl

theorem splitAtChar_cons_of_ne {sep c : Char} {cs piece : List Char} {pieces : List (List Char)}
    (hc : c ≠ sep) (h : splitAtChar sep cs = piece :: pieces) :
    splitAtChar sep (c :: cs) = (c :: piece) :: pieces := by
  unfold splitAtChar at h ⊢
  rw [List.foldr_cons, if_neg hc, h]

/-- A text is cut at a newline. -/
theorem splitAtChar_append_cons (sep : Char) (xs ys : List Char) :
    splitAtChar sep (xs ++ sep :: ys) = splitAtChar sep xs ++ splitAtChar sep ys := by
  induction xs with
  | nil => exact splitAtChar_cons_self sep ys
  | cons c xs ih =>
    rw [List.cons_append]
    by_cases hc : c = sep
    · subst hc
      rw [splitAtChar_cons_self, splitAtChar_cons_self, ih, List.cons_append]
    · -- the first of the pieces stays the first
      obtain ⟨piece, pieces, hpieces⟩ := List.exists_cons_of_ne_nil (splitAtChar_ne_nil sep xs)
      rw [hpieces, List.cons_append] at ih
      rw [splitAtChar_cons_of_ne hc ih, splitAtChar_cons_of_ne hc hpieces, List.cons_append]

/-- A line without newlines is one piece. -/
theorem splitAtChar_of_not_mem {sep : Char} {cs : List Char} (h : sep ∉ cs) :
    splitAtChar sep cs = [cs] := by
  induction cs with
  | nil => rfl
  | cons c cs ih =>
    obtain ⟨hc, hcs⟩ := not_or.1 (mt List.mem_cons.2 h)
    exact splitAtChar_cons_of_ne (Ne.symm hc) (ih hcs)

/-- A text is cut at each of its separators. -/
theorem length_splitAtChar (sep : Char) (cs : List Char) :
    (splitAtChar sep cs).length = cs.count sep + 1 := by
  induction cs with
  | nil => rfl
  | cons c cs ih =>
    by_cases hc : c = sep
    · subst hc
      rw [splitAtChar_cons_self, List.length_cons, ih, List.count_cons_self]
    · obtain ⟨piece, pieces, hpieces⟩ := List.exists_cons_of_ne_nil (splitAtChar_ne_nil sep cs)
      rw [splitAtChar_cons_of_ne hc hpieces, List.count_cons_of_ne hc, ← ih, hpieces]
      rfl

/-- Lines are cut apart, and what comes after them. -/
theorem splitAtChar_joinLines_append (ls : List (List Char)) (rest : List Char) :
    splitAtChar '\n' (joinLines ls ++ rest)
      = ls.flatMap (splitAtChar '\n') ++ splitAtChar '\n' rest := by
  induction ls with
  | nil => rfl
  | cons l ls ih =>
    rw [joinLines_cons, List.append_assoc, List.cons_append, splitAtChar_append_cons, ih,
      List.flatMap_cons, List.append_assoc]

/-- To cut lines again changes nothing. -/
theorem flatMap_splitAtChar {ls : List (List Char)} (h : ∀ l ∈ ls, '\n' ∉ l) :
    ls.flatMap (splitAtChar '\n') = ls := by
  induction ls with
  | nil => rfl
  | cons l ls ih =>
    obtain ⟨hl, hls⟩ := List.forall_mem_cons.1 h
    rw [List.flatMap_cons, splitAtChar_of_not_mem hl, ih hls, List.singleton_append]

end CircuitBlocks.Text
