import CircuitBlocks.Json.Basic
import CircuitBlocks.Proofs.Hex
import Mathlib.Data.List.Induction

/-!
# Spellings — texts and numbers in JSON

* `Json.SpellsChar` and `Json.SpellsText` — what a text may be spelled as, told by the format.
* **`Json.unescape?_eq_some_iff`** — a spelling stands for a text just if it is a spelling of that text.
* **`Json.unescape?_escape`** — a spelled text stands for that text.
* **`Json.natural?_eq_some_iff`** — a number stands for a natural just if it is that natural in plain decimal.
-/

namespace CircuitBlocks.Json

/-! ## Characters -/

/-- Four digits are those of sixteen bits. -/
def IsUnit (a b c d : Char) (u : Nat) : Prop :=
  ∃ i j k l, Hex.IsDigit a i ∧ Hex.IsDigit b j ∧ Hex.IsDigit c k ∧ Hex.IsDigit d l ∧
    u = 4096 * i + 256 * j + 16 * k + l

/-- What a character may be spelled as: itself, its letter, or its number. A character beyond sixteen bits has
the number of each half of a surrogate pair, and no half stands for a character alone. -/
inductive SpellsChar : List Char → Char → Prop where
  | plain {c : Char} (hslash : c ≠ '\\') : SpellsChar [c] c
  | letter {e c : Char} (h : (e, c) ∈ escapes) : SpellsChar ['\\', e] c
  | unit {a b c d : Char} {u : Nat} (hu : IsUnit a b c d u) (hwhole : u < 0xD800 ∨ 0xE000 ≤ u) :
    SpellsChar ['\\', 'u', a, b, c, d] (Char.ofNat u)
  | pair {a b c d a' b' c' d' : Char} {u v : Nat} (hu : IsUnit a b c d u) (hleading : 0xD800 ≤ u ∧ u < 0xDC00)
    (hv : IsUnit a' b' c' d' v) (htrailing : 0xDC00 ≤ v ∧ v < 0xE000) :
    SpellsChar ['\\', 'u', a, b, c, d, '\\', 'u', a', b', c', d']
      (Char.ofNat (0x10000 + 0x400 * (u - 0xD800) + (v - 0xDC00)))

/-- A unit is read from its four digits. -/
theorem unit?_eq_some_iff {a b c d : Char} {u : Nat} : unit? a b c d = some u ↔ IsUnit a b c d u := by
  simp only [unit?, IsUnit, ← Hex.digit?_eq_some_iff, Option.bind_eq_bind, Option.bind_eq_some_iff,
    Option.pure_def, Option.some.injEq]
  constructor
  · rintro ⟨i, hi, j, hj, k, hk, l, hl, rfl⟩
    exact ⟨i, j, k, l, hi, hj, hk, hl, rfl⟩
  · rintro ⟨i, j, k, l, hi, hj, hk, hl, rfl⟩
    exact ⟨i, hi, j, hj, k, hk, l, hl, rfl⟩

theorem isLeading_iff {u : Nat} : isLeading u = true ↔ 0xD800 ≤ u ∧ u < 0xDC00 := by
  rw [isLeading, Bool.and_eq_true, decide_eq_true_eq, decide_eq_true_eq]

theorem isTrailing_iff {u : Nat} : isTrailing u = true ↔ 0xDC00 ≤ u ∧ u < 0xE000 := by
  rw [isTrailing, Bool.and_eq_true, decide_eq_true_eq, decide_eq_true_eq]

/-- Each letter stands for one character. -/
theorem lookup_escapes_eq_some_iff {e c : Char} : escapes.lookup e = some c ↔ (e, c) ∈ escapes := by
  constructor
  · intro h
    obtain ⟨before, after, heq, -⟩ := List.lookup_eq_some_iff.1 h
    rw [heq]
    exact List.mem_append_right _ List.mem_cons_self
  · have hall : ∀ m ∈ escapes, escapes.lookup m.1 = some m.2 := by decide
    exact fun h => hall _ h

/-- Any spelling of a character stands for it, whatever follows. -/
theorem unescapeChars?_append {spelling : List Char} {c : Char} (h : SpellsChar spelling c) (rest : List Char) :
    unescapeChars? (spelling ++ rest) = (unescapeChars? rest).map (c :: ·) := by
  cases h with
  | plain hslash =>
    rw [List.singleton_append, unescapeChars?.eq_def]
    simp only [hslash, imp_false, false_implies, implies_true, if_false, Option.bind_eq_bind]
    cases unescapeChars? rest <;> rfl
  | @letter e c h =>
    -- the letter is no `u`, so it is looked up among the short escapes
    have hnone : ∀ m ∈ escapes, m.1 ≠ 'u' := by decide
    have hu : e ≠ 'u' := hnone _ h
    show unescapeChars? ('\\' :: e :: rest) = _
    rw [unescapeChars?.eq_def]
    simp only [hu, imp_false, false_implies, implies_true, lookup_escapes_eq_some_iff.2 h, Option.bind_eq_bind,
      Option.bind_some]
    cases unescapeChars? rest <;> rfl
  | @unit a b c d u hu hwhole =>
    have htrailing : isTrailing u = false := by
      rw [← Bool.not_eq_true, isTrailing_iff]
      omega
    have hleading : isLeading u = false := by
      rw [← Bool.not_eq_true, isLeading_iff]
      omega
    show unescapeChars? ('\\' :: 'u' :: a :: b :: c :: d :: rest) = _
    rw [unescapeChars?.eq_def]
    simp only [unit?_eq_some_iff.2 hu, htrailing, hleading, Option.bind_eq_bind, Option.bind_some,
      Bool.false_eq_true, if_false]
    cases unescapeChars? rest <;> rfl
  | @pair a b c d a' b' c' d' u v hu hleading hv htrailing =>
    have hfirst : isTrailing u = false := by
      rw [← Bool.not_eq_true, isTrailing_iff]
      omega
    show unescapeChars? ('\\' :: 'u' :: a :: b :: c :: d :: '\\' :: 'u' :: a' :: b' :: c' :: d' :: rest) = _
    rw [unescapeChars?.eq_def]
    simp only [unit?_eq_some_iff.2 hu, unit?_eq_some_iff.2 hv, hfirst, isLeading_iff.2 hleading,
      isTrailing_iff.2 htrailing, Option.bind_eq_bind, Option.bind_some, Bool.false_eq_true, if_false, if_true]
    cases unescapeChars? rest <;> rfl

/-! ## Texts -/

/-- What a text may be spelled as: its characters, one after another. -/
inductive SpellsText : List Char → List Char → Prop where
  | nil : SpellsText [] []
  | cons {spelling rest text : List Char} {c : Char} (h : SpellsChar spelling c) (hrest : SpellsText rest text) :
    SpellsText (spelling ++ rest) (c :: text)

/-- What spells a text is read as the text. -/
theorem SpellsText.unescapeChars?_eq {cs text : List Char} (h : SpellsText cs text) :
    unescapeChars? cs = some text := by
  induction h with
  | nil => rw [unescapeChars?]
  | cons h _ ih =>
    rw [unescapeChars?_append h, ih]
    rfl

/-- The number at the front of what is read is that of a character, or of the first half of one. -/
theorem spellsText_of_unit {a b c d : Char} {rest text : List Char}
    (hrest : ∀ text, unescapeChars? rest = some text → SpellsText rest text)
    (hpair : ∀ a' b' c' d' more, rest = '\\' :: 'u' :: a' :: b' :: c' :: d' :: more →
      ∀ text, unescapeChars? more = some text → SpellsText more text)
    (h : unescapeChars? ('\\' :: 'u' :: a :: b :: c :: d :: rest) = some text) :
    SpellsText ('\\' :: 'u' :: a :: b :: c :: d :: rest) text := by
  rw [unescapeChars?] at h
  obtain ⟨u, hu, h⟩ := Option.bind_eq_some_iff.1 h
  rw [unit?_eq_some_iff] at hu
  split at h
  · cases h
  next hfirst =>
  rw [isTrailing_iff] at hfirst
  -- a leading surrogate takes the escape behind it along, and any other unit stands alone
  split at h
  · next hleading =>
    split at h
    · next a' b' c' d' more _ =>
      obtain ⟨v, hv, h⟩ := Option.bind_eq_some_iff.1 h
      rw [unit?_eq_some_iff] at hv
      split at h
      · next htrailing =>
        obtain ⟨others, hothers, h⟩ := Option.bind_eq_some_iff.1 h
        obtain rfl := Option.some.inj h
        exact .cons (.pair hu (isLeading_iff.1 hleading) hv (isTrailing_iff.1 htrailing))
          (hpair a' b' c' d' more rfl others hothers)
      · cases h
    · cases h
  · next hleading =>
    rw [isLeading_iff] at hleading
    obtain ⟨others, hothers, h⟩ := Option.bind_eq_some_iff.1 h
    obtain rfl := Option.some.inj h
    exact .cons (.unit hu (by omega)) (hrest others hothers)

/-- What is read as a text spells it. -/
theorem spellsText_of_unescapeChars? {cs text : List Char} (h : unescapeChars? cs = some text) :
    SpellsText cs text := by
  -- one case for each way in which `unescapeChars?` goes on
  induction cs using unescapeChars?.induct generalizing text with
  | case1 =>
    rw [unescapeChars?] at h
    obtain rfl := Option.some.inj h
    exact .nil
  | case2 a b c d rest ihpair ih =>
    refine spellsText_of_unit (fun _ => ih) ?_ h
    rintro a' b' c' d' more rfl _ hmore
    exact ihpair hmore
  | case3 e rest hnumber ih =>
    rw [unescapeChars?] at h
    · obtain ⟨c, hc, h⟩ := Option.bind_eq_some_iff.1 h
      obtain ⟨others, hothers, h⟩ := Option.bind_eq_some_iff.1 h
      obtain rfl := Option.some.inj h
      exact .cons (.letter (lookup_escapes_eq_some_iff.1 hc)) (ih hothers)
    · exact hnumber
  | case4 rest hnumber hletter =>
    rw [unescapeChars?] at h
    · cases h
    · exact hnumber
    · exact hletter
  | case5 c rest hnumber hletter hslash ih =>
    rw [unescapeChars?, if_neg hslash] at h
    · obtain ⟨others, hothers, h⟩ := Option.bind_eq_some_iff.1 h
      obtain rfl := Option.some.inj h
      exact .cons (.plain hslash) (ih hothers)
    · exact hnumber
    · exact hletter

/-- A spelling stands for a text just if it is a spelling of that text. -/
theorem unescape?_eq_some_iff {spelling text : String} :
    unescape? spelling = some text ↔ SpellsText spelling.toList text.toList := by
  rw [unescape?, Option.map_eq_some_iff]
  constructor
  · rintro ⟨cs, hcs, rfl⟩
    rw [String.toList_ofList]
    exact spellsText_of_unescapeChars? hcs
  · intro h
    exact ⟨text.toList, h.unescapeChars?_eq, String.ofList_toList⟩

/-! ## How texts are written -/

/-- A character is written as a letter after a backslash, as its number, or as itself. -/
theorem escapeChar_cases (c : Char) :
    (∃ e, escapeChar c = ['\\', e] ∧ e ≠ 'u' ∧ escapes.lookup e = some c) ∨
    (c.toNat < 32 ∧ escapeChar c =
      ['\\', 'u', '0', '0', Hex.digit (c.toNat / 16), Hex.digit (c.toNat % 16)]) ∨
    (escapeChar c = [c] ∧ c ≠ '"' ∧ c ≠ '\\' ∧ 32 ≤ c.toNat) := by
  unfold escapeChar
  -- one case for each short escape, in their order, and two for what is left
  split
  · next h => exact .inl ⟨'"', rfl, by decide, by rw [h]; rfl⟩
  next hquote =>
  split
  · next h => exact .inl ⟨'\\', rfl, by decide, by rw [h]; rfl⟩
  next hslash =>
  split
  · next h => exact .inl ⟨'b', rfl, by decide, by rw [h]; rfl⟩
  split
  · next h => exact .inl ⟨'f', rfl, by decide, by rw [h]; rfl⟩
  split
  · next h => exact .inl ⟨'n', rfl, by decide, by rw [h]; rfl⟩
  split
  · next h => exact .inl ⟨'r', rfl, by decide, by rw [h]; rfl⟩
  split
  · next h => exact .inl ⟨'t', rfl, by decide, by rw [h]; rfl⟩
  split
  · next h => exact .inr (.inl ⟨h, rfl⟩)
  · next h => exact .inr (.inr ⟨rfl, hquote, hslash, Nat.le_of_not_lt h⟩)

/-- The four digits of a control character are those of its number. -/
theorem isUnit_control {c : Char} (h : c.toNat < 32) :
    IsUnit '0' '0' (Hex.digit (c.toNat / 16)) (Hex.digit (c.toNat % 16)) c.toNat := by
  have hzero : Hex.IsDigit '0' 0 := ⟨by decide, .inl rfl⟩
  exact ⟨0, 0, c.toNat / 16, c.toNat % 16, hzero, hzero, ⟨by omega, .inl rfl⟩, ⟨by omega, .inl rfl⟩, by omega⟩

/-- An escape spells its character. -/
theorem spellsChar_escapeChar (c : Char) : SpellsChar (escapeChar c) c := by
  rcases escapeChar_cases c with ⟨e, hc, -, hlookup⟩ | ⟨hcontrol, hc⟩ | ⟨hc, -, hslash, -⟩
  · rw [hc]
    exact .letter (lookup_escapes_eq_some_iff.1 hlookup)
  · -- surrogates have far greater numbers
    have hunit := SpellsChar.unit (isUnit_control hcontrol) (by omega)
    rw [Char.ofNat_toNat] at hunit
    rwa [hc]
  · rw [hc]
    exact .plain hslash

theorem spellsText_flatMap_escapeChar (cs : List Char) : SpellsText (cs.flatMap escapeChar) cs := by
  induction cs with
  | nil => exact .nil
  | cons c cs ih => exact .cons (spellsChar_escapeChar c) ih

/-- A spelled text stands for that text. -/
@[simp] theorem unescape?_escape (s : String) : unescape? (escape s) = some s := by
  rw [unescape?_eq_some_iff, escape, String.toList_ofList]
  exact spellsText_flatMap_escapeChar s.toList

/-! ## Numbers -/

/-- Only the natural zero is written with a zero at the front. -/
theorem head?_toDigits_ne_zero {n : Nat} (h : 0 < n) : (Nat.toDigits 10 n).head? ≠ some '0' := by
  induction n using Nat.strongRecOn with
  | ind n ih =>
    by_cases hn : n < 10
    · -- a single digit is looked at by itself
      have hall : ∀ i : Fin 10, 0 < i.val → (Nat.toDigits 10 i).head? ≠ some '0' := by decide
      exact hall ⟨n, hn⟩ h
    · -- the first digit of a longer number is that of its tenth
      rw [Nat.toDigits_of_base_le (by decide) (Nat.le_of_not_lt hn), List.head?_append]
      cases hd : (Nat.toDigits 10 (n / 10)).head? with
      | none => exact absurd (List.head?_eq_none_iff.1 hd) Nat.toDigits_ne_nil
      | some d =>
        have hne := ih (n / 10) (by omega) (by omega)
        rw [hd] at hne
        exact hne

/-- A digit is that of a value below ten. -/
theorem exists_digitChar {c : Char} (h : c.isDigit = true) : ∃ d, d < 10 ∧ c = d.digitChar := by
  have hall : ∀ i : Fin 128, (Char.ofNat i).isDigit = true → ∃ d : Fin 10, Char.ofNat i = d.val.digitChar := by decide
  have hascii : c.toNat ≤ 57 := by
    simp only [Char.isDigit, Bool.and_eq_true, decide_eq_true_eq] at h
    exact h.2
  have hc := hall ⟨c.toNat, by omega⟩
  rw [Char.ofNat_toNat] at hc
  obtain ⟨d, hd⟩ := hc h
  exact ⟨d, d.isLt, hd⟩

/-- Digits without a zero at the front are how their value is written. -/
theorem toDigits_ofDigitChars {cs : List Char} (hne : cs ≠ []) (hdigits : ∀ c ∈ cs, c.isDigit = true)
    (hzero : cs.head? ≠ some '0') :
    0 < Nat.ofDigitChars 10 cs 0 ∧ Nat.toDigits 10 (Nat.ofDigitChars 10 cs 0) = cs := by
  -- the last digit counts least, so the induction takes it off
  induction cs using List.reverseRecOn with
  | nil => exact absurd rfl hne
  | append_singleton cs c ih =>
    obtain ⟨d, hd, rfl⟩ := exists_digitChar (hdigits c (List.mem_append_right _ List.mem_cons_self))
    rw [Nat.ofDigitChars_append, Nat.ofDigitChars_cons_digitChar_of_lt_ten hd, Nat.ofDigitChars_nil]
    by_cases hcs : cs = []
    · subst hcs
      have hpos : d ≠ 0 := by
        rintro rfl
        exact hzero rfl
      rw [Nat.ofDigitChars_nil, Nat.mul_zero, Nat.zero_add, Nat.toDigits_of_lt_base hd]
      exact ⟨Nat.pos_of_ne_zero hpos, rfl⟩
    · have hhead : cs.head? ≠ some '0' := by
        intro hfirst
        rw [List.head?_append, hfirst] at hzero
        exact hzero rfl
      obtain ⟨hpos, hcs⟩ := ih hcs (fun c hc => hdigits c (List.mem_append_left _ hc)) hhead
      rw [← Nat.toDigits_append_toDigits (by decide) hpos hd, hcs, Nat.toDigits_of_lt_base hd]
      exact ⟨by omega, rfl⟩

/-- Characters name a natural just if it is written in plain decimal by them. -/
theorem naturalOfChars?_eq_some_iff {cs : List Char} {n : Nat} :
    naturalOfChars? cs = some n ↔ cs = Nat.toDigits 10 n := by
  constructor
  · intro h
    rw [naturalOfChars?] at h
    split at h
    · next hcs =>
      obtain ⟨hne, hdigits, hzero⟩ := hcs
      obtain rfl := Option.some.inj h
      by_cases hfirst : cs.head? = some '0'
      · -- a zero at the front is the only digit
        obtain ⟨rest, rfl⟩ := List.head?_eq_some_iff.1 hfirst
        obtain rfl := List.eq_nil_of_length_eq_zero (Nat.succ.inj (hzero hfirst))
        rfl
      · exact (toDigits_ofDigitChars hne (List.all_eq_true.1 hdigits) hfirst).2.symm
    · cases h
  · rintro rfl
    -- the digits of a number pass the tests, and stand for it
    have hdigits : (Nat.toDigits 10 n).all Char.isDigit = true :=
      List.all_eq_true.2 fun c hc => Nat.isDigit_of_mem_toDigits (by decide) (by decide) hc
    have hzero : (Nat.toDigits 10 n).head? = some '0' → (Nat.toDigits 10 n).length = 1 := by
      intro hhead
      rcases Nat.eq_zero_or_pos n with rfl | hn
      · rfl
      · exact absurd hhead (head?_toDigits_ne_zero hn)
    rw [naturalOfChars?, if_pos ⟨Nat.toDigits_ne_nil, hdigits, hzero⟩]
    exact congrArg some Nat.ofDigitChars_ten_toDigits

/-- A number stands for a natural just if it is that natural in plain decimal, and in the limit. -/
theorem natural?_eq_some_iff {limit n : Nat} {spelling : String} :
    natural? limit spelling = some n ↔ n ≤ limit ∧ spelling = String.ofList (Nat.toDigits 10 n) := by
  rw [natural?, Option.bind_eq_bind, Option.bind_eq_some_iff]
  simp only [naturalOfChars?_eq_some_iff, Option.ite_none_right_eq_some, Option.some.injEq]
  constructor
  · rintro ⟨m, hspelling, hm, rfl⟩
    exact ⟨hm, by rw [← hspelling, String.ofList_toList]⟩
  · rintro ⟨hn, rfl⟩
    exact ⟨n, String.toList_ofList, hn, rfl⟩

theorem limit64_eq : limit64 = UInt64.size - 1 := rfl

/-- A written natural stands for that natural, if it is in the limit. -/
theorem natural?_toDigits {limit n : Nat} (h : n ≤ limit) :
    natural? limit (String.ofList (Nat.toDigits 10 n)) = some n := natural?_eq_some_iff.2 ⟨h, rfl⟩

end CircuitBlocks.Json
