import CircuitBlocks.Hex
import CircuitBlocks.Proofs.Text.Utf8

/-!
# Hexadecimal text — what is written reads back

* **`Hex.decode?_encode`** — the bytes of a written text are the bytes that were written.
* `Hex.Valid` — an even number of digits. **`Hex.isSome_decode?_iff`** — only a plus sign makes a difference between
  these texts and those that name bytes.
* `Hex.unsigned` — a text with a zero in place of each plus sign that begins a pair. **`Hex.decode?_eq_some_iff`** —
  a text names bytes just if that one is hexadecimal, and then it is how the bytes are written, but for the case.
* `Hex.decode?_eq_of_bytes` — it makes no difference whether pairs are made of characters or of their bytes.
-/

namespace CircuitBlocks.Hex

theorem digit?_digit {n : Nat} (h : n < 16) : digit? (digit n) = some n := by
  have hall : ∀ i : Fin 16, digit? (digit i) = some i.val := by decide
  exact hall ⟨n, h⟩

/-- No digit is a plus sign, which a pair may have in place of its first digit. -/
theorem digit_ne_plus {n : Nat} (h : n < 16) : digit n ≠ '+' := by
  have hall : ∀ i : Fin 16, digit i ≠ '+' := by decide
  exact hall ⟨n, h⟩

/-- A byte is read back from its two digits. -/
theorem pair?_encodeByte (b : UInt8) :
    pair? (digit (b.toNat / 16)) (digit (b.toNat % 16)) = some b := by
  have hb : b.toNat < 256 := b.toNat_lt
  have hhigh : b.toNat / 16 < 16 := by omega
  have hlow : b.toNat % 16 < 16 := by omega
  rw [pair?, if_neg (digit_ne_plus hhigh), digit?_digit hhigh, digit?_digit hlow]
  show some (UInt8.ofNat (16 * (b.toNat / 16) + b.toNat % 16)) = some b
  rw [Nat.div_add_mod, UInt8.ofNat_toNat]

/-- So are bytes, two digits for each. -/
theorem decodeChars?_encodeChars (bytes : List UInt8) :
    decodeChars? (encodeChars bytes) = some bytes := by
  induction bytes with
  | nil => rfl
  | cons b bytes ih =>
    show (do let b' ← pair? (digit (b.toNat / 16)) (digit (b.toNat % 16))
             let bs ← decodeChars? (encodeChars bytes)
             return b' :: bs) = some (b :: bytes)
    rw [pair?_encodeByte, ih]
    rfl

/-- The bytes of a written text are the bytes that were written. -/
@[simp] theorem decode?_encode (bytes : List UInt8) : decode? (encode bytes) = some bytes := by
  rw [decode?, encode, String.toList_ofList, decodeChars?_encodeChars]

/-! ## Texts that name bytes -/

/-- Whether a text is hexadecimal: an even number of digits of either case. -/
def Valid (s : String) : Prop := s.toList.length % 2 = 0 ∧ ∀ c ∈ s.toList, (digit? c).isSome

instance (s : String) : Decidable (Valid s) :=
  decidable_of_iff (s.toList.length % 2 = 0 ∧ s.toList.all fun c => (digit? c).isSome)
    (and_congr_right' List.all_eq_true)

/-- Only a plus sign stands for a digit. -/
theorem isSome_pair?_iff {high : Char} (h : high ≠ '+') (low : Char) :
    (pair? high low).isSome ↔ (digit? high).isSome ∧ (digit? low).isSome := by
  rw [pair?, if_neg h]
  cases digit? high <;> cases digit? low <;> simp

/-- Without a plus, the characters are read just if they are digits, in pairs. -/
theorem isSome_decodeChars?_iff {cs : List Char} (h : '+' ∉ cs) :
    (decodeChars? cs).isSome ↔ cs.length % 2 = 0 ∧ ∀ c ∈ cs, (digit? c).isSome := by
  induction cs using decodeChars?.induct with
  | case1 => simp [decodeChars?]
  | case2 c => simp [decodeChars?]
  | case3 high low rest ih =>
    simp only [List.mem_cons, not_or] at h
    obtain ⟨hhigh, -, hrest⟩ := h
    have hpair := isSome_pair?_iff (Ne.symm hhigh) low
    have hsome : (decodeChars? (high :: low :: rest)).isSome ↔
        (pair? high low).isSome ∧ (decodeChars? rest).isSome := by
      rw [decodeChars?]
      cases pair? high low <;> cases decodeChars? rest <;> simp
    rw [hsome, hpair, ih hrest]
    simp only [List.length_cons, List.forall_mem_cons, Nat.add_assoc, Nat.reduceAdd, Nat.add_mod_right]
    rw [and_left_comm, and_assoc]

/-- A text without a plus sign names bytes just if it is hexadecimal. -/
theorem isSome_decode?_iff {s : String} (h : '+' ∉ s.toList) : (decode? s).isSome ↔ Valid s :=
  isSome_decodeChars?_iff h

/-! ## How the bytes are written -/

/-- A digit is a character of ASCII. -/
theorem lt_of_isSome_digit? {c : Char} (h : (digit? c).isSome) : c.toNat < 128 := by
  unfold digit? at h
  split at h
  · next hc => exact Nat.lt_of_le_of_lt (show c.toNat ≤ 57 from hc.2) (by decide)
  · split at h
    · next hc => exact Nat.lt_of_le_of_lt (show c.toNat ≤ 102 from hc.2) (by decide)
    · split at h
      · next hc => exact Nat.lt_of_le_of_lt (show c.toNat ≤ 70 from hc.2) (by decide)
      · cases h

/-- The digit of a value is the one that it was read from, in lower case. -/
theorem digit_of_digit? {c : Char} {n : Nat} (h : digit? c = some n) : n < 16 ∧ digit n = c.toLower := by
  have hall : ∀ i : Fin 128, ∀ n ∈ digit? (Char.ofNat i), n < 16 ∧ digit n = (Char.ofNat i).toLower := by decide
  have hc := hall ⟨c.toNat, lt_of_isSome_digit? (Option.isSome_of_eq_some h)⟩ n
  rw [Char.ofNat_toNat] at hc
  exact hc h

/-- A character is the digit of a value, in either case. -/
def IsDigit (c : Char) (n : Nat) : Prop := n < 16 ∧ (c = digit n ∨ c = (digit n).toUpper)

/-- The digits that are read are those that a value has. -/
theorem digit?_eq_some_iff {c : Char} {n : Nat} : digit? c = some n ↔ IsDigit c n := by
  constructor
  · intro h
    have hall : ∀ i : Fin 128, ∀ n ∈ digit? (Char.ofNat i),
        n < 16 ∧ (Char.ofNat i = digit n ∨ Char.ofNat i = (digit n).toUpper) := by decide
    have hc := hall ⟨c.toNat, lt_of_isSome_digit? (Option.isSome_of_eq_some h)⟩ n
    rw [Char.ofNat_toNat] at hc
    exact hc h
  · have hupper : ∀ i : Fin 16, digit? (digit i).toUpper = some i.val := by decide
    rintro ⟨hn, rfl | rfl⟩
    · exact digit?_digit hn
    · exact hupper ⟨n, hn⟩

theorem encodeByte_ofNat {high low : Nat} (hhigh : high < 16) (hlow : low < 16) :
    encodeByte (UInt8.ofNat (16 * high + low)) = [digit high, digit low] := by
  rw [encodeByte, UInt8.toNat_ofNat', show (16 * high + low) % 2 ^ 8 / 16 = high by omega,
    show (16 * high + low) % 2 ^ 8 % 16 = low by omega]

theorem encodeByte_injective {b b' : UInt8} (h : encodeByte b = encodeByte b') : b = b' := by
  obtain ⟨hhigh, hlow⟩ := List.cons.inj h
  have hpair := pair?_encodeByte b
  rw [hhigh, (List.cons.inj hlow).1, pair?_encodeByte b'] at hpair
  exact (Option.some.inj hpair).symm

/-- Two digits name the byte that is written as they are in lower case. -/
theorem pair?_eq_some_iff {high low : Char} (hplus : high ≠ '+') {b : UInt8} : pair? high low = some b ↔
    ((digit? high).isSome ∧ (digit? low).isSome) ∧ encodeByte b = [high.toLower, low.toLower] := by
  -- a pair that is read is the byte's own, but for the case of its letters
  have hwritten : ∀ {b}, pair? high low = some b → encodeByte b = [high.toLower, low.toLower] := by
    intro b h
    rw [pair?, if_neg hplus] at h
    obtain ⟨n, hn, h⟩ := Option.bind_eq_some_iff.1 h
    obtain ⟨k, hk, h⟩ := Option.bind_eq_some_iff.1 h
    obtain ⟨hn16, hhigh⟩ := digit_of_digit? hn
    obtain ⟨hk16, hlow⟩ := digit_of_digit? hk
    rw [← Option.some.inj h, encodeByte_ofNat hn16 hk16, hhigh, hlow]
  rw [← isSome_pair?_iff hplus]
  constructor
  · intro h
    exact ⟨Option.isSome_of_eq_some h, hwritten h⟩
  · rintro ⟨hsome, hb⟩
    obtain ⟨b', hb'⟩ := Option.isSome_iff_exists.1 hsome
    rw [hb', encodeByte_injective (hb.trans (hwritten hb').symm)]

/-- Characters with a zero in place of each plus sign that begins a pair. -/
def unsignedChars : List Char → List Char
  | [] => []
  | [c] => [c]
  | high :: low :: rest => (if high = '+' then '0' else high) :: low :: unsignedChars rest

/-- A text with a zero in place of each plus sign that begins a pair. -/
def unsigned (s : String) : String := String.ofList (unsignedChars s.toList)

/-- A plus sign that begins a pair counts as a zero. -/
theorem pair?_unsigned (high low : Char) : pair? (if high = '+' then '0' else high) low = pair? high low := by
  split
  · next hplus =>
    rw [hplus]
    rfl
  · rfl

theorem first_ne_plus (high : Char) : (if high = '+' then '0' else high) ≠ '+' := by
  split
  · decide
  · assumption

theorem decodeChars?_cons_eq_some_iff {high low : Char} {rest : List Char} {bytes : List UInt8} :
    decodeChars? (high :: low :: rest) = some bytes ↔
      ∃ b bs, pair? high low = some b ∧ decodeChars? rest = some bs ∧ bytes = b :: bs := by
  rw [decodeChars?]
  cases pair? high low <;> cases decodeChars? rest <;> simp [eq_comm]

/-- The bytes that are read are those whose digits these are, whatever the case of the letters. -/
theorem decodeChars?_eq_some_iff {cs : List Char} {bytes : List UInt8} : decodeChars? cs = some bytes ↔
    ((unsignedChars cs).length % 2 = 0 ∧ ∀ c ∈ unsignedChars cs, (digit? c).isSome) ∧
      encodeChars bytes = (unsignedChars cs).map Char.toLower := by
  induction cs using decodeChars?.induct generalizing bytes with
  | case1 => cases bytes <;> simp [decodeChars?, unsignedChars, encodeChars, encodeByte]
  | case2 c => simp [decodeChars?, unsignedChars]
  | case3 high low rest ih =>
    -- the first digit of the pair is the one that a plus sign counts as
    have hplus := first_ne_plus high
    rw [decodeChars?_cons_eq_some_iff, unsignedChars, ← pair?_unsigned high low]
    generalize (if high = '+' then '0' else high) = first at hplus ⊢
    simp only [pair?_eq_some_iff hplus, ih]
    constructor
    · rintro ⟨b, bs, ⟨⟨hfirst, hlow⟩, hb⟩, ⟨⟨heven, hdigits⟩, hbs⟩, rfl⟩
      refine ⟨⟨?_, List.forall_mem_cons.2 ⟨hfirst, List.forall_mem_cons.2 ⟨hlow, hdigits⟩⟩⟩, ?_⟩
      · rw [List.length_cons, List.length_cons, Nat.add_assoc, Nat.add_mod_right]
        exact heven
      · rw [encodeChars, List.flatMap_cons, hb, ← encodeChars, hbs]
        rfl
    · rintro ⟨⟨heven, hdigits⟩, hwritten⟩
      obtain ⟨hfirst, hdigits⟩ := List.forall_mem_cons.1 hdigits
      obtain ⟨hlow, hdigits⟩ := List.forall_mem_cons.1 hdigits
      rw [List.length_cons, List.length_cons, Nat.add_assoc, Nat.add_mod_right] at heven
      cases bytes with
      | nil => cases hwritten
      | cons b bs =>
        obtain ⟨hhigh, hwritten⟩ := List.cons.inj hwritten
        obtain ⟨hsecond, hrest⟩ := List.cons.inj hwritten
        exact ⟨b, bs, ⟨⟨hfirst, hlow⟩, by rw [encodeByte, hhigh, hsecond]⟩, ⟨⟨heven, hdigits⟩, hrest⟩, rfl⟩

theorem toLower_eq (s : String) : s.toLower = String.ofList (s.toList.map Char.toLower) := by
  rw [← String.toList_map, String.ofList_toList]
  rfl

/-- A text names bytes just if it is hexadecimal once its plus signs are zeros, and then that is how the bytes are
written, but for the case of digits. -/
theorem decode?_eq_some_iff {s : String} {bytes : List UInt8} :
    decode? s = some bytes ↔ Valid (unsigned s) ∧ encode bytes = (unsigned s).toLower := by
  rw [decode?, decodeChars?_eq_some_iff, Valid, unsigned, String.toList_ofList, encode, toLower_eq,
    String.toList_ofList]
  exact and_congr_right' ⟨congrArg String.ofList, fun h => String.ofList_injective h⟩

theorem decodeChars?_unsignedChars (cs : List Char) : decodeChars? (unsignedChars cs) = decodeChars? cs := by
  induction cs using unsignedChars.induct with
  | case1 => rfl
  | case2 c => rfl
  | case3 high low rest ih => rw [unsignedChars, decodeChars?, pair?_unsigned, ih, ← decodeChars?]

/-- With zeros in place of plus signs a text names the same bytes. -/
theorem decode?_unsigned (s : String) : decode? (unsigned s) = decode? s := by
  rw [decode?, unsigned, String.toList_ofList, decodeChars?_unsignedChars, ← decode?]

/-- A text names bytes just if it is hexadecimal once its plus signs are zeros. -/
theorem isSome_decode?_iff_unsigned (s : String) : (decode? s).isSome ↔ Valid (unsigned s) := by
  constructor
  · intro h
    obtain ⟨bytes, hbytes⟩ := Option.isSome_iff_exists.1 h
    exact (decode?_eq_some_iff.1 hbytes).1
  · intro h
    have hplus : '+' ∉ (unsigned s).toList := fun hmem => absurd (h.2 '+' hmem) (by decide)
    rw [← decode?_unsigned, isSome_decode?_iff hplus]
    exact h

theorem unsignedChars_of_not_mem {cs : List Char} (h : '+' ∉ cs) : unsignedChars cs = cs := by
  induction cs using unsignedChars.induct with
  | case1 => rfl
  | case2 c => rfl
  | case3 high low rest ih =>
    simp only [List.mem_cons, not_or] at h
    rw [unsignedChars, if_neg (Ne.symm h.1), ih h.2.2]

/-- Without a plus sign nothing is replaced. -/
theorem unsigned_of_not_mem {s : String} (h : '+' ∉ s.toList) : unsigned s = s := by
  rw [unsigned, unsignedChars_of_not_mem h, String.ofList_toList]

/-! ## Bytes in place of characters -/

/-- Characters that name bytes are characters of ASCII. -/
theorem lt_of_decodeChars? {cs : List Char} {bytes : List UInt8} (h : decodeChars? cs = some bytes) :
    ∀ c ∈ cs, c.toNat < 128 := by
  induction cs using decodeChars?.induct generalizing bytes with
  | case1 => exact List.forall_mem_nil _
  | case2 c => cases h
  | case3 high low rest ih =>
    obtain ⟨b, bs, hpair, hrest, -⟩ := decodeChars?_cons_eq_some_iff.1 h
    -- a plus counts as a zero, which leaves digits
    rw [← pair?_unsigned, pair?_eq_some_iff (first_ne_plus high)] at hpair
    obtain ⟨⟨hfirst, hlow⟩, -⟩ := hpair
    have hhigh : high.toNat < 128 := by
      split at hfirst
      · next hplus =>
        rw [hplus]
        decide
      · exact lt_of_isSome_digit? hfirst
    exact List.forall_mem_cons.2 ⟨hhigh, List.forall_mem_cons.2 ⟨lt_of_isSome_digit? hlow, ih hrest⟩⟩

/-- Each byte of a text may be taken for a character: those of a character that is not in ASCII are no digits. -/
theorem decode?_eq_of_bytes (s : String) :
    decode? s = decodeChars? ((Text.Utf8.encode s).map fun b => Char.ofNat b.toNat) := by
  rw [decode?, Text.Utf8.encode_eq_flatMap, List.map_flatMap]
  by_cases hother : ∃ c ∈ s.toList, 128 ≤ c.toNat
  · -- both sides hold a character that is not in ASCII
    have hnone : ∀ {cs : List Char}, (∃ c ∈ cs, 128 ≤ c.toNat) → decodeChars? cs = none := by
      rintro cs ⟨c, hc, hge⟩
      refine Option.eq_none_iff_forall_ne_some.2 fun bytes hbytes => ?_
      exact Nat.not_lt.2 hge (lt_of_decodeChars? hbytes c hc)
    obtain ⟨c, hc, hge⟩ := hother
    obtain ⟨b, hb, hbge⟩ := Text.Utf8.exists_mem_utf8EncodeChar hge
    have hvalid : b.toNat.isValidChar := .inl (Nat.lt_trans b.toNat_lt (by decide))
    have hchar : (Char.ofNat b.toNat).toNat = b.toNat := by
      rw [Char.ofNat, dif_pos hvalid]
      rfl
    rw [hnone ⟨c, hc, hge⟩, hnone]
    exact ⟨_, List.mem_flatMap.2 ⟨c, hc, List.mem_map_of_mem hb⟩, by rw [hchar]; exact hbge⟩
  · -- each character is its only byte
    have hsame : ∀ c ∈ s.toList, (String.utf8EncodeChar c).map (fun b => Char.ofNat b.toNat) = [c] := by
      intro c hc
      have hlt : c.toNat < 128 := Nat.lt_of_not_le fun hge => hother ⟨c, hc, hge⟩
      rw [Text.Utf8.utf8EncodeChar_of_lt hlt, List.map_singleton, UInt8.toNat_ofNat',
        Nat.mod_eq_of_lt (by omega), Char.ofNat_toNat]
    rw [List.flatMap_def, List.map_congr_left hsame, ← List.flatMap_def, List.flatMap_singleton']

end CircuitBlocks.Hex
