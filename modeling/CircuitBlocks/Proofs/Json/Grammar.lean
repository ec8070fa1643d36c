import CircuitBlocks.Proofs.Json.Lexing

/-!
# Grammar — which characters are which tokens

The lexer is a machine that reads one character at a time. What it accepts is said here without it, by the
grammar of the format.

* `Json.IsNumber`, `Json.IsSpelling` and `Token.Spells` — the characters of one token.
* `Json.IsLexed` — tokens one after another, with blanks between.
* **`Json.isLexed_of_tokens?`** — the lexer reads nothing else.
* **`Json.tokens?_of_isLexed`** — the lexer reads all tokens of which no two that have no delimiter stand side by
  side.
-/

namespace CircuitBlocks.Json

/-! ## Numbers -/

/-- Digits, at least one. -/
def AreDigits (ds : List Char) : Prop := ds ≠ [] ∧ ∀ d ∈ ds, d.isDigit = true

/-- A natural without zeros at the front. -/
inductive IsWhole : List Char → Prop where
  | zero : IsWhole ['0']
  | digits {d : Char} {ds : List Char} (hd : d ≠ '0') (h : AreDigits (d :: ds)) : IsWhole (d :: ds)

/-- A natural with or without a minus sign. -/
inductive IsInteger : List Char → Prop where
  | positive {cs : List Char} (h : IsWhole cs) : IsInteger cs
  | negative {cs : List Char} (h : IsWhole cs) : IsInteger ('-' :: cs)

/-- An integer with or without a fraction. -/
inductive IsDecimal : List Char → Prop where
  | integer {cs : List Char} (h : IsInteger cs) : IsDecimal cs
  | fraction {cs ds : List Char} (h : IsInteger cs) (hds : AreDigits ds) : IsDecimal (cs ++ '.' :: ds)

/-- What begins an exponent. -/
def IsMark (e : Char) : Prop := e = 'e' ∨ e = 'E'

/-- A number: a decimal with or without an exponent. -/
inductive IsNumber : List Char → Prop where
  | decimal {cs : List Char} (h : IsDecimal cs) : IsNumber cs
  | exponent {cs ds : List Char} {e : Char} (h : IsDecimal cs) (he : IsMark e) (hds : AreDigits ds) :
    IsNumber (cs ++ e :: ds)
  | signedExponent {cs ds : List Char} {e sign : Char} (h : IsDecimal cs) (he : IsMark e)
    (hsign : sign = '+' ∨ sign = '-') (hds : AreDigits ds) : IsNumber (cs ++ e :: sign :: ds)

theorem AreDigits.concat {ds : List Char} {d : Char} (h : AreDigits ds) (hd : d.isDigit = true) :
    AreDigits (ds ++ [d]) := by
  refine ⟨fun hnil => h.1 (List.append_eq_nil_iff.1 hnil).1, fun x hx => ?_⟩
  rcases List.mem_append.1 hx with hx | hx
  · exact h.2 x hx
  · rwa [List.mem_singleton.1 hx]

theorem areDigits_singleton {d : Char} (hd : d.isDigit = true) : AreDigits [d] :=
  ⟨List.cons_ne_nil _ _, fun _ hx => List.mem_singleton.1 hx ▸ hd⟩

/-! ### What a number has been read up to -/

namespace NumberPart

/-- The characters of a number that bring it up to a part. -/
def Reached : NumberPart → List Char → Prop
  | minus, cs => cs = ['-']
  | zero, cs => IsInteger cs
  | whole, cs => ∃ sign d ds, (sign = [] ∨ sign = ['-']) ∧ d ≠ '0' ∧ AreDigits (d :: ds) ∧ cs = sign ++ d :: ds
  | point, cs => ∃ whole, IsInteger whole ∧ cs = whole ++ ['.']
  | fraction, cs => ∃ whole ds, IsInteger whole ∧ AreDigits ds ∧ cs = whole ++ '.' :: ds
  | exponentMark, cs => ∃ decimal e, IsDecimal decimal ∧ IsMark e ∧ cs = decimal ++ [e]
  | exponentSign, cs =>
    ∃ decimal e sign, IsDecimal decimal ∧ IsMark e ∧ (sign = '+' ∨ sign = '-') ∧ cs = decimal ++ [e, sign]
  -- with or without a sign, the start is whatever makes a number with any digits
  | exponent, cs => ∃ start ds, (∀ ds, AreDigits ds → IsNumber (start ++ ds)) ∧ AreDigits ds ∧ cs = start ++ ds

variable {p q : NumberPart} {cs : List Char} {c : Char}

theorem Reached.isInteger (h : Reached whole cs) : IsInteger cs := by
  obtain ⟨sign, d, ds, hsign, hd, hds, rfl⟩ := h
  rcases hsign with rfl | rfl
  · exact .positive (.digits hd hds)
  · exact .negative (.digits hd hds)

theorem Reached.isDecimal (h : Reached fraction cs) : IsDecimal cs := by
  obtain ⟨whole, ds, hwhole, hds, rfl⟩ := h
  exact .fraction hwhole hds

/-- A number may end at the parts that are complete. -/
theorem Reached.isNumber (h : Reached p cs) (hp : p.complete = true) : IsNumber cs := by
  cases p with
  | zero => exact .decimal (.integer h)
  | whole => exact .decimal (.integer h.isInteger)
  | fraction => exact .decimal h.isDecimal
  | exponent =>
    obtain ⟨start, ds, hstart, hds, rfl⟩ := h
    exact hstart ds hds
  | minus | point | exponentMark | exponentSign => cases hp

theorem reached_minus : Reached minus ['-'] := rfl

theorem reached_zero : Reached zero ['0'] := .positive .zero

theorem reached_digit (hzero : c ≠ '0') (hdigit : c.isDigit = true) : Reached whole [c] :=
  ⟨[], c, [], .inl rfl, hzero, areDigits_singleton hdigit, rfl⟩

theorem reached_mark (h : IsDecimal cs) (hc : IsMark c) : Reached exponentMark (cs ++ [c]) := ⟨cs, c, h, hc, rfl⟩

theorem reached_point (h : IsInteger cs) : Reached point (cs ++ ['.']) := ⟨cs, h, rfl⟩

theorem reached_exponent {start : List Char} (h : ∀ ds, AreDigits ds → IsNumber (start ++ ds))
    (hc : c.isDigit = true) : Reached exponent (start ++ [c]) := ⟨start, [c], h, areDigits_singleton hc, rfl⟩

/-- After the sign comes a whole number. -/
theorem reached_of_minus (hnext : minus.next? c = some q) : Reached q ['-', c] := by
  simp only [next?] at hnext
  split at hnext
  · next hzero =>
    obtain rfl := Option.some.inj hnext
    rw [hzero]
    exact IsInteger.negative .zero
  · next hzero =>
    split at hnext
    · next hdigit =>
      obtain rfl := Option.some.inj hnext
      exact ⟨['-'], c, [], .inr rfl, hzero, areDigits_singleton hdigit, rfl⟩
    · cases hnext

/-- No digit follows a zero at the front. -/
theorem reached_of_zero (h : IsInteger cs) (hnext : zero.next? c = some q) : Reached q (cs ++ [c]) := by
  simp only [next?] at hnext
  split at hnext
  · next hpoint =>
    obtain rfl := Option.some.inj hnext
    rw [hpoint]
    exact reached_point h
  · split at hnext
    · next hmark =>
      obtain rfl := Option.some.inj hnext
      exact reached_mark (.integer h) hmark
    · cases hnext

/-- A whole number goes on with more digits, with its fraction or with its exponent. -/
theorem reached_of_whole (h : Reached whole cs) (hnext : whole.next? c = some q) : Reached q (cs ++ [c]) := by
  simp only [next?] at hnext
  split at hnext
  · -- another digit of the whole part; below, a point, and then a mark
    next hdigit =>
    obtain rfl := Option.some.inj hnext
    obtain ⟨sign, d, ds, hsign, hd, hds, rfl⟩ := h
    refine ⟨sign, d, ds ++ [c], hsign, hd, hds.concat hdigit, ?_⟩
    rw [List.append_assoc, List.cons_append]
  · split at hnext
    · next hpoint =>
      obtain rfl := Option.some.inj hnext
      rw [hpoint]
      exact reached_point h.isInteger
    · split at hnext
      · next hmark =>
        obtain rfl := Option.some.inj hnext
        exact reached_mark (.integer h.isInteger) hmark
      · cases hnext

/-- After the point comes a digit. -/
theorem reached_of_point (h : IsInteger cs) (hnext : point.next? c = some q) : Reached q (cs ++ ['.'] ++ [c]) := by
  simp only [next?] at hnext
  split at hnext
  · next hdigit =>
    obtain rfl := Option.some.inj hnext
    exact ⟨cs, [c], h, areDigits_singleton hdigit, List.append_assoc ..⟩
  · cases hnext

/-- A fraction goes on with more digits or with the exponent. -/
theorem reached_of_fraction (h : Reached fraction cs) (hnext : fraction.next? c = some q) :
    Reached q (cs ++ [c]) := by
  simp only [next?] at hnext
  split at hnext
  · next hdigit =>
    obtain rfl := Option.some.inj hnext
    obtain ⟨whole, ds, hwhole, hds, rfl⟩ := h
    exact ⟨whole, ds ++ [c], hwhole, hds.concat hdigit, List.append_assoc ..⟩
  · split at hnext
    · next hmark =>
      obtain rfl := Option.some.inj hnext
      exact reached_mark h.isDecimal hmark
    · cases hnext

/-- After the mark of an exponent comes its sign or a digit. -/
theorem reached_of_exponentMark {e : Char} (h : IsDecimal cs) (he : IsMark e)
    (hnext : exponentMark.next? c = some q) : Reached q (cs ++ [e] ++ [c]) := by
  simp only [next?] at hnext
  split at hnext
  · next hdigit =>
    obtain rfl := Option.some.inj hnext
    refine reached_exponent (fun ds hds => ?_) hdigit
    rw [List.append_assoc]
    exact .exponent h he hds
  · split at hnext
    · next hsign =>
      obtain rfl := Option.some.inj hnext
      exact ⟨cs, e, c, h, he, hsign, List.append_assoc ..⟩
    · cases hnext

/-- After the sign of an exponent comes a digit. -/
theorem reached_of_exponentSign {e sign : Char} (h : IsDecimal cs) (he : IsMark e) (hsign : sign = '+' ∨ sign = '-')
    (hnext : exponentSign.next? c = some q) : Reached q (cs ++ [e, sign] ++ [c]) := by
  simp only [next?] at hnext
  split at hnext
  · next hdigit =>
    obtain rfl := Option.some.inj hnext
    refine reached_exponent (fun ds hds => ?_) hdigit
    rw [List.append_assoc]
    exact .signedExponent h he hsign hds
  · cases hnext

/-- An exponent goes on with more digits only. -/
theorem reached_of_exponent (h : Reached exponent cs) (hnext : exponent.next? c = some q) :
    Reached q (cs ++ [c]) := by
  obtain ⟨start, ds, hstart, hds, rfl⟩ := h
  simp only [next?] at hnext
  split at hnext
  · next hdigit =>
    obtain rfl := Option.some.inj hnext
    exact ⟨start, ds ++ [c], hstart, hds.concat hdigit, List.append_assoc ..⟩
  · cases hnext

/-- What one character more brings a number up to. -/
theorem Reached.next (h : Reached p cs) (hnext : p.next? c = some q) : Reached q (cs ++ [c]) := by
  -- one lemma for each part that may have been read so far
  cases p with
  | minus =>
    obtain rfl := h
    exact reached_of_minus hnext
  | zero => exact reached_of_zero h hnext
  | whole => exact reached_of_whole h hnext
  | point =>
    obtain ⟨whole, hwhole, rfl⟩ := h
    exact reached_of_point hwhole hnext
  | fraction => exact reached_of_fraction h hnext
  | exponentMark =>
    obtain ⟨decimal, e, hdecimal, he, rfl⟩ := h
    exact reached_of_exponentMark hdecimal he hnext
  | exponentSign =>
    obtain ⟨decimal, e, sign, hdecimal, he, hsign, rfl⟩ := h
    exact reached_of_exponentSign hdecimal he hsign hnext
  | exponent => exact reached_of_exponent h hnext

end NumberPart

/-! ### Reading numbers -/

/-- Characters that bring the lexer from between tokens to a part of a number. -/
def Brings (p : NumberPart) (cs : List Char) : Prop :=
  ∀ before, cs.foldlM Lexer.step ⟨before, .between⟩ = some ⟨before, .number p cs.reverse⟩

/-- A number that has come to one part goes on from there. -/
theorem Brings.append {p q : NumberPart} {cs ds : List Char} (h : Brings p cs)
    (hds : ds.foldlM NumberPart.next? p = some q) : Brings q (cs ++ ds) := by
  intro before
  rw [List.foldlM_append, h before, List.reverse_append]
  show ds.foldlM Lexer.step ⟨before, .number p cs.reverse⟩ = _
  -- the characters so far are generalised over, with the part that they lead to
  clear h
  generalize cs.reverse = latest
  induction ds generalizing p latest with
  | nil =>
    obtain rfl := Option.some.inj hds
    rfl
  | cons d ds ih =>
    rw [List.foldlM_cons] at hds
    obtain ⟨r, hr, hds⟩ := Option.bind_eq_some_iff.1 hds
    have hstep : Lexer.step ⟨before, .number p latest⟩ d = some ⟨before, .number r (d :: latest)⟩ := by
      rw [Lexer.step]
      simp only [hr]
    rw [List.foldlM_cons, hstep, List.reverse_cons, List.append_assoc]
    exact ih hds (d :: latest)

/-- Digits carry on the parts that may have any number of them. -/
theorem foldlM_next?_digits {p : NumberPart} (hp : p = .whole ∨ p = .fraction ∨ p = .exponent) {ds : List Char}
    (hds : ∀ d ∈ ds, d.isDigit = true) : ds.foldlM NumberPart.next? p = some p := by
  induction ds with
  | nil => rfl
  | cons d ds ih =>
    obtain ⟨hd, hds⟩ := List.forall_mem_cons.1 hds
    have hnext : p.next? d = some p := by
      rcases hp with rfl | rfl | rfl <;> exact if_pos hd
    rw [List.foldlM_cons, hnext]
    exact ih hds

/-- Digits stay in a part of the number that takes any number of them. -/
theorem AreDigits.foldlM_next? {p q : NumberPart} {ds : List Char} (h : AreDigits ds)
    (hfirst : ∀ d, d.isDigit = true → p.next? d = some q) (hq : q = .whole ∨ q = .fraction ∨ q = .exponent) :
    ds.foldlM NumberPart.next? p = some q := by
  obtain ⟨d, ds, rfl⟩ := List.exists_cons_of_ne_nil h.1
  obtain ⟨hd, hds⟩ := List.forall_mem_cons.1 h.2
  rw [List.foldlM_cons, hfirst d hd]
  exact foldlM_next?_digits hq hds

theorem IsWhole.foldlM_next? {cs : List Char} (h : IsWhole cs) :
    ∃ p, (p = .zero ∨ p = .whole) ∧ cs.foldlM NumberPart.next? .minus = some p := by
  cases h with
  | zero => exact ⟨.zero, .inl rfl, rfl⟩
  | @digits d ds hd hds =>
    obtain ⟨hdigit, hds⟩ := List.forall_mem_cons.1 hds.2
    have hnext : NumberPart.next? .minus d = some .whole := by
      rw [NumberPart.next?]
      exact (if_neg hd).trans (if_pos hdigit)
    refine ⟨.whole, .inr rfl, ?_⟩
    rw [List.foldlM_cons, hnext]
    exact foldlM_next?_digits (.inl rfl) hds

/-- A whole number may end where it has come to. -/
theorem IsWhole.brings {cs : List Char} (h : IsWhole cs) : ∃ p, (p = .zero ∨ p = .whole) ∧ Brings p cs := by
  cases h with
  | zero => exact ⟨.zero, .inl rfl, fun _ => rfl⟩
  | @digits d ds hd hds =>
    obtain ⟨hdigit, hds⟩ := List.forall_mem_cons.1 hds.2
    have hfirst : Brings .whole [d] := by
      intro before
      show (Lexer.stepBetween before d).bind some = _
      rw [stepBetween_digit hdigit hd]
      rfl
    exact ⟨.whole, .inr rfl, hfirst.append (foldlM_next?_digits (.inl rfl) hds)⟩

theorem IsInteger.brings {cs : List Char} (h : IsInteger cs) : ∃ p, (p = .zero ∨ p = .whole) ∧ Brings p cs := by
  cases h with
  | positive h => exact h.brings
  | negative h =>
    have hminus : Brings .minus ['-'] := fun _ => rfl
    obtain ⟨p, hp, hread⟩ := h.foldlM_next?
    exact ⟨p, hp, hminus.append hread⟩

/-- So may a number with a fraction. -/
theorem IsDecimal.brings {cs : List Char} (h : IsDecimal cs) :
    ∃ p, (p = .zero ∨ p = .whole ∨ p = .fraction) ∧ Brings p cs := by
  cases h with
  | integer h =>
    obtain ⟨p, hp, hbrings⟩ := h.brings
    exact ⟨p, hp.imp_right .inl, hbrings⟩
  | @fraction cs ds h hds =>
    obtain ⟨p, hp, hbrings⟩ := h.brings
    have hpoint : p.next? '.' = some .point := by
      rcases hp with rfl | rfl <;> rfl
    refine ⟨.fraction, .inr (.inr rfl), hbrings.append ?_⟩
    rw [List.foldlM_cons, hpoint]
    exact hds.foldlM_next? (fun _ hd => if_pos hd) (.inr (.inl rfl))

/-- A number is read up to a part at which it may end. -/
theorem IsNumber.brings {cs : List Char} (h : IsNumber cs) : ∃ p, p.complete = true ∧ Brings p cs := by
  -- an exponent may follow wherever a decimal ends
  have hmark : ∀ {p e}, (p = .zero ∨ p = .whole ∨ p = .fraction) → IsMark e →
      NumberPart.next? p e = some .exponentMark := by
    intro p e hp he
    rcases he with rfl | rfl <;> rcases hp with rfl | rfl | rfl <;> rfl
  cases h with
  | decimal h =>
    obtain ⟨p, hp, hbrings⟩ := h.brings
    refine ⟨p, ?_, hbrings⟩
    rcases hp with rfl | rfl | rfl <;> rfl
  | exponent h he hds =>
    obtain ⟨p, hp, hbrings⟩ := h.brings
    refine ⟨.exponent, rfl, hbrings.append ?_⟩
    rw [List.foldlM_cons, hmark hp he]
    exact hds.foldlM_next? (fun _ hd => if_pos hd) (.inr (.inr rfl))
  | @signedExponent cs ds e sign h he hsign hds =>
    obtain ⟨p, hp, hbrings⟩ := h.brings
    have hsigned : NumberPart.next? .exponentMark sign = some .exponentSign := by
      rcases hsign with rfl | rfl <;> rfl
    have hdigits := hds.foldlM_next? (p := .exponentSign) (fun _ hd => if_pos hd) (.inr (.inr rfl))
    refine ⟨.exponent, rfl, hbrings.append ?_⟩
    rw [List.foldlM_cons, hmark hp he]
    show (NumberPart.next? .exponentMark sign).bind _ = _
    rw [hsigned]
    exact hdigits

/-! ## Strings -/

/-- The characters between the quotes of a string. -/
inductive IsSpelling : List Char → Prop where
  | nil : IsSpelling []
  | plain {c : Char} {cs : List Char} (hquote : c ≠ '"') (hslash : c ≠ '\\') (hcontrol : 32 ≤ c.toNat)
    (h : IsSpelling cs) : IsSpelling (c :: cs)
  | letter {e : Char} {cs : List Char} (he : (escapes.lookup e).isSome = true) (h : IsSpelling cs) :
    IsSpelling ('\\' :: e :: cs)
  | unicode {ds cs : List Char} (hlength : ds.length = 4) (hds : ∀ d ∈ ds, (Hex.digit? d).isSome = true)
    (h : IsSpelling cs) : IsSpelling ('\\' :: 'u' :: ds ++ cs)

/-- Spellings are joined. -/
theorem IsSpelling.append {cs ds : List Char} (hcs : IsSpelling cs) (hds : IsSpelling ds) : IsSpelling (cs ++ ds) := by
  induction hcs with
  | nil => exact hds
  | plain hquote hslash hcontrol _ ih => exact .plain hquote hslash hcontrol ih
  | letter he _ ih => exact .letter he ih
  | unicode hlength hall _ ih =>
    have h := IsSpelling.unicode hlength hall ih
    rwa [← List.append_assoc] at h

/-- Hexadecimal digits are counted, and the last one ends the escape. -/
theorem foldlM_unicode {ds : List Char} (hne : ds ≠ []) (hds : ∀ d ∈ ds, (Hex.digit? d).isSome = true)
    (before : List Token) (latest : List Char) :
    ds.foldlM Lexer.step ⟨before, .unicode ds.length latest⟩ = some ⟨before, .string (ds.reverse ++ latest)⟩ := by
  -- the mode counts the digits that are left, so it fits those that the induction leaves
  induction ds generalizing latest with
  | nil => exact absurd rfl hne
  | cons d ds ih =>
    obtain ⟨hd, hds⟩ := List.forall_mem_cons.1 hds
    have hdigit : (Hex.digit? d).isNone = false := by
      rw [Option.isNone_eq_false_iff]
      exact hd
    rw [List.foldlM_cons, Lexer.step]
    simp only [hdigit]
    cases ds with
    | nil => rfl
    | cons d' ds =>
      rw [List.reverse_cons, List.append_assoc]
      exact ih (List.cons_ne_nil _ _) hds (d :: latest)

/-- A spelling is read inside of a string. -/
theorem IsSpelling.foldlM_step {cs : List Char} (h : IsSpelling cs) (before : List Token) (latest : List Char) :
    cs.foldlM Lexer.step ⟨before, .string latest⟩ = some ⟨before, .string (cs.reverse ++ latest)⟩ := by
  -- along the spelling; what was read of it so far stands in reverse before the rest
  induction h generalizing latest with
  | nil => rfl
  | @plain c cs hquote hslash hcontrol _ ih =>
    have hstep : Lexer.step ⟨before, .string latest⟩ c = some ⟨before, .string (c :: latest)⟩ := by
      rw [Lexer.step]
      simp only [hquote, hslash, Nat.not_lt.2 hcontrol, if_false]
    rw [List.foldlM_cons, hstep, List.reverse_cons, List.append_assoc]
    exact ih (c :: latest)
  | @letter e cs he _ ih =>
    have hu : e ≠ 'u' := by
      rintro rfl
      cases he
    have hstep : Lexer.step ⟨before, .escape ('\\' :: latest)⟩ e = some ⟨before, .string (e :: '\\' :: latest)⟩ := by
      rw [Lexer.step]
      simp only [hu, he, if_false, if_true]
    show (Lexer.step ⟨before, .escape ('\\' :: latest)⟩ e).bind _ = _
    rw [hstep, List.reverse_cons, List.reverse_cons, List.append_assoc, List.append_assoc]
    exact ih (e :: '\\' :: latest)
  | @unicode ds cs hlength hds _ ih =>
    have hne : ds ≠ [] := by
      rintro rfl
      cases hlength
    have hread := foldlM_unicode hne hds before ('u' :: '\\' :: latest)
    rw [hlength] at hread
    show (ds ++ cs).foldlM Lexer.step ⟨before, .unicode 4 ('u' :: '\\' :: latest)⟩ = _
    rw [List.foldlM_append, hread]
    show cs.foldlM Lexer.step ⟨before, .string _⟩ = _
    rw [ih]
    simp

/-! ## Tokens -/

/-- The characters of a token. -/
inductive Token.Spells : Token → List Char → Prop where
  | openBracket : Spells .openBracket ['[']
  | closeBracket : Spells .closeBracket [']']
  | openBrace : Spells .openBrace ['\x7b']
  | closeBrace : Spells .closeBrace ['\x7d']
  | comma : Spells .comma [',']
  | colon : Spells .colon [':']
  | nullWord : Spells .null "null".toList
  | trueWord : Spells (.bool true) "true".toList
  | falseWord : Spells (.bool false) "false".toList
  | number {cs : List Char} (h : IsNumber cs) : Spells (.number (String.ofList cs)) cs
  | string {cs : List Char} (h : IsSpelling cs) : Spells (.string (String.ofList cs)) ('"' :: cs ++ ['"'])

/-- The characters that may stand between tokens. -/
def IsBlank (c : Char) : Prop := c = ' ' ∨ c = '\t' ∨ c = '\n' ∨ c = '\r'

/-- Tokens one after another, with blanks between. -/
inductive IsLexed : List Char → List Token → Prop where
  | nil : IsLexed [] []
  | blank {c : Char} {cs : List Char} {ts : List Token} (hc : IsBlank c) (h : IsLexed cs ts) : IsLexed (c :: cs) ts
  | token {t : Token} {spelling cs : List Char} {ts : List Token} (ht : t.Spells spelling) (h : IsLexed cs ts) :
    IsLexed (spelling ++ cs) (t :: ts)

/-- Texts that are cut into tokens are joined with their tokens. -/
theorem IsLexed.append {cs ds : List Char} {ts us : List Token} (hcs : IsLexed cs ts) (hds : IsLexed ds us) :
    IsLexed (cs ++ ds) (ts ++ us) := by
  induction hcs with
  | nil => exact hds
  | blank hc _ ih => exact .blank hc ih
  | token ht _ ih =>
    rw [List.append_assoc]
    exact .token ht ih

theorem Token.Spells.isLexed {t : Token} {cs : List Char} (h : t.Spells cs) : IsLexed cs [t] := by
  have hlexed := IsLexed.token h .nil
  rwa [List.append_nil] at hlexed

/-! ### What the lexer has read -/

namespace Lexer

/-- The characters since the last token that bring the lexer inside of something. -/
def Inside : Mode → List Char → Prop
  | .between, cs => cs = []
  | .word latest, cs => cs = latest.reverse
  | .number part latest, cs => cs = latest.reverse ∧ part.Reached cs
  | .string latest, cs => cs = '"' :: latest.reverse ∧ IsSpelling latest.reverse
  | .escape latest, cs => ∃ before, latest = '\\' :: before ∧ cs = '"' :: latest.reverse ∧ IsSpelling before.reverse
  -- the digits of the escape are counted down from four
  | .unicode left latest, cs => ∃ before ds, latest.reverse = before ++ '\\' :: 'u' :: ds ∧ ds.length + left = 4 ∧
    0 < left ∧ (∀ d ∈ ds, (Hex.digit? d).isSome = true) ∧ cs = '"' :: latest.reverse ∧ IsSpelling before

/-- The lexer has read some characters. -/
def HasRead (l : Lexer) (cs : List Char) : Prop :=
  ∃ done rest, cs = done ++ rest ∧ IsLexed done l.tokens.reverse ∧ Inside l.mode rest

variable {l l' : Lexer} {tokens ts : List Token} {cs : List Char} {c : Char} {t : Token}

theorem hasRead_token (h : IsLexed cs tokens.reverse) {spelling : List Char} (ht : t.Spells spelling) :
    HasRead ⟨t :: tokens, .between⟩ (cs ++ spelling) := by
  refine ⟨cs ++ spelling, [], (List.append_nil _).symm, ?_, rfl⟩
  rw [List.reverse_cons]
  exact h.append ht.isLexed

/-- Only a word that names a token is one. -/
theorem spells_of_wordToken? {latest : List Char} (h : wordToken? latest = some t) : t.Spells latest.reverse := by
  have hchars : ∀ {word : String}, String.ofList latest.reverse = word → latest.reverse = word.toList := by
    rintro _ rfl
    rw [String.toList_ofList]
  rw [wordToken?] at h
  split at h
  · next hword =>
    obtain rfl := Option.some.inj h
    rw [hchars hword]
    exact .nullWord
  · next hword =>
    obtain rfl := Option.some.inj h
    rw [hchars hword]
    exact .trueWord
  · next hword =>
    obtain rfl := Option.some.inj h
    rw [hchars hword]
    exact .falseWord
  · cases h

/-- What the lexer is inside of is a token if it ends. -/
theorem HasRead.settle (h : HasRead l cs) (hsettle : l.settle? = some ts) : IsLexed cs ts.reverse := by
  obtain ⟨tokens, mode⟩ := l
  obtain ⟨done, rest, rfl, hdone, hrest⟩ := h
  -- only between tokens, after a word and after a number that is complete a document may end
  cases mode with
  | between =>
    obtain rfl := hrest
    obtain rfl := Option.some.inj hsettle
    rwa [List.append_nil]
  | word latest =>
    obtain rfl := hrest
    obtain ⟨t, ht, hts⟩ := Option.bind_eq_some_iff.1 hsettle
    obtain rfl := Option.some.inj hts
    rw [List.reverse_cons]
    exact hdone.append (spells_of_wordToken? ht).isLexed
  | number part latest =>
    obtain ⟨rfl, hreached⟩ := hrest
    simp only [settle?] at hsettle
    split at hsettle
    · next hcomplete =>
      obtain rfl := Option.some.inj hsettle
      rw [List.reverse_cons]
      exact hdone.append (Token.Spells.number (hreached.isNumber hcomplete)).isLexed
    · cases hsettle
  | string latest | escape latest | unicode left latest => cases hsettle

/-- What a character between tokens begins, and what the lexer is then inside of. -/
inductive Begins (tokens : List Token) (c : Char) : Lexer → Prop where
  | blank (hc : IsBlank c) : Begins tokens c ⟨tokens, .between⟩
  | token {t : Token} (ht : t.Spells [c]) : Begins tokens c ⟨t :: tokens, .between⟩
  | quote (hc : c = '"') : Begins tokens c ⟨tokens, .string []⟩
  | number {p : NumberPart} (hp : p.Reached [c]) : Begins tokens c ⟨tokens, .number p [c]⟩
  | word : Begins tokens c ⟨tokens, .word [c]⟩

theorem begins_of_emit {d : Char} (ht : t.Spells [d]) (hc : c = d) (h : emit tokens t = some l) :
    Begins tokens c l := by
  subst hc
  obtain rfl := Option.some.inj h
  exact .token ht

theorem begins_of_number {p : NumberPart} (hp : p.Reached [c])
    (h : some (⟨tokens, .number p [c]⟩ : Lexer) = some l) : Begins tokens c l := by
  obtain rfl := Option.some.inj h
  exact .number hp

/-- The cases are those of the lexer, in the order in which it looks for them. -/
theorem begins_of_stepBetween (h : stepBetween tokens c = some l) : Begins tokens c l := by
  unfold stepBetween at h
  -- the tests are made one after another, so each case also knows that the ones before it failed
  by_cases hblank : c = ' ' ∨ c = '\t' ∨ c = '\n' ∨ c = '\r'
  · obtain rfl := Option.some.inj ((if_pos hblank).symm.trans h)
    exact .blank hblank
  replace h := (if_neg hblank).symm.trans h
  by_cases hopen : c = '['
  · exact begins_of_emit .openBracket hopen ((if_pos hopen).symm.trans h)
  replace h := (if_neg hopen).symm.trans h
  by_cases hclose : c = ']'
  · exact begins_of_emit .closeBracket hclose ((if_pos hclose).symm.trans h)
  replace h := (if_neg hclose).symm.trans h
  by_cases hbrace : c = '\x7b'
  · exact begins_of_emit .openBrace hbrace ((if_pos hbrace).symm.trans h)
  replace h := (if_neg hbrace).symm.trans h
  by_cases hend : c = '\x7d'
  · exact begins_of_emit .closeBrace hend ((if_pos hend).symm.trans h)
  replace h := (if_neg hend).symm.trans h
  by_cases hcomma : c = ','
  · exact begins_of_emit .comma hcomma ((if_pos hcomma).symm.trans h)
  replace h := (if_neg hcomma).symm.trans h
  by_cases hcolon : c = ':'
  · exact begins_of_emit .colon hcolon ((if_pos hcolon).symm.trans h)
  replace h := (if_neg hcolon).symm.trans h
  by_cases hquote : c = '"'
  · obtain rfl := Option.some.inj ((if_pos hquote).symm.trans h)
    exact .quote hquote
  replace h := (if_neg hquote).symm.trans h
  by_cases hminus : c = '-'
  · subst hminus
    exact begins_of_number NumberPart.reached_minus h
  replace h := (if_neg hminus).symm.trans h
  by_cases hzero : c = '0'
  · subst hzero
    exact begins_of_number NumberPart.reached_zero h
  replace h := (if_neg hzero).symm.trans h
  by_cases hdigit : c.isDigit = true
  · exact begins_of_number (NumberPart.reached_digit hzero hdigit) ((if_pos hdigit).symm.trans h)
  replace h := (if_neg hdigit).symm.trans h
  by_cases hword : c = 'n' ∨ c = 't' ∨ c = 'f'
  · obtain rfl := Option.some.inj ((if_pos hword).symm.trans h)
    exact .word
  · cases (if_neg hword).symm.trans h

/-- What follows complete tokens is a blank, a token, or the beginning of one. -/
theorem hasRead_stepBetween (h : IsLexed cs tokens.reverse) (hstep : stepBetween tokens c = some l) :
    HasRead l (cs ++ [c]) := by
  cases begins_of_stepBetween hstep with
  | blank hblank =>
    refine ⟨cs ++ [c], [], (List.append_nil _).symm, ?_, rfl⟩
    have happend := h.append (.blank hblank .nil)
    rwa [List.append_nil] at happend
  | token ht => exact hasRead_token h ht
  | quote hquote =>
    subst hquote
    exact ⟨cs, ['"'], rfl, h, rfl, .nil⟩
  | number hp => exact ⟨cs, [c], rfl, h, rfl, hp⟩
  | word => exact ⟨cs, [c], rfl, h, rfl⟩

theorem quote_concat (latest : List Char) (c : Char) :
    '"' :: latest.reverse ++ [c] = '"' :: (c :: latest).reverse := by
  rw [List.reverse_cons, List.cons_append]

/-! One character in each of the modes -/

variable {latest : List Char}

/-- A word goes on with letters. Any other character ends it, and is read as one between tokens. -/
theorem HasRead.step_word (h : HasRead ⟨tokens, .word latest⟩ cs) (hstep : step ⟨tokens, .word latest⟩ c = some l) :
    HasRead l (cs ++ [c]) := by
  simp only [step] at hstep
  split at hstep
  · obtain rfl := Option.some.inj hstep
    obtain ⟨done, _, rfl, hdone, rfl⟩ := h
    exact ⟨done, _, List.append_assoc .., hdone, (List.reverse_cons ..).symm⟩
  · obtain ⟨ts, hts, hl⟩ := Option.bind_eq_some_iff.1 hstep
    exact hasRead_stepBetween (h.settle hts) hl

/-- A number goes on while a character brings it up to more, and then ends as a word does. -/
theorem HasRead.step_number {part : NumberPart} (h : HasRead ⟨tokens, .number part latest⟩ cs)
    (hstep : step ⟨tokens, .number part latest⟩ c = some l) : HasRead l (cs ++ [c]) := by
  simp only [step] at hstep
  split at hstep
  · next q hnext =>
    obtain rfl := Option.some.inj hstep
    obtain ⟨done, _, rfl, hdone, rfl, hreached⟩ := h
    exact ⟨done, _, List.append_assoc .., hdone, (List.reverse_cons ..).symm, hreached.next hnext⟩
  · obtain ⟨ts, hts, hl⟩ := Option.bind_eq_some_iff.1 hstep
    exact hasRead_stepBetween (h.settle hts) hl

/-- A string ends with a quote, and a backslash in it begins an escape. -/
theorem HasRead.step_string (h : HasRead ⟨tokens, .string latest⟩ cs)
    (hstep : step ⟨tokens, .string latest⟩ c = some l) : HasRead l (cs ++ [c]) := by
  obtain ⟨done, _, rfl, hdone, rfl, hspelling⟩ := h
  simp only [step] at hstep
  split at hstep
  · next hquote =>
    obtain rfl := Option.some.inj hstep
    rw [hquote, List.append_assoc]
    exact hasRead_token hdone (.string hspelling)
  next hquote =>
  split at hstep
  · next hslash =>
    obtain rfl := Option.some.inj hstep
    exact ⟨done, _, List.append_assoc .., hdone, latest, by rw [hslash], quote_concat latest c, hspelling⟩
  next hslash =>
  split at hstep
  · cases hstep
  next hcontrol =>
  obtain rfl := Option.some.inj hstep
  -- any other character stands for itself
  refine ⟨done, _, List.append_assoc .., hdone, quote_concat latest c, ?_⟩
  rw [List.reverse_cons]
  exact hspelling.append (.plain hquote hslash (Nat.le_of_not_lt hcontrol) .nil)

/-- A letter ends an escape, unless it is the one before four digits. -/
theorem HasRead.step_escape (h : HasRead ⟨tokens, .escape latest⟩ cs)
    (hstep : step ⟨tokens, .escape latest⟩ c = some l) : HasRead l (cs ++ [c]) := by
  obtain ⟨done, _, rfl, hdone, before, rfl, rfl, hspelling⟩ := h
  simp only [step] at hstep
  split at hstep
  · -- a character by its code, of which no digit is there yet
    next hu =>
    obtain rfl := Option.some.inj hstep
    have hreverse : (c :: '\\' :: before).reverse = before.reverse ++ '\\' :: 'u' :: [] := by
      rw [hu, List.reverse_cons, List.reverse_cons, List.append_assoc]
      rfl
    exact ⟨done, _, List.append_assoc .., hdone, before.reverse, [], hreverse, rfl, Nat.succ_pos 3,
      List.forall_mem_nil _, quote_concat _ c, hspelling⟩
  · split at hstep
    · -- an escape of two characters, which ends here
      next hletter =>
      obtain rfl := Option.some.inj hstep
      refine ⟨done, _, List.append_assoc .., hdone, quote_concat _ c, ?_⟩
      rw [List.reverse_cons, List.reverse_cons, List.append_assoc]
      exact hspelling.append (.letter hletter .nil)
    · cases hstep

/-- The fourth digit ends an escape, and those before are counted. -/
theorem HasRead.step_unicode {left : Nat} (h : HasRead ⟨tokens, .unicode left latest⟩ cs)
    (hstep : step ⟨tokens, .unicode left latest⟩ c = some l) : HasRead l (cs ++ [c]) := by
  obtain ⟨done, _, rfl, hdone, before, ds, hlatest, hlength, hleft, hds, rfl, hspelling⟩ := h
  simp only [step] at hstep
  split at hstep
  · cases hstep
  next hdigit =>
  have hall : ∀ d ∈ ds ++ [c], (Hex.digit? d).isSome = true :=
    List.forall_mem_append.2 ⟨hds, List.forall_mem_singleton.2 (by simpa [Option.isSome_iff_ne_none] using hdigit)⟩
  have hcount : (ds ++ [c]).length = ds.length + 1 := List.length_append
  have hreverse : (c :: latest).reverse = before ++ '\\' :: 'u' :: (ds ++ [c]) := by
    rw [List.reverse_cons, hlatest, List.append_assoc]
    rfl
  -- with the fourth digit the escape is complete, and the string goes on
  split at hstep
  · next hlast =>
    obtain rfl := Option.some.inj hstep
    have hunicode := hspelling.append (.unicode (by omega) hall .nil)
    rw [List.append_nil] at hunicode
    refine ⟨done, _, List.append_assoc .., hdone, quote_concat latest c, ?_⟩
    rwa [hreverse]
  · next hlast =>
    obtain rfl := Option.some.inj hstep
    exact ⟨done, _, List.append_assoc .., hdone, before, ds ++ [c], hreverse, by omega, by omega, hall,
      quote_concat latest c, hspelling⟩

/-- One character is read after those before. -/
theorem HasRead.step (h : HasRead l cs) (hstep : l.step c = some l') : HasRead l' (cs ++ [c]) := by
  obtain ⟨tokens, mode⟩ := l
  cases mode with
  | between =>
    obtain ⟨done, _, rfl, hdone, rfl⟩ := h
    rw [List.append_nil]
    exact hasRead_stepBetween hdone hstep
  | word latest => exact h.step_word hstep
  | number part latest => exact h.step_number hstep
  | string latest => exact h.step_string hstep
  | escape latest => exact h.step_escape hstep
  | unicode left latest => exact h.step_unicode hstep

/-- What is read after what was read: by induction on the characters to come, with those before generalised. -/
theorem HasRead.foldlM_step {ds : List Char} (h : HasRead l cs) (hl : ds.foldlM Lexer.step l = some l') :
    HasRead l' (cs ++ ds) := by
  induction ds generalizing l cs with
  | nil =>
    obtain rfl := Option.some.inj hl
    rwa [List.append_nil]
  | cons d ds ih =>
    rw [List.foldlM_cons] at hl
    obtain ⟨next, hnext, hl⟩ := Option.bind_eq_some_iff.1 hl
    have hrest := ih (h.step hnext) hl
    rwa [List.append_assoc] at hrest

end Lexer

/-- The lexer reads nothing but tokens with blanks between. -/
theorem isLexed_of_tokens? {cs : List Char} {ts : List Token} (h : tokens? cs = some ts) : IsLexed cs ts := by
  obtain ⟨l, hl, hsettled⟩ := Option.bind_eq_some_iff.1 h
  obtain ⟨latest, hlatest, hts⟩ := Option.bind_eq_some_iff.1 hsettled
  obtain rfl := Option.some.inj hts
  have hstart : Lexer.HasRead Lexer.start [] := ⟨[], [], rfl, .nil, rfl⟩
  exact (hstart.foldlM_step hl).settle hlatest

/-! ### What the lexer reads -/

/-- Whether a token ends only where another character stands that it cannot hold: a number or a word. -/
def Token.isBare : Token → Bool
  | null | bool _ | number _ => true
  | openBracket | closeBracket | openBrace | closeBrace | comma | colon | string _ => false

/-- The characters with which something else than a bare token begins. -/
def delimiters : List Char := [' ', '\t', '\n', '\r', '[', ']', '\x7b', '\x7d', ',', ':', '"']

/-- Whether a character ends a bare token. -/
def Delimits (c : Char) : Prop := c ∈ delimiters

instance (c : Char) : Decidable (Delimits c) := inferInstanceAs (Decidable (c ∈ _))

/-- No two bare tokens stand side by side. -/
def Apart : List Token → Prop
  | t :: u :: ts => (t.isBare = true → u.isBare = false) ∧ Apart (u :: ts)
  | _ => True

theorem Apart.tail {t : Token} {ts : List Token} (h : Apart (t :: ts)) : Apart ts := by
  cases ts with
  | nil => trivial
  | cons u ts => exact h.2

theorem Delimits.isLower {c : Char} (h : Delimits c) : c.isLower = false := by
  have hall : delimiters.all (!Char.isLower ·) = true := by decide
  simpa using List.all_eq_true.1 hall c h

/-- What delimits a word goes on with no number. -/
theorem Delimits.next? {c : Char} (h : Delimits c) {p : NumberPart} (hp : p.complete = true) : p.next? c = none := by
  have hall : delimiters.all (fun c => [NumberPart.zero, .whole, .fraction, .exponent].all fun p =>
      p.next? c = none) = true := by decide
  have hparts := List.all_eq_true.1 hall c h
  refine of_decide_eq_true (List.all_eq_true.1 hparts p ?_)
  cases p with
  | zero | whole | fraction | exponent => decide
  | minus | point | exponentMark | exponentSign => cases hp

/-- A token that is not bare is complete with its last character. -/
theorem Token.Spells.closed {t : Token} {cs : List Char} (h : t.Spells cs) (ht : t.isBare = false) :
    Closed cs [t] := by
  cases h with
  | openBracket | closeBracket | openBrace | closeBrace | comma | colon => exact fun _ => rfl
  | @string cs hcs =>
    intro before
    show (cs ++ ['"']).foldlM Lexer.step ⟨before, .string []⟩ = _
    rw [List.foldlM_append, hcs.foldlM_step]
    show some (⟨.string (String.ofList (cs.reverse ++ []).reverse) :: before, .between⟩ : Lexer) = _
    rw [List.append_nil, List.reverse_reverse]
    rfl
  | nullWord | trueWord | falseWord | number _ => cases ht

/-- Any other token is complete at its end, or at a character that cannot be in it. -/
theorem Token.Spells.lexes {t : Token} {cs : List Char} (h : t.Spells cs) (before : List Token) :
    ∃ l, cs.foldlM Lexer.step ⟨before, .between⟩ = some l ∧ l.settle? = some (t :: before) ∧
      ∀ c, Delimits c → l.step c = Lexer.stepBetween (t :: before) c := by
  -- a word ends only where the next character is no letter, so the character after it settles it
  have hword : ∀ (word : String) (latest : List Char) (t : Token),
      word.toList.foldlM Lexer.step ⟨before, .between⟩ = some ⟨before, .word latest⟩ →
      Lexer.wordToken? latest = some t →
      ∃ l, word.toList.foldlM Lexer.step ⟨before, .between⟩ = some l ∧ l.settle? = some (t :: before) ∧
        ∀ c, Delimits c → l.step c = Lexer.stepBetween (t :: before) c := by
    intro word latest t hread htoken
    have hsettle : (⟨before, .word latest⟩ : Lexer).settle? = some (t :: before) := by
      simp only [Lexer.settle?, htoken]
      rfl
    refine ⟨_, hread, hsettle, fun c hc => ?_⟩
    simp only [Lexer.step, hc.isLower, hsettle]
    rfl
  cases h with
  | nullWord => exact hword _ ['l', 'l', 'u', 'n'] _ rfl (by decide)
  | trueWord => exact hword _ ['e', 'u', 'r', 't'] _ rfl (by decide)
  | falseWord => exact hword _ ['e', 's', 'l', 'a', 'f'] _ rfl (by decide)
  | number hnumber =>
    obtain ⟨p, hp, hbrings⟩ := hnumber.brings
    have hsettle : (⟨before, .number p cs.reverse⟩ : Lexer).settle? = some (.number (String.ofList cs) :: before) := by
      simp only [Lexer.settle?, hp, if_true, List.reverse_reverse]
    refine ⟨_, hbrings before, hsettle, fun c hc => ?_⟩
    simp only [Lexer.step, hc.next? hp, hsettle]
    rfl
  -- these tokens are settled by their last character
  | openBracket | closeBracket | openBrace | closeBrace | comma | colon => exact ⟨_, rfl, rfl, fun _ _ => rfl⟩
  | string hcs => exact ⟨_, Token.Spells.closed (.string hcs) rfl before, rfl, fun _ _ => rfl⟩

/-- Where no bare token begins, a character stands that ends one. -/
theorem IsLexed.delimits {c : Char} {cs all : List Char} {ts : List Token} (h : IsLexed all ts)
    (hts : ∀ t ∈ ts.head?, t.isBare = false) (hall : all = c :: cs) : Delimits c := by
  -- the characters are a variable, for a spelling in front of others is no constructor to split on
  cases h with
  | nil => cases hall
  | blank hblank _ =>
    obtain ⟨rfl, -⟩ := List.cons.inj hall
    rcases hblank with rfl | rfl | rfl | rfl <;> decide
  | token ht _ =>
    have hbare := hts _ rfl
    cases ht with
    | openBracket | closeBracket | openBrace | closeBrace | comma | colon | string _ =>
      obtain ⟨rfl, -⟩ := List.cons.inj hall
      decide
    | nullWord | trueWord | falseWord | number _ => cases hbare

/-- Tokens are read from wherever nothing is begun. -/
theorem IsLexed.foldlM_step {cs : List Char} {ts : List Token} (h : IsLexed cs ts) (hapart : Apart ts)
    (before : List Token) : ∃ l, cs.foldlM Lexer.step ⟨before, .between⟩ = some l ∧
      l.settle? = some (ts.reverse ++ before) := by
  -- the lexer may be inside of the last token at the end, so what it settles to is carried along
  induction h generalizing before with
  | nil => exact ⟨_, rfl, rfl⟩
  | @blank c cs ts hc _ ih =>
    have hstep : Lexer.stepBetween before c = some ⟨before, .between⟩ := if_pos hc
    obtain ⟨l, hl, hsettle⟩ := ih hapart before
    refine ⟨l, ?_, hsettle⟩
    show (Lexer.stepBetween before c).bind _ = _
    rw [hstep]
    exact hl
  | @token t spelling cs ts ht hcs ih =>
    obtain ⟨l, hl, hsettle⟩ := ih hapart.tail (t :: before)
    rw [List.reverse_cons, List.append_assoc]
    cases hbare : t.isBare with
    | false =>
      refine ⟨l, ?_, hsettle⟩
      rw [List.foldlM_append, ht.closed hbare before]
      exact hl
    | true =>
      obtain ⟨inside, hinside, hends, hnext⟩ := ht.lexes before
      rw [List.foldlM_append, hinside]
      show ∃ l, cs.foldlM Lexer.step inside = some l ∧ _
      cases hrest : cs with
      | nil =>
        -- the token ends with the text
        have hts : ts = [] := by
          rw [hrest] at hl
          obtain rfl := Option.some.inj hl
          have hself : t :: before = ts.reverse ++ (t :: before) := Option.some.inj hsettle
          exact List.reverse_eq_nil_iff.1 (List.self_eq_append_left.1 hself)
        exact ⟨inside, rfl, by rw [hts, hends]; rfl⟩
      | cons c rest =>
        -- the next character ends the token, and is then read as between tokens
        have hnone : ∀ u ∈ ts.head?, u.isBare = false := by
          intro u hu
          obtain ⟨us, rfl⟩ := List.head?_eq_some_iff.1 hu
          exact hapart.1 hbare
        refine ⟨l, ?_, hsettle⟩
        rw [List.foldlM_cons, hnext c (hcs.delimits hnone hrest)]
        rw [hrest] at hl
        exact hl

/-- The lexer reads tokens of which no two bare ones stand side by side. -/
theorem tokens?_of_isLexed {cs : List Char} {ts : List Token} (h : IsLexed cs ts) (hapart : Apart ts) :
    tokens? cs = some ts := by
  obtain ⟨l, hl, hsettle⟩ := h.foldlM_step hapart []
  rw [tokens?, Lexer.start, hl]
  show (l.settle?).bind _ = _
  rw [hsettle, List.append_nil]
  show some ts.reverse.reverse = some ts
  rw [List.reverse_reverse]

end CircuitBlocks.Json
