import CircuitBlocks.Json.Parser
import CircuitBlocks.Json.Printer
import CircuitBlocks.Proofs.Json.Spelling

/-!
# Lexing — the tokens of a written document

A number or a word ends only when the next character is seen. Characters are therefore read in one of
two ways: `Closed` characters leave the lexer between tokens, and what `Lexes` is complete once a
character that ends it follows, or nothing does.

* `Json.tokens` — the tokens of a document.
* `Json.Spelled` — the documents whose strings and numbers are spelled as the lexer reads them.
* **`Json.tokens?_pretty`** — an indented document lexes to its tokens.
-/

namespace CircuitBlocks.Json

/-! ## Tokens of documents -/

/-- Lists of tokens with commas between. -/
def joinTokens : List (List Token) → List Token
  | [] => []
  | [x] => x
  | x :: y :: rest => x ++ .comma :: joinTokens (y :: rest)

mutual

/-- The tokens of a document. -/
def tokens : Json → List Token
  | .null => [.null]
  | .bool b => [.bool b]
  | .number n => [.number n]
  | .string s => [.string s]
  | .array items => .openBracket :: joinTokens (tokensOfItems items) ++ [.closeBracket]
  | .object members => .openBrace :: joinTokens (tokensOfMembers members) ++ [.closeBrace]

/-- The tokens of each item. -/
def tokensOfItems : List Json → List (List Token)
  | [] => []
  | v :: vs => tokens v :: tokensOfItems vs

/-- The tokens of each member. -/
def tokensOfMembers : List (String × Json) → List (List Token)
  | [] => []
  | (name, v) :: ms => (.string name :: .colon :: tokens v) :: tokensOfMembers ms

end

/-! ## Reading characters -/

/-- The characters that end a number or a word where they stand. -/
def IsEnd (c : Char) : Prop := c ∈ [',', ']', '\x7d', '\n']

instance (c : Char) : Decidable (IsEnd c) := inferInstanceAs (Decidable (c ∈ _))

/-- Characters that are read as tokens, with nothing begun after them. -/
def Closed (cs : List Char) (ts : List Token) : Prop :=
  ∀ before, cs.foldlM Lexer.step ⟨before, .between⟩ = some ⟨ts.reverse ++ before, .between⟩

/-- Characters that are read as tokens once they end. -/
def Lexes (cs : List Char) (ts : List Token) : Prop :=
  ∀ before, ∃ l, cs.foldlM Lexer.step ⟨before, .between⟩ = some l ∧
    l.settle? = some (ts.reverse ++ before) ∧
    ∀ c, IsEnd c → l.step c = Lexer.stepBetween (ts.reverse ++ before) c

theorem Closed.lexes {cs : List Char} {ts : List Token} (h : Closed cs ts) : Lexes cs ts :=
  fun before => ⟨_, h before, rfl, fun _ _ => rfl⟩

theorem Closed.nil : Closed [] [] := fun _ => rfl

/-- Texts that close their tokens are read one after another. -/
theorem Closed.append {cs ds : List Char} {ts us : List Token} (hc : Closed cs ts)
    (hd : Closed ds us) : Closed (cs ++ ds) (ts ++ us) := by
  intro before
  rw [List.foldlM_append, hc before]
  show ds.foldlM Lexer.step ⟨ts.reverse ++ before, .between⟩ = _
  rw [hd, List.reverse_append, List.append_assoc]

/-- A character that is a token by itself. -/
theorem Closed.single {c : Char} {t : Token}
    (h : ∀ before, Lexer.stepBetween before c = some ⟨t :: before, .between⟩) : Closed [c] [t] := by
  intro before
  show (Lexer.stepBetween before c).bind _ = _
  rw [h]
  rfl

theorem Closed.cons {c : Char} {t : Token} {cs : List Char} {ts : List Token}
    (h : ∀ before, Lexer.stepBetween before c = some ⟨t :: before, .between⟩) (hcs : Closed cs ts) :
    Closed (c :: cs) (t :: ts) := (Closed.single h).append hcs

/-- What follows a text that closes its tokens is read as by itself. -/
theorem Closed.append_lexes {cs ds : List Char} {ts us : List Token} (hc : Closed cs ts)
    (hd : Lexes ds us) : Lexes (cs ++ ds) (ts ++ us) := by
  intro before
  obtain ⟨l, hl, hsettle, hend⟩ := hd (ts.reverse ++ before)
  refine ⟨l, ?_, ?_, ?_⟩
  · rw [List.foldlM_append, hc before]
    exact hl
  · rw [hsettle, List.reverse_append, List.append_assoc]
  · intro c hc
    rw [hend c hc, List.reverse_append, List.append_assoc]

/-- What follows ends what was begun. -/
theorem Lexes.append_closed {cs ds : List Char} {ts us : List Token} {c : Char} (hc : Lexes cs ts)
    (hend : IsEnd c) (hd : Closed (c :: ds) us) : Closed (cs ++ c :: ds) (ts ++ us) := by
  intro before
  obtain ⟨l, hl, -, hstep⟩ := hc before
  -- the character that ends what was begun is then read as between tokens
  have hbetween : (c :: ds).foldlM Lexer.step l
      = (c :: ds).foldlM Lexer.step ⟨ts.reverse ++ before, .between⟩ := by
    show (l.step c).bind _ = (Lexer.stepBetween (ts.reverse ++ before) c).bind _
    rw [hstep c hend]
  rw [List.foldlM_append, hl]
  show (c :: ds).foldlM Lexer.step l = _
  rw [hbetween, hd, List.reverse_append, List.append_assoc]

/-- Blanks are no tokens. -/
theorem closed_newLine (depth : Nat) : Closed (newLine depth) [] := by
  have hblanks : ∀ count, Closed (List.replicate count ' ') [] := by
    intro count
    induction count with
    | zero => exact Closed.nil
    | succ count ih =>
      intro before
      exact ih before
  intro before
  exact hblanks (2 * depth) before

/-! ## Strings -/

/-- Characters that are read inside of a string. -/
def SpelledString (s : String) : Prop :=
  ∀ before latest, s.toList.foldlM Lexer.step ⟨before, .string latest⟩
    = some ⟨before, .string (s.toList.reverse ++ latest)⟩

/-- A text in quotes closes with the second one. -/
theorem SpelledString.closed {s : String} (h : SpelledString s) : Closed (quoted s) [.string s] := by
  intro before
  show (s.toList ++ ['"']).foldlM Lexer.step ⟨before, .string []⟩ = _
  rw [List.foldlM_append, h before []]
  show Lexer.emit before (.string (String.ofList (s.toList.reverse ++ []).reverse)) = _
  rw [List.append_nil, List.reverse_reverse, String.ofList_toList]
  rfl

theorem isSome_digit?_digit {n : Nat} (h : n < 16) : (Hex.digit? (Hex.digit n)).isNone = false := by
  rw [Hex.digit?_digit h]
  rfl

/-- Inside a string, what a character is written as is read to its end. -/
theorem foldlM_escapeChar (c : Char) (before : List Token) (latest : List Char) :
    (escapeChar c).foldlM Lexer.step ⟨before, .string latest⟩
      = some ⟨before, .string ((escapeChar c).reverse ++ latest)⟩ := by
  -- a short escape, an escape by number, or the character itself
  rcases escapeChar_cases c with ⟨e, hc, hu, hlookup⟩ | ⟨hcontrol, hc⟩ | ⟨hc, hquote, hslash, hge⟩
  · rw [hc]
    show (Lexer.step ⟨before, .escape ('\\' :: latest)⟩ e).bind some = _
    rw [Lexer.step]
    simp only [hu, hlookup, if_false, Option.isSome_some, if_true]
    rfl
  · have hhigh := isSome_digit?_digit (n := c.toNat / 16) (by omega)
    have hlow := isSome_digit?_digit (n := c.toNat % 16) (by omega)
    rw [hc]
    show ((Lexer.step ⟨before, .unicode 2 ('0' :: '0' :: 'u' :: '\\' :: latest)⟩
      (Hex.digit (c.toNat / 16))).bind fun l => (l.step (Hex.digit (c.toNat % 16))).bind some) = _
    simp only [Lexer.step, hhigh]
    show (Lexer.step ⟨before, .unicode 1 (_ :: _)⟩ (Hex.digit (c.toNat % 16))).bind some = _
    simp only [Lexer.step, hlow]
    rfl
  · rw [hc]
    show (Lexer.step ⟨before, .string latest⟩ c).bind some = _
    rw [Lexer.step]
    simp only [hquote, hslash, Nat.not_lt.2 hge, if_false]
    rfl

/-- A spelled text is read inside of a string. -/
theorem spelledString_escape (s : String) : SpelledString (escape s) := by
  -- what was read is kept in reverse, so it is generalised over
  have hall : ∀ cs : List Char, ∀ before latest,
      (cs.flatMap escapeChar).foldlM Lexer.step ⟨before, .string latest⟩
        = some ⟨before, .string ((cs.flatMap escapeChar).reverse ++ latest)⟩ := by
    intro cs
    induction cs with
    | nil => exact fun _ _ => rfl
    | cons c cs ih =>
      intro before latest
      rw [List.flatMap_cons, List.foldlM_append, foldlM_escapeChar]
      show (cs.flatMap escapeChar).foldlM Lexer.step ⟨before, .string _⟩ = _
      rw [ih, List.reverse_append, List.append_assoc]
  intro before latest
  rw [escape, String.toList_ofList]
  exact hall s.toList before latest

/-! ## Words and numbers -/

/-- A word ends at each character that may follow a value. -/
theorem lexes_word {word : String} (latest : List Char) {t : Token}
    (hread : ∀ before, word.toList.foldlM Lexer.step ⟨before, .between⟩ = some ⟨before, .word latest⟩)
    (htoken : Lexer.wordToken? latest = some t) : Lexes word.toList [t] := by
  intro before
  have hsettle : (⟨before, .word latest⟩ : Lexer).settle? = some (t :: before) := by
    rw [Lexer.settle?]
    simp only [htoken]
    rfl
  refine ⟨_, hread before, hsettle, fun c hc => ?_⟩
  -- no character that may follow is a letter, so the word is over
  have hlower : c.isLower = false := by
    rcases List.mem_cons.1 hc with rfl | hc
    · decide
    · rcases List.mem_cons.1 hc with rfl | hc
      · decide
      · rcases List.mem_cons.1 hc with rfl | hc
        · decide
        · rw [List.mem_singleton.1 hc]
          decide
  show (if c.isLower then some _ else (Lexer.settle? ⟨before, .word latest⟩).bind fun ts =>
    Lexer.stepBetween ts c) = _
  rw [hlower, hsettle]
  rfl

/-- A number that is read as a token. -/
def SpelledNumber (n : String) : Prop := Lexes n.toList [.number n]

/-- A number ends at each character that may follow a value. -/
theorem next?_eq_none {part : NumberPart} (hpart : part = .zero ∨ part = .whole) {c : Char}
    (hc : IsEnd c) : part.next? c = none := by
  have hall : ∀ c ∈ [',', ']', '\x7d', '\n'],
      NumberPart.next? .zero c = none ∧ NumberPart.next? .whole c = none := by
    simp only [List.forall_mem_cons]
    exact ⟨⟨rfl, rfl⟩, ⟨rfl, rfl⟩, ⟨rfl, rfl⟩, ⟨rfl, rfl⟩, fun _ h => nomatch h⟩
  rcases hpart with rfl | rfl
  · exact (hall c hc).1
  · exact (hall c hc).2

/-- A number is spelled by characters that are read as one until the text goes on with another thing. -/
theorem lexes_number {cs : List Char} (part : NumberPart) (latest : List Char)
    (hpart : part = .zero ∨ part = .whole) (hlatest : latest.reverse = cs)
    (hread : ∀ before, cs.foldlM Lexer.step ⟨before, .between⟩ = some ⟨before, .number part latest⟩) :
    SpelledNumber (String.ofList cs) := by
  intro before
  have hcomplete : part.complete = true := by
    rcases hpart with rfl | rfl <;> rfl
  -- a zero and a whole number may both end here
  have hsettle : (⟨before, .number part latest⟩ : Lexer).settle?
      = some (.number (String.ofList cs) :: before) := by
    rw [Lexer.settle?]
    simp only [hcomplete, if_true, hlatest]
  refine ⟨⟨before, .number part latest⟩, ?_, hsettle, fun c hc => ?_⟩
  · rw [String.toList_ofList]
    exact hread before
  · rw [Lexer.step]
    simp only [next?_eq_none hpart hc, hsettle]
    rfl

theorem ne_of_isDigit {c d : Char} (hc : c.isDigit = true) (hd : d.isDigit = false) : c ≠ d := by
  rintro rfl
  rw [hc] at hd
  cases hd

/-- Digits are added to a number that is being read. -/
theorem foldlM_digits {ds : List Char} (hds : ∀ d ∈ ds, d.isDigit = true) (before : List Token)
    (latest : List Char) : ds.foldlM Lexer.step ⟨before, .number .whole latest⟩
      = some ⟨before, .number .whole (ds.reverse ++ latest)⟩ := by
  induction ds generalizing latest with
  | nil => rfl
  | cons d ds ih =>
    have hnext : NumberPart.next? .whole d = some .whole := by
      simp only [NumberPart.next?, hds d List.mem_cons_self, if_true]
    have hstep : Lexer.step ⟨before, .number .whole latest⟩ d
        = some ⟨before, .number .whole (d :: latest)⟩ := by
      rw [Lexer.step]
      simp only [hnext]
    rw [List.foldlM_cons, hstep]
    show ds.foldlM Lexer.step ⟨before, .number .whole (d :: latest)⟩ = _
    rw [ih fun x hx => hds x (List.mem_cons_of_mem _ hx), List.reverse_cons, List.append_assoc]
    rfl

/-- A digit other than zero begins a number that goes on with any digits. -/
theorem stepBetween_digit {d : Char} (hd : d.isDigit = true) (hzero : d ≠ '0') (before : List Token) :
    Lexer.stepBetween before d = some ⟨before, .number .whole [d]⟩ := by
  -- none of the tests before the one for digits holds of a digit
  rw [Lexer.stepBetween, if_neg, if_neg, if_neg, if_neg, if_neg, if_neg, if_neg, if_neg, if_neg,
    if_neg hzero, if_pos hd]
  · exact ne_of_isDigit hd (by decide)
  · exact ne_of_isDigit hd (by decide)
  · exact ne_of_isDigit hd (by decide)
  · exact ne_of_isDigit hd (by decide)
  · exact ne_of_isDigit hd (by decide)
  · exact ne_of_isDigit hd (by decide)
  · exact ne_of_isDigit hd (by decide)
  · exact ne_of_isDigit hd (by decide)
  · rintro (h | h | h | h)
    · exact ne_of_isDigit hd (by decide) h
    · exact ne_of_isDigit hd (by decide) h
    · exact ne_of_isDigit hd (by decide) h
    · exact ne_of_isDigit hd (by decide) h

/-- A spelled natural is read as a token. -/
theorem spelledNumber_toDigits (n : Nat) : SpelledNumber (String.ofList (Nat.toDigits 10 n)) := by
  rcases Nat.eq_zero_or_pos n with rfl | hn
  · exact lexes_number .zero ['0'] (.inl rfl) rfl fun _ => rfl
  · cases hds : Nat.toDigits 10 n with
    | nil => exact absurd hds Nat.toDigits_ne_nil
    | cons d ds =>
      have hdigit : ∀ c ∈ d :: ds, c.isDigit = true := by
        intro c hc
        rw [← hds] at hc
        exact Nat.isDigit_of_mem_toDigits (by decide) (by decide) hc
      -- a zero at the front would end the number
      have hzero : d ≠ '0' := by
        intro h
        have hhead := head?_toDigits_ne_zero hn
        rw [hds, h] at hhead
        exact hhead rfl
      refine lexes_number .whole (ds.reverse ++ [d]) (.inr rfl) ?_ ?_
      · rw [List.reverse_append, List.reverse_reverse]
        rfl
      · intro before
        rw [List.foldlM_cons]
        show (Lexer.stepBetween before d).bind _ = _
        rw [stepBetween_digit (hdigit d List.mem_cons_self) hzero]
        exact foldlM_digits (fun x hx => hdigit x (List.mem_cons_of_mem _ hx)) before [d]

/-! ## Documents -/

/-- The documents whose strings and numbers are spelled as they are read. -/
inductive Spelled : Json → Prop where
  | null : Spelled .null
  | bool (b : Bool) : Spelled (.bool b)
  | number {n : String} (h : SpelledNumber n) : Spelled (.number n)
  | string {s : String} (h : SpelledString s) : Spelled (.string s)
  | array {items : List Json} (h : ∀ v ∈ items, Spelled v) : Spelled (.array items)
  | object {members : List (String × Json)} (hnames : ∀ m ∈ members, SpelledString m.1)
      (hvalues : ∀ m ∈ members, Spelled m.2) : Spelled (.object members)

theorem spelled_text (s : String) : Spelled (text s) := .string (spelledString_escape s)

theorem spelled_natural (n : Nat) : Spelled (natural n) := .number (spelledNumber_toDigits n)

/-- A record is spelled as soon as its values are: the names of fields need no escape. -/
theorem spelled_record {members : List (String × Json)} (h : ∀ m ∈ members, Spelled m.2) :
    Spelled (record members) := by
  refine .object ?_ ?_
  · intro m hm
    obtain ⟨m', -, rfl⟩ := List.mem_map.1 hm
    exact spelledString_escape m'.1
  · intro m hm
    obtain ⟨m', hm', rfl⟩ := List.mem_map.1 hm
    exact h m' hm'

/-- Items that lex, with a separator between that is read as a comma. -/
theorem lexes_joinChars {α : Type} {sep : List Char} (hsep : Closed (',' :: sep) [.comma])
    {items : List α} {chars : α → List Char} {toks : α → List Token}
    (h : ∀ x ∈ items, Lexes (chars x) (toks x)) (hne : items ≠ []) :
    Lexes (joinChars (',' :: sep) (items.map chars)) (joinTokens (items.map toks)) := by
  induction items with
  | nil => exact absurd rfl hne
  | cons x xs ih =>
    cases xs with
    | nil => exact h x List.mem_cons_self
    | cons y ys =>
      -- the comma closes the first item, so the others begin afresh
      have hfirst := (h x List.mem_cons_self).append_closed (by decide) hsep
      have hjoined := hfirst.append_lexes
        (ih (fun z hz => h z (List.mem_cons_of_mem _ hz)) (List.cons_ne_nil _ _))
      rw [List.append_assoc _ [Token.comma]] at hjoined
      exact hjoined

/-- Items between two delimiters that are tokens. -/
theorem closed_block {α : Type} {left right : Char} {opening closing : Token}
    (hleft : ∀ before, Lexer.stepBetween before left = some ⟨opening :: before, .between⟩)
    (hright : ∀ before, Lexer.stepBetween before right = some ⟨closing :: before, .between⟩)
    (depth : Nat) {items : List α} {chars : α → List Char} {toks : α → List Token}
    (h : ∀ x ∈ items, Lexes (chars x) (toks x)) :
    Closed (block depth left right (items.map chars))
      (opening :: joinTokens (items.map toks) ++ [closing]) := by
  cases hitems : items with
  | nil =>
    -- an empty block has no lines of its own
    exact Closed.cons hleft (Closed.single hright)
  | cons x xs =>
    have hne : items ≠ [] := by
      rw [hitems]
      exact List.cons_ne_nil _ _
    have hcomma : Closed (',' :: newLine (depth + 1)) [.comma] :=
      Closed.cons (fun _ => rfl) (closed_newLine (depth + 1))
    have hend : Closed (newLine depth ++ [right]) [closing] :=
      (closed_newLine depth).append (Closed.single hright)
    have hjoined : Closed (joinChars (',' :: newLine (depth + 1)) (items.map chars) ++
        (newLine depth ++ [right])) (joinTokens (items.map toks) ++ [closing]) :=
      (lexes_joinChars hcomma h hne).append_closed (by decide) hend
    have hbegin : Closed (left :: newLine (depth + 1)) [opening] :=
      Closed.cons hleft (closed_newLine (depth + 1))
    have hall := hbegin.append hjoined
    rw [← hitems, block, if_neg (fun hnil => hne (List.map_eq_nil_iff.1 hnil)),
      List.append_assoc, List.append_assoc]
    exact hall

theorem prettyItems_eq_map (depth : Nat) (items : List Json) :
    prettyItems depth items = items.map (prettyChars depth) := by
  induction items with
  | nil => rfl
  | cons v vs ih => rw [prettyItems, ih, List.map_cons]

theorem prettyMembers_eq_map (depth : Nat) (members : List (String × Json)) :
    prettyMembers depth members
      = members.map fun m => quoted m.1 ++ ':' :: ' ' :: prettyChars depth m.2 := by
  induction members with
  | nil => rfl
  | cons m ms ih => rw [prettyMembers, ih, List.map_cons]

theorem tokensOfItems_eq_map (items : List Json) : tokensOfItems items = items.map tokens := by
  induction items with
  | nil => rfl
  | cons v vs ih => rw [tokensOfItems, ih, List.map_cons]

theorem tokensOfMembers_eq_map (members : List (String × Json)) :
    tokensOfMembers members = members.map fun m => .string m.1 :: .colon :: tokens m.2 := by
  induction members with
  | nil => rfl
  | cons m ms ih => rw [tokensOfMembers, ih, List.map_cons]

/-- An indented document is read as its tokens. -/
theorem lexes_prettyChars {v : Json} (h : Spelled v) : ∀ depth, Lexes (prettyChars depth v) (tokens v) := by
  -- only brackets and braces depend on the depth
  induction h with
  | null =>
    intro depth
    rw [prettyChars, tokens]
    exact lexes_word ['l', 'l', 'u', 'n'] (fun _ => rfl) (by decide)
  | bool b =>
    intro depth
    rw [prettyChars, tokens]
    cases b with
    | true => exact lexes_word ['e', 'u', 'r', 't'] (fun _ => rfl) (by decide)
    | false => exact lexes_word ['e', 's', 'l', 'a', 'f'] (fun _ => rfl) (by decide)
  | number hn =>
    intro depth
    rw [prettyChars, tokens]
    exact hn
  | string hs =>
    intro depth
    rw [prettyChars, tokens]
    exact hs.closed.lexes
  | array _ ih =>
    intro depth
    rw [prettyChars, tokens, prettyItems_eq_map, tokensOfItems_eq_map]
    exact (closed_block (fun _ => rfl) (fun _ => rfl) depth fun v hv => ih v hv (depth + 1)).lexes
  | object hnames _ ih =>
    intro depth
    rw [prettyChars, tokens, prettyMembers_eq_map, tokensOfMembers_eq_map]
    refine (closed_block (fun _ => rfl) (fun _ => rfl) depth fun m hm => ?_).lexes
    have hcolon : Closed [':', ' '] [.colon] := fun _ => rfl
    have hvalue := hcolon.append_lexes (ih m hm (depth + 1))
    exact (hnames m hm).closed.append_lexes hvalue

/-- An indented document lexes to its tokens. -/
theorem tokens?_pretty {v : Json} (h : Spelled v) : tokens? (pretty v).toList = some (tokens v) := by
  obtain ⟨l, hl, hsettle, -⟩ := lexes_prettyChars h 0 []
  rw [tokens?, pretty, String.toList_ofList, Lexer.start, hl]
  show (l.settle?).bind _ = _
  rw [hsettle, List.append_nil]
  show some (tokens v).reverse.reverse = some (tokens v)
  rw [List.reverse_reverse]

end CircuitBlocks.Json
