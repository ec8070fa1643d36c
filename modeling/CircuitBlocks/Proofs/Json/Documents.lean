import CircuitBlocks.Proofs.Json.Building
import CircuitBlocks.Proofs.Json.Grammar

/-!
# Documents — which texts are which documents

* `Json.ofTokens?_eq_some_iff` — the builder reads the tokens of a document, and nothing else.
* **`Json.parse?_eq_some_iff`** — a text is read as a document just if it is the document's tokens with blanks
  between.
* `IsDocument.exists_object` — a document that begins with a brace is an object.
-/

namespace CircuitBlocks.Json

/-! ## What the builder has read -/

/-- The tokens of an array or object up to a value in it that is not read yet. -/
def tokensOfOpen : Open → List Token
  | .array items => .openBracket :: items.reverse.flatMap fun v => tokens v ++ [.comma]
  | .object members name =>
    .openBrace :: (members.reverse.flatMap fun m => tokensOfMember m ++ [.comma]) ++ [.string name, .colon]

/-- The tokens of the arrays and objects around a value that is not read yet. -/
def tokensOfStack : List Open → List Token
  | [] => []
  | o :: stack => tokensOfStack stack ++ tokensOfOpen o

/-- The last of many items has no comma after it. -/
theorem joinTokens_concat {α : Type} (f : α → List Token) (xs : List α) (x : α) :
    joinTokens ((xs ++ [x]).map f) = xs.flatMap (fun y => f y ++ [.comma]) ++ f x := by
  induction xs with
  | nil => rfl
  | cons y ys ih =>
    rw [List.flatMap_cons, List.append_assoc, ← ih, List.append_assoc]
    cases ys <;> rfl

theorem tokens_array_reverse (v : Json) (items : List Json) :
    tokens (.array (v :: items).reverse) = tokensOfOpen (.array items) ++ tokens v ++ [.closeBracket] := by
  rw [tokens, tokensOfItems_eq_map, List.reverse_cons, joinTokens_concat, tokensOfOpen]
  simp

theorem tokens_object_reverse (name : String) (v : Json) (members : List (String × Json)) :
    tokens (.object ((name, v) :: members).reverse)
      = tokensOfOpen (.object members name) ++ tokens v ++ [.closeBrace] := by
  have hmembers : ∀ ms, tokensOfMembers ms = ms.map tokensOfMember := tokensOfMembers_eq_map
  rw [tokens, hmembers, List.reverse_cons, joinTokens_concat, tokensOfOpen]
  simp [tokensOfMember]

namespace Builder

variable {b b' : Builder} {stack : List Open} {t : Token} {ts us : List Token}

/-- The builder has read some tokens. -/
def HasRead (b : Builder) (ts : List Token) : Prop :=
  match b.awaiting with
  | .value => ts = tokensOfStack b.stack
  | .firstItem => ts = tokensOfStack b.stack ∧ ∃ stack, b.stack = .array [] :: stack
  | .firstName members => ts = tokensOfStack b.stack ++ [.openBrace] ∧ members = []
  | .name members => ts = tokensOfStack b.stack ++
      .openBrace :: members.reverse.flatMap fun m => tokensOfMember m ++ [.comma]
  -- the member is open as soon as its name is read, so a colon is missing
  | .colon => ts ++ [.colon] = tokensOfStack b.stack
  | .after v => ts = tokensOfStack b.stack ++ tokens v

/-- A token that begins a value is read where one is due. -/
theorem hasRead_stepValue (h : stepValue stack t = some b) : HasRead b (tokensOfStack stack ++ [t]) := by
  cases t with
  | null | bool _ | number _ | string _ =>
    obtain rfl := Option.some.inj h
    simp only [HasRead, tokens]
  | openBracket =>
    obtain rfl := Option.some.inj h
    exact ⟨rfl, stack, rfl⟩
  | openBrace =>
    obtain rfl := Option.some.inj h
    exact ⟨rfl, rfl⟩
  | closeBracket | closeBrace | comma | colon => cases h

/-- After a value, the token read is a comma or closes what is open. -/
theorem hasRead_stepAfter {v : Json} (h : stepAfter v stack t = some b) :
    HasRead b (tokensOfStack stack ++ tokens v ++ [t]) := by
  cases stack with
  | nil => cases h
  | cons o stack =>
    cases o with
    | array items =>
      cases t with
      | comma =>
        obtain rfl := Option.some.inj h
        simp [HasRead, tokensOfStack, tokensOfOpen]
      | closeBracket =>
        obtain rfl := Option.some.inj h
        simp only [HasRead, tokensOfStack]
        -- the array that is closed is a value, whose items were kept in reverse
        rw [tokens_array_reverse]
        simp
      | _ => cases h
    | object members name =>
      cases t with
      | comma =>
        obtain rfl := Option.some.inj h
        simp [HasRead, tokensOfStack, tokensOfOpen, tokensOfMember]
      | closeBrace =>
        obtain rfl := Option.some.inj h
        simp only [HasRead, tokensOfStack]
        rw [tokens_object_reverse]
        simp
      | _ => cases h

/-- In an array without items, the token read closes it or begins the first item. -/
theorem hasRead_stepFirstItem (h : (⟨.array [] :: stack, .firstItem⟩ : Builder).step t = some b) :
    HasRead b (tokensOfStack (.array [] :: stack) ++ [t]) := by
  by_cases ht : t = .closeBracket
  · subst ht
    obtain rfl := Option.some.inj h
    simp [HasRead, tokensOfStack, tokensOfOpen, tokens, tokensOfItems, joinTokens]
  · refine hasRead_stepValue ?_
    cases t with
    | closeBracket => exact absurd rfl ht
    | _ => exact h

/-- In an object without members, the token read closes it or names the first member. -/
theorem hasRead_stepFirstName (h : (⟨stack, .firstName []⟩ : Builder).step t = some b) :
    HasRead b (tokensOfStack stack ++ [.openBrace] ++ [t]) := by
  cases t with
  | string n =>
    obtain rfl := Option.some.inj h
    simp [HasRead, tokensOfStack, tokensOfOpen]
  | closeBrace =>
    obtain rfl := Option.some.inj h
    simp [HasRead, tokens, tokensOfMembers, joinTokens]
  | _ => cases h

/-- One token is read after those before. -/
theorem HasRead.step (h : HasRead b ts) (hstep : b.step t = some b') : HasRead b' (ts ++ [t]) := by
  -- what is awaited says which tokens may come, and how what is open goes on with each
  obtain ⟨stack, awaiting⟩ := b
  cases awaiting with
  | value =>
    obtain rfl := h
    exact hasRead_stepValue hstep
  | firstItem =>
    obtain ⟨rfl, rest, rfl⟩ := h
    exact hasRead_stepFirstItem hstep
  | firstName members =>
    obtain ⟨rfl, rfl⟩ := h
    exact hasRead_stepFirstName hstep
  | name members =>
    obtain rfl := h
    cases t with
    | string n =>
      obtain rfl := Option.some.inj hstep
      simp [HasRead, tokensOfStack, tokensOfOpen]
    | _ => cases hstep
  | colon =>
    simp only [Builder.step] at hstep
    split at hstep
    · next ht =>
      obtain rfl := Option.some.inj hstep
      rw [ht]
      exact h
    · cases hstep
  | after v =>
    obtain rfl := h
    exact hasRead_stepAfter hstep

/-- What was read before and after are read one after the other. -/
theorem HasRead.foldlM_step (h : HasRead b ts) (hb : us.foldlM Builder.step b = some b') :
    HasRead b' (ts ++ us) := by
  induction us generalizing b ts with
  | nil =>
    obtain rfl := Option.some.inj hb
    rwa [List.append_nil]
  | cons u us ih =>
    rw [List.foldlM_cons] at hb
    obtain ⟨next, hnext, hb⟩ := Option.bind_eq_some_iff.1 hb
    have hrest := ih (h.step hnext) hb
    rwa [List.append_assoc] at hrest

end Builder

/-- The builder makes a document of its tokens, and of no others. -/
theorem ofTokens?_eq_some_iff {ts : List Token} {v : Json} : ofTokens? ts = some v ↔ ts = tokens v := by
  constructor
  · intro h
    obtain ⟨b, hb, hresult⟩ := Option.bind_eq_some_iff.1 h
    have hread : Builder.HasRead b ts := @Builder.HasRead.foldlM_step .start b [] ts rfl hb
    obtain ⟨stack, awaiting⟩ := b
    -- a document is complete where nothing is open
    cases stack with
    | cons o stack => cases awaiting <;> cases hresult
    | nil =>
      cases awaiting with
      | after w =>
        obtain rfl := Option.some.inj hresult
        exact hread
      | _ => cases hresult
  · rintro rfl
    show ((tokens v).foldlM Builder.step Builder.start).bind Builder.result? = some v
    rw [Builder.start, (builds_tokens v).read []]
    rfl

/-! ## Bare tokens -/

/-- A token that is not bare keeps those on both sides of it apart. -/
theorem apart_append_cons {ts us : List Token} {t : Token} (ht : t.isBare = false) (hts : Apart ts)
    (hus : Apart us) : Apart (ts ++ t :: us) := by
  induction ts with
  | nil =>
    cases us with
    | nil => trivial
    | cons u us => exact ⟨fun h => absurd h (by rw [ht]; exact Bool.false_ne_true), hus⟩
  | cons s ss ih =>
    have hrest := ih hts.tail
    cases ss with
    | nil => exact ⟨fun _ => ht, hrest⟩
    | cons r rs => exact ⟨hts.1, hrest⟩

/-- Commas keep the items apart. -/
theorem apart_joinTokens {items : List (List Token)} (h : ∀ ts ∈ items, Apart ts) : Apart (joinTokens items) := by
  induction items with
  | nil => trivial
  | cons ts rest ih =>
    cases rest with
    | nil => exact h ts List.mem_cons_self
    | cons us rest =>
      exact apart_append_cons rfl (h ts List.mem_cons_self) (ih fun vs hvs => h vs (List.mem_cons_of_mem _ hvs))

theorem apart_delimited {opening closing : Token} (hopening : opening.isBare = false)
    (hclosing : closing.isBare = false) {ts : List Token} (h : Apart ts) : Apart (opening :: ts ++ [closing]) :=
  @apart_append_cons (opening :: ts) [] closing hclosing (@apart_append_cons [] ts opening hopening trivial h) trivial

mutual

/-- In a document, a delimiter stands between any two numbers or words. -/
theorem apart_tokens : ∀ v : Json, Apart (tokens v)
  | .null | .bool _ | .number _ | .string _ => by
    rw [tokens]
    trivial
  | .array items => by
    rw [tokens, tokensOfItems_eq_map]
    exact apart_delimited rfl rfl (apart_joinTokens (List.forall_mem_map.2 (apart_tokens_items items)))
  | .object members => by
    rw [tokens, tokensOfMembers_eq_map]
    exact apart_delimited rfl rfl (apart_joinTokens (List.forall_mem_map.2 (apart_tokens_members members)))

theorem apart_tokens_items : ∀ items : List Json, ∀ v ∈ items, Apart (tokens v)
  | [] => List.forall_mem_nil _
  | v :: vs => List.forall_mem_cons.2 ⟨apart_tokens v, apart_tokens_items vs⟩

theorem apart_tokens_members : ∀ members : List (String × Json), ∀ m ∈ members,
    Apart (.string m.1 :: .colon :: tokens m.2)
  | [] => List.forall_mem_nil _
  | (name, v) :: ms => List.forall_mem_cons.2
    ⟨@apart_append_cons [.string name] _ .colon rfl trivial (apart_tokens v), apart_tokens_members ms⟩

end

/-! ## Texts -/

/-- The characters are a document: its tokens, with blanks between. -/
def IsDocument (cs : List Char) (v : Json) : Prop := IsLexed cs (tokens v)

/-- A text is read as a document just if it is that document. -/
theorem parse?_eq_some_iff {s : String} {v : Json} : parse? s = some v ↔ IsDocument s.toList v := by
  constructor
  · intro h
    obtain ⟨ts, hts, hv⟩ := Option.bind_eq_some_iff.1 h
    obtain rfl := ofTokens?_eq_some_iff.1 hv
    exact isLexed_of_tokens? hts
  · intro h
    show (tokens? s.toList).bind ofTokens? = some v
    rw [tokens?_of_isLexed h (apart_tokens v)]
    exact ofTokens?_eq_some_iff.2 rfl

theorem IsWhole.exists_cons {cs : List Char} (h : IsWhole cs) : ∃ c rest, cs = c :: rest ∧ c.isDigit = true := by
  cases h with
  | zero => exact ⟨'0', [], rfl, rfl⟩
  | @digits d ds _ hds => exact ⟨d, ds, rfl, hds.2 d List.mem_cons_self⟩

theorem IsInteger.exists_cons {cs : List Char} (h : IsInteger cs) :
    ∃ c rest, cs = c :: rest ∧ (c = '-' ∨ c.isDigit = true) := by
  cases h with
  | positive h =>
    obtain ⟨c, rest, hc, hdigit⟩ := h.exists_cons
    exact ⟨c, rest, hc, .inr hdigit⟩
  | @negative cs h => exact ⟨'-', cs, rfl, .inl rfl⟩

theorem IsDecimal.exists_cons {cs : List Char} (h : IsDecimal cs) :
    ∃ c rest, cs = c :: rest ∧ (c = '-' ∨ c.isDigit = true) := by
  cases h with
  | integer h => exact h.exists_cons
  | fraction h _ =>
    obtain ⟨c, rest, rfl, hc⟩ := h.exists_cons
    exact ⟨c, _, rfl, hc⟩

/-- A number begins with a minus sign or a digit. -/
theorem IsNumber.exists_cons {cs : List Char} (h : IsNumber cs) :
    ∃ c rest, cs = c :: rest ∧ (c = '-' ∨ c.isDigit = true) := by
  cases h with
  | decimal h => exact h.exists_cons
  | exponent h _ _ | signedExponent h _ _ _ =>
    obtain ⟨c, rest, rfl, hc⟩ := h.exists_cons
    exact ⟨c, _, rfl, hc⟩

/-- Only one token begins with a brace that opens. -/
theorem Token.Spells.eq_openBrace {t : Token} {spelling more rest : List Char} (h : t.Spells spelling)
    (hbrace : spelling ++ more = '\x7b' :: rest) : t = .openBrace := by
  cases h with
  | openBrace => rfl
  | number h =>
    obtain ⟨c, cs, rfl, hc⟩ := h.exists_cons
    obtain ⟨rfl, -⟩ := List.cons.inj hbrace
    rcases hc with hc | hc <;> cases hc
  | openBracket | closeBracket | closeBrace | comma | colon | nullWord | trueWord | falseWord | string _ =>
    cases hbrace

/-- A document that begins with a brace is an object. -/
theorem IsDocument.exists_object {cs rest : List Char} {v : Json} (h : IsDocument cs v)
    (hcs : cs = '\x7b' :: rest) : ∃ members, v = .object members := by
  -- the tokens are a variable here, for those of a document are no constructor to split on
  have hfirst : ∀ {ts : List Token}, IsLexed cs ts → ∃ us, ts = .openBrace :: us := by
    intro ts hlexed
    cases hlexed with
    | nil => cases hcs
    | blank hblank _ =>
      obtain ⟨rfl, -⟩ := List.cons.inj hcs
      rcases hblank with hc | hc | hc | hc <;> cases hc
    | token ht _ => exact ⟨_, by rw [ht.eq_openBrace hcs]⟩
  obtain ⟨us, hus⟩ := hfirst h
  cases v with
  | object members => exact ⟨members, rfl⟩
  | null | bool _ | number _ | string _ | array _ =>
    rw [tokens] at hus
    cases hus

/-- An object begins with a brace, unless blanks stand in front. -/
theorem IsDocument.exists_cons {cs : List Char} {members : List (String × Json)}
    (h : IsDocument cs (.object members)) (hfirst : ∀ c ∈ cs.head?, ¬ IsBlank c) : ∃ rest, cs = '\x7b' :: rest := by
  have hbrace : ∀ {ts us : List Token}, IsLexed cs ts → ts = .openBrace :: us → ∃ rest, cs = '\x7b' :: rest := by
    intro ts us hlexed hts
    cases hlexed with
    | nil => cases hts
    | blank hblank _ => exact absurd hblank (hfirst _ rfl)
    | token ht _ =>
      obtain ⟨rfl, -⟩ := List.cons.inj hts
      cases ht
      exact ⟨_, rfl⟩
  rw [IsDocument, tokens] at h
  exact hbrace h rfl

end CircuitBlocks.Json
