import CircuitBlocks.Proofs.Json.Lexing

/-!
# Building — a written document reads back

The builder keeps the arrays and objects around a value on its stack, so what it makes of the tokens of
a value does not depend on the stack below.

* `Json.Builds` — tokens that are read as a value wherever one may stand.
* **`Json.parse?_pretty`** — an indented document is read as that document.
-/

namespace CircuitBlocks.Json

/-- Tokens that are read as a value wherever one may stand, also as the first item of an array. -/
structure Builds (ts : List Token) (v : Json) : Prop where
  read : ∀ stack, ts.foldlM Builder.step ⟨stack, .value⟩ = some ⟨stack, .after v⟩
  first : ∃ t rest, ts = t :: rest ∧ t ≠ .closeBracket

/-- A value that is one token. -/
theorem Builds.single {t : Token} {v : Json} (h : ∀ stack, Builder.stepValue stack t
    = some ⟨stack, .after v⟩) : Builds [t] v := by
  refine ⟨fun stack => ?_, t, [], rfl, ?_⟩
  · show (Builder.stepValue stack t).bind some = _
    rw [h]
    rfl
  · rintro rfl
    exact nomatch h []

/-! ## Arrays -/

/-- Items with commas between are read one after another, to the end of the array. -/
theorem foldlM_items {items : List Json} (h : ∀ v ∈ items, Builds (tokens v) v) (hne : items ≠ [])
    (before : List Json) (stack : List Open) :
    (joinTokens (items.map tokens) ++ [Token.closeBracket]).foldlM Builder.step
        ⟨.array before :: stack, .value⟩
      = some ⟨stack, .after (.array (before.reverse ++ items))⟩ := by
  -- the items that were read are on the stack, so they are generalised over
  induction items generalizing before with
  | nil => exact absurd rfl hne
  | cons v vs ih =>
    have hv := (h v List.mem_cons_self).read (.array before :: stack)
    cases vs with
    | nil =>
      show (tokens v ++ [Token.closeBracket]).foldlM Builder.step _ = _
      rw [List.foldlM_append, hv]
      show some (⟨stack, .after (.array (v :: before).reverse)⟩ : Builder) = _
      rw [List.reverse_cons]
    | cons w ws =>
      have hrest := ih (fun x hx => h x (List.mem_cons_of_mem _ hx)) (List.cons_ne_nil _ _)
        (v :: before)
      show (tokens v ++ Token.comma :: joinTokens ((w :: ws).map tokens) ++ [Token.closeBracket]).foldlM
        Builder.step _ = _
      rw [List.append_assoc, List.foldlM_append, hv]
      show (joinTokens ((w :: ws).map tokens) ++ [Token.closeBracket]).foldlM Builder.step
        ⟨.array (v :: before) :: stack, .value⟩ = _
      rw [hrest, List.reverse_cons, List.append_assoc]
      rfl

/-- An array is built from its items. -/
theorem builds_array {items : List Json} (h : ∀ v ∈ items, Builds (tokens v) v) :
    Builds (tokens (.array items)) (.array items) := by
  rw [tokens, tokensOfItems_eq_map]
  refine ⟨fun stack => ?_, .openBracket, _, rfl, by rintro ⟨⟩⟩
  show (joinTokens (items.map tokens) ++ [Token.closeBracket]).foldlM Builder.step
    ⟨.array [] :: stack, .firstItem⟩ = _
  cases items with
  | nil => rfl
  | cons v vs =>
    -- the first token ends no array, so it is read as one of a value
    obtain ⟨t, rest, htokens, ht⟩ := (h v List.mem_cons_self).first
    have hfirst : ∃ more, joinTokens ((v :: vs).map tokens) ++ [Token.closeBracket] = t :: more := by
      cases vs with
      | nil => exact ⟨rest ++ [Token.closeBracket], by rw [List.map_cons, htokens]; rfl⟩
      | cons w ws =>
        exact ⟨rest ++ Token.comma :: joinTokens ((w :: ws).map tokens) ++ [Token.closeBracket],
          by rw [List.map_cons, htokens]; rfl⟩
    have hitems := foldlM_items h (List.cons_ne_nil _ _) [] stack
    obtain ⟨more, hmore⟩ := hfirst
    rw [hmore] at hitems ⊢
    have hstep : Builder.step ⟨.array [] :: stack, .firstItem⟩ t
        = Builder.step ⟨.array [] :: stack, .value⟩ t := by
      cases t <;> first | rfl | exact absurd rfl ht
    rw [List.foldlM_cons, hstep, ← List.foldlM_cons, hitems]
    rfl

/-! ## Objects -/

/-- The tokens of a member: its name and its value. -/
def tokensOfMember (m : String × Json) : List Token := .string m.1 :: .colon :: tokens m.2

/-- Members with commas between are read one after another, to the end of the object. -/
theorem foldlM_members {members : List (String × Json)}
    (h : ∀ m ∈ members, Builds (tokens m.2) m.2) (hne : members ≠ [])
    (before : List (String × Json)) (stack : List Open) :
    (joinTokens (members.map tokensOfMember) ++ [Token.closeBrace]).foldlM Builder.step
        ⟨stack, .name before⟩
      = some ⟨stack, .after (.object (before.reverse ++ members))⟩ := by
  induction members generalizing before with
  | nil => exact absurd rfl hne
  | cons m ms ih =>
    have hm := (h m List.mem_cons_self).read (.object before m.1 :: stack)
    -- the last member is followed by the brace, any other one by a comma
    cases ms with
    | nil =>
      show (tokens m.2 ++ [Token.closeBrace]).foldlM Builder.step ⟨.object before m.1 :: stack, .value⟩ = _
      rw [List.foldlM_append, hm]
      show some (⟨stack, .after (.object (m :: before).reverse)⟩ : Builder) = _
      rw [List.reverse_cons]
    | cons n ns =>
      have hrest := ih (fun x hx => h x (List.mem_cons_of_mem _ hx)) (List.cons_ne_nil _ _)
        (m :: before)
      show (tokens m.2 ++ Token.comma :: joinTokens ((n :: ns).map tokensOfMember) ++
        [Token.closeBrace]).foldlM Builder.step ⟨.object before m.1 :: stack, .value⟩ = _
      rw [List.append_assoc, List.foldlM_append, hm]
      show (joinTokens ((n :: ns).map tokensOfMember) ++ [Token.closeBrace]).foldlM Builder.step
        ⟨stack, .name (m :: before)⟩ = _
      rw [hrest, List.reverse_cons, List.append_assoc]
      rfl

/-- An object is built from its members. -/
theorem builds_object {members : List (String × Json)}
    (h : ∀ m ∈ members, Builds (tokens m.2) m.2) :
    Builds (tokens (.object members)) (.object members) := by
  rw [tokens, tokensOfMembers_eq_map]
  refine ⟨fun stack => ?_, .openBrace, _, rfl, by rintro ⟨⟩⟩
  show (joinTokens (members.map tokensOfMember) ++ [Token.closeBrace]).foldlM Builder.step
    ⟨stack, .firstName []⟩ = _
  cases members with
  | nil => rfl
  | cons m ms =>
    -- a first name is read as any later one
    have hmembers := foldlM_members h (List.cons_ne_nil _ _) [] stack
    cases ms with
    | nil => exact hmembers
    | cons n ns => exact hmembers

/-! ## Documents -/

mutual

/-- The tokens of a document build it, whatever its strings and numbers are spelled like. -/
theorem builds_tokens : ∀ v : Json, Builds (tokens v) v
  | .null => by
    rw [tokens]
    exact .single fun _ => rfl
  | .bool b => by
    rw [tokens]
    exact .single fun _ => rfl
  | .number n => by
    rw [tokens]
    exact .single fun _ => rfl
  | .string s => by
    rw [tokens]
    exact .single fun _ => rfl
  | .array items => builds_array (builds_tokens_items items)
  | .object members => builds_object (builds_tokens_members members)

theorem builds_tokens_items : ∀ items : List Json, ∀ v ∈ items, Builds (tokens v) v
  | [] => List.forall_mem_nil _
  | v :: vs => List.forall_mem_cons.2 ⟨builds_tokens v, builds_tokens_items vs⟩

theorem builds_tokens_members : ∀ members : List (String × Json), ∀ m ∈ members, Builds (tokens m.2) m.2
  | [] => List.forall_mem_nil _
  | (_, v) :: ms => List.forall_mem_cons.2 ⟨builds_tokens v, builds_tokens_members ms⟩

end

/-- An indented document is read as that document. -/
theorem parse?_pretty {v : Json} (h : Spelled v) : parse? (pretty v) = some v := by
  rw [parse?, tokens?_pretty h]
  show ((tokens v).foldlM Builder.step Builder.start).bind Builder.result? = some v
  rw [Builder.start, (builds_tokens v).read []]
  rfl

end CircuitBlocks.Json
