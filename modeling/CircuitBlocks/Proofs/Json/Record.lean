import CircuitBlocks.Json.Record
import CircuitBlocks.Proofs.Json.Spelling
import CircuitBlocks.Proofs.ReadBack

/-!
# JSON records — written fields read back

* `IsText`, `IsNatural`, `IsBool`, `IsNullable` and `IsList` — the values of a document, told by what they are; a
  reader reads just these.
* `readText_text`, `readNatural_natural` and `readList_map` — written values read back.
* **`fields?_record`** — the fields of a written record are those that were written, if their names are
  declared and differ.
* **`fields?_object_eq_some_iff`** — an object is read as a record just if its names have a meaning and no
  declared one comes twice.
* `HasField` — what an object has under a name, as `required_eq_some_iff`, `withDefault_eq_some_iff` and
  `nullable_eq_some_iff` read it.
-/

namespace CircuitBlocks.Json

/-! ## Values -/

/-- The value is a string, and a spelling of the text. -/
def IsText (v : Json) (s : String) : Prop :=
  ∃ spelling, v = .string spelling ∧ SpellsText spelling.toList s.toList

/-- The value is the natural in plain decimal, which is at most `limit`. -/
def IsNatural (limit : Nat) (v : Json) (n : Nat) : Prop := n ≤ limit ∧ v = .number (toString n)

/-- The value is the truth value. -/
def IsBool (v : Json) (b : Bool) : Prop := v = .bool b

/-- The value is null, which stands for nothing, or something else. -/
def IsNullable {α : Type} (is : Json → α → Prop) (v : Json) (x : Option α) : Prop :=
  (v = .null ∧ x = none) ∨ (v ≠ .null ∧ ∃ y, x = some y ∧ is v y)

/-- The value is an array, and its items are those of the list. -/
def IsList {α : Type} (is : Json → α → Prop) (v : Json) (xs : List α) : Prop :=
  ∃ items, v = .array items ∧ List.Forall₂ is items xs

section Values

theorem readText_eq_some_iff (v : Json) (s : String) : readText v = some s ↔ IsText v s := by
  cases v <;> simp [readText, IsText, unescape?_eq_some_iff]

theorem readNatural_eq_some_iff {limit : Nat} (v : Json) (n : Nat) : readNatural limit v = some n ↔ IsNatural limit v n := by
  rw [IsNatural, Nat.toString_eq_ofList_toDigits]
  cases v <;> simp [readNatural, natural?_eq_some_iff]

theorem readBool_eq_some_iff (v : Json) (b : Bool) : readBool v = some b ↔ IsBool v b := by
  cases v <;> simp [readBool, IsBool]

variable {α : Type} {read : Json → Option α} {is : Json → α → Prop} (hread : ∀ v x, read v = some x ↔ is v x)

include hread

/-- A value that may be null is null, or read. -/
theorem readNullable_eq_some_iff (v : Json) (x : Option α) :
    Fields.readNullable read v = some x ↔ IsNullable is v x := by
  cases v with
  | null => simp [Fields.readNullable, IsNullable, eq_comm]
  | bool _ | number _ | string _ | array _ | object _ =>
    simp [Fields.readNullable, IsNullable, hread, and_comm, @eq_comm _ x]

theorem readList_eq_some_iff (v : Json) (xs : List α) : readList read v = some xs ↔ IsList is v xs := by
  cases v <;> simp [readList, IsList, mapM_eq_some_iff, hread]

end Values

/-! ## Written values -/

@[simp] theorem readText_text (s : String) : readText (text s) = some s := unescape?_escape s

@[simp] theorem readNullable_text (s : String) :
    Fields.readNullable readText (text s) = some (some s) := by
  show (readText (text s)).map some = some (some s)
  rw [readText_text]
  rfl

theorem readNatural_natural {limit n : Nat} (h : n ≤ limit) :
    readNatural limit (natural n) = some n := natural?_toDigits h

theorem readList_map {α : Type} {write : α → Json} {read : Json → Option α} {items : List α}
    (h : ∀ x ∈ items, read (write x) = some x) :
    readList read (.array (items.map write)) = some items := mapM_map_eq_some h

@[simp] theorem plainVariant?_text (s : String) : plainVariant? (text s) = some s :=
  unescape?_escape s

@[simp] theorem variant?_record (name : String) (v : Json) :
    variant? (record [(name, v)]) = some (name, v) := by
  simp only [record, List.map_cons, List.map_nil, variant?, unescape?_escape]
  rfl

/-- A natural in plain decimal has no character to escape. -/
@[simp] theorem escape_toString (n : Nat) : escape (toString n) = toString n := by
  have hplain : ∀ c : Char, c.isDigit = true → escapeChar c = [c] := by
    intro c hc
    rcases escapeChar_cases c with ⟨e, -, -, hlookup⟩ | ⟨hcontrol, -⟩ | ⟨h, -⟩
    · -- no digit is among the characters with an escape of their own
      have hletters : ∀ m ∈ escapes, m.2.isDigit = false := by decide
      have hmem : (e, c) ∈ escapes := by
        obtain ⟨before, after, heq, -⟩ := List.lookup_eq_some_iff.1 hlookup
        rw [heq]
        exact List.mem_append_right _ List.mem_cons_self
      rw [hletters _ hmem] at hc
      cases hc
    · have hge : '0' ≤ c := by
        simp only [Char.isDigit, Bool.and_eq_true, decide_eq_true_eq] at hc
        exact hc.1
      have h48 : 48 ≤ c.toNat := hge
      omega
    · exact h
  -- and so no text of digits is changed
  have hall : ∀ cs : List Char, (∀ c ∈ cs, c.isDigit = true) → cs.flatMap escapeChar = cs := by
    intro cs hcs
    induction cs with
    | nil => rfl
    | cons c cs ih =>
      rw [List.flatMap_cons, hplain c (hcs c List.mem_cons_self),
        ih fun d hd => hcs d (List.mem_cons_of_mem _ hd)]
      rfl
  rw [escape, Nat.toString_eq_ofList_toDigits, String.toList_ofList,
    hall _ fun c hc => Nat.isDigit_of_mem_toDigits (by decide) (by decide) hc]

/-! ## Records -/

/-- The fields of a written record are those that were written. -/
theorem fields?_record {names : List String} {members : List (String × Json)}
    (hdeclared : ∀ m ∈ members, m.1 ∈ names) (hnodup : (members.map (·.1)).Nodup) :
    fields? names (record members) = some ⟨false, members⟩ := by
  -- each name is declared, and none comes a second time
  have hmembers : declaredMembers? names (members.map fun m => (escape m.1, m.2))
      = some members := by
    induction members with
    | nil => rfl
    | cons m ms ih =>
      obtain ⟨hm, hnodup⟩ := List.nodup_cons.1 hnodup
      have hothers := ih (fun n hn => hdeclared n (List.mem_cons_of_mem _ hn)) hnodup
      rw [List.map_cons, declaredMembers?, unescape?_escape, hothers]
      show (if m.1 ∈ names then
        if ms.any (fun n => n.1 = m.1) then none else some ((m.1, m.2) :: ms) else some ms) = _
      rw [if_pos (hdeclared m List.mem_cons_self), any_name_eq_false hm]
      rfl
  show (declaredMembers? names (members.map fun m => (escape m.1, m.2))).bind _ = _
  rw [hmembers]
  rfl

/-! ## Objects -/

/-- The member has the name, in some spelling. -/
def IsNamed (m : String × Json) (name : String) : Prop := SpellsText m.1.toList name.toList

/-- Every name of a member has a meaning. -/
def AllNamed (members : List (String × Json)) : Prop := ∀ m ∈ members, ∃ name, IsNamed m name

/-- An object has a field: one member has the name, and its value is `x`, or none has it, and `x` is what the field
counts as when it is left out. -/
inductive HasField {α : Type} (members : List (String × Json)) (name : String) (is : Json → α → Prop)
    (left : Option α) (x : α) : Prop where
  | given {before after : List (String × Json)} {m : String × Json} (hmembers : members = before ++ m :: after)
    (hm : IsNamed m name) (hothers : ∀ n ∈ before ++ after, ¬ IsNamed n name) (hx : is m.2 x)
  | left (hnone : ∀ m ∈ members, ¬ IsNamed m name) (hx : left = some x)

/-- The values that an object has under a name, in their order. -/
def valuesOf (name : String) (members : List (String × Json)) : List Json :=
  members.filterMap fun m => if unescape? m.1 = some name then some m.2 else none

/-- The members with a declared name. -/
def declaredOf (names : List String) (members : List (String × Json)) : List (String × Json) :=
  members.filterMap fun m => (unescape? m.1).bind fun name => if name ∈ names then some (name, m.2) else none

section Objects

variable {names : List String} {members : List (String × Json)} {name : String}

/-- A member counts for a field if its name is spelled out as that. -/
theorem valuesOf_cons {spelled : String} {v : Json} :
    valuesOf name ((spelled, v) :: members) =
      if unescape? spelled = some name then v :: valuesOf name members else valuesOf name members := by
  simp only [valuesOf, List.filterMap_cons]
  by_cases h : unescape? spelled = some name
  · simp only [if_pos h]
  · simp only [if_neg h]

theorem declaredOf_cons {spelled : String} {v : Json} (h : unescape? spelled = some name) :
    declaredOf names ((spelled, v) :: members) =
      if name ∈ names then (name, v) :: declaredOf names members else declaredOf names members := by
  simp only [declaredOf, List.filterMap_cons, h, Option.bind_some]
  by_cases hname : name ∈ names
  · simp only [if_pos hname]
  · simp only [if_neg hname]

/-- A declared member is found among the declared ones just as in the object. -/
theorem filterMap_declaredOf (hname : name ∈ names) :
    (declaredOf names members).filterMap (fun m => if m.1 = name then some m.2 else none)
      = valuesOf name members := by
  rw [declaredOf, valuesOf, List.filterMap_filterMap]
  congr 1
  funext m
  cases hm : unescape? m.1 with
  | none => rfl
  | some other =>
    by_cases hother : other = name
    · simp [hother, hname]
    · by_cases hdeclared : other ∈ names <;> simp [hother, hdeclared]

theorem lookup_eq_head?_filterMap {α : Type} (given : List (String × α)) (name : String) :
    given.lookup name = (given.filterMap fun m => if m.1 = name then some m.2 else none).head? := by
  induction given with
  | nil => rfl
  | cons m ms ih =>
    rw [List.filterMap_cons, List.lookup_cons]
    by_cases hm : m.1 = name
    · rw [if_pos hm, hm, beq_self_eq_true]
      rfl
    · rw [if_neg hm, beq_false_of_ne (Ne.symm hm)]
      exact ih

theorem any_declaredOf (hname : name ∈ names) :
    (declaredOf names members).any (·.1 = name) = false ↔ valuesOf name members = [] := by
  rw [← filterMap_declaredOf hname, List.filterMap_eq_nil_iff, List.any_eq_false]
  refine forall_congr' fun m => forall_congr' fun _ => ?_
  by_cases hm : m.1 = name <;> simp [hm]

/-- Each declared name comes at most once. -/
def Once (names : List String) (members : List (String × Json)) : Prop :=
  ∀ name ∈ names, (valuesOf name members).length ≤ 1

/-- A member may be put in front just if its name is not one that is declared and comes again. -/
theorem once_cons_iff {spelled : String} {v : Json} (h : unescape? spelled = some name) :
    Once names ((spelled, v) :: members) ↔
      Once names members ∧ (name ∈ names → valuesOf name members = []) := by
  constructor
  · intro honce
    refine ⟨fun other hother => ?_, fun hname => ?_⟩
    · have hlength := honce other hother
      -- with the member in front there is one value more of its name
      rw [valuesOf_cons] at hlength
      split at hlength
      · exact Nat.le_of_succ_le hlength
      · exact hlength
    · have hlength := honce name hname
      rw [valuesOf_cons, if_pos h] at hlength
      exact List.eq_nil_of_length_eq_zero (Nat.le_zero.1 (Nat.le_of_succ_le_succ hlength))
  · rintro ⟨honce, hnone⟩ other hother
    rw [valuesOf_cons]
    split
    · next heq =>
      obtain rfl := Option.some.inj (h.symm.trans heq)
      rw [hnone hother]
      exact Nat.le_refl 1
    · exact honce other hother

/-- The declared members of an object. None may come twice, and all names must have a meaning. -/
theorem declaredMembers?_eq_some_iff {given : List (String × Json)} :
    declaredMembers? names members = some given ↔ (∀ m ∈ members, (unescape? m.1).isSome = true) ∧
      Once names members ∧ declaredOf names members = given := by
  induction members generalizing given with
  | nil => simp [declaredMembers?, declaredOf, valuesOf, Once]
  | cons m ms ih =>
    obtain ⟨spelled, v⟩ := m
    -- a name that does not spell a text refuses the whole object
    cases hs : unescape? spelled with
    | none => simp [declaredMembers?, hs]
    | some name =>
      rw [once_cons_iff hs, declaredOf_cons hs, List.forall_mem_cons, hs, declaredMembers?, hs]
      show (declaredMembers? names ms).bind _ = some given ↔ _
      rw [Option.bind_eq_some_iff]
      simp only [Option.isSome_some, true_and]
      constructor
      · rintro ⟨others, hothers, hgiven⟩
        obtain ⟨hnamed, honce, rfl⟩ := ih.1 hothers
        split at hgiven
        · next hname =>
          split at hgiven
          · cases hgiven
          · next hany =>
            have hnone := (any_declaredOf hname).1 (Bool.eq_false_iff.2 hany)
            rw [if_pos hname]
            exact ⟨hnamed, ⟨honce, fun _ => hnone⟩, Option.some.inj hgiven⟩
        · next hname =>
          rw [if_neg hname]
          exact ⟨hnamed, ⟨honce, fun h => absurd h hname⟩, Option.some.inj hgiven⟩
      · -- a declared name that does not come again is put in front of the others
        rintro ⟨hnamed, ⟨honce, hnone⟩, hgiven⟩
        refine ⟨_, ih.2 ⟨hnamed, honce, rfl⟩, ?_⟩
        by_cases hname : name ∈ names
        · rw [if_pos hname] at hgiven ⊢
          rw [if_neg (Bool.eq_false_iff.1 ((any_declaredOf hname).2 (hnone hname))), hgiven]
        · rw [if_neg hname] at hgiven ⊢
          rw [hgiven]

theorem isNamed_iff {m : String × Json} : IsNamed m name ↔ unescape? m.1 = some name := unescape?_eq_some_iff.symm

theorem allNamed_iff : AllNamed members ↔ ∀ m ∈ members, (unescape? m.1).isSome = true := by
  simp only [AllNamed, isNamed_iff, Option.isSome_iff_exists]

/-- The fields of an object are those of its declared members. -/
theorem fields?_object_eq_some_iff {f : Fields} :
    fields? names (.object members) = some f ↔
      AllNamed members ∧ Once names members ∧ ⟨false, declaredOf names members⟩ = f := by
  show (declaredMembers? names members).bind (fun given => some ⟨false, given⟩) = some f ↔ _
  simp only [Option.bind_eq_some_iff, declaredMembers?_eq_some_iff, Option.some.injEq, allNamed_iff]
  constructor
  · rintro ⟨given, ⟨hnamed, honce, rfl⟩, rfl⟩
    exact ⟨hnamed, honce, rfl⟩
  · rintro ⟨hnamed, honce, rfl⟩
    exact ⟨_, ⟨hnamed, honce, rfl⟩, rfl⟩

/-! ## Fields of objects -/

variable {α : Type} {read : Json → Option α} {is : Json → α → Prop} {x default : α}

theorem valuesOf_eq_nil_iff : valuesOf name members = [] ↔ ∀ m ∈ members, ¬ IsNamed m name := by
  simp [valuesOf, List.filterMap_eq_nil_iff, isNamed_iff]

theorem valuesOf_append {before after : List (String × Json)} :
    valuesOf name (before ++ after) = valuesOf name before ++ valuesOf name after := List.filterMap_append

/-- An object with a field has one value under its name, or none. -/
theorem HasField.valuesOf {left : Option α} (h : HasField members name is left x) :
    (∃ v, valuesOf name members = [v] ∧ is v x) ∨ valuesOf name members = [] ∧ left = some x := by
  cases h with
  | @given before after m hmembers hm hothers hx =>
    obtain ⟨spelled, v⟩ := m
    obtain ⟨hbefore, hafter⟩ := List.forall_mem_append.1 hothers
    refine .inl ⟨v, ?_, hx⟩
    rw [hmembers, valuesOf_append, valuesOf_cons, if_pos (isNamed_iff.1 hm), valuesOf_eq_nil_iff.2 hbefore,
      valuesOf_eq_nil_iff.2 hafter, List.nil_append]
  | left hnone hx => exact .inr ⟨valuesOf_eq_nil_iff.2 hnone, hx⟩

/-- A field that is read has one value at most. -/
theorem HasField.length_le {left : Option α} (h : HasField members name is left x) :
    (Json.valuesOf name members).length ≤ 1 := by
  rcases h.valuesOf with ⟨v, hv, -⟩ | ⟨hnone, -⟩
  · rw [hv]
    exact Nat.le_refl 1
  · rw [hnone]
    exact Nat.zero_le 1

/-- The one value under a name is that of one member. -/
theorem hasField_of_valuesOf {left : Option α} {v : Json} (h : valuesOf name members = [v]) (hx : is v x) :
    HasField members name is left x := by
  obtain ⟨before, m, after, hmembers, hbefore, hm, hafter⟩ := List.filterMap_eq_cons_iff.1 h
  have hothers : ∀ n ∈ before ++ after, ¬ IsNamed n name := by
    refine List.forall_mem_append.2 ⟨fun n hn hnamed => ?_, valuesOf_eq_nil_iff.1 hafter⟩
    have hnone := hbefore n hn
    rw [if_pos (isNamed_iff.1 hnamed)] at hnone
    cases hnone
  split at hm
  · next hnamed =>
    obtain rfl := Option.some.inj hm
    exact .given hmembers (isNamed_iff.2 hnamed) hothers hx
  · cases hm

/-- Where no name comes twice, a field is the value that was given, or what was left out. -/
theorem hasField_iff {left : Option α} (h : (valuesOf name members).length ≤ 1)
    (hread : ∀ v x, read v = some x ↔ is v x) :
    HasField members name is left x ↔
      (match (valuesOf name members).head? with | none => left | some v => read v) = some x := by
  constructor
  · intro hfield
    rcases hfield.valuesOf with ⟨v, hv, hx⟩ | ⟨hnone, hx⟩
    · rw [hv]
      exact (hread v x).2 hx
    · rw [hnone]
      exact hx
  · -- at most one member is of the name: none, this one, or too many
    intro hx
    rcases hvalues : valuesOf name members with _ | ⟨v, _ | ⟨w, rest⟩⟩
    · rw [hvalues] at hx
      exact .left (valuesOf_eq_nil_iff.1 hvalues) hx
    · rw [hvalues] at hx
      exact hasField_of_valuesOf hvalues ((hread v x).1 hx)
    · rw [hvalues] at h
      exact absurd h (by simp)

theorem get?_declaredOf (hname : name ∈ names) :
    Fields.get? ⟨false, declaredOf names members⟩ name = (valuesOf name members).head? := by
  show (declaredOf names members).lookup name = _
  rw [lookup_eq_head?_filterMap, filterMap_declaredOf hname]

variable (hread : ∀ v x, read v = some x ↔ is v x) (hname : name ∈ names) (honce : Once names members)

include hread hname honce

/-- A field that must be given is left out by no object that is read. -/
theorem required_eq_some_iff :
    Fields.required ⟨false, declaredOf names members⟩ name read = some x ↔ HasField members name is none x := by
  rw [hasField_iff (honce name hname) hread]
  cases hfirst : (valuesOf name members).head? <;>
    simp [Fields.required, get?_declaredOf hname, hfirst]

/-- A field with a default counts as that when it is left out. -/
theorem withDefault_eq_some_iff :
    Fields.withDefault ⟨false, declaredOf names members⟩ name default read = some x ↔
      HasField members name is (some default) x := by
  rw [hasField_iff (honce name hname) hread]
  cases hfirst : (valuesOf name members).head? <;>
    simp [Fields.withDefault, get?_declaredOf hname, hfirst]

/-- A field that may be null counts as nothing when it is left out. -/
theorem nullable_eq_some_iff {y : Option α} :
    Fields.nullable ⟨false, declaredOf names members⟩ name read = some y ↔
      HasField members name (IsNullable is) (some none) y := by
  rw [hasField_iff (honce name hname) (readNullable_eq_some_iff hread)]
  cases hfirst : (valuesOf name members).head? <;>
    simp [Fields.nullable, get?_declaredOf hname, hfirst]

end Objects
end CircuitBlocks.Json
