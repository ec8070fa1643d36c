import Mathlib.Data.List.Forall2

/-!
# Reading back — lists of written items

* **`mapM_map_eq_some`** — a list reads back if each of its items does.
* `mapM_eq_some_iff` — a list is read item by item.
* `mapM_eq_some` — a list that is read has as many items as it is read from, and each is read from one of them.
* `any_name_eq_false` — a name that differs from those of all members is not taken for one of them.
-/

namespace CircuitBlocks

variable {α β : Type}

/-- A list reads back if each of its items does. -/
theorem mapM_map_eq_some {write : α → β} {read : β → Option α} {items : List α}
    (h : ∀ x ∈ items, read (write x) = some x) : (items.map write).mapM read = some items := by
  induction items with
  | nil => rfl
  | cons x xs ih =>
    rw [List.map_cons, List.mapM_cons, h x List.mem_cons_self,
      ih fun y hy => h y (List.mem_cons_of_mem _ hy)]
    rfl

/-- A list is read item by item. -/
theorem mapM_eq_some_iff {read : β → Option α} {items : List β} {out : List α} :
    items.mapM read = some out ↔ List.Forall₂ (fun x y => read x = some y) items out := by
  induction items generalizing out with
  | nil =>
    rw [List.mapM_nil, List.forall₂_nil_left_iff]
    exact ⟨fun h => (Option.some.inj h).symm, fun h => congrArg some h.symm⟩
  | cons x xs ih =>
    rw [List.mapM_cons, List.forall₂_cons_left_iff]
    constructor
    · intro h
      -- the first element is read, and then the others
      obtain ⟨y, hy, h⟩ := Option.bind_eq_some_iff.1 h
      obtain ⟨ys, hys, h⟩ := Option.bind_eq_some_iff.1 h
      exact ⟨y, ys, hy, ih.1 hys, (Option.some.inj h).symm⟩
    · rintro ⟨y, ys, hy, hys, rfl⟩
      rw [hy, ih.2 hys]
      rfl

/-- A list that is read has as many items as it is read from, and each is read from one of them. -/
theorem mapM_eq_some {read : β → Option α} {items : List β} {out : List α} (h : items.mapM read = some out) :
    out.length = items.length ∧ ∀ y ∈ out, ∃ x ∈ items, read x = some y := by
  have hall := mapM_eq_some_iff.1 h
  clear h
  refine ⟨hall.length_eq.symm, ?_⟩
  induction hall with
  | nil => exact List.forall_mem_nil _
  | cons hxy _ ih =>
    refine List.forall_mem_cons.2 ⟨⟨_, List.mem_cons_self, hxy⟩, fun z hz => ?_⟩
    obtain ⟨w, hw, hread⟩ := ih z hz
    exact ⟨w, List.mem_cons_of_mem _ hw, hread⟩

/-- A name that is not among those of the members is the name of none. -/
theorem any_name_eq_false {members : List (String × α)} {name : String}
    (h : name ∉ members.map (·.1)) : members.any (fun m => m.1 = name) = false := by
  rw [List.any_eq_false]
  intro m hm heq
  have hmem : m.1 ∈ members.map (·.1) := List.mem_map_of_mem hm
  rw [of_decide_eq_true heq] at hmem
  exact h hmem

end CircuitBlocks
