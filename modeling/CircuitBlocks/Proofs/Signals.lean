import CircuitBlocks.Block.Run

/-!
# Signals — how many values there are

Flat values and the widths of ports belong together: there are as many values as the widths come to. Where
that holds, values that are cut into ports are laid end to end again, and every value has a place.

* `Signals.length_flatten` — the values of signals are as many as their widths come to.
* `Signals.flatten_ofFlat`, `Signals.widths_ofFlat` — what is cut by widths has these widths and values.
* `Signals.slice?_eq_some_iff`, `Signals.cutFrom?_eq_some_iff` — what one slice gives, and so all of them.
* `StepReply.length_buffer` — the output buffer has the size that was asked for.
* `Block.not_isNaN_of_firstNaN?` — a NaN among the outputs is found.
-/

namespace CircuitBlocks

namespace Signals

/-! ## Widths -/

@[simp] theorem totalWidth_nil : totalWidth [] = 0 := rfl

@[simp] theorem totalWidth_cons (w : Nat) (ws : List Nat) : totalWidth (w :: ws) = w + totalWidth ws := rfl

theorem totalWidth_ones (n : Nat) : totalWidth (List.replicate n 1) = n := by
  induction n with
  | zero => rfl
  | succ n ih => rw [List.replicate_succ, totalWidth_cons, ih, Nat.add_comm]

theorem length_widths (s : Signals) : s.widths.length = s.portCount := by
  cases s with
  | single values => exact List.length_replicate
  | matrix ports => exact List.length_map _

/-- There are as many values as the widths come to. -/
theorem length_flatten (s : Signals) : s.flatten.length = totalWidth s.widths := by
  cases s with
  | single values => exact (totalWidth_ones values.length).symm
  | matrix ports => exact List.length_flatten

theorem widths_of_single {s : Signals} (h : s.shape = .single) :
    s.widths = List.replicate s.portCount 1 := by
  cases s with
  | single values => rfl
  | matrix ports => cases h

/-! ## Cutting -/

variable {ws : List Nat} {flat : List Float}

/-- The ports have their widths, if there are enough values. -/
theorem map_length_cut (h : totalWidth ws ≤ flat.length) : (cut ws flat).map List.length = ws := by
  induction ws generalizing flat with
  | nil => rfl
  | cons w rest ih =>
    rw [totalWidth_cons] at h
    have hrest : totalWidth rest ≤ (flat.drop w).length := by
      rw [List.length_drop]
      omega
    rw [cut, List.map_cons, ih hrest, List.length_take, Nat.min_eq_left (by omega)]

theorem flatten_cut (ws : List Nat) (flat : List Float) :
    (cut ws flat).flatten = flat.take (totalWidth ws) := by
  induction ws generalizing flat with
  | nil => rfl
  | cons w rest ih => rw [cut, List.flatten_cons, ih, totalWidth_cons, List.take_add]

/-! ## Cutting by slices

The offset moves over the flat values, and every slice has to be within them. So a slice is what is next, and
the ports from an offset on are what is next as a whole. -/

/-- A list begins with one and then another just if the other is next behind the one. -/
theorem append_isPrefix_iff {α : Type} {front back values : List α} :
    front ++ back <+: values ↔ front <+: values ∧ back <+: values.drop front.length := by
  constructor
  · rintro ⟨rest, rfl⟩
    rw [List.append_assoc, List.drop_left]
    exact ⟨List.prefix_append _ _, List.prefix_append _ _⟩
  · rintro ⟨⟨rest, rfl⟩, hback⟩
    rw [List.drop_left] at hback
    exact (List.prefix_append_right_inj front).2 hback

variable {offset w : Nat} {port : List Float} {ports : List (List Float)}

/-- What is next ends within the values. -/
theorem add_length_le_of_isPrefix_drop (hoffset : offset ≤ flat.length) (h : port <+: flat.drop offset) :
    offset + port.length ≤ flat.length := by
  have hle := h.length_le
  rw [List.length_drop] at hle
  omega

/-- A slice from a place that is there is the part of its width that is next. -/
theorem slice?_eq_some_iff (hoffset : offset ≤ flat.length) :
    slice? flat offset (offset + w) = some port ↔ port.length = w ∧ port <+: flat.drop offset := by
  rw [slice?, Nat.add_sub_cancel_left]
  constructor
  · intro h
    split at h
    · next hrange =>
      cases h
      refine ⟨?_, List.take_prefix _ _⟩
      rw [List.length_take, List.length_drop]
      omega
    · cases h
  · rintro ⟨rfl, hnext⟩
    -- a prefix of what is left fits into it
    rw [if_pos ⟨Nat.le_add_right _ _, add_length_le_of_isPrefix_drop hoffset hnext⟩,
      ← List.prefix_iff_eq_take.1 hnext]

theorem cutFrom?_cons_eq_some_iff : cutFrom? flat offset (w :: ws) = some ports ↔
    ∃ port, slice? flat offset (offset + w) = some port ∧
      ∃ later, cutFrom? flat (offset + w) ws = some later ∧ port :: later = ports := by
  simp [cutFrom?, Option.bind_eq_some_iff]

/-- Ports are cut from an offset on just if they have the widths and their values are next. -/
theorem cutFrom?_eq_some_iff (hoffset : offset ≤ flat.length) :
    cutFrom? flat offset ws = some ports ↔ ports.map List.length = ws ∧ ports.flatten <+: flat.drop offset := by
  induction ws generalizing offset ports with
  | nil =>
    rw [cutFrom?, Option.some.injEq, List.map_eq_nil_iff]
    constructor
    · rintro rfl
      exact ⟨rfl, List.nil_prefix⟩
    · exact fun h => h.1.symm
  | cons w ws ih =>
    rw [cutFrom?_cons_eq_some_iff]
    constructor
    · rintro ⟨port, hslice, later, hlater, rfl⟩
      obtain ⟨rfl, hnext⟩ := (slice?_eq_some_iff hoffset).1 hslice
      -- the next offset is in range, since the slice was
      obtain ⟨rfl, hvalues⟩ := (ih (add_length_le_of_isPrefix_drop hoffset hnext)).1 hlater
      rw [← List.drop_drop] at hvalues
      exact ⟨rfl, append_isPrefix_iff.2 ⟨hnext, hvalues⟩⟩
    · rintro ⟨hwidths, hvalues⟩
      cases ports with
      | nil => cases hwidths
      | cons port later =>
        obtain ⟨rfl, rfl⟩ := List.cons.inj hwidths
        obtain ⟨hnext, hvalues⟩ := append_isPrefix_iff.1 hvalues
        rw [List.drop_drop] at hvalues
        exact ⟨port, (slice?_eq_some_iff hoffset).2 ⟨rfl, hnext⟩, later,
          (ih (add_length_le_of_isPrefix_drop hoffset hnext)).2 ⟨rfl, hvalues⟩, rfl⟩

/-! ## Signals of flat values -/

variable {s : Signals}

/-- Flat values are cut into the signals of these widths whose values come first. -/
theorem ofFlat?_matrix_eq_some_iff :
    ofFlat? .matrix flat ws = some s ↔ s.shape = .matrix ∧ s.widths = ws ∧ s.flatten <+: flat := by
  show (cutFrom? flat 0 ws).map matrix = some s ↔ _
  rw [Option.map_eq_some_iff]
  cases s with
  | single values =>
    constructor
    · rintro ⟨ports, -, h⟩
      cases h
    · rintro ⟨h, -⟩
      cases h
  | matrix ports =>
    -- from the front on, nothing is passed over
    have hports : cutFrom? flat 0 ws = some ports ↔ ports.map List.length = ws ∧ ports.flatten <+: flat :=
      cutFrom?_eq_some_iff (Nat.zero_le flat.length)
    simp only [matrix.injEq, exists_eq_right, hports, shape, widths, flatten, true_and]

theorem shape_ofFlat (shape : ProcedureShape) (flat : List Float) (ws : List Nat) :
    (ofFlat shape flat ws).shape = shape := by
  cases shape <;> rfl

/-- Cutting never goes out of range when there are enough values. -/
theorem ofFlat?_matrix_of_le (h : totalWidth ws ≤ flat.length) :
    ofFlat? .matrix flat ws = some (ofFlat .matrix flat ws) := by
  refine ofFlat?_matrix_eq_some_iff.2 ⟨rfl, map_length_cut h, ?_⟩
  show (cut ws flat).flatten <+: flat
  rw [flatten_cut]
  exact List.take_prefix _ _

/-- Cutting never goes out of range when there are as many values as the widths come to. -/
theorem ofFlat?_eq_some (shape : ProcedureShape) (h : flat.length = totalWidth ws) :
    ofFlat? shape flat ws = some (ofFlat shape flat ws) := by
  cases shape with
  | single => rfl
  | matrix => exact ofFlat?_matrix_of_le (Nat.le_of_eq h.symm)

theorem flatten_ofFlat (shape : ProcedureShape) (h : flat.length = totalWidth ws) :
    (ofFlat shape flat ws).flatten = flat := by
  cases shape with
  | single => rfl
  | matrix => exact (flatten_cut ws flat).trans (List.take_of_length_le (Nat.le_of_eq h))

/-- The widths by which values were cut are those of the signals. -/
theorem widths_ofFlat {shape : ProcedureShape} (h : flat.length = totalWidth ws)
    (hsingle : shape = .single → ws = List.replicate ws.length 1) : (ofFlat shape flat ws).widths = ws := by
  cases shape with
  | single =>
    -- one value for each port
    have hones := hsingle rfl
    rw [hones, totalWidth_ones] at h
    show List.replicate flat.length 1 = ws
    rw [h, ← hones]
  | matrix => exact map_length_cut (Nat.le_of_eq h.symm)

end Signals

/-! ## Outputs -/

/-- The output buffer keeps its size, however much is written. -/
theorem StepReply.length_buffer (r : StepReply) (size : Nat) : (r.buffer size).length = size := by
  rw [buffer, List.length_append, List.length_take, List.length_replicate]
  omega

namespace Block

/-- Every value has a place. -/
theorem exists_placeOf? {ws : List Nat} {index : Nat} (h : index < Signals.totalWidth ws) :
    ∃ place, placeOf? ws index = some place := by
  induction ws generalizing index with
  | nil => exact absurd h (Nat.not_lt_zero index)
  | cons w rest ih =>
    rw [Signals.totalWidth_cons] at h
    by_cases hfirst : index < w
    · exact ⟨(0, index), if_pos hfirst⟩
    · have hlater : index - w < Signals.totalWidth rest := by omega
      obtain ⟨⟨port, channel⟩, hplace⟩ := ih hlater
      exact ⟨(port + 1, channel), by rw [placeOf?, if_neg hfirst, hplace]; rfl⟩

/-- A NaN is found, if every value has a place. -/
theorem not_isNaN_of_firstNaN? {values : List Float} {ws : List Nat}
    (hlength : values.length = Signals.totalWidth ws) (h : firstNaN? values ws = none) :
    ∀ v ∈ values, v.isNaN = false := by
  unfold firstNaN? at h
  cases hfind : values.findIdx? Float.isNaN with
  | none => exact List.findIdx?_eq_none_iff.1 hfind
  | some index =>
    obtain ⟨hindex, -⟩ := List.findIdx?_eq_some_iff_getElem.1 hfind
    obtain ⟨place, hplace⟩ := exists_placeOf? (hlength ▸ hindex)
    rw [hfind, Option.bind_some, hplace] at h
    cases h

variable {shape : ProcedureShape} {widths : List Nat} {time : Float} {reply : StepReply}

/-- What a computation gives is cut from its output buffer, which has no NaN. -/
theorem outputs_eq_ok {result : Signals} (h : outputs shape widths time reply = .ok result) :
    result = .ofFlat shape (reply.buffer (Signals.totalWidth widths)) widths ∧
      ∀ v ∈ reply.buffer (Signals.totalWidth widths), v.isNaN = false := by
  unfold outputs at h
  split at h
  · cases h
  · cases h
  · cases h
  · simp only at h
    split at h
    · cases h
    · -- the procedure calls it a success, and no NaN is found
      next hnone =>
      cases h
      exact ⟨rfl, not_isNaN_of_firstNaN? (reply.length_buffer _) hnone⟩

end Block

end CircuitBlocks
