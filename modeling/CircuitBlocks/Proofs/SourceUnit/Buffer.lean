import CircuitBlocks.Proofs.Text.Lines
import CircuitBlocks.SourceUnit.Template

/-!
# The output buffer — what its expression tells of a shape

The expression that allocates the output buffer is the only place of a unit in which numbers of the
shape stand. A number ends at the first character that is not a digit, so that expressions can be read
from the front.

* `zeroVector_append_inj` — the expression of one vector can be told from what follows it.
* `newline_not_mem_bufferExpression` — the expression stands on one line.
* **`bufferExpression_eq_iff`** — of two shapes of one kind, the expressions agree just if the ports
  and, in matrix shape, the kinds of bus and the widths do.
-/

namespace CircuitBlocks

namespace Template

/-! ## Numbers -/

theorem toList_toString (n : Nat) : (toString n).toList = Nat.toDigits 10 n := Nat.toList_repr

/-- A number is determined by the digits before a character that is none. -/
theorem digits_append_inj {m n : Nat} {a b : Char} {r₁ r₂ : List Char} (ha : a.isDigit = false)
    (hb : b.isDigit = false) (h : Nat.toDigits 10 m ++ a :: r₁ = Nat.toDigits 10 n ++ b :: r₂) :
    m = n ∧ a = b ∧ r₁ = r₂ := by
  have hdigit : ∀ k : Nat, ∀ c ∈ Nat.toDigits 10 k, c.isDigit = true := fun _ _ hc =>
    Nat.isDigit_of_mem_toDigits (by decide) (by decide) hc
  -- the digits are cut off at the first character that is none
  obtain ⟨hmn, hrest⟩ := Text.append_cons_inj (P := fun c => c.isDigit = true) (hdigit m) (hdigit n)
    (by rw [ha]; decide) (by rw [hb]; decide) h
  refine ⟨?_, hrest⟩
  have hvalue := congrArg (Nat.ofDigitChars 10 · 0) hmn
  simpa [Nat.ofDigitChars_ten_toDigits] using hvalue

theorem newline_not_mem_toString (n : Nat) : '\n' ∉ (toString n).toList := by
  intro h
  rw [toList_toString] at h
  have hdigit := Nat.isDigit_of_mem_toDigits (by decide) (by decide) h
  exact absurd hdigit (by decide)

/-! ## Vectors -/

theorem toList_zeroVector (n : Nat) :
    (zeroVector n).toList = "vec![0.0; ".toList ++ (Nat.toDigits 10 n ++ [']']) := by
  rw [zeroVector, String.toList_append, String.toList_append, toList_toString, List.append_assoc]
  rfl

/-- The size of a vector can be read from its expression, whatever follows. -/
theorem zeroVector_append_inj {m n : Nat} {r₁ r₂ : List Char}
    (h : (zeroVector m).toList ++ r₁ = (zeroVector n).toList ++ r₂) : m = n ∧ r₁ = r₂ := by
  rw [toList_zeroVector, toList_zeroVector, List.append_assoc, List.append_assoc, List.append_assoc,
    List.append_assoc] at h
  obtain ⟨hmn, -, hrest⟩ := digits_append_inj (by decide) (by decide) (List.append_cancel_left h)
  exact ⟨hmn, hrest⟩

theorem newline_not_mem_zeroVector (n : Nat) : '\n' ∉ (zeroVector n).toList := by
  rw [zeroVector, String.toList_append, String.toList_append]
  intro h
  rcases List.mem_append.1 h with h | h
  · rcases List.mem_append.1 h with h | h
    · exact absurd h (by decide)
    · exact newline_not_mem_toString n h
  · exact absurd h (by decide)

/-! ## Lists of vectors -/

/-- The expressions of vectors after the first one. -/
def laterVectors (widths : List Nat) : List Char :=
  widths.flatMap fun w => ", ".toList ++ (zeroVector w).toList

/-- The widths of later vectors can be read up to the bracket that ends their list. -/
theorem laterVectors_append_inj {ws vs : List Nat} {r₁ r₂ : List Char}
    (h : laterVectors ws ++ ']' :: r₁ = laterVectors vs ++ ']' :: r₂) : ws = vs := by
  induction ws generalizing vs with
  | nil =>
    cases vs with
    | nil => rfl
    | cons v vs => exact absurd (List.cons.inj h).1 (by decide)
  | cons w ws ih =>
    cases vs with
    | nil => exact absurd (List.cons.inj h).1 (by decide)
    -- the first vectors agree, and then the rest of both texts
    | cons v vs =>
      rw [laterVectors, laterVectors, List.flatMap_cons, List.flatMap_cons, List.append_assoc,
        List.append_assoc, List.append_assoc, List.append_assoc] at h
      obtain ⟨rfl, hrest⟩ := zeroVector_append_inj (List.append_cancel_left h)
      rw [ih hrest]

/-- A list of vectors is the first one, and each later one behind a comma. -/
theorem toList_intercalate_cons (w : Nat) (ws : List Nat) :
    (String.intercalate ", " ((w :: ws).map zeroVector)).toList
      = (zeroVector w).toList ++ laterVectors ws := by
  rw [String.toList_intercalate, List.map_map, List.map_cons]
  show _ = (zeroVector w).toList ++ laterVectors ws
  induction ws generalizing w with
  | nil => simp [laterVectors]
  | cons v ws ih =>
    have hlater : laterVectors (v :: ws)
        = ", ".toList ++ ((zeroVector v).toList ++ laterVectors ws) := by
      rw [laterVectors, List.flatMap_cons, List.append_assoc]
      rfl
    rw [hlater, ← ih v, List.map_cons, List.intercalate_cons_cons]
    exact List.append_assoc _ _ _

/-- The lists of widths of two buses with a width per port can be read from their expressions. -/
theorem intercalate_zeroVector_inj {ws vs : List Nat} {r₁ r₂ : List Char}
    (h : (String.intercalate ", " (ws.map zeroVector)).toList ++ ']' :: r₁
      = (String.intercalate ", " (vs.map zeroVector)).toList ++ ']' :: r₂) : ws = vs := by
  -- a list without vectors begins with the bracket, and any other one with a letter
  cases ws with
  | nil =>
    cases vs with
    | nil => rfl
    | cons v vs =>
      rw [toList_intercalate_cons, toList_zeroVector] at h
      exact absurd (List.cons.inj h).1 (by decide)
  | cons w ws =>
    cases vs with
    | nil =>
      rw [toList_intercalate_cons, toList_zeroVector] at h
      exact absurd (List.cons.inj h).1 (by decide)
    | cons v vs =>
      rw [toList_intercalate_cons, toList_intercalate_cons, List.append_assoc,
        List.append_assoc] at h
      obtain ⟨rfl, hrest⟩ := zeroVector_append_inj h
      rw [laterVectors_append_inj hrest]

theorem newline_not_mem_intercalate (ws : List Nat) :
    '\n' ∉ (String.intercalate ", " (ws.map zeroVector)).toList := by
  cases ws with
  | nil => exact List.not_mem_nil
  | cons w ws =>
    rw [toList_intercalate_cons]
    intro h
    rcases List.mem_append.1 h with h | h
    · exact newline_not_mem_zeroVector w h
    · obtain ⟨v, -, hv⟩ := List.mem_flatMap.1 h
      rcases List.mem_append.1 hv with hv | hv
      · exact absurd hv (by decide)
      · exact newline_not_mem_zeroVector v hv

end Template

/-! ## Buses -/

namespace SignalShape

/-- Whether two shapes with as many ports have buses of one kind with the same output widths. -/
def SameBus (s₁ s₂ : SignalShape) : Prop :=
  (∃ w, s₁.bus = .fixed w ∧ s₂.bus = .fixed w) ∨
    ∃ m₁ m₂, s₁.bus = .perPort m₁ ∧ s₂.bus = .perPort m₂ ∧
      ∀ p < s₁.outputPorts, s₁.outputWidth p = s₂.outputWidth p

variable {s₁ s₂ : SignalShape}

theorem sameBus_fixed {w₁ w₂ : Nat} (h₁ : s₁.bus = .fixed w₁) (h₂ : s₂.bus = .fixed w₂) :
    s₁.SameBus s₂ ↔ w₁ = w₂ := by
  constructor
  · rintro (⟨w, hw₁, hw₂⟩ | ⟨m₁, -, hm₁, -⟩)
    · obtain rfl : w₁ = w := BusWidth.fixed.inj (h₁.symm.trans hw₁)
      exact (BusWidth.fixed.inj (h₂.symm.trans hw₂)).symm
    · cases h₁.symm.trans hm₁
  · rintro rfl
    exact .inl ⟨w₁, h₁, h₂⟩

theorem sameBus_perPort {m₁ m₂ : SortedMap Nat Nat} (h₁ : s₁.bus = .perPort m₁)
    (h₂ : s₂.bus = .perPort m₂) :
    s₁.SameBus s₂ ↔ ∀ p < s₁.outputPorts, s₁.outputWidth p = s₂.outputWidth p := by
  constructor
  · rintro (⟨w, hw₁, -⟩ | ⟨-, -, -, -, hwidth⟩)
    · cases h₁.symm.trans hw₁
    · exact hwidth
  · exact fun hwidth => .inr ⟨m₁, m₂, h₁, h₂, hwidth⟩

theorem not_sameBus_fixed_perPort {w : Nat} {m : SortedMap Nat Nat} (h₁ : s₁.bus = .fixed w)
    (h₂ : s₂.bus = .perPort m) : ¬s₁.SameBus s₂ := by
  rintro (⟨w', -, hw₂⟩ | ⟨m₁, -, hm₁, -⟩)
  · cases h₂.symm.trans hw₂
  · cases h₁.symm.trans hm₁

theorem not_sameBus_perPort_fixed {w : Nat} {m : SortedMap Nat Nat} (h₁ : s₁.bus = .perPort m)
    (h₂ : s₂.bus = .fixed w) : ¬s₁.SameBus s₂ := by
  rintro (⟨w', hw₁, -⟩ | ⟨-, m₂, -, hm₂, -⟩)
  · cases h₁.symm.trans hw₁
  · cases h₂.symm.trans hm₂

end SignalShape

/-! ## The expression -/

namespace Template

/-- The output widths of two shapes agree just if the ports and all their widths do. -/
theorem outputWidths_eq_iff {s₁ s₂ : SignalShape} :
    s₁.outputWidths = s₂.outputWidths ↔
      s₁.outputPorts = s₂.outputPorts ∧ ∀ p < s₁.outputPorts, s₁.outputWidth p = s₂.outputWidth p := by
  rw [s₁.outputWidths_eq_map, s₂.outputWidths_eq_map]
  constructor
  · intro h
    have hports : s₁.outputPorts = s₂.outputPorts := by
      simpa using congrArg List.length h
    rw [← hports] at h
    exact ⟨hports, fun p hp => List.map_inj_left.1 h p (List.mem_range.2 hp)⟩
  · rintro ⟨hports, hwidths⟩
    rw [← hports]
    exact List.map_inj_left.2 fun p hp => hwidths p (List.mem_range.1 hp)

/-- The expression of a bus of one width and that of a bus with a width per port differ: after the first
vector comes the number of ports in the one, and another vector or the end in the other. -/
theorem fixed_ne_perPort (w ports : Nat) (ws : List Nat) :
    (zeroVector w).toList ++ "; ".toList ++ (toString ports).toList ++ "]".toList ≠
      (String.intercalate ", " (ws.map zeroVector)).toList ++ "]".toList := by
  intro h
  rw [List.append_assoc, List.append_assoc] at h
  cases ws with
  | nil =>
    rw [toList_zeroVector] at h
    exact absurd (List.cons.inj h).1 (by decide)
  | cons v vs =>
    rw [toList_intercalate_cons, List.append_assoc] at h
    -- after the first vector, a semicolon cannot be the bracket or comma that the other one has there
    obtain ⟨-, hrest⟩ := zeroVector_append_inj h
    cases vs with
    | nil => exact absurd (List.cons.inj hrest).1 (by decide)
    | cons u us => exact absurd (List.cons.inj hrest).1 (by decide)

/-- The expressions of buses of one width tell the width and the number of ports. -/
theorem fixed_eq_iff {w₁ w₂ ports₁ ports₂ : Nat} :
    (zeroVector w₁).toList ++ "; ".toList ++ (toString ports₁).toList ++ "]".toList
      = (zeroVector w₂).toList ++ "; ".toList ++ (toString ports₂).toList ++ "]".toList ↔
      w₁ = w₂ ∧ ports₁ = ports₂ := by
  constructor
  · intro h
    rw [toList_toString, toList_toString, List.append_assoc, List.append_assoc, List.append_assoc,
      List.append_assoc] at h
    obtain ⟨hw, hrest⟩ := zeroVector_append_inj h
    obtain ⟨hports, -⟩ := digits_append_inj (by decide) (by decide) (List.append_cancel_left hrest)
    exact ⟨hw, hports⟩
  · rintro ⟨rfl, rfl⟩
    rfl

/-- A bus of one width is a vector that is repeated. -/
theorem toList_bufferExpression_fixed {s : SignalShape} {w : Nat} (hs : s.shape = .matrix)
    (hw : s.bus = .fixed w) : (bufferExpression s).toList =
      "vec![".toList ++
        ((zeroVector w).toList ++ "; ".toList ++ (toString s.outputPorts).toList ++ "]".toList) := by
  rw [bufferExpression, hs, hw]
  simp only [String.toList_append, List.append_assoc]

/-- Other buses have their vectors listed. -/
theorem toList_bufferExpression_perPort {s : SignalShape} {m : SortedMap Nat Nat}
    (hs : s.shape = .matrix) (hm : s.bus = .perPort m) : (bufferExpression s).toList =
      "vec![".toList ++
        ((String.intercalate ", " (s.outputWidths.map zeroVector)).toList ++ "]".toList) := by
  rw [bufferExpression, hs, hm]
  simp only [String.toList_append, List.append_assoc]

theorem toList_bufferExpression_single {s : SignalShape} (hs : s.shape = .single) :
    (bufferExpression s).toList = (zeroVector s.outputPorts).toList := by
  rw [bufferExpression, hs]

/-- In single shape the expression tells the number of output ports. -/
theorem bufferExpression_eq_iff_of_single {s₁ s₂ : SignalShape} (hs₁ : s₁.shape = .single)
    (hs₂ : s₂.shape = .single) :
    bufferExpression s₁ = bufferExpression s₂ ↔ s₁.outputPorts = s₂.outputPorts := by
  rw [← String.toList_inj, toList_bufferExpression_single hs₁, toList_bufferExpression_single hs₂]
  constructor
  · intro h
    have h : (zeroVector s₁.outputPorts).toList ++ [] = (zeroVector s₂.outputPorts).toList ++ [] := by
      rw [h]
    exact (zeroVector_append_inj h).1
  · intro hports
    rw [hports]

/-- In matrix shape it tells the kind of bus and the output widths too. -/
theorem bufferExpression_eq_iff_of_matrix {s₁ s₂ : SignalShape} (hs₁ : s₁.shape = .matrix)
    (hs₂ : s₂.shape = .matrix) :
    bufferExpression s₁ = bufferExpression s₂ ↔ s₁.outputPorts = s₂.outputPorts ∧ s₁.SameBus s₂ := by
  rw [← String.toList_inj]
  -- one case for each form of the expression that either bus can have
  cases hb₁ : s₁.bus with
  | fixed w₁ =>
    rw [toList_bufferExpression_fixed hs₁ hb₁]
    cases hb₂ : s₂.bus with
    | fixed w₂ =>
      rw [toList_bufferExpression_fixed hs₂ hb₂, List.append_cancel_left_eq, fixed_eq_iff,
        SignalShape.sameBus_fixed hb₁ hb₂]
      exact and_comm
    | perPort m₂ =>
      rw [toList_bufferExpression_perPort hs₂ hb₂, List.append_cancel_left_eq]
      refine ⟨fun h => absurd h (fixed_ne_perPort _ _ _), fun h => ?_⟩
      exact absurd h.2 (SignalShape.not_sameBus_fixed_perPort hb₁ hb₂)
  | perPort m₁ =>
    rw [toList_bufferExpression_perPort hs₁ hb₁]
    cases hb₂ : s₂.bus with
    | fixed w₂ =>
      rw [toList_bufferExpression_fixed hs₂ hb₂, List.append_cancel_left_eq]
      refine ⟨fun h => absurd h.symm (fixed_ne_perPort _ _ _), fun h => ?_⟩
      exact absurd h.2 (SignalShape.not_sameBus_perPort_fixed hb₁ hb₂)
    | perPort m₂ =>
      rw [toList_bufferExpression_perPort hs₂ hb₂, List.append_cancel_left_eq,
        SignalShape.sameBus_perPort hb₁ hb₂, ← outputWidths_eq_iff]
      constructor
      · exact intercalate_zeroVector_inj
      · intro hwidths
        rw [hwidths]

/-- What the expression of the output buffer tells of a shape: the output ports and, in matrix shape,
the kind of bus and the output widths. -/
theorem bufferExpression_eq_iff {s₁ s₂ : SignalShape} (hshape : s₁.shape = s₂.shape) :
    bufferExpression s₁ = bufferExpression s₂ ↔
      s₁.outputPorts = s₂.outputPorts ∧ (s₁.shape = .matrix → s₁.SameBus s₂) := by
  cases hs₁ : s₁.shape with
  | single =>
    rw [bufferExpression_eq_iff_of_single hs₁ (hshape.symm.trans hs₁)]
    exact ⟨fun hports => ⟨hports, fun h => nomatch h⟩, And.left⟩
  | matrix =>
    rw [bufferExpression_eq_iff_of_matrix hs₁ (hshape.symm.trans hs₁)]
    exact and_congr_right fun _ => ⟨fun hbus _ => hbus, fun h => h rfl⟩

/-- The buffer expression is in one line. -/
theorem newline_not_mem_bufferExpression (s : SignalShape) : '\n' ∉ (bufferExpression s).toList := by
  cases hs : s.shape with
  | single =>
    rw [toList_bufferExpression_single hs]
    exact newline_not_mem_zeroVector _
  | matrix =>
    cases hb : s.bus with
    | fixed w =>
      rw [toList_bufferExpression_fixed hs hb]
      simp only [List.mem_append, not_or]
      exact ⟨by decide, ⟨⟨newline_not_mem_zeroVector w, by decide⟩, newline_not_mem_toString _⟩,
        by decide⟩
    | perPort m =>
      rw [toList_bufferExpression_perPort hs hb]
      simp only [List.mem_append, not_or]
      exact ⟨by decide, newline_not_mem_intercalate _, by decide⟩

end Template

end CircuitBlocks
