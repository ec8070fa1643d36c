import CircuitBlocks.Proofs.Block.Faults

/-!
# Numbers — where the first NaN of a step is

The procedure writes the outputs end to end, and a NaN among them is found by its index there. The fault names a
port and a channel instead. Widths may be zero, so several ports can begin at one index; the place of a value is in
the one port that reaches beyond it.

* `Signals.channel?` — the value of a channel, and `Signals.channel?_cut` its index among flat values.
* `Block.placeOf?_eq_some_iff` — the place of an index, told by the widths of the ports before it.
* `Block.firstNaN?_eq_some_iff` — the first NaN, told by its index.
* **`Block.firstNaN?_exact`** — a NaN is found if there is one, and the place that is named is that of the first.
-/

namespace CircuitBlocks

namespace Signals

variable {ws : List Nat} {flat : List Float} {port channel : Nat}

/-! ## Places -/

/-- The value of a channel of a port. -/
def channel? (ports : List (List Float)) (port channel : Nat) : Option Float :=
  ports[port]?.bind fun values => values[channel]?

/-- Whether one place comes before another, port after port and channel after channel. -/
def Before (port channel port' channel' : Nat) : Prop := port < port' ∨ port = port' ∧ channel < channel'

/-- A port ends where a later one begins, or before. -/
theorem totalWidth_take_le {w later : Nat} (hw : ws[port]? = some w) (h : port < later) :
    totalWidth (ws.take port) + w ≤ totalWidth (ws.take later) := by
  -- a later port has one before it
  obtain ⟨later, rfl⟩ : ∃ k, later = k + 1 := ⟨later - 1, by omega⟩
  induction ws generalizing port later with
  | nil => cases hw
  | cons first rest ih =>
    rw [List.take_succ_cons, totalWidth_cons]
    cases port with
    | zero =>
      obtain rfl : first = w := Option.some.inj hw
      rw [List.take_zero, totalWidth_nil]
      omega
    | succ port =>
      obtain ⟨k, rfl⟩ : ∃ k, later = k + 1 := ⟨later - 1, by omega⟩
      have hrest := ih hw k (by omega)
      rw [List.take_succ_cons, totalWidth_cons]
      omega

/-- The channels of ports stand in the order of their places. -/
theorem index_lt_of_before {w port' channel' : Nat} (hw : ws[port]? = some w) (hchannel : channel < w)
    (h : Before port channel port' channel') :
    totalWidth (ws.take port) + channel < totalWidth (ws.take port') + channel' := by
  rcases h with hport | ⟨rfl, hlt⟩
  · have := totalWidth_take_le hw hport
    omega
  · omega

/-- The value of a channel stands behind the ports before its own and the channels before it. -/
theorem channel?_cut {v : Float} : channel? (cut ws flat) port channel = some v ↔
    ∃ w, ws[port]? = some w ∧ channel < w ∧ flat[totalWidth (ws.take port) + channel]? = some v := by
  induction ws generalizing flat port with
  | nil => simp [channel?, cut]
  | cons w rest ih =>
    cases port with
    | zero =>
      show (flat.take w)[channel]? = some v ↔ _
      rw [List.getElem?_take]
      by_cases hlt : channel < w <;> simp [hlt]
    | succ port =>
      -- the port is one of those behind the first, whose values are dropped
      show channel? (cut rest (flat.drop w)) port channel = some v ↔ _
      rw [ih]
      simp only [List.getElem?_cons_succ, List.getElem?_drop, List.take_succ_cons, totalWidth_cons,
        Nat.add_assoc]

end Signals

namespace Block

variable {values : List Float} {widths : List Nat} {port channel index : Nat}

/-- The place of an index is the channel of a port that is reached after the ports before it. -/
theorem placeOf?_eq_some_iff : placeOf? widths index = some (port, channel) ↔
    ∃ w, widths[port]? = some w ∧ channel < w ∧ Signals.totalWidth (widths.take port) + channel = index := by
  induction widths generalizing index port with
  | nil => simp [placeOf?]
  | cons w rest ih =>
    rw [placeOf?]
    split
    · next hfirst =>
      cases port with
      | zero =>
        simp only [Option.some.injEq, Prod.mk.injEq, true_and, List.getElem?_cons_zero, List.take_zero,
          Signals.totalWidth_nil, Nat.zero_add, exists_eq_left']
        omega
      | succ port =>
        -- the later ports begin beyond the index
        simp only [Option.some.injEq, Prod.mk.injEq, List.take_succ_cons, Signals.totalWidth_cons]
        omega
    · next hlater =>
      cases port with
      | zero =>
        simp
        omega
      | succ port =>
        have hshift : ∀ n, n = index - w ↔ w + n = index := by omega
        simp [ih, hshift, Nat.add_assoc]

/-! ## The first NaN -/

/-- Whether the first NaN among values is at an index. -/
def FirstNaNAt (values : List Float) (index : Nat) : Prop :=
  (∃ v, values[index]? = some v ∧ v.isNaN = true) ∧ ∀ i < index, ∀ v, values[i]? = some v → v.isNaN = false

theorem findIdx?_eq_some_iff : values.findIdx? Float.isNaN = some index ↔ FirstNaNAt values index := by
  rw [List.findIdx?_eq_some_iff_getElem]
  constructor
  · rintro ⟨hindex, hnan, hearlier⟩
    refine ⟨⟨_, List.getElem?_eq_getElem hindex, hnan⟩, fun i hi v hv => ?_⟩
    obtain ⟨hlt, rfl⟩ := List.getElem?_eq_some_iff.1 hv
    exact Bool.eq_false_iff.2 (hearlier i hi)
  · rintro ⟨⟨v, hv, hnan⟩, hearlier⟩
    obtain ⟨hindex, rfl⟩ := List.getElem?_eq_some_iff.1 hv
    exact ⟨hindex, hnan, fun i hi => Bool.eq_false_iff.1 (hearlier i hi _ (List.getElem?_eq_getElem _))⟩

/-- The place of the first NaN is the place of its index. -/
theorem firstNaN?_eq_some_iff : firstNaN? values widths = some (port, channel) ↔
    (∃ w, widths[port]? = some w ∧ channel < w) ∧
      FirstNaNAt values (Signals.totalWidth (widths.take port) + channel) := by
  rw [firstNaN?, Option.bind_eq_some_iff]
  constructor
  · rintro ⟨index, hindex, hplace⟩
    obtain ⟨w, hw, hchannel, rfl⟩ := placeOf?_eq_some_iff.1 hplace
    exact ⟨⟨w, hw, hchannel⟩, findIdx?_eq_some_iff.1 hindex⟩
  · rintro ⟨⟨w, hw, hchannel⟩, hfirst⟩
    exact ⟨_, findIdx?_eq_some_iff.2 hfirst, placeOf?_eq_some_iff.2 ⟨w, hw, hchannel, rfl⟩⟩

/-- No NaN is found just if there is none, as long as every value has a place. -/
theorem firstNaN?_eq_none_iff (hlength : values.length = Signals.totalWidth widths) :
    firstNaN? values widths = none ↔ ∀ v ∈ values, v.isNaN = false := by
  refine ⟨not_isNaN_of_firstNaN? hlength, fun hnumbers => ?_⟩
  rw [firstNaN?, List.findIdx?_eq_none_iff.2 hnumbers, Option.bind_none]

/-- Otherwise one is found. -/
theorem exists_firstNaN?_iff (hlength : values.length = Signals.totalWidth widths) :
    (∃ port channel, firstNaN? values widths = some (port, channel)) ↔ ∃ v ∈ values, v.isNaN = true := by
  constructor
  · rintro ⟨port, channel, hfound⟩
    obtain ⟨-, ⟨v, hv, hnan⟩, -⟩ := firstNaN?_eq_some_iff.1 hfound
    exact ⟨v, List.mem_of_getElem? hv, hnan⟩
  · rintro ⟨v, hv, hnan⟩
    cases hfound : firstNaN? values widths with
    | none => exact nomatch hnan.symm.trans ((firstNaN?_eq_none_iff hlength).1 hfound v hv)
    | some place => exact ⟨place.1, place.2, rfl⟩

/-! ## The place among the ports -/

/-- Whether the first NaN of ports is in a channel. -/
def FirstNaNIn (ports : List (List Float)) (port channel : Nat) : Prop :=
  (∃ v, Signals.channel? ports port channel = some v ∧ v.isNaN = true) ∧
    ∀ port' channel' v, Signals.Before port' channel' port channel →
      Signals.channel? ports port' channel' = some v → v.isNaN = false

/-- The place that is named is that of the first NaN in the matrix. -/
theorem firstNaNIn_of_firstNaN? (h : firstNaN? values widths = some (port, channel)) :
    FirstNaNIn (Signals.cut widths values) port channel := by
  obtain ⟨⟨w, hw, hchannel⟩, ⟨v, hv, hnan⟩, hearlier⟩ := firstNaN?_eq_some_iff.1 h
  refine ⟨⟨v, Signals.channel?_cut.2 ⟨w, hw, hchannel, hv⟩, hnan⟩, fun port' channel' u hbefore hu => ?_⟩
  obtain ⟨w', hw', hchannel', hvalue⟩ := Signals.channel?_cut.1 hu
  exact hearlier _ (Signals.index_lt_of_before hw' hchannel' hbefore) u hvalue

theorem firstNaN?_eq_some_iff_in (hlength : values.length = Signals.totalWidth widths) :
    firstNaN? values widths = some (port, channel) ↔ FirstNaNIn (Signals.cut widths values) port channel := by
  refine ⟨firstNaNIn_of_firstNaN?, fun ⟨⟨v, hv, hnan⟩, hearlier⟩ => ?_⟩
  obtain ⟨-, -, -, hvalue⟩ := Signals.channel?_cut.1 hv
  cases hfound : firstNaN? values widths with
  | none =>
    have hnumber := not_isNaN_of_firstNaN? hlength hfound v (List.mem_of_getElem? hvalue)
    exact nomatch hnan.symm.trans hnumber
  | some place =>
    -- neither place comes before the other
    obtain ⟨port', channel'⟩ := place
    obtain ⟨⟨u, hu, hnan'⟩, hearlier'⟩ := firstNaNIn_of_firstNaN? hfound
    have hnot : ¬ Signals.Before port' channel' port channel := fun hbefore =>
      nomatch hnan'.symm.trans (hearlier port' channel' u hbefore hu)
    have hnot' : ¬ Signals.Before port channel port' channel' := fun hbefore =>
      nomatch hnan.symm.trans (hearlier' port channel v hbefore hv)
    obtain ⟨rfl, rfl⟩ : port' = port ∧ channel' = channel := by
      unfold Signals.Before at hnot hnot'
      omega
    rfl

/-! ## Steps -/

variable {b : Block} {time dt : Float} {inputs : Signals} {run : ActiveRun} {args : Step} {reply : StepReply}

/-- After a success the values decide. -/
theorem step_of_success (hcall : b.call? time dt inputs = some (run, args))
    (hreply : run.table.compute run.memory args = reply) (hstatus : CallStatus.ofCode reply.code = .ok) :
    (∃ port channel, firstNaN? (reply.buffer (Signals.totalWidth args.outputWidths)) args.outputWidths
        = some (port, channel) ∧ (b.step time dt inputs).1 = .error (.notANumber port channel time)) ∨
    firstNaN? (reply.buffer (Signals.totalWidth args.outputWidths)) args.outputWidths = none ∧
      (b.step time dt inputs).1
        = .ok (.ofFlat b.shape.shape (reply.buffer (Signals.totalWidth args.outputWidths)) args.outputWidths) := by
  rw [step_of_call hcall, hreply]
  cases hfound : firstNaN? (reply.buffer (Signals.totalWidth args.outputWidths)) args.outputWidths with
  | some place => exact .inl ⟨place.1, place.2, rfl, by simp only [outputs, hstatus, hfound]⟩
  | none => exact .inr ⟨rfl, by simp only [outputs, hstatus, hfound]⟩

/-- A step fails on a NaN just if one is found, and names its place. -/
theorem step_eq_notANumber_iff (hcall : b.call? time dt inputs = some (run, args))
    (hreply : run.table.compute run.memory args = reply) (hstatus : CallStatus.ofCode reply.code = .ok) :
    (b.step time dt inputs).1 = .error (.notANumber port channel time) ↔
      firstNaN? (reply.buffer (Signals.totalWidth args.outputWidths)) args.outputWidths
        = some (port, channel) := by
  rcases step_of_success hcall hreply hstatus with ⟨port', channel', hfound, hstep⟩ | ⟨hfound, hstep⟩ <;>
    simp [hfound, hstep]

/-- A step gives outputs just if there is no NaN among them. -/
theorem step_eq_ok_iff (hcall : b.call? time dt inputs = some (run, args))
    (hreply : run.table.compute run.memory args = reply) (hstatus : CallStatus.ofCode reply.code = .ok) :
    (b.step time dt inputs).1
        = .ok (.ofFlat b.shape.shape (reply.buffer (Signals.totalWidth args.outputWidths)) args.outputWidths) ↔
      ∀ v ∈ reply.buffer (Signals.totalWidth args.outputWidths), v.isNaN = false := by
  rw [← firstNaN?_eq_none_iff (reply.length_buffer _)]
  rcases step_of_success hcall hreply hstatus with ⟨port, channel, hfound, hstep⟩ | ⟨hfound, hstep⟩ <;>
    simp [hfound, hstep]

/-- **NaNs are found, and where they are.** Of values that have their places by widths, some of which may be zero,
none is found to be a NaN just if none is one. Otherwise the first is found: the place that is named is in its
port, behind as many values as its index says, and in the matrix that is cut from the values it holds a NaN, as
no place before it does. So a step that the procedure calls a success fails just if there is a NaN among the
outputs, at the first of them, and gives all of them if there is none. -/
theorem firstNaN?_exact (hlength : values.length = Signals.totalWidth widths) :
    (firstNaN? values widths = none ↔ ∀ v ∈ values, v.isNaN = false) ∧
    (∀ port channel, firstNaN? values widths = some (port, channel) ↔
      (∃ w, widths[port]? = some w ∧ channel < w) ∧
        FirstNaNAt values (Signals.totalWidth (widths.take port) + channel)) ∧
    (∃ ports, Signals.ofFlat? .matrix values widths = some (.matrix ports) ∧
      ∀ port channel, firstNaN? values widths = some (port, channel) ↔ FirstNaNIn ports port channel) ∧
    ∀ (b : Block) (time dt : Float) (inputs : Signals) (run : ActiveRun) (args : Step) (reply : StepReply),
      b.call? time dt inputs = some (run, args) → run.table.compute run.memory args = reply →
      CallStatus.ofCode reply.code = .ok →
      ((∃ port channel, (b.step time dt inputs).1 = .error (.notANumber port channel time)) ↔
        ∃ v ∈ reply.buffer (Signals.totalWidth args.outputWidths), v.isNaN = true) ∧
      (∀ port channel, (b.step time dt inputs).1 = .error (.notANumber port channel time) ↔
        FirstNaNIn (Signals.cut args.outputWidths (reply.buffer (Signals.totalWidth args.outputWidths)))
          port channel) ∧
      ((b.step time dt inputs).1
          = .ok (.ofFlat b.shape.shape (reply.buffer (Signals.totalWidth args.outputWidths)) args.outputWidths) ↔
        ∀ v ∈ reply.buffer (Signals.totalWidth args.outputWidths), v.isNaN = false) := by
  refine ⟨firstNaN?_eq_none_iff hlength, fun _ _ => firstNaN?_eq_some_iff,
    ⟨_, Signals.ofFlat?_eq_some .matrix hlength, fun _ _ => firstNaN?_eq_some_iff_in hlength⟩,
    fun b time dt inputs run args reply hcall hreply hstatus => ?_⟩
  -- the step names the place that is found in the buffer
  have hnamed : ∀ port channel, (b.step time dt inputs).1 = .error (.notANumber port channel time) ↔
      firstNaN? (reply.buffer (Signals.totalWidth args.outputWidths)) args.outputWidths = some (port, channel) :=
    fun _ _ => step_eq_notANumber_iff hcall hreply hstatus
  have hbuffer := reply.length_buffer (Signals.totalWidth args.outputWidths)
  exact ⟨(exists_congr fun port => exists_congr (hnamed port)).trans (exists_firstNaN?_iff hbuffer),
    fun port channel => (hnamed port channel).trans (firstNaN?_eq_some_iff_in hbuffer),
    step_eq_ok_iff hcall hreply hstatus⟩

/-- A run of a procedure whose second of three ports is empty, and that gives an infinity and a NaN. -/
def notANumberRun : ActiveRun where
  table := ⟨contractVersion, 1, some [], fun memory => (memory, CallStatus.okCode),
    fun memory _ => ⟨memory, CallStatus.okCode, [0.0, 1.0 / 0.0, 0.0, 0.0 / 0.0]⟩⟩
  memory := []
  outputWidths := [2, 0, 2]
  dt := 0.5

/-- The NaN is in the last port, although the empty one begins where that does, and the step names this place. -/
theorem firstNaN?_exact_behind_empty_port :
    [0.0, 1.0 / 0.0, 0.0, 0.0 / 0.0].length = Signals.totalWidth [2, 0, 2] ∧
    firstNaN? [0.0, 1.0 / 0.0, 0.0, 0.0 / 0.0] [2, 0, 2] = some (2, 1) ∧
    ∃ b : Block, b.run = some notANumberRun ∧ b.shape.outputWidths = [2, 0, 2] ∧
      (b.step 0.5 0.5 (.matrix [])).1 = .error (.notANumber 2 1 0.5) := by
  have hlength : [0.0, 1.0 / 0.0, 0.0, (0.0 / 0.0 : Float)].length = Signals.totalWidth [2, 0, 2] := rfl
  have hindex : [0.0, 1.0 / 0.0, 0.0, (0.0 / 0.0 : Float)].findIdx? Float.isNaN = some 3 := by decide
  obtain ⟨-, hplaced, ⟨ports, hcut, hmatrix⟩, hsteps⟩ := firstNaN?_exact hlength
  have hfound := (hplaced 2 1).2 ⟨⟨2, rfl, by omega⟩, findIdx?_eq_some_iff.1 hindex⟩
  -- the two views, flat and by ports, are of the same values
  have hports : ports = Signals.cut [2, 0, 2] [0.0, 1.0 / 0.0, 0.0, 0.0 / 0.0] :=
    (Signals.matrix.inj (Option.some.inj hcut)).symm
  obtain ⟨b, hb⟩ : ∃ b : Block, b = { bare {} with
      shape := ⟨.matrix, 0, 3, .perPort (.ofList [(0, 2), (1, 0), (2, 2)])⟩, run := some notANumberRun } := ⟨_, rfl⟩
  have hcall : b.call? 0.5 0.5 (.matrix [])
      = some (notANumberRun, notANumberRun.arguments (.matrix []) 0.5 0.5) := by
    rw [hb]
    rfl
  obtain ⟨-, hnamed, -⟩ := hsteps b 0.5 0.5 (.matrix []) notANumberRun _ _ hcall rfl rfl
  refine ⟨hlength, hfound, b, by rw [hb], by rw [hb]; decide, (hnamed 2 1).2 ?_⟩
  exact hports ▸ (hmatrix 2 1).1 hfound

end Block

end CircuitBlocks
