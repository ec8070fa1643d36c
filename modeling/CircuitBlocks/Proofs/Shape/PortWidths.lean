import CircuitBlocks.Proofs.SortedMap
import CircuitBlocks.Shape.Basic

/-!
# Port widths — what many settings come to

The widths of ports are set one by one. The first setting turns a bus of one width into a width for each port,
and every later one changes the entry of its port. So a port ends with the width that was set for it last, and
settings of different ports may change places.

* `SignalShape.setPortWidths` — the shape after settings, one after another.
* `lastWidth?` — the width that is set last for a port, which is all that counts: `get?_widthsOfBus_setPortWidths`.
* `SameForEachPort` — settings that differ only in the order of those of different ports.
* **`SignalShape.setPortWidths_overwrites`** — what settings change, and that they change nothing else.
-/

namespace CircuitBlocks

/-! ## Settings -/

/-- A width to be set for a port. -/
structure WidthSetting where
  port : Nat
  width : Nat
  deriving DecidableEq, Repr

/-- The width that the last of the settings of a port sets. -/
def lastWidth? (port : Nat) (settings : List WidthSetting) : Option Nat :=
  (settings.filter (·.port = port)).getLast?.map (·.width)

/-- Each port has the same settings in the same order. Those of different ports may stand in another order. -/
def SameForEachPort (settings others : List WidthSetting) : Prop :=
  ∀ port, settings.filter (·.port = port) = others.filter (·.port = port)

variable {settings others : List WidthSetting}

/-- A later setting of the port goes before. -/
theorem lastWidth?_cons (e : WidthSetting) (settings : List WidthSetting) (port : Nat) :
    lastWidth? port (e :: settings) = (lastWidth? port settings).or (if e.port = port then some e.width else none) := by
  by_cases h : e.port = port
  · rw [lastWidth?, List.filter_cons_of_pos (by simpa using h), List.getLast?_cons, if_pos h, lastWidth?]
    cases (settings.filter (·.port = port)).getLast? <;> rfl
  · rw [lastWidth?, List.filter_cons_of_neg (by simpa using h), if_neg h, Option.or_none]
    rfl

theorem SameForEachPort.lastWidth? (h : SameForEachPort settings others) (port : Nat) :
    CircuitBlocks.lastWidth? port settings = CircuitBlocks.lastWidth? port others := by
  rw [CircuitBlocks.lastWidth?, CircuitBlocks.lastWidth?, h port]

/-- Where there is a setting of some port, there is one in both. -/
theorem SameForEachPort.eq_nil (h : SameForEachPort settings others) (hnil : settings = []) : others = [] := by
  cases others with
  | nil => rfl
  | cons e rest =>
    have hsame := h e.port
    rw [hnil, List.filter_cons_of_pos (by simp)] at hsame
    cases hsame

/-! ## Buses -/

/-- The entries that a bus comes to tell the widths of its ports. -/
theorem BusWidth.width_eq (bus : BusWidth) {ports port : Nat} (h : port < ports) :
    bus.width port = ((SignalShape.widthsOfBus ports bus).get? port).getD 1 := by
  cases bus with
  | perPort widths => rfl
  | fixed w =>
    have hkeys : ((List.range ports).map fun p => (p, w)).map (·.1) = List.range ports := by
      rw [List.map_map]
      exact List.map_id _
    have hnodup : (((List.range ports).map fun p => (p, w)).map (·.1)).Nodup := by
      rw [hkeys]
      exact List.nodup_range
    -- a bus of one width is read as a setting for each port
    have hentry : (SignalShape.widthsOfBus ports (.fixed w)).get? port = some w :=
      (SortedMap.get?_ofList hnodup).2 (List.mem_map.2 ⟨port, List.mem_range.2 h, rfl⟩)
    rw [hentry]
    rfl

namespace SignalShape

/-! ## Shapes -/

/-- The shape after widths of ports were set, one after another. -/
def setPortWidths (s : SignalShape) (settings : List WidthSetting) : SignalShape :=
  settings.foldl (fun s e => s.setPortWidth e.port e.width) s

@[simp] theorem setPortWidths_cons (s : SignalShape) (e : WidthSetting) (settings : List WidthSetting) :
    s.setPortWidths (e :: settings) = (s.setPortWidth e.port e.width).setPortWidths settings := rfl

/-- Settings leave all but the bus alone. -/
theorem setPortWidths_eq (s : SignalShape) (settings : List WidthSetting) :
    s.setPortWidths settings = { s with bus := (s.setPortWidths settings).bus } := by
  induction settings generalizing s with
  | nil => rfl
  | cons e settings ih =>
    rw [setPortWidths_cons, ih]
    rfl

/-- After a setting the bus has a width for each port. -/
theorem exists_perPort (s : SignalShape) (hsome : settings ≠ []) :
    ∃ widths, (s.setPortWidths settings).bus = .perPort widths := by
  induction settings generalizing s with
  | nil => contradiction
  | cons e settings ih =>
    cases settings with
    | nil => exact ⟨_, rfl⟩
    | cons f settings => exact ih (s.setPortWidth e.port e.width) (List.cons_ne_nil f settings)

/-- A port that was set has the width that was set last, and any other the entry that the bus came to before. -/
theorem get?_widthsOfBus_setPortWidths (s : SignalShape) (settings : List WidthSetting) (port : Nat) :
    (widthsOfBus s.outputPorts (s.setPortWidths settings).bus).get? port
      = (lastWidth? port settings).or ((widthsOfBus s.outputPorts s.bus).get? port) := by
  induction settings generalizing s with
  | nil => rfl
  | cons e settings ih =>
    -- the first setting is in force where no later one is for the same port
    have hset : (widthsOfBus s.outputPorts (s.setPortWidth e.port e.width).bus).get? port
        = if port = e.port then some e.width else (widthsOfBus s.outputPorts s.bus).get? port :=
      SortedMap.get?_insert _ _ _ _
    have hrest := ih (s.setPortWidth e.port e.width)
    rw [setPortWidths_cons, lastWidth?_cons, Option.or_assoc]
    refine hrest.trans (congrArg (Option.or _) (hset.trans ?_))
    by_cases h : port = e.port
    · simp [h]
    · simp [h, Ne.symm h]

/-- The width of a port after settings. -/
theorem width_setPortWidths (s : SignalShape) (settings : List WidthSetting) {port : Nat}
    (h : port < s.outputPorts) :
    (s.setPortWidths settings).bus.width port = (lastWidth? port settings).getD (s.bus.width port) := by
  rw [BusWidth.width_eq _ h, BusWidth.width_eq _ h, get?_widthsOfBus_setPortWidths]
  cases lastWidth? port settings <;> rfl

/-- Settings that are the same for each port come to the same shape. -/
theorem setPortWidths_congr (s : SignalShape) (h : SameForEachPort settings others) :
    s.setPortWidths settings = s.setPortWidths others := by
  by_cases hnil : settings = []
  · rw [hnil, h.eq_nil hnil]
  · have hothers : others ≠ [] := fun hempty => hnil (SameForEachPort.eq_nil (fun port => (h port).symm) hempty)
    obtain ⟨widths, hwidths⟩ := s.exists_perPort hnil
    obtain ⟨widths', hwidths'⟩ := s.exists_perPort hothers
    -- both are maps with the same widths, so they are one map
    have hentries : widths = widths' := by
      refine SortedMap.ext_get? fun port => ?_
      have hleft := s.get?_widthsOfBus_setPortWidths settings port
      have hright := s.get?_widthsOfBus_setPortWidths others port
      rw [hwidths] at hleft
      rw [hwidths'] at hright
      rw [h.lastWidth? port] at hleft
      exact hleft.trans hright.symm
    rw [setPortWidths_eq, s.setPortWidths_eq others, hwidths, hwidths', hentries]

/-- **The last width wins.** After settings, an output port has in matrix shape the width that was set for it last,
or the width that it had. The procedure and the numbers of ports stay, and in single shape all widths are one all the
while. If settings of different ports change places, the shape comes out the same. -/
theorem setPortWidths_overwrites (s : SignalShape) (settings : List WidthSetting) :
    (∀ port < s.outputPorts, ((s.setPortWidths settings).withShape .matrix).outputWidth port
      = (lastWidth? port settings).getD ((s.withShape .matrix).outputWidth port)) ∧
    (s.setPortWidths settings).shape = s.shape ∧
    (s.setPortWidths settings).inputPorts = s.inputPorts ∧
    (s.setPortWidths settings).outputPorts = s.outputPorts ∧
    (s.shape = .single → ∀ done, done <+: settings →
      (s.setPortWidths done).outputWidths = List.replicate s.outputPorts 1) ∧
    ∀ others, SameForEachPort settings others → s.setPortWidths others = s.setPortWidths settings := by
  refine ⟨fun port h => s.width_setPortWidths settings h, ?_, ?_, ?_, fun hsingle done _ => ?_,
    fun others h => (s.setPortWidths_congr h).symm⟩
  · rw [setPortWidths_eq]
  · rw [setPortWidths_eq]
  · rw [setPortWidths_eq]
  · rw [setPortWidths_eq, outputWidths, hsingle]

/-- On a bus of width three, port 0 is set twice, and a port that is not there is set in between. -/
theorem setPortWidths_overwrites_fixed :
    let s : SignalShape := ⟨.matrix, 1, 3, .fixed 3⟩
    let settings : List WidthSetting := [⟨0, 2⟩, ⟨7, 9⟩, ⟨0, 5⟩]
    (s.setPortWidths settings).outputWidth 0 = 5 ∧ (s.setPortWidths settings).outputWidth 1 = 3 ∧
    s.setPortWidths [⟨7, 9⟩, ⟨0, 2⟩, ⟨0, 5⟩] = s.setPortWidths settings ∧
    ((s.withShape .single).setPortWidths [⟨0, 2⟩]).outputWidths = [1, 1, 1] := by
  intro s settings
  obtain ⟨hwidth, -, -, -, -, hsame⟩ := s.setPortWidths_overwrites settings
  obtain ⟨-, -, -, -, hsingle, -⟩ := (s.withShape .single).setPortWidths_overwrites settings
  refine ⟨hwidth 0 (by decide), hwidth 1 (by decide), hsame _ fun port => ?_, hsingle rfl _ ⟨_, rfl⟩⟩
  -- to change the order of two ports leaves each one's settings in theirs
  by_cases hport : port = 7
  · rw [hport]
    decide
  · simp [settings, List.filter_cons, Ne.symm hport]

end SignalShape

end CircuitBlocks
