import CircuitBlocks.MessagePack.Parser
import CircuitBlocks.MessagePack.Printer

/-!
# MessagePack — what is written reads back

The reader works on a stack of open arrays and maps, so a value is read back in any stack: reading its
bytes is the same as completing the value there and going on with the bytes that follow.

* `Fits` — the values that have a format and are not nested too deep.
* `decodeInto?_encode` — a written value is read in any stack with room for it.
* **`decode?_encode`** — a written value reads back, whatever follows.
-/

namespace CircuitBlocks.MessagePack

open BigEndian (capacity)

/-! ## Values with a format -/

/-- The values that have a format, with at most `depth` values that have parts inside of each other. -/
inductive Fits : (depth : Nat) → MessagePack → Prop where
  | nil {depth} : Fits depth .nil
  | bool {depth} (b : Bool) : Fits depth (.bool b)
  | natural {depth n} (h : n < capacity 8) : Fits depth (.natural n)
  | string {depth bytes} (h : bytes.length < capacity 4) : Fits depth (.string bytes)
  | binary {depth bytes} (h : bytes.length < capacity 4) : Fits depth (.binary bytes)
  | array {depth items} (h : items.length < capacity 4) (hitems : ∀ v ∈ items, Fits depth v) :
      Fits (depth + 1) (.array items)
  | map {depth entries} (h : entries.length < capacity 4) (hkeys : ∀ e ∈ entries, Fits depth e.1)
      (hvalues : ∀ e ∈ entries, Fits depth e.2) : Fits (depth + 1) (.map entries)

/-- What fits a depth fits any greater one. -/
theorem Fits.mono {depth more : Nat} {v : MessagePack} (h : Fits depth v) (hle : depth ≤ more) :
    Fits more v := by
  induction h generalizing more with
  | nil => exact .nil
  | bool b => exact .bool b
  | natural hn => exact .natural hn
  | string hn => exact .string hn
  | binary hn => exact .binary hn
  | array hn _ ih =>
    obtain ⟨more, rfl⟩ : ∃ k, more = k + 1 := ⟨more - 1, by omega⟩
    exact .array hn fun v hv => ih v hv (by omega)
  | map hn _ _ ihk ihv =>
    obtain ⟨more, rfl⟩ : ∃ k, more = k + 1 := ⟨more - 1, by omega⟩
    exact .map hn (fun e he => ihk e he (by omega)) fun e he => ihv e he (by omega)

/-! ## Data -/

theorem takeBytes?_append (front rest : List UInt8) :
    takeBytes? front.length (front ++ rest) = some (front, rest) := by
  rw [takeBytes?, List.take_left, if_pos rfl, List.drop_left]

/-- A number is taken back from its bytes. -/
theorem takeNatural?_encode {count n : Nat} (h : n < capacity count) (rest : List UInt8) :
    takeNatural? count (BigEndian.encode count n ++ rest) = some (n, rest) := by
  have htake := takeBytes?_append (BigEndian.encode count n) rest
  rw [BigEndian.length_encode] at htake
  rw [takeNatural?, htake]
  show some (BigEndian.decode (BigEndian.encode count n), rest) = some (n, rest)
  rw [BigEndian.decode_encode h]

theorem takeSized?_encode {count : Nat} {bytes : List UInt8} (h : bytes.length < capacity count)
    (rest : List UInt8) :
    takeSized? count (BigEndian.encode count bytes.length ++ (bytes ++ rest)) = some (bytes, rest) := by
  rw [takeSized?, takeNatural?_encode h]
  exact takeBytes?_append bytes rest

/-! ## Heads -/

theorem toNat_ofNat_of_lt {n : Nat} (h : n < 256) : (UInt8.ofNat n).toNat = n :=
  UInt8.toNat_ofNat_of_lt h

theorem format?_shortNatural {n : Nat} (h : n < 128) :
    format? (UInt8.ofNat n) = some (.single (.natural n)) := by
  rw [format?, toNat_ofNat_of_lt (by omega), if_pos h]

theorem format?_shortMap {size : Nat} (h : size < 16) :
    format? (UInt8.ofNat (0x80 + size)) = some (.shortMap size) := by
  rw [format?, toNat_ofNat_of_lt (by omega), if_neg (by omega), if_pos (by omega),
    Nat.add_sub_cancel_left]

theorem format?_shortArray {size : Nat} (h : size < 16) :
    format? (UInt8.ofNat (0x90 + size)) = some (.shortArray size) := by
  rw [format?, toNat_ofNat_of_lt (by omega), if_neg (by omega), if_neg (by omega),
    if_pos (by omega), Nat.add_sub_cancel_left]

theorem format?_shortString {size : Nat} (h : size < 32) :
    format? (UInt8.ofNat (0xA0 + size)) = some (.shortString size) := by
  rw [format?, toNat_ofNat_of_lt (by omega), if_neg (by omega), if_neg (by omega),
    if_neg (by omega), if_pos (by omega), Nat.add_sub_cancel_left]

/-- Bytes that begin with a head. -/
def Begins (bytes : List UInt8) (h : Head) (rest : List UInt8) : Prop :=
  ∃ first more, bytes = first :: more ∧ head? first more = some (h, rest)

/-- A head is told by its first byte, and read off the bytes behind it. -/
theorem Begins.of_format (first : UInt8) {more rest : List UInt8} {f : Format} {h : Head}
    (hf : format? first = some f) (hr : f.read? more = some (h, rest)) :
    Begins (first :: more) h rest := by
  refine ⟨first, more, rfl, ?_⟩
  rw [head?, hf]
  exact hr

/-- The formats that tell a number in the bytes after the first one. -/
def Format.Tells (f : Nat → Format) (head : Nat → Head) : Prop :=
  ∀ count bytes, (f count).read? bytes = (takeNatural? count bytes).map fun r => (head r.1, r.2)

theorem Format.tells_natural : Tells .natural fun n => .value (.natural n) := by
  intro count bytes
  rw [Format.read?]
  cases takeNatural? count bytes <;> rfl

theorem Format.tells_array : Tells .array .array := by
  intro count bytes
  rw [Format.read?]
  cases takeNatural? count bytes <;> rfl

theorem Format.tells_map : Tells .map .map := by
  intro count bytes
  rw [Format.read?]
  cases takeNatural? count bytes <;> rfl

/-- A head that is a number of bytes tells the number. -/
theorem Begins.of_tells {f : Nat → Format} {head : Nat → Head} (hf : Format.Tells f head)
    {first : UInt8} {count n : Nat} (hfirst : format? first = some (f count))
    (hn : n < capacity count) (rest : List UInt8) :
    Begins (first :: (BigEndian.encode count n ++ rest)) (head n) rest := by
  refine Begins.of_format _ hfirst ?_
  rw [hf, takeNatural?_encode hn]
  rfl

/-- A number is told by the shortest head that has room for it. -/
theorem begins_naturalBytes {n : Nat} (h : n < capacity 8) (rest : List UInt8) :
    Begins (naturalBytes n ++ rest) (.value (.natural n)) rest := by
  have htells := Format.tells_natural
  rw [naturalBytes]
  split
  · next hn => exact Begins.of_format _ (format?_shortNatural hn) rfl
  · split
    · next hn => exact Begins.of_tells htells rfl hn rest
    · split
      · next hn => exact Begins.of_tells htells rfl hn rest
      · split
        · next hn => exact Begins.of_tells htells rfl hn rest
        · exact Begins.of_tells htells rfl h rest

theorem begins_arrayHead {size : Nat} (h : size < capacity 4) (rest : List UInt8) :
    Begins (arrayHead size ++ rest) (.array size) rest := by
  rw [arrayHead]
  split
  · next hn => exact Begins.of_format _ (format?_shortArray hn) rfl
  · split
    · next hn => exact Begins.of_tells Format.tells_array rfl hn rest
    · exact Begins.of_tells Format.tells_array rfl h rest

theorem begins_mapHead {size : Nat} (h : size < capacity 4) (rest : List UInt8) :
    Begins (mapHead size ++ rest) (.map size) rest := by
  rw [mapHead]
  split
  · next hn => exact Begins.of_format _ (format?_shortMap hn) rfl
  · split
    · next hn => exact Begins.of_tells Format.tells_map rfl hn rest
    · exact Begins.of_tells Format.tells_map rfl h rest

/-- The formats that hold data of a size told in the bytes after the first one. -/
def Format.Holds (f : Nat → Format) (wrap : List UInt8 → MessagePack) : Prop :=
  ∀ count bytes, (f count).read? bytes = (takeSized? count bytes).map fun r => (.value (wrap r.1), r.2)

theorem Format.holds_string : Holds .string .string := by
  intro count bytes
  rw [Format.read?]
  cases takeSized? count bytes <;> rfl

theorem Format.holds_binary : Holds .binary .binary := by
  intro count bytes
  rw [Format.read?]
  cases takeSized? count bytes <;> rfl

/-- A head that is a length holds as many bytes. -/
theorem Begins.of_holds {f : Nat → Format} {wrap : List UInt8 → MessagePack}
    (hf : Format.Holds f wrap) {first : UInt8} {count : Nat} {bytes : List UInt8}
    (hfirst : format? first = some (f count)) (h : bytes.length < capacity count)
    (rest : List UInt8) :
    Begins (first :: (BigEndian.encode count bytes.length ++ (bytes ++ rest))) (.value (wrap bytes))
      rest := by
  refine Begins.of_format _ hfirst ?_
  rw [hf, takeSized?_encode h]
  rfl

/-- A text is told by the shortest head that has room for its length. -/
theorem begins_string {bytes : List UInt8} (h : bytes.length < capacity 4) (rest : List UInt8) :
    Begins (stringHead bytes.length ++ (bytes ++ rest)) (.value (.string bytes)) rest := by
  rw [stringHead]
  split
  · next hn =>
    refine Begins.of_format _ (format?_shortString hn) ?_
    rw [Format.read?]
    show (takeBytes? bytes.length (bytes ++ rest)).bind _ = _
    rw [takeBytes?_append]
    rfl
  · split
    · next hn => exact Begins.of_holds Format.holds_string rfl hn rest
    · split
      · next hn => exact Begins.of_holds Format.holds_string rfl hn rest
      · exact Begins.of_holds Format.holds_string rfl h rest

theorem begins_binary {bytes : List UInt8} (h : bytes.length < capacity 4) (rest : List UInt8) :
    Begins (binaryHead bytes.length ++ (bytes ++ rest)) (.value (.binary bytes)) rest := by
  rw [binaryHead]
  split
  · next hn => exact Begins.of_holds Format.holds_binary rfl hn rest
  · split
    · next hn => exact Begins.of_holds Format.holds_binary rfl hn rest
    · exact Begins.of_holds Format.holds_binary rfl h rest

/-! ## Reading on -/

/-- What is read of the bytes after a value was completed. -/
def resume? (r : MessagePack ⊕ List Frame) (rest : List UInt8) : Option (MessagePack × List UInt8) :=
  match r with
  | .inl v => some (v, rest)
  | .inr stack => decodeInto? stack rest

/-- Bytes that begin with a head are read on with what becomes of it. -/
theorem Begins.decodeInto? {bytes rest : List UInt8} {h : Head} (hb : Begins bytes h rest)
    {stack : List Frame} {r : MessagePack ⊕ List Frame} (henter : enter? h stack = some r) :
    decodeInto? stack bytes = resume? r rest := by
  obtain ⟨first, more, rfl, hhead⟩ := hb
  rw [MessagePack.decodeInto?]
  split
  · next hnone => rw [hhead] at hnone; cases hnone
  · next h' rest' hsome =>
    obtain ⟨rfl, rfl⟩ := Prod.mk.inj (Option.some.inj (hhead.symm.trans hsome))
    rw [henter]
    cases r <;> rfl

theorem enter?_of_no_parts {h : Head} {v : MessagePack} (hv : h = .value v) (hparts : h.hasParts = false)
    (stack : List Frame) : enter? h stack = some (complete v stack) := by
  subst hv
  rw [enter?, hparts, if_neg (by simp)]

/-- The items of an array that is open are read into it. -/
theorem decodeInto?_items {depth : Nat} {items : List MessagePack}
    (ih : ∀ v ∈ items, ∀ stack rest, stack.length + depth ≤ depthLimit →
      decodeInto? stack (encode v ++ rest) = resume? (complete v stack) rest)
    (hne : items ≠ []) (before : List MessagePack) {stack : List Frame}
    (hdepth : stack.length + (depth + 1) ≤ depthLimit) (rest : List UInt8) :
    decodeInto? (.array items.length before :: stack) (encodeItems items ++ rest)
      = resume? (complete (.array (before.reverse ++ items)) stack) rest := by
  induction items generalizing before with
  | nil => exact absurd rfl hne
  | cons v vs ihs =>
    -- the open array takes one place on the stack, which leaves room for its items
    have hroom : (Frame.array (vs.length + 1) before :: stack).length + depth ≤ depthLimit := by
      rw [List.length_cons]
      omega
    rw [encodeItems, List.append_assoc, List.length_cons, ih v List.mem_cons_self _ _ hroom, complete]
    cases vs with
    | nil =>
      rw [List.length_nil, if_pos (Nat.le_of_eq (Nat.zero_add 1)), List.reverse_cons]
      rfl
    | cons w ws =>
      rw [if_neg (by rw [List.length_cons]; omega), Nat.add_sub_cancel]
      show decodeInto? _ _ = _
      rw [ihs (fun u hu => ih u (List.mem_cons_of_mem _ hu)) (List.cons_ne_nil _ _) (v :: before),
        List.reverse_cons, List.append_assoc]
      rfl

/-- The entries of a map that is open are read into it. -/
theorem decodeInto?_entries {depth : Nat} {entries : List (MessagePack × MessagePack)}
    (ihk : ∀ e ∈ entries, ∀ stack rest, stack.length + depth ≤ depthLimit →
      decodeInto? stack (encode e.1 ++ rest) = resume? (complete e.1 stack) rest)
    (ihv : ∀ e ∈ entries, ∀ stack rest, stack.length + depth ≤ depthLimit →
      decodeInto? stack (encode e.2 ++ rest) = resume? (complete e.2 stack) rest)
    (hne : entries ≠ []) (before : List (MessagePack × MessagePack)) {stack : List Frame}
    (hdepth : stack.length + (depth + 1) ≤ depthLimit) (rest : List UInt8) :
    decodeInto? (.key entries.length before :: stack) (encodeEntries entries ++ rest)
      = resume? (complete (.map (before.reverse ++ entries)) stack) rest := by
  induction entries generalizing before with
  | nil => exact absurd rfl hne
  | cons e es ihs =>
    obtain ⟨k, v⟩ := e
    -- while a key is read its map is open as well, so both have the same room
    have hroom : ∀ frame : Frame, (frame :: stack).length + depth ≤ depthLimit := by
      intro frame
      rw [List.length_cons]
      omega
    rw [encodeEntries, List.append_assoc, List.append_assoc, List.length_cons,
      ihk (k, v) List.mem_cons_self _ _ (hroom _), complete]
    show decodeInto? _ _ = _
    rw [ihv (k, v) List.mem_cons_self _ _ (hroom _), complete]
    cases es with
    | nil =>
      rw [List.length_nil, if_pos (Nat.le_of_eq (Nat.zero_add 1)), List.reverse_cons]
      rfl
    | cons w ws =>
      rw [if_neg (by rw [List.length_cons]; omega), Nat.add_sub_cancel]
      show decodeInto? _ _ = _
      rw [ihs (fun u hu => ihk u (List.mem_cons_of_mem _ hu))
        (fun u hu => ihv u (List.mem_cons_of_mem _ hu)) (List.cons_ne_nil _ _) ((k, v) :: before),
        List.reverse_cons, List.append_assoc]
      rfl

/-- A written value is read in any stack with room for it. -/
theorem decodeInto?_encode {depth : Nat} {v : MessagePack} (h : Fits depth v) :
    ∀ (stack : List Frame) (rest : List UInt8), stack.length + depth ≤ depthLimit →
      decodeInto? stack (encode v ++ rest) = resume? (complete v stack) rest := by
  induction h with
  | nil =>
    intro stack rest _
    exact (Begins.of_format 0xC0 rfl rfl).decodeInto? (enter?_of_no_parts rfl rfl stack)
  | bool b =>
    intro stack rest _
    cases b with
    | false =>
      exact (Begins.of_format 0xC2 rfl rfl).decodeInto? (enter?_of_no_parts rfl rfl stack)
    | true =>
      exact (Begins.of_format 0xC3 rfl rfl).decodeInto? (enter?_of_no_parts rfl rfl stack)
  | natural hn =>
    intro stack rest _
    exact (begins_naturalBytes hn rest).decodeInto? (enter?_of_no_parts rfl rfl stack)
  | string hn =>
    intro stack rest _
    rw [encode, List.append_assoc]
    exact (begins_string hn rest).decodeInto? (enter?_of_no_parts rfl rfl stack)
  | binary hn =>
    intro stack rest _
    rw [encode, List.append_assoc]
    exact (begins_binary hn rest).decodeInto? (enter?_of_no_parts rfl rfl stack)
  | @array depth items hn _ ih =>
    intro stack rest hdepth
    rw [encode, List.append_assoc]
    have henter : enter? (.array items.length) stack = some (if items.length = 0
        then complete (.array []) stack else .inr (.array items.length [] :: stack)) := by
      rw [enter?, if_neg (fun hlimit => by omega)]
    rw [(begins_arrayHead hn _).decodeInto? henter]
    -- an array without items is complete with its head
    cases items with
    | nil => rfl
    | cons v vs =>
      rw [if_neg (by rw [List.length_cons]; omega)]
      exact decodeInto?_items ih (List.cons_ne_nil _ _) [] hdepth rest
  | @map depth entries hn _ _ ihk ihv =>
    intro stack rest hdepth
    rw [encode, List.append_assoc]
    have henter : enter? (.map entries.length) stack = some (if entries.length = 0
        then complete (.map []) stack else .inr (.key entries.length [] :: stack)) := by
      rw [enter?, if_neg (fun hlimit => by omega)]
    rw [(begins_mapHead hn _).decodeInto? henter]
    cases entries with
    | nil => rfl
    | cons e es =>
      rw [if_neg (by rw [List.length_cons]; omega)]
      exact decodeInto?_entries ihk ihv (List.cons_ne_nil _ _) [] hdepth rest

/-- A written value reads back, whatever follows. -/
theorem decode?_encode {v : MessagePack} (h : Fits depthLimit v) (rest : List UInt8) :
    decode? (encode v ++ rest) = some (v, rest) := by
  rw [decode?, decodeInto?_encode h [] rest (Nat.le_of_eq (Nat.zero_add depthLimit))]
  rfl

end CircuitBlocks.MessagePack
