import CircuitBlocks.MessagePack.Basic

/-!
# MessagePack, reading — from bytes to a value

The first byte of a value tells its kind, and its size or how many bytes tell its size. A `Head` is
what the reader knows after them: a complete value, or how many values make up the array or map. The
arrays and maps that are open form a stack, innermost first. At most `depthLimit` values that have
parts lie inside of each other.
-/

namespace CircuitBlocks.MessagePack

/-! ## Heads -/

/-- The start of a value. -/
inductive Head where
  | value (v : MessagePack)
  | array (size : Nat)
  | map (size : Nat)

/-- The first `count` bytes and the rest, if there are as many. -/
def takeBytes? (count : Nat) (bytes : List UInt8) : Option (List UInt8 × List UInt8) :=
  if (bytes.take count).length = count then some (bytes.take count, bytes.drop count) else none

/-- The natural of the first `count` bytes, and the rest. -/
def takeNatural? (count : Nat) (bytes : List UInt8) : Option (Nat × List UInt8) := do
  let (front, rest) ← takeBytes? count bytes
  return (BigEndian.decode front, rest)

/-- The number with sign of the first `count` bytes, and the rest. -/
def takeInteger? (count : Nat) (bytes : List UInt8) : Option (Int × List UInt8) := do
  let (n, rest) ← takeNatural? count bytes
  let capacity := BigEndian.capacity count
  return (if 2 * n < capacity then n else (n : Int) - capacity, rest)

/-- Data of a size told by the first `count` bytes. -/
def takeSized? (count : Nat) (bytes : List UInt8) : Option (List UInt8 × List UInt8) := do
  let (size, rest) ← takeNatural? count bytes
  takeBytes? size rest

/-- What a first byte announces. A `count` is the number of bytes that tell a number or a size. -/
inductive Format where
  | single (v : MessagePack)
  | natural (count : Nat)
  | integer (count : Nat)
  | float (size : Nat)
  | string (count : Nat)
  | shortString (size : Nat)
  | binary (count : Nat)
  | array (count : Nat)
  | shortArray (size : Nat)
  | map (count : Nat)
  | shortMap (size : Nat)
  | extension (count : Nat)
  | shortExtension (size : Nat)

/-- The format of a first byte. One byte, `0xC1`, has none. -/
def format? (first : UInt8) : Option Format :=
  let n := first.toNat
  if n < 0x80 then some (.single (.natural n))
  else if n < 0x90 then some (.shortMap (n - 0x80))
  else if n < 0xA0 then some (.shortArray (n - 0x90))
  else if n < 0xC0 then some (.shortString (n - 0xA0))
  else if 0xE0 ≤ n then some (.single (.integer ((n : Int) - 256)))
  else match n - 0xC0 with
    | 0x00 => some (.single .nil)
    | 0x02 => some (.single (.bool false))
    | 0x03 => some (.single (.bool true))
    | 0x04 => some (.binary 1)
    | 0x05 => some (.binary 2)
    | 0x06 => some (.binary 4)
    | 0x07 => some (.extension 1)
    | 0x08 => some (.extension 2)
    | 0x09 => some (.extension 4)
    | 0x0A => some (.float 4)
    | 0x0B => some (.float 8)
    | 0x0C => some (.natural 1)
    | 0x0D => some (.natural 2)
    | 0x0E => some (.natural 4)
    | 0x0F => some (.natural 8)
    | 0x10 => some (.integer 1)
    | 0x11 => some (.integer 2)
    | 0x12 => some (.integer 4)
    | 0x13 => some (.integer 8)
    | 0x14 => some (.shortExtension 1)
    | 0x15 => some (.shortExtension 2)
    | 0x16 => some (.shortExtension 4)
    | 0x17 => some (.shortExtension 8)
    | 0x18 => some (.shortExtension 16)
    | 0x19 => some (.string 1)
    | 0x1A => some (.string 2)
    | 0x1B => some (.string 4)
    | 0x1C => some (.array 2)
    | 0x1D => some (.array 4)
    | 0x1E => some (.map 2)
    | 0x1F => some (.map 4)
    | _ => none

/-- An extension with `size` bytes of data after the byte that tells its kind. -/
def takeExtension? (size : Nat) (bytes : List UInt8) : Option (MessagePack × List UInt8) := do
  let (front, rest) ← takeBytes? (1 + size) bytes
  return (.extension (front.headD 0) front.tail, rest)

/-- The head in a format. -/
def Format.read? (bytes : List UInt8) : Format → Option (Head × List UInt8)
  | .single v => some (.value v, bytes)
  | .natural count => do let (n, rest) ← takeNatural? count bytes; return (.value (.natural n), rest)
  | .integer count => do let (i, rest) ← takeInteger? count bytes; return (.value (.integer i), rest)
  | .float size => do let (b, rest) ← takeBytes? size bytes; return (.value (.float b), rest)
  | .string count => do let (b, rest) ← takeSized? count bytes; return (.value (.string b), rest)
  | .shortString size => do let (b, rest) ← takeBytes? size bytes; return (.value (.string b), rest)
  | .binary count => do let (b, rest) ← takeSized? count bytes; return (.value (.binary b), rest)
  | .array count => do let (n, rest) ← takeNatural? count bytes; return (.array n, rest)
  | .shortArray size => some (.array size, bytes)
  | .map count => do let (n, rest) ← takeNatural? count bytes; return (.map n, rest)
  | .shortMap size => some (.map size, bytes)
  | .extension count => do
    let (size, rest) ← takeNatural? count bytes
    let (v, rest) ← takeExtension? size rest
    return (.value v, rest)
  | .shortExtension size => do
    let (v, rest) ← takeExtension? size bytes
    return (.value v, rest)

/-- The head that a first byte begins. -/
def head? (first : UInt8) (bytes : List UInt8) : Option (Head × List UInt8) := do
  (← format? first).read? bytes

/-- To take anything leaves no more than there was. -/
theorem length_of_takeBytes? {count : Nat} {bytes front rest : List UInt8}
    (h : takeBytes? count bytes = some (front, rest)) : rest.length ≤ bytes.length := by
  unfold takeBytes? at h
  split at h
  · obtain ⟨-, rfl⟩ := by simpa using h
    simp
  · simp at h

theorem length_of_takeNatural? {count n : Nat} {bytes rest : List UInt8}
    (h : takeNatural? count bytes = some (n, rest)) : rest.length ≤ bytes.length := by
  simp only [takeNatural?, bind, Option.bind_eq_some_iff, pure, Option.some.injEq,
    Prod.mk.injEq] at h
  obtain ⟨⟨front, rest'⟩, hb, -, rfl⟩ := h
  exact length_of_takeBytes? hb

theorem length_of_takeInteger? {count : Nat} {i : Int} {bytes rest : List UInt8}
    (h : takeInteger? count bytes = some (i, rest)) : rest.length ≤ bytes.length := by
  simp only [takeInteger?, bind, Option.bind_eq_some_iff, pure, Option.some.injEq,
    Prod.mk.injEq] at h
  obtain ⟨⟨n, rest'⟩, hn, -, rfl⟩ := h
  exact length_of_takeNatural? hn

theorem length_of_takeSized? {count : Nat} {bytes data rest : List UInt8}
    (h : takeSized? count bytes = some (data, rest)) : rest.length ≤ bytes.length := by
  simp only [takeSized?, bind, Option.bind_eq_some_iff] at h
  obtain ⟨⟨size, rest'⟩, hn, hb⟩ := h
  exact Nat.le_trans (length_of_takeBytes? hb) (length_of_takeNatural? hn)

theorem length_of_takeExtension? {size : Nat} {bytes rest : List UInt8} {v : MessagePack}
    (h : takeExtension? size bytes = some (v, rest)) : rest.length ≤ bytes.length := by
  simp only [takeExtension?, bind, Option.bind_eq_some_iff, pure, Option.some.injEq,
    Prod.mk.injEq] at h
  obtain ⟨⟨data, rest'⟩, hb, -, rfl⟩ := h
  exact length_of_takeBytes? hb

/-- No head is read out of bytes that are not there. -/
theorem length_of_read? {f : Format} {bytes rest : List UInt8} {h : Head}
    (hr : f.read? bytes = some (h, rest)) : rest.length ≤ bytes.length := by
  cases f <;>
    simp only [Format.read?, bind, Option.bind_eq_some_iff, pure, Option.some.injEq,
      Prod.mk.injEq] at hr
  -- a format of one byte leaves all that follows; the others drop what they take
  case single | shortArray | shortMap => exact Nat.le_of_eq (by rw [hr.2])
  case natural | array | map =>
    obtain ⟨⟨n, r⟩, hn, -, rfl⟩ := hr
    exact length_of_takeNatural? hn
  case integer =>
    obtain ⟨⟨i, r⟩, hi, -, rfl⟩ := hr
    exact length_of_takeInteger? hi
  case float | shortString =>
    obtain ⟨⟨b, r⟩, hb, -, rfl⟩ := hr
    exact length_of_takeBytes? hb
  case string | binary =>
    obtain ⟨⟨b, r⟩, hb, -, rfl⟩ := hr
    exact length_of_takeSized? hb
  case extension =>
    obtain ⟨⟨n, r⟩, hn, ⟨v, r'⟩, hv, -, rfl⟩ := hr
    exact Nat.le_trans (length_of_takeExtension? hv) (length_of_takeNatural? hn)
  case shortExtension =>
    obtain ⟨⟨v, r⟩, hv, -, rfl⟩ := hr
    exact length_of_takeExtension? hv

/-- A head takes none of the bytes twice. -/
theorem length_of_head? {first : UInt8} {bytes rest : List UInt8} {h : Head}
    (hh : head? first bytes = some (h, rest)) : rest.length ≤ bytes.length := by
  simp only [head?, bind, Option.bind_eq_some_iff] at hh
  obtain ⟨f, -, hr⟩ := hh
  exact length_of_read? hr

/-! ## Values -/

/-- An array or map that waits for values. The latest items and entries come first. -/
inductive Frame where
  | array (left : Nat) (items : List MessagePack)
  | key (left : Nat) (entries : List (MessagePack × MessagePack))
  | value (left : Nat) (entries : List (MessagePack × MessagePack)) (key : MessagePack)

/-- How many values that have parts may lie inside of each other. -/
def depthLimit : Nat := 1023

/-- Whether a value has parts: the items of an array, the entries of a map, or the kind and the data
of an extension. -/
def Head.hasParts : Head → Bool
  | .value (.extension _ _) | .array _ | .map _ => true
  | .value _ => false

/-- What becomes of a complete value: it ends the reading, or goes into the innermost frame. A frame
that waits for nothing more is itself a complete value. -/
def complete (v : MessagePack) : List Frame → MessagePack ⊕ List Frame
  | [] => .inl v
  | .array left items :: stack =>
    if left ≤ 1 then complete (.array (v :: items).reverse) stack
    else .inr (.array (left - 1) (v :: items) :: stack)
  | .key left entries :: stack => .inr (.value left entries v :: stack)
  | .value left entries key :: stack =>
    if left ≤ 1 then complete (.map ((key, v) :: entries).reverse) stack
    else .inr (.key (left - 1) ((key, v) :: entries) :: stack)

/-- What becomes of a head, unless it would be nested too deep. -/
def enter? (h : Head) (stack : List Frame) : Option (MessagePack ⊕ List Frame) :=
  if h.hasParts ∧ depthLimit ≤ stack.length then none
  else match h with
    | .value v => some (complete v stack)
    | .array size =>
      some (if size = 0 then complete (.array []) stack else .inr (.array size [] :: stack))
    | .map size =>
      some (if size = 0 then complete (.map []) stack else .inr (.key size [] :: stack))

/-- Reads a value, and those that the open frames wait for. -/
def decodeInto? (stack : List Frame) : List UInt8 → Option (MessagePack × List UInt8)
  | [] => none
  | first :: bytes =>
    match _hh : head? first bytes with
    | none => none
    | some (h, rest) =>
      match enter? h stack with
      | none => none
      | some (.inl v) => some (v, rest)
      | some (.inr stack) => decodeInto? stack rest
  termination_by bytes => bytes.length
  decreasing_by
    have := length_of_head? _hh
    simp; omega

/-- The value at the start of the bytes, and the rest. -/
def decode? (bytes : List UInt8) : Option (MessagePack × List UInt8) := decodeInto? [] bytes

end CircuitBlocks.MessagePack
