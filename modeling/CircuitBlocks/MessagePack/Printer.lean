import CircuitBlocks.MessagePack.Basic

/-!
# MessagePack, writing — the shortest format for each value

Each value is written in the shortest of the formats that hold it. A size of more than four
bytes has no format.
-/

namespace CircuitBlocks.MessagePack

open BigEndian (capacity)

/-- The head of a string. -/
def stringHead (size : Nat) : List UInt8 :=
  if size < 32 then [UInt8.ofNat (0xA0 + size)]
  else if size < capacity 1 then 0xD9 :: BigEndian.encode 1 size
  else if size < capacity 2 then 0xDA :: BigEndian.encode 2 size
  else 0xDB :: BigEndian.encode 4 size

/-- The head of binary data. -/
def binaryHead (size : Nat) : List UInt8 :=
  if size < capacity 1 then 0xC4 :: BigEndian.encode 1 size
  else if size < capacity 2 then 0xC5 :: BigEndian.encode 2 size
  else 0xC6 :: BigEndian.encode 4 size

/-- The head of an array. -/
def arrayHead (size : Nat) : List UInt8 :=
  if size < 16 then [UInt8.ofNat (0x90 + size)]
  else if size < capacity 2 then 0xDC :: BigEndian.encode 2 size
  else 0xDD :: BigEndian.encode 4 size

/-- The head of a map. -/
def mapHead (size : Nat) : List UInt8 :=
  if size < 16 then [UInt8.ofNat (0x80 + size)]
  else if size < capacity 2 then 0xDE :: BigEndian.encode 2 size
  else 0xDF :: BigEndian.encode 4 size

/-- A natural. -/
def naturalBytes (n : Nat) : List UInt8 :=
  if n < 128 then [UInt8.ofNat n]
  else if n < capacity 1 then 0xCC :: BigEndian.encode 1 n
  else if n < capacity 2 then 0xCD :: BigEndian.encode 2 n
  else if n < capacity 4 then 0xCE :: BigEndian.encode 4 n
  else 0xCF :: BigEndian.encode 8 n

/-- A number with sign, as sixty-four bits. -/
def integerBytes (i : Int) : List UInt8 := 0xD3 :: BigEndian.encode 8 (i % (capacity 8 : Int)).toNat

/-- The head of an extension. -/
def extensionHead (size : Nat) : List UInt8 :=
  if size < capacity 1 then 0xC7 :: BigEndian.encode 1 size
  else if size < capacity 2 then 0xC8 :: BigEndian.encode 2 size
  else 0xC9 :: BigEndian.encode 4 size

mutual

/-- The bytes of a value. -/
def encode : MessagePack → List UInt8
  | .nil => [0xC0]
  | .bool b => [if b then 0xC3 else 0xC2]
  | .natural n => naturalBytes n
  | .integer i => integerBytes i
  | .float bytes => (if bytes.length = 4 then 0xCA else 0xCB) :: bytes
  | .string bytes => stringHead bytes.length ++ bytes
  | .binary bytes => binaryHead bytes.length ++ bytes
  | .array items => arrayHead items.length ++ encodeItems items
  | .map entries => mapHead entries.length ++ encodeEntries entries
  | .extension kind bytes => extensionHead bytes.length ++ kind :: bytes

/-- The bytes of items, one after the other. -/
def encodeItems : List MessagePack → List UInt8
  | [] => []
  | v :: vs => encode v ++ encodeItems vs

/-- The bytes of entries, each key before its value. -/
def encodeEntries : List (MessagePack × MessagePack) → List UInt8
  | [] => []
  | (k, v) :: es => encode k ++ encode v ++ encodeEntries es

end

end CircuitBlocks.MessagePack
