/-!
# UTF-8 — texts as bytes and bytes as texts

`encode` writes a text as bytes and `decode?` reads bytes that are a text. `decodeLossy` reads any
bytes: each longest run that begins a character without completing it, and each byte that begins
none, becomes one replacement character U+FFFD.
-/

namespace CircuitBlocks.Text.Utf8

/-- The bytes of a text. -/
def encode (s : String) : List UInt8 := s.toByteArray.data.toList

/-- The text that the bytes encode, if they are valid. -/
def decode? (bytes : List UInt8) : Option String := String.fromUTF8? ⟨bytes.toArray⟩

/-- U+FFFD, which stands for what is no character. -/
def replacement : Char := '\uFFFD'

/-! ## One character -/

/-- The byte sequences that a lead byte opens: how many bytes follow it, and the range of the first
of them. The bytes after that one lie in `0x80 … 0xBF`. -/
def follow? (lead : UInt8) : Option (Nat × UInt8 × UInt8) :=
  if 0xC2 ≤ lead && lead ≤ 0xDF then some (1, 0x80, 0xBF)
  else if lead = 0xE0 then some (2, 0xA0, 0xBF)
  else if lead = 0xED then some (2, 0x80, 0x9F)
  else if 0xE1 ≤ lead && lead ≤ 0xEF then some (2, 0x80, 0xBF)
  else if lead = 0xF0 then some (3, 0x90, 0xBF)
  else if 0xF1 ≤ lead && lead ≤ 0xF3 then some (3, 0x80, 0xBF)
  else if lead = 0xF4 then some (3, 0x80, 0x8F)
  else none

/-- The longest run of at most `count` following bytes; only the first has a range of its own. -/
def following (low high : UInt8) : (count : Nat) → List UInt8 → List UInt8
  | 0, _ => []
  | _ + 1, [] => []
  | n + 1, b :: bs =>
    if low ≤ b && b ≤ high then b :: following 0x80 0xBF n bs else []

/-- The code point whose lead byte carries `bits` and whose following bytes are given. -/
def codePoint (bits : Nat) (tail : List UInt8) : Nat :=
  tail.foldl (fun acc b => acc * 64 + b.toNat % 64) bits

/-- The character at the start of the bytes, and how many bytes after the first belong to it. -/
def firstChar (lead : UInt8) (rest : List UInt8) : Char × Nat :=
  if lead < 0x80 then (Char.ofNat lead.toNat, 0)
  else match follow? lead with
    | none => (replacement, 0)
    | some (count, low, high) =>
      let tail := following low high count rest
      if tail.length = count then
        (Char.ofNat (codePoint (lead.toNat % (64 >>> count)) tail), count)
      else (replacement, tail.length)

/-! ## All bytes -/

/-- The characters of any bytes. -/
def decodeChars : List UInt8 → List Char
  | [] => []
  | lead :: rest =>
    let (c, used) := firstChar lead rest
    c :: decodeChars (rest.drop used)
  termination_by bytes => bytes.length
  decreasing_by simp only [List.length_drop, List.length_cons]; omega

/-- The text of any bytes; what is no character is replaced. -/
def decodeLossy (bytes : List UInt8) : String := String.ofList (decodeChars bytes)

end CircuitBlocks.Text.Utf8
