/-!
# Big-endian numbers — naturals as bytes

A natural is written in a given number of bytes, the most significant first. What does not fit is cut
off at the front, and what fits reads back (`decode_encode`).
-/

namespace CircuitBlocks.BigEndian

/-- How many naturals fit into `count` bytes. -/
def capacity (count : Nat) : Nat := Nat.pow 256 count

/-- A natural in `count` bytes. -/
def encode : (count : Nat) → Nat → List UInt8
  | 0, _ => []
  | count + 1, n => UInt8.ofNat (n / capacity count) :: encode count n

/-- The natural that carries on `high` with some bytes. -/
def decodeFrom (high : Nat) (bytes : List UInt8) : Nat :=
  bytes.foldl (fun acc b => acc * 256 + b.toNat) high

/-- The natural that bytes stand for. -/
def decode (bytes : List UInt8) : Nat := decodeFrom 0 bytes

theorem capacity_succ (count : Nat) : capacity (count + 1) = capacity count * 256 := rfl

@[simp] theorem length_encode (count n : Nat) : (encode count n).length = count := by
  induction count with
  | zero => rfl
  | succ count ih => simp only [encode, List.length_cons, ih]

/-- Bytes of a number are read behind what was read before them, up to what they have room for. -/
theorem decodeFrom_encode (high count n : Nat) :
    decodeFrom high (encode count n) = high * capacity count + n % capacity count := by
  induction count generalizing high with
  | zero =>
    show high = high * 1 + n % 1
    rw [Nat.mod_one, Nat.mul_one, Nat.add_zero]
  | succ count ih =>
    show decodeFrom (high * 256 + (UInt8.ofNat (n / capacity count)).toNat) (encode count n) = _
    have digit : (UInt8.ofNat (n / capacity count)).toNat = n / capacity count % 256 :=
      UInt8.toNat_ofNat'
    rw [ih, digit, capacity_succ, Nat.mod_mul, Nat.add_mul, Nat.mul_assoc,
      Nat.mul_comm 256 (capacity count), Nat.mul_comm (n / capacity count % 256)]
    omega

theorem decode_encode {count n : Nat} (h : n < capacity count) : decode (encode count n) = n := by
  rw [decode, decodeFrom_encode, Nat.zero_mul, Nat.zero_add, Nat.mod_eq_of_lt h]

example : encode 3 0x012345 = [0x01, 0x23, 0x45] ∧ encode 1 0x1FF = [0xFF] := by decide

end CircuitBlocks.BigEndian
