import CircuitBlocks.BigEndian
import CircuitBlocks.Text.Utf8

/-!
# MessagePack — values

A value keeps what its readers can tell apart: a number from a format with sign and one from a format
without, and a string's bytes, which need not be a text.
-/

namespace CircuitBlocks

/-- A MessagePack value. -/
inductive MessagePack where
  | nil
  | bool (b : Bool)
  /-- From a format without sign. -/
  | natural (n : Nat)
  /-- From a format with sign. -/
  | integer (i : Int)
  /-- The bytes of a floating-point number. -/
  | float (bytes : List UInt8)
  | string (bytes : List UInt8)
  | binary (bytes : List UInt8)
  | array (items : List MessagePack)
  | map (entries : List (MessagePack × MessagePack))
  | extension (kind : UInt8) (bytes : List UInt8)
  deriving Inhabited

namespace MessagePack

/-- The string of a text. -/
def text (s : String) : MessagePack := .string (Text.Utf8.encode s)

end MessagePack

end CircuitBlocks
