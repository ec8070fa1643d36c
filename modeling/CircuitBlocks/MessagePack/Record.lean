import CircuitBlocks.MessagePack.Basic

/-!
# MessagePack records — values read field by field

A record is a map from field names to values, or an array of all its fields in their declared order. A
name is a string or binary data, or the place of the field as a number without sign; other keys with
such a form are not read, and a key of any other form is refused. A declared field may come only once.
-/

namespace CircuitBlocks.MessagePack

/-! ## Values -/

/-- A text: a string or binary data that holds one. -/
def readText : MessagePack → Option String
  | .string bytes => Text.Utf8.decode? bytes
  | .binary bytes => Text.Utf8.decode? bytes
  | _ => none

/-- A natural of any format, at most `limit`. -/
def readNatural (limit : Nat) : MessagePack → Option Nat
  | .natural n => if n ≤ limit then some n else none
  | .integer i => if 0 ≤ i ∧ i ≤ limit then some i.toNat else none
  | _ => none

/-- Bytes: binary data, a string, or an array of numbers. -/
def readBytes : MessagePack → Option (List UInt8)
  | .binary bytes => some bytes
  | .string bytes => some bytes
  | .array items => items.mapM fun v => (readNatural 255 v).map UInt8.ofNat
  | _ => none

/-- A value or nil. -/
def readNullable {α : Type} (read : MessagePack → Option α) : MessagePack → Option (Option α)
  | .nil => some none
  | v => (read v).map some

/-- An array, each item read alike. Binary data is the array of its bytes. -/
def readList {α : Type} (read : MessagePack → Option α) : MessagePack → Option (List α)
  | .array items => items.mapM read
  | .binary bytes => (bytes.map fun b => .natural b.toNat).mapM read
  | _ => none

/-! ## Records -/

/-- Which of the declared names a key is: `some none` is a key that is not read. -/
def name? (names : List String) : MessagePack → Option (Option String)
  | .natural n => some names[n]?
  | .string bytes => some (names.find? fun n => Text.Utf8.encode n = bytes)
  | .binary bytes => some (names.find? fun n => Text.Utf8.encode n = bytes)
  | _ => none

/-- The entries with a declared name, in the order in which they came. -/
def declaredEntries? (names : List String) :
    List (MessagePack × MessagePack) → Option (List (String × MessagePack))
  | [] => some []
  | (key, v) :: rest => do
    let name ← name? names key
    let others ← declaredEntries? names rest
    match name with
    | none => some others
    | some name => if others.any (·.1 = name) then none else some ((name, v) :: others)

/-- The fields of a record with the declared names. -/
def fields? (names : List String) : MessagePack → Option (List (String × MessagePack))
  | .map entries => declaredEntries? names entries
  | .array items => if items.length = names.length then some (names.zip items) else none
  | _ => none

/-- A field that must be given. -/
def required {α : Type} (fields : List (String × MessagePack)) (name : String)
    (read : MessagePack → Option α) : Option α := do
  read (← fields.lookup name)

/-- A field that may be nil or left out. -/
def nullable {α : Type} (fields : List (String × MessagePack)) (name : String)
    (read : MessagePack → Option α) : Option (Option α) :=
  match fields.lookup name with
  | none => some none
  | some v => readNullable read v

/-- The variant without value that is named: by its name, by its place, or as the key of a map to
nil. -/
def plainVariant? (names : List String) : MessagePack → Option String
  | .map [(key, .nil)] => (name? names key).join
  | v => (name? names v).join

/-- The record of named values, as a map. -/
def record (fields : List (String × MessagePack)) : MessagePack :=
  .map (fields.map fun f => (text f.1, f.2))

end CircuitBlocks.MessagePack
