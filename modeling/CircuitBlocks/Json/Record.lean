import CircuitBlocks.Json.Basic

/-!
# Records — documents read field by field

A record may be written as an object, whose members come in any order and may include others that are
not read, or as an array of its fields in their declared order. Of an object, no declared member may
come twice, and every name must have a meaning. Of an array, fields may be left out at the end only.

A field that was left out is refused by `required`, replaced by `withDefault`, and read as nothing by
`nullable`; of an array, `nullable` refuses it as well.
-/

namespace CircuitBlocks.Json

/-! ## Values -/

/-- A string with a meaning. -/
def readText : Json → Option String
  | .string s => unescape? s
  | _ => none

/-- A natural, at most `limit`. -/
def readNatural (limit : Nat) : Json → Option Nat
  | .number n => natural? limit n
  | _ => none

/-- One of the two truth values. -/
def readBool : Json → Option Bool
  | .bool b => some b
  | _ => none

/-- An array, each item read alike. -/
def readList {α : Type} (read : Json → Option α) : Json → Option (List α)
  | .array items => items.mapM read
  | _ => none

/-! ## Records -/

/-- The fields of a record that was written out. -/
structure Fields where
  /-- Whether the record was written as an array. -/
  listed : Bool
  /-- The fields that were given, under their declared names. -/
  given : List (String × Json)

/-- The members with a declared name, in the order in which they came. -/
def declaredMembers? (names : List String) :
    List (String × Json) → Option (List (String × Json))
  | [] => some []
  | (spelled, v) :: rest => do
    let name ← unescape? spelled
    let others ← declaredMembers? names rest
    if name ∈ names then
      if others.any (·.1 = name) then none else some ((name, v) :: others)
    else some others

/-- The fields of a record with the declared names. -/
def fields? (names : List String) : Json → Option Fields
  | .object members => do return ⟨false, ← declaredMembers? names members⟩
  | .array items =>
    if items.length ≤ names.length then some ⟨true, names.zip items⟩ else none
  | _ => none

namespace Fields

/-- A field that was given. -/
def get? (f : Fields) (name : String) : Option Json := f.given.lookup name

/-- A field that must be given. -/
def required {α : Type} (f : Fields) (name : String) (read : Json → Option α) : Option α := do
  read (← f.get? name)

/-- A field with a value for when it is left out. -/
def withDefault {α : Type} (f : Fields) (name : String) (default : α) (read : Json → Option α) :
    Option α :=
  match f.get? name with
  | none => some default
  | some v => read v

/-- A value or null. -/
def readNullable {α : Type} (read : Json → Option α) : Json → Option (Option α)
  | .null => some none
  | v => (read v).map some

/-- A field that may be null, and that an object may leave out. -/
def nullable {α : Type} (f : Fields) (name : String) (read : Json → Option α) :
    Option (Option α) :=
  match f.get? name with
  | none => if f.listed then none else some none
  | some v => readNullable read v

end Fields

/-! ## Variants -/

/-- The name and the value of a variant that carries a value: an object with one member. -/
def variant? : Json → Option (String × Json)
  | .object [(spelled, v)] => do return (← unescape? spelled, v)
  | _ => none

/-- The name of a variant without value: a string, or an object with one member that is null. -/
def plainVariant? : Json → Option String
  | .string s => unescape? s
  | .object [(spelled, .null)] => unescape? spelled
  | _ => none

end CircuitBlocks.Json
