/-!
# Fragments — the four texts that a user writes for a block

A block's code is four texts: the body of each step, the imports above the procedure, the statements
that initialise it, and the fields of its private state. They are compared as an ordered tuple.
-/

namespace CircuitBlocks

/-- Which of the four texts is meant. -/
inductive FragmentKind where
  /-- The body of each step. -/
  | body
  /-- Imports and free items above the procedure. -/
  | imports
  /-- Statements that initialise the procedure. -/
  | init
  /-- Fields of the procedure's private state, a `name: Type,` each. -/
  | fields
  deriving DecidableEq, Repr

namespace FragmentKind

/-- All kinds, in their order in the tuple. -/
def all : List FragmentKind := [body, imports, init, fields]

/-- The name of a kind. -/
def name : FragmentKind → String
  | body => "body"
  | imports => "imports"
  | init => "init"
  | fields => "fields"

/-- The scripting operation that replaces a fragment of this kind. -/
def operation : FragmentKind → String
  | body => "setSourceCode"
  | imports => "setImportCode"
  | init => "setInitCode"
  | fields => "setVariablesCode"

/-- The kind whose fragment a scripting operation replaces. -/
def ofOperation? (operationName : String) : Option FragmentKind :=
  all.find? fun k => k.operation = operationName

theorem ofOperation?_operation (k : FragmentKind) : ofOperation? k.operation = some k := by
  cases k <;> decide

end FragmentKind

/-- The four texts of a block. -/
structure Fragments where
  body : String := ""
  imports : String := ""
  init : String := ""
  fields : String := ""
  deriving DecidableEq, Repr, Inhabited

namespace Fragments

/-- The text of a kind. -/
def get (f : Fragments) : FragmentKind → String
  | .body => f.body
  | .imports => f.imports
  | .init => f.init
  | .fields => f.fields

/-- The fragments with one text replaced. -/
def set (f : Fragments) (kind : FragmentKind) (text : String) : Fragments :=
  match kind with
  | .body => { f with body := text }
  | .imports => { f with imports := text }
  | .init => { f with init := text }
  | .fields => { f with fields := text }

@[simp] theorem get_set (f : Fragments) (k j : FragmentKind) (text : String) :
    (f.set k text).get j = if j = k then text else f.get j := by
  cases k <;> cases j <;> simp [set, get]

/-- The bytes of the four texts together. -/
def totalLength (f : Fragments) : Nat :=
  f.body.utf8ByteSize + f.imports.utf8ByteSize + f.init.utf8ByteSize + f.fields.utf8ByteSize

end Fragments

end CircuitBlocks
