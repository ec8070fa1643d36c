import CircuitBlocks.Fragments
import CircuitBlocks.Shape.Basic
import CircuitBlocks.Text.Lines

/-!
# The template of a source unit

A unit is a list of pieces: lines that are copied, and places where the lines of a fragment are copied
with an indentation. The template depends on the unit's name and on the shape, never on the fragments.

* `header` names the unit and holds the imports.
* `stateSection` declares the procedure's state: the user's fields and the output buffer.
* `codeSection` holds the user's initialisation and the body of each step.
* `hostSection` is the contract with the host: the procedure table, its four entries, and the table's
  value. Its layout is that of `ProcedureTable`.
-/

namespace CircuitBlocks

/-- A piece of a unit. -/
inductive Piece where
  /-- A text and a newline. -/
  | line (text : String)
  /-- The lines of a fragment, each after `indent` blanks and before a newline. -/
  | fragment (kind : FragmentKind) (indent : Nat)
  deriving DecidableEq, Repr

namespace Template

/-- The line before the user's body. -/
def beginMark : String := "// ****************** your code segment ******************"

/-- The line after the user's body. -/
def endMark : String := "// ****************** end of code segment ******************"

/-! ## The output buffer -/

/-- The expression of a vector of zeros. -/
def zeroVector (size : Nat) : String := "vec![0.0; " ++ toString size ++ "]"

/-- The expression of the output buffer. -/
def bufferExpression (s : SignalShape) : String :=
  match s.shape, s.bus with
  | .single, _ => zeroVector s.outputPorts
  | .matrix, .fixed w => "vec![" ++ zeroVector w ++ "; " ++ toString s.outputPorts ++ "]"
  | .matrix, .perPort _ =>
    "vec![" ++ String.intercalate ", " (s.outputWidths.map zeroVector) ++ "]"

/-- The type of one port's signal. -/
def signalType : ProcedureShape → String
  | .single => "f64"
  | .matrix => "Vec<f64>"

/-! ## Sections -/

/-- The name of the unit, and the imports. -/
def header (name : String) : List Piece :=
  [.line ("// Generated by codeblock for " ++ name ++ ". Edits are overwritten on recompile."),
   .line "#![allow(dead_code, unused_imports, unused_mut, unused_variables, unused_assignments, non_snake_case)]",
   .line "",
   .fragment .imports 0,
   .line ""]

/-- The procedure's state. -/
def stateSection (shape : ProcedureShape) : List Piece :=
  [.line "#[derive(Default)]",
   .line "pub struct Procedure \x7b",
   .line "    // fields:",
   .fragment .fields 4,
   .line ("    outputs: Vec<" ++ signalType shape ++ ">,"),
   .line "\x7d",
   .line ""]

/-- The procedure's code. -/
def codeSection (s : SignalShape) : List Piece :=
  [.line "impl Procedure \x7b",
   .line "    fn new() -> Self \x7b",
   .line "        let mut procedure = Procedure::default();",
   .line ("        procedure.outputs = " ++ bufferExpression s ++ ";"),
   .line "        procedure",
   .line "    \x7d",
   .line "",
   .line "    fn init(&mut self) \x7b",
   .fragment .init 8,
   .line "    \x7d",
   .line "",
   .line ("    fn compute(&mut self, inputs: &[" ++ signalType s.shape ++
     "], time: f64, dt: f64) -> &[" ++ signalType s.shape ++ "] \x7b"),
   .line "        let outputs = &mut self.outputs[..];",
   .line ("        " ++ beginMark),
   .fragment .body 8,
   .line ("        " ++ endMark),
   .line "    \x7d",
   .line "\x7d",
   .line ""]

/-- The type of the procedure table. -/
def tableType : List String :=
  ["#[repr(C)]",
   "pub struct CodeblockProcedureTable \x7b",
   "    pub abi_version: u32,",
   "    pub shape: u32,",
   "    pub create: extern \"C\" fn() -> *mut ::std::ffi::c_void,",
   "    pub destroy: extern \"C\" fn(*mut ::std::ffi::c_void),",
   "    pub init: extern \"C\" fn(*mut ::std::ffi::c_void) -> i32,",
   "    pub compute: extern \"C\" fn(",
   "        *mut ::std::ffi::c_void,",
   "        *const f64,",
   "        *const usize,",
   "        usize,",
   "        f64,",
   "        f64,",
   "        *mut f64,",
   "        *const usize,",
   "        usize,",
   "    ) -> i32,",
   "\x7d"]

/-- The status codes that the entries return. -/
def statusConstants : List String :=
  ["const STATUS_OK: i32 = 0;",
   "const STATUS_BAD_INPUT: i32 = 1;",
   "const STATUS_PANICKED: i32 = 2;"]

/-- The entries that create, destroy and initialise an instance. -/
def instanceEntries : List String :=
  ["extern \"C\" fn codeblock_create() -> *mut ::std::ffi::c_void \x7b",
   "    match ::std::panic::catch_unwind(Procedure::new) \x7b",
   "        Ok(procedure) => Box::into_raw(Box::new(procedure)) as *mut ::std::ffi::c_void,",
   "        Err(_) => ::std::ptr::null_mut(),",
   "    \x7d",
   "\x7d",
   "",
   "extern \"C\" fn codeblock_destroy(handle: *mut ::std::ffi::c_void) \x7b",
   "    if !handle.is_null() \x7b",
   "        drop(unsafe \x7b Box::from_raw(handle as *mut Procedure) \x7d);",
   "    \x7d",
   "\x7d",
   "",
   "extern \"C\" fn codeblock_init(handle: *mut ::std::ffi::c_void) -> i32 \x7b",
   "    let procedure = unsafe \x7b &mut *(handle as *mut Procedure) \x7d;",
   "    match ::std::panic::catch_unwind(::std::panic::AssertUnwindSafe(|| procedure.init())) \x7b",
   "        Ok(()) => STATUS_OK,",
   "        Err(_) => STATUS_PANICKED,",
   "    \x7d",
   "\x7d"]

/-- The entry that computes a step, up to the call of the user's code. -/
def computePrologue : List String :=
  ["extern \"C\" fn codeblock_compute(",
   "    handle: *mut ::std::ffi::c_void,",
   "    in_data: *const f64,",
   "    in_widths: *const usize,",
   "    in_ports: usize,",
   "    time: f64,",
   "    dt: f64,",
   "    out_data: *mut f64,",
   "    out_widths: *const usize,",
   "    out_ports: usize,",
   ") -> i32 \x7b",
   "    let procedure = unsafe \x7b &mut *(handle as *mut Procedure) \x7d;",
   "    let in_widths = unsafe \x7b ::std::slice::from_raw_parts(in_widths, in_ports) \x7d;",
   "    let out_widths = unsafe \x7b ::std::slice::from_raw_parts(out_widths, out_ports) \x7d;",
   "    let in_total: usize = in_widths.iter().sum();",
   "    let out_total: usize = out_widths.iter().sum();",
   "    let in_flat = unsafe \x7b ::std::slice::from_raw_parts(in_data, in_total) \x7d;",
   "    let out_flat = unsafe \x7b ::std::slice::from_raw_parts_mut(out_data, out_total) \x7d;",
   "    let run = ::std::panic::AssertUnwindSafe(|| \x7b"]

/-- The call of the user's code. -/
def computeCall : ProcedureShape → List String
  | .single =>
    ["if in_widths.iter().any(|w| *w != 1) \x7b",
     "            return STATUS_BAD_INPUT;",
     "        \x7d",
     "        let produced = procedure.compute(in_flat, time, dt);",
     "        for (dst, src) in out_flat.iter_mut().zip(produced.iter()) \x7b",
     "            *dst = *src;",
     "        \x7d",
     "        STATUS_OK"]
  | .matrix =>
    ["let mut inputs: Vec<Vec<f64>> = Vec::with_capacity(in_widths.len());",
     "        let mut offset = 0usize;",
     "        for width in in_widths \x7b",
     "            inputs.push(in_flat[offset..offset + *width].to_vec());",
     "            offset += *width;",
     "        \x7d",
     "        let produced = procedure.compute(&inputs, time, dt);",
     "        let mut offset = 0usize;",
     "        for (port, width) in out_widths.iter().enumerate() \x7b",
     "            if let Some(values) = produced.get(port) \x7b",
     "                for (dst, src) in out_flat[offset..offset + *width].iter_mut().zip(values.iter()) \x7b",
     "                    *dst = *src;",
     "                \x7d",
     "            \x7d",
     "            offset += *width;",
     "        \x7d",
     "        STATUS_OK"]

/-- The entry that computes a step, after the call of the user's code. -/
def computeEpilogue : List String :=
  ["\x7d);",
   "    match ::std::panic::catch_unwind(run) \x7b",
   "        Ok(code) => code,",
   "        Err(_) => STATUS_PANICKED,",
   "    \x7d",
   "\x7d"]

/-- The value of the procedure table. -/
def tableValue (shape : ProcedureShape) : List String :=
  ["#[no_mangle]",
   "pub static CODEBLOCK_PROCEDURE: CodeblockProcedureTable = CodeblockProcedureTable \x7b",
   "    abi_version: 1,",
   "    shape: " ++ toString shape.tag ++ ",",
   "    create: codeblock_create,",
   "    destroy: codeblock_destroy,",
   "    init: codeblock_init,",
   "    compute: codeblock_compute,",
   "\x7d;"]

/-- The contract with the host. -/
def hostSection (shape : ProcedureShape) : List Piece :=
  (["// ── host interface ──", ""] ++ tableType ++ [""] ++ statusConstants ++ [""] ++
    instanceEntries ++ [""] ++ computePrologue ++ computeCall shape ++ computeEpilogue ++ [""] ++
    tableValue shape).map .line

end Template

/-- The pieces of a unit. -/
def template (name : String) (s : SignalShape) : List Piece :=
  Template.header name ++ Template.stateSection s.shape ++ Template.codeSection s ++
    Template.hostSection s.shape

end CircuitBlocks
