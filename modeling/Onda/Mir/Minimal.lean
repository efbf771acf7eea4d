import Onda.Mir.Semantics
import Onda.Mir.Validate

/-!
# Minimal programs

A program around one body, with what every program needs besides it: an empty
`Init` and a `Process` entry with its positional arguments.  The host it runs on
is silent, and does no rounding arithmetic: a body that computes on floats needs
other `FloatOps`.
-/

namespace Onda.Mir

open Structured

def FloatArith.silent (width : Nat) : FloatArith width where
  add _ _ := 0
  subtract _ _ := 0
  multiply _ _ := 0
  divide _ _ := 0
  remainder _ _ := 0
  intrinsic _ _ := 0
  ofInt _ := 0

def FloatOps.silent : FloatOps where
  single := .silent 32
  double := .silent 64
  widen _ := 0
  narrow _ := 0

/-- One block of 16 frames, with every buffer bound to 4 mono frames. -/
def Host.silent : Host where
  floats := .silent
  buffers _ := { frames := 4, channels := 1, sampleRate := 0, bound := true,
                 frames_pos := by decide, channels_pos := by decide, extent := by decide }
  startFrame := 0
  frames := 16
  initAll := true

/-- Every input sample, output sample, parameter, state cell and buffer sample is
zero. -/
def Memory.silent : Memory := fun object _ =>
  match object with
  | .localVar .. | .argument .. | .constData _ => none
  | .input _ | .output _ | .buffer _ => some (.scalar (.f32 0))
  | .state _ | .param _ | .eventParam _ | .payload _ => some (.scalar (.i32 0))

def Value.i32 (number : Nat) : Value := .constant (.i32 (BitVec.ofNat 32 number))

/-- The positional parameters of `Process`. -/
def processParams : List FunctionParam :=
  [{ name := "start_frame", ty := 0, mode := .value },
   { name := "frames", ty := 0, mode := .value },
   { name := "flags", ty := 0, mode := .value }]

/-- `types` follow `i32` and `f32`, which are the types `0` and `1`. -/
def Program.minimal (types : List MirType) (interface : Interface) (locals : List Local)
    (body : Block) (helpers : List Function := []) : Program where
  schemaVersion := Validate.MIR_SCHEMA_VERSION
  config := { sampleRate := 0x473b8000#32, blockSize := 16 }
  types := [.scalar .i32, .scalar .f32] ++ types
  interface := interface
  functions :=
    [{ name := "init", kind := .init },
     { name := "process", kind := .process, params := processParams, locals := locals,
       body := body }] ++ helpers
  entryPoints := { init := 0, process := 1 }

def Program.onSilentHost (program : Program) : Machine := ⟨program, .silent⟩

/-- A call of `Process` for one block. -/
def Machine.process (machine : Machine) (budget depth : Nat) :
    State × Outcome (List Data) Stop :=
  machine.enter budget depth machine.program.entryPoints.process
    [.leaf (.scalar (.i32 0)), .leaf (.scalar (.i32 16)), .leaf (.scalar (.i32 0))]
    .silent

end Onda.Mir
