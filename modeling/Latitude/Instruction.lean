import Latitude.Opcode
import Latitude.Register
import Latitude.Text.Literal

/-!
# Instructions

An instruction is an operation with the arguments that its signature asks for; the
type holds no other pairing. `Instruction.build` is the checked way in.
-/

namespace Latitude

/-- The number of a method of the file. -/
structure MethodRef where
  index : UInt32
  deriving DecidableEq

inductive Arg
  | integer (value : Int)
  | string (text : String)
  | register (r : Register)
  | method (m : MethodRef)
  deriving DecidableEq

def Arg.kind : Arg → ArgKind
  | .integer _ => .integer
  | .string _ => .string
  | .register _ => .register
  | .method _ => .method

inductive InstructionError
  | unknownOpcode (byte : UInt8)
  | unknownRegister (byte : UInt8)
  | argumentMismatch (opcode : Opcode) (expected found : List ArgKind)
  deriving DecidableEq

namespace InstructionError

def kindList (kinds : List ArgKind) : String :=
  "[" ++ ", ".intercalate (kinds.map ArgKind.name) ++ "]"

def message : InstructionError → String
  | .unknownOpcode byte => "Unknown opcode: " ++ Text.hexByte byte
  | .unknownRegister byte => "Unknown register: " ++ Text.hexByte byte
  | .argumentMismatch opcode expected found =>
    "Argument mismatch for " ++ opcode.mnemonic ++ ": expected " ++ kindList expected ++
      ", found " ++ kindList found

end InstructionError

def Opcode.ofByte (byte : UInt8) : Except InstructionError Opcode :=
  match Opcode.ofByte? byte with
  | some opcode => .ok opcode
  | none => .error (.unknownOpcode byte)

def Register.ofByte (byte : UInt8) : Except InstructionError Register :=
  match Register.ofByte? byte with
  | some register => .ok register
  | none => .error (.unknownRegister byte)

structure Instruction where
  opcode : Opcode
  args : List Arg
  fits : args.map Arg.kind = opcode.signature
  deriving DecidableEq

namespace Instruction

def build (opcode : Opcode) (args : List Arg) : Except InstructionError Instruction :=
  if fits : args.map Arg.kind = opcode.signature then .ok ⟨opcode, args, fits⟩
  else .error (.argumentMismatch opcode opcode.signature (args.map Arg.kind))

@[simp] theorem build_self (i : Instruction) : build i.opcode i.args = .ok i := by
  simp [build, i.fits]

theorem build_eq_ok_iff {opcode : Opcode} {args : List Arg} {i : Instruction} :
    build opcode args = .ok i ↔ i.opcode = opcode ∧ i.args = args := by
  constructor
  · intro h
    unfold build at h
    split at h
    · cases h; exact ⟨rfl, rfl⟩
    · cases h
  · rintro ⟨rfl, rfl⟩
    exact build_self i

end Instruction

end Latitude
