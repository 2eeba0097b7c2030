import Latitude.Reader.Integer
import Latitude.Reader.Text

/-!
# Reading instructions

An instruction is the byte of its operation and then the arguments that the signature
of the operation asks for.
-/

namespace Latitude.Reader

def methodWidth : Nat := 4

def opcode : Reader Opcode := do
  let offset ← position
  let code ← byte
  match Opcode.ofByte? code with
  | some opcode => return opcode
  | none => Action.fail (.unknownOpcode code offset)

def register : Reader Register := do
  let offset ← position
  let code ← byte
  match Register.ofByte? code with
  | some register => return register
  | none => Action.fail (.unknownRegister code offset)

def method : Reader MethodRef := do
  let index ← unsigned methodWidth
  return ⟨index.toUInt32⟩

def arg : ArgKind → Reader Arg
  | .integer => return .integer (← signed integerWidth)
  | .string => return .string (← string)
  | .register => return .register (← register)
  | .method => return .method (← method)

def args : List ArgKind → Reader (List Arg)
  | [] => return []
  | kind :: kinds => do
    let first ← arg kind
    let rest ← args kinds
    return first :: rest

def instruction : Reader Instruction := do
  let offset ← position
  let code ← opcode
  let found ← args code.signature
  Action.emit (.instructionDecoded offset code found.length)
  Action.ofExcept ((Instruction.build code found).mapError .instruction)

theorem opcode_consumes : Action.Consumes Cursor.remaining opcode := by
  refine position_neverGrows.bind_consumes fun offset => byte_consumes.bind fun code => ?_
  split
  · exact .pure _
  · exact .fail _

theorem register_consumes : Action.Consumes Cursor.remaining register := by
  refine position_neverGrows.bind_consumes fun offset => byte_consumes.bind fun code => ?_
  split
  · exact .pure _
  · exact .fail _

theorem arg_neverGrows (kind : ArgKind) : Action.NeverGrows Cursor.remaining (arg kind) := by
  cases kind
  · exact (signed_neverGrows _).bind fun _ => .pure _
  · exact string_neverGrows.bind fun _ => .pure _
  · exact register_consumes.neverGrows.bind fun _ => .pure _
  · exact ((unsigned_neverGrows _).bind fun _ => .pure _).bind fun _ => .pure _

theorem args_neverGrows (kinds : List ArgKind) :
    Action.NeverGrows Cursor.remaining (args kinds) := by
  induction kinds with
  | nil => exact .pure _
  | cons kind kinds ih => exact (arg_neverGrows kind).bind fun _ => ih.bind fun _ => .pure _

theorem instruction_consumes : Action.Consumes Cursor.remaining instruction :=
  position_neverGrows.bind_consumes fun _ => opcode_consumes.bind fun _ =>
    (args_neverGrows _).bind fun _ => (Action.NeverGrows.emit _).bind fun _ => .ofExcept _

end Latitude.Reader
