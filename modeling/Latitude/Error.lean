import Latitude.Instruction

/-!
# Reading errors

Why a compiled file cannot be read on, or its listing not be written. An offset is
that of the first byte of the thing at fault.
-/

namespace Latitude

inductive ReadError
  | endOfStream (offset : Nat)
  | unknownOpcode (byte : UInt8) (offset : Nat)
  | unknownRegister (byte : UInt8) (offset : Nat)
  | unknownHeaderTag (byte : UInt8) (offset : Nat)
  | unknownNature (byte : UInt8) (offset : Nat)
  | headerTypeMismatch (tag : UInt8)
  | versionMismatch (expected found : Int)
  | invalidUtf8 (offset : Nat)
  | integerOverflow (width offset : Nat)
  | blockOverrun (index declared consumed : Nat)
  | instruction (cause : InstructionError)
  | io (reason : String)
  deriving DecidableEq

namespace ReadError

def message : ReadError → String
  | .endOfStream offset => "Unexpected end of input at offset " ++ toString offset
  | .unknownOpcode byte offset =>
    "Unknown opcode " ++ Text.hexByte byte ++ " at offset " ++ toString offset
  | .unknownRegister byte offset =>
    "Unknown register " ++ Text.hexByte byte ++ " at offset " ++ toString offset
  | .unknownHeaderTag byte offset =>
    "Unknown header tag " ++ Text.byteLiteral byte ++ " at offset " ++ toString offset
  | .unknownNature byte offset =>
    "Unknown header value nature " ++ Text.byteLiteral byte ++ " at offset " ++ toString offset
  | .headerTypeMismatch tag =>
    "Header field " ++ Text.byteLiteral tag ++ " expects a string value, found an integer"
  | .versionMismatch expected found =>
    "Unknown file version: expected " ++ toString expected ++ ", found " ++ toString found
  | .invalidUtf8 offset => "String at offset " ++ toString offset ++ " is not valid UTF-8"
  | .integerOverflow width offset =>
    "Integer of " ++ toString width ++ " bytes at offset " ++ toString offset ++
      " does not fit in 64 bits"
  | .blockOverrun index declared consumed =>
    "Block " ++ toString index ++ " declares " ++ toString declared ++
      " bytes but its instructions span " ++ toString consumed
  | .instruction cause => cause.message
  | .io reason => "I/O error: " ++ reason

/-- Whether more bytes might have made the reading succeed. -/
def isTruncation : ReadError → Bool
  | .endOfStream _ => true
  | _ => false

/-- What the system reported beneath the error. -/
def underlying? : ReadError → Option String
  | .io reason => some reason
  | _ => none

end ReadError

end Latitude
