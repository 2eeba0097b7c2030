import Latitude.Block
import Latitude.Reader.Block
import Latitude.Reader.Header

/-!
# Encoding files

The plainest form in which a compiled file can be written: the sign of an integer is
zero or one, a string has no dropped bytes, and a block declares the length that its
instructions have. Integers keep only as much of their magnitude as their width holds.
-/

namespace Latitude

namespace Encoding

/-- The lowest `width` bytes of a number, the least significant first. -/
def littleEndian : Nat → Nat → List UInt8
  | 0, _ => []
  | width + 1, n => UInt8.ofNat n :: littleEndian width (n / 256)

@[simp] theorem length_littleEndian (width n : Nat) : (littleEndian width n).length = width := by
  induction width generalizing n with
  | zero => rfl
  | succ width ih => simp [littleEndian, ih]

def integer (n : Int) : List UInt8 :=
  (if n < 0 then 1 else 0) :: littleEndian Reader.integerWidth n.natAbs

/-- Bytes of a string with every zero marked as one of them. -/
def escapeZeros (data : List UInt8) : List UInt8 :=
  data.flatMap fun b => if b = 0 then [0, Reader.zeroEscape] else [b]

def string (s : String) : List UInt8 := escapeZeros (Text.encodeUtf8 s) ++ [0, 0]

end Encoding

def Arg.encode : Arg → List UInt8
  | .integer n => Encoding.integer n
  | .string s => Encoding.string s
  | .register r => [r.toByte]
  | .method m => Encoding.littleEndian Reader.methodWidth m.index.toNat

def Instruction.encode (i : Instruction) : List UInt8 :=
  i.opcode.toByte :: i.args.flatMap Arg.encode

namespace Encoding

def block (instructions : List Instruction) : List UInt8 :=
  let body := instructions.flatMap Instruction.encode
  littleEndian Reader.lengthWidth body.length ++ body

def headerField (field : HeaderField) (name : String) : List UInt8 :=
  field.toByte :: Nature.string.toByte :: string name

/-- A header with fields in the given order, and `last` as the byte behind its end. -/
def header (version : Int) (fields : List (HeaderField × String)) (last : UInt8) : List UInt8 :=
  integer version ++ fields.flatMap (fun f => headerField f.1 f.2) ++ [Header.endByte, last]

def file (version : Int) (fields : List (HeaderField × String)) (last : UInt8)
    (blocks : List (List Instruction)) : List UInt8 :=
  header version fields last ++ blocks.flatMap block

end Encoding

def Header.names (header : Header) : List (HeaderField × String) :=
  [HeaderField.moduleName, .packageName].filterMap fun field =>
    (header.get field).map fun name => (field, name)

def Header.encodeFile (header : Header) (blocks : List Block) : List UInt8 :=
  Encoding.file header.version header.names 0 (blocks.map Block.instructions)

end Latitude
