/-!
# Operations

The operations of the Latitude machine: the byte that stands for each in compiled
code, its mnemonic, and its signature, the kinds of argument that follow it.
-/

namespace Latitude

inductive ArgKind
  | integer | string | register | method
  deriving DecidableEq

namespace ArgKind

def all : List ArgKind := [.integer, .string, .register, .method]

def name : ArgKind → String
  | .integer => "integer"
  | .string => "string"
  | .register => "register"
  | .method => "method"

end ArgKind

inductive Opcode
  | mov | push | pop | getl | getd | eswap | eclr | eset | sym | num | int | float | nswap
  | call | xcall | xcall0 | ret | clone | rtrv | rtrvd | str | sswap | expd | mthd | load
  | setf | peek | symn | cpp | bol | test | branch | ccall | cgoto | cret | wnd | unwnd | throw
  | throq | adds | arith | throa | locfn | locln | locrt | nret | untr | cmplx | yld | yldc
  | del | arr | dict | xxx
  deriving DecidableEq

namespace Opcode

def all : List Opcode :=
  [.mov, .push, .pop, .getl, .getd, .eswap, .eclr, .eset, .sym, .num, .int, .float, .nswap,
   .call, .xcall, .xcall0, .ret, .clone, .rtrv, .rtrvd, .str, .sswap, .expd, .mthd, .load,
   .setf, .peek, .symn, .cpp, .bol, .test, .branch, .ccall, .cgoto, .cret, .wnd, .unwnd,
   .throw, .throq, .adds, .arith, .throa, .locfn, .locln, .locrt, .nret, .untr, .cmplx, .yld,
   .yldc, .del, .arr, .dict, .xxx]

def toByte : Opcode → UInt8
  | .mov => 0x01
  | .push => 0x02
  | .pop => 0x03
  | .getl => 0x04
  | .getd => 0x05
  | .eswap => 0x06
  | .eclr => 0x07
  | .eset => 0x08
  | .sym => 0x09
  | .num => 0x0A
  | .int => 0x0B
  | .float => 0x0C
  | .nswap => 0x0D
  | .call => 0x0E
  | .xcall => 0x0F
  | .xcall0 => 0x10
  | .ret => 0x11
  | .clone => 0x12
  | .rtrv => 0x13
  | .rtrvd => 0x14
  | .str => 0x15
  | .sswap => 0x16
  | .expd => 0x17
  | .mthd => 0x18
  | .load => 0x19
  | .setf => 0x1A
  | .peek => 0x1B
  | .symn => 0x1C
  | .cpp => 0x1D
  | .bol => 0x1E
  | .test => 0x1F
  | .branch => 0x20
  | .ccall => 0x21
  | .cgoto => 0x22
  | .cret => 0x23
  | .wnd => 0x24
  | .unwnd => 0x25
  | .throw => 0x26
  | .throq => 0x27
  | .adds => 0x28
  | .arith => 0x29
  | .throa => 0x2A
  | .locfn => 0x2B
  | .locln => 0x2C
  | .locrt => 0x2D
  | .nret => 0x2E
  | .untr => 0x2F
  | .cmplx => 0x30
  | .yld => 0x31
  | .yldc => 0x32
  | .del => 0x33
  | .arr => 0x34
  | .dict => 0x35
  | .xxx => 0x36

/-- No operation has a byte outside `0x01` to `0x36`. -/
def ofByte? (byte : UInt8) : Option Opcode :=
  all.find? (·.toByte == byte)

def mnemonic : Opcode → String
  | .mov => "mov"
  | .push => "push"
  | .pop => "pop"
  | .getl => "getl"
  | .getd => "getd"
  | .eswap => "eswap"
  | .eclr => "eclr"
  | .eset => "eset"
  | .sym => "sym"
  | .num => "num"
  | .int => "int"
  | .float => "float"
  | .nswap => "nswap"
  | .call => "call"
  | .xcall => "xcall"
  | .xcall0 => "xcall0"
  | .ret => "ret"
  | .clone => "clone"
  | .rtrv => "rtrv"
  | .rtrvd => "rtrvd"
  | .str => "str"
  | .sswap => "sswap"
  | .expd => "expd"
  | .mthd => "mthd"
  | .load => "load"
  | .setf => "setf"
  | .peek => "peek"
  | .symn => "symn"
  | .cpp => "cpp"
  | .bol => "bol"
  | .test => "test"
  | .branch => "branch"
  | .ccall => "ccall"
  | .cgoto => "cgoto"
  | .cret => "cret"
  | .wnd => "wnd"
  | .unwnd => "unwnd"
  | .throw => "throw"
  | .throq => "throq"
  | .adds => "adds"
  | .arith => "arith"
  | .throa => "throa"
  | .locfn => "locfn"
  | .locln => "locln"
  | .locrt => "locrt"
  | .nret => "nret"
  | .untr => "untr"
  | .cmplx => "cmplx"
  | .yld => "yld"
  | .yldc => "yldc"
  | .del => "del"
  | .arr => "arr"
  | .dict => "dict"
  | .xxx => "xxx"

/-- The kinds of argument that follow the operation, in order. -/
def signature : Opcode → List ArgKind
  | .mov | .push | .pop | .peek => [.register, .register]
  | .getl | .getd | .expd | .load => [.register]
  | .sym | .num | .float | .str | .symn | .throa | .locfn => [.string]
  | .int | .call | .xcall0 | .cpp | .arith | .locln | .arr | .dict | .xxx => [.integer]
  | .mthd => [.method]
  | .cmplx => [.string, .string]
  | .yld | .yldc => [.integer, .register]
  | _ => []

def arity (op : Opcode) : Nat := op.signature.length

theorem toByte_of_ofByte? {byte : UInt8} {op : Opcode} (h : ofByte? byte = some op) :
    op.toByte = byte := by
  have found := List.find?_some h
  exact eq_of_beq found

@[simp] theorem ofByte?_toByte (op : Opcode) : ofByte? op.toByte = some op := by
  cases op <;> rfl

theorem ofByte?_eq_some_iff {byte : UInt8} {op : Opcode} :
    ofByte? byte = some op ↔ op.toByte = byte :=
  ⟨toByte_of_ofByte?, fun h => h ▸ ofByte?_toByte op⟩

end Opcode

end Latitude
