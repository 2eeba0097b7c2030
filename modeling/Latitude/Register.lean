/-!
# Registers

The thirty registers of the Latitude machine, the byte that stands for each in
compiled code, and its name in a listing.
-/

namespace Latitude

inductive Register
  | ptr | slf | ret | lex | dyn | arg | sto | cont | stack | err0 | err1 | sym | num0 | num1
  | str0 | str1 | mthd | cpp | strm | prcs | mthdz | flag | wind | hand | line | file | trace
  | trns | lit | gtu
  deriving DecidableEq

namespace Register

def all : List Register :=
  [.ptr, .slf, .ret, .lex, .dyn, .arg, .sto, .cont, .stack, .err0, .err1, .sym, .num0, .num1,
   .str0, .str1, .mthd, .cpp, .strm, .prcs, .mthdz, .flag, .wind, .hand, .line, .file, .trace,
   .trns, .lit, .gtu]

def toByte : Register → UInt8
  | .ptr => 0x01
  | .slf => 0x02
  | .ret => 0x03
  | .lex => 0x04
  | .dyn => 0x05
  | .arg => 0x06
  | .sto => 0x07
  | .cont => 0x08
  | .stack => 0x09
  | .err0 => 0x0A
  | .err1 => 0x0B
  | .sym => 0x0C
  | .num0 => 0x0D
  | .num1 => 0x0E
  | .str0 => 0x0F
  | .str1 => 0x10
  | .mthd => 0x11
  | .cpp => 0x12
  | .strm => 0x13
  | .prcs => 0x14
  | .mthdz => 0x15
  | .flag => 0x16
  | .wind => 0x17
  | .hand => 0x18
  | .line => 0x19
  | .file => 0x1A
  | .trace => 0x1B
  | .trns => 0x1C
  | .lit => 0x1D
  | .gtu => 0x1E

/-- No register has a byte outside `0x01` to `0x1E`. -/
def ofByte? (byte : UInt8) : Option Register :=
  all.find? (·.toByte == byte)

def name : Register → String
  | .ptr => "%ptr"
  | .slf => "%slf"
  | .ret => "%ret"
  | .lex => "%lex"
  | .dyn => "%dyn"
  | .arg => "%arg"
  | .sto => "%sto"
  | .cont => "%cont"
  | .stack => "%stack"
  | .err0 => "%err0"
  | .err1 => "%err1"
  | .sym => "%sym"
  | .num0 => "%num0"
  | .num1 => "%num1"
  | .str0 => "%str0"
  | .str1 => "%str1"
  | .mthd => "%mthd"
  | .cpp => "%cpp"
  | .strm => "%strm"
  | .prcs => "%prcs"
  | .mthdz => "%mthdz"
  | .flag => "%flag"
  | .wind => "%wind"
  | .hand => "%hand"
  | .line => "%line"
  | .file => "%file"
  | .trace => "%trace"
  | .trns => "%trns"
  | .lit => "%lit"
  | .gtu => "%gtu"

theorem toByte_of_ofByte? {byte : UInt8} {r : Register} (h : ofByte? byte = some r) :
    r.toByte = byte := by
  have found := List.find?_some h
  exact eq_of_beq found

@[simp] theorem ofByte?_toByte (r : Register) : ofByte? r.toByte = some r := by
  cases r <;> rfl

theorem ofByte?_eq_some_iff {byte : UInt8} {r : Register} :
    ofByte? byte = some r ↔ r.toByte = byte :=
  ⟨toByte_of_ofByte?, fun h => h ▸ ofByte?_toByte r⟩

end Register

end Latitude
