import Latitude.Header
import Latitude.Opcode
import Latitude.Text.Literal

/-!
# Events

What is worth a line in the log, with its level, the part of the program it belongs
to, and its fields. The fields come in the order in which a line shows them.
-/

namespace Latitude

/-- How severe an event is, the most severe first. -/
inductive Level
  | error | warn | info | debug | trace
  deriving DecidableEq

namespace Level

def rank : Level → Nat
  | .error => 1
  | .warn => 2
  | .info => 3
  | .debug => 4
  | .trace => 5

def name : Level → String
  | .error => "ERROR"
  | .warn => "WARN"
  | .info => "INFO"
  | .debug => "DEBUG"
  | .trace => "TRACE"

/-- Whether a log that goes down to `threshold` shows events of this level. -/
def shownAt (level threshold : Level) : Bool := level.rank ≤ threshold.rank

end Level

structure Summary where
  blocks : Nat := 0
  instructions : Nat := 0
  bytes : Nat := 0
  deriving DecidableEq

inductive Event
  /-- A NUL in a string is followed by `byte`, which means nothing there; both are dropped. -/
  | escapeIgnored (offset : Nat) (byte : UInt8)
  | headerDecoded (header : Header)
  | blockStarted (index offset declared : Nat)
  | instructionDecoded (offset : Nat) (opcode : Opcode) (args : Nat)
  | blockOverran (index declared consumed : Nat)
  | completed (summary : Summary)
  deriving DecidableEq

namespace Event

def level : Event → Level
  | .escapeIgnored .. | .blockOverran .. => .warn
  | .headerDecoded .. | .blockStarted .. => .debug
  | .instructionDecoded .. => .trace
  | .completed .. => .info

def target : Event → String
  | .escapeIgnored .. => "latbc_disassembler::reader"
  | .headerDecoded .. => "latbc_disassembler::header"
  | .blockStarted .. | .blockOverran .. => "latbc_disassembler::block"
  | .instructionDecoded .. => "latbc_disassembler::decoder"
  | .completed .. => "latbc_dis"

def message : Event → String
  | .escapeIgnored .. => "Ignoring unrecognised escape in string literal"
  | .headerDecoded .. => "Decoded header"
  | .blockStarted .. => "Reading block"
  | .instructionDecoded .. => "Decoded instruction"
  | .blockOverran .. => "Block instructions run past the declared length"
  | .completed .. => "Disassembly complete"

def fields : Event → List (String × String)
  | .escapeIgnored offset byte => [("offset", toString offset), ("byte", toString byte.toNat)]
  | .headerDecoded header =>
    [("version", toString header.version),
     ("module", Text.optionLiteral header.moduleName),
     ("package", Text.optionLiteral header.packageName)]
  | .blockStarted index offset declared =>
    [("index", toString index), ("offset", toString offset), ("declared_len", toString declared)]
  | .instructionDecoded offset opcode args =>
    [("offset", toString offset), ("opcode", opcode.mnemonic), ("args", toString args)]
  | .blockOverran index declared consumed =>
    [("index", toString index), ("declared", toString declared), ("consumed", toString consumed)]
  | .completed summary =>
    [("blocks", toString summary.blocks), ("instructions", toString summary.instructions),
     ("bytes", toString summary.bytes)]

def line (event : Event) : String :=
  event.level.name ++ " " ++ event.target ++ ": " ++ event.message ++
    String.join (event.fields.map fun field => " " ++ field.1 ++ "=" ++ field.2)

def log (shows : Event → Bool) (events : List Event) : String :=
  String.join ((events.filter shows).map fun event => event.line ++ "\n")

end Event

end Latitude
