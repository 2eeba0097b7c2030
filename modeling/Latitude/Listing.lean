import Latitude.Block
import Latitude.Header

/-!
# Listings

The text of a file in a listing: the lines of its header, then for each block a
label and, indented, one text per instruction. A string argument stands between
double quotes with its own double quotes escaped; all its other characters, line
ends included, stand as they are.
-/

namespace Latitude

def Text.escapeQuotes (cs : List Char) : List Char :=
  cs.flatMap fun c => if c = '"' then ['\\', '"'] else [c]

def Text.quote (s : String) : String :=
  "\"" ++ String.ofList (Text.escapeQuotes s.toList) ++ "\""

def MethodRef.listing (method : MethodRef) : String :=
  "<<" ++ toString method.index.toNat ++ ">>"

def Arg.listing : Arg → String
  | .integer value => toString value
  | .string text => Text.quote text
  | .register r => r.name
  | .method m => m.listing

def Instruction.listing (i : Instruction) : String :=
  match i.args with
  | [] => i.opcode.mnemonic
  | args => i.opcode.mnemonic ++ " " ++ ", ".intercalate (args.map Arg.listing)

namespace Block

def label (index : Nat) : String := "<<" ++ toString index ++ ">>"

def listing (block : Block) : String :=
  label block.index ++ "\n" ++
    String.join (block.instructions.map fun i => "  " ++ i.listing ++ "\n")

end Block

namespace Header

/-- A line for a name, unless it is missing or empty. -/
def nameLine (title : String) : Option String → String
  | none => ""
  | some name => if name.isEmpty then "" else title ++ ": " ++ name ++ "\n"

def listing (file : String) (header : Header) : String :=
  "File: " ++ file ++ "\nVersion: " ++ toString header.version ++ "\n" ++
    nameLine "Module" header.moduleName ++ nameLine "Package" header.packageName

end Header

end Latitude
