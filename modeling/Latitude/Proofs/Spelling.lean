import Latitude.Proofs.IntegerLaws

/-!
# How a file is spelled

A spelled thing is the thing together with the bytes that write it: which sign byte,
which bytes of a string are dropped, which fields a header repeats. Each type holds only
what is well formed, and says which bytes it is (`bytes`), what they stand for, and which
events reading them reports when they start at a given offset (`events`).

Nothing here reads anything. Whether a block's length fits its instructions depends on
the boundary, so it is a predicate (`SpelledBlock.Fits`).
-/

namespace Latitude

/-- The events of items that stand one behind another, the first of them at an offset. -/
def eventsAlong {α : Type} (bytes : α → List UInt8) (events : α → Nat → List Event) :
    List α → Nat → List Event
  | [], _ => []
  | item :: items, offset =>
    events item offset ++ eventsAlong bytes events items (offset + (bytes item).length)

-- ---------------------------------------------------------------------------
-- Integers and strings
-- ---------------------------------------------------------------------------

structure SpelledInteger where
  sign : UInt8
  magnitude : List UInt8
  width : magnitude.length = Reader.integerWidth

namespace SpelledInteger

def bytes (i : SpelledInteger) : List UInt8 := i.sign :: i.magnitude

def value (i : SpelledInteger) : Int :=
  Reader.signedValue i.sign (Encoding.ofLittleEndian i.magnitude)

theorem exists_bytes_append {data : List UInt8} (long : Reader.integerWidth < data.length) :
    ∃ (i : SpelledInteger) (rest : List UInt8), data = i.bytes ++ rest := by
  cases data with
  | nil => simp at long
  | cons sign data =>
    have width : (data.take Reader.integerWidth).length = Reader.integerWidth := by
      rw [List.length_cons] at long
      rw [List.length_take]
      omega
    refine ⟨⟨sign, data.take Reader.integerWidth, width⟩, data.drop Reader.integerWidth, ?_⟩
    rw [bytes, List.cons_append, List.take_append_drop]

end SpelledInteger

/-- What stands in a string literal: a byte for itself, the pair for a zero, or a zero and
a byte that are dropped. -/
inductive TextPiece
  | plain (byte : UInt8) (nonzero : byte ≠ 0)
  | zero
  | dropped (byte : UInt8) (nonzero : byte ≠ 0) (unescaped : byte ≠ Reader.zeroEscape)

namespace TextPiece

def bytes : TextPiece → List UInt8
  | .plain byte _ => [byte]
  | .zero => [0, Reader.zeroEscape]
  | .dropped byte _ _ => [0, byte]

def content : TextPiece → List UInt8
  | .plain byte _ => [byte]
  | .zero => [0]
  | .dropped .. => []

def events : TextPiece → Nat → List Event
  | .dropped byte _ _, offset => [.escapeIgnored (offset + 1) byte]
  | _, _ => []

end TextPiece

structure SpelledText where
  pieces : List TextPiece
  text : String
  spells : pieces.flatMap TextPiece.content = Text.encodeUtf8 text

namespace SpelledText

def bytes (s : SpelledText) : List UInt8 := s.pieces.flatMap TextPiece.bytes ++ [0, 0]

def events (s : SpelledText) (offset : Nat) : List Event :=
  eventsAlong TextPiece.bytes TextPiece.events s.pieces offset

end SpelledText

-- ---------------------------------------------------------------------------
-- Instructions
-- ---------------------------------------------------------------------------

inductive SpelledArg
  | integer (i : SpelledInteger)
  | string (s : SpelledText)
  | register (r : Register)
  | method (number : List UInt8) (width : number.length = Reader.methodWidth)

namespace SpelledArg

def bytes : SpelledArg → List UInt8
  | .integer i => i.bytes
  | .string s => s.bytes
  | .register r => [r.toByte]
  | .method number _ => number

def arg : SpelledArg → Arg
  | .integer i => .integer i.value
  | .string s => .string s.text
  | .register r => .register r
  | .method number _ => .method ⟨UInt32.ofNat (Encoding.ofLittleEndian number)⟩

def events : SpelledArg → Nat → List Event
  | .string s, offset => s.events offset
  | _, _ => []

end SpelledArg

/-- The byte of an operation and one argument for each kind in its signature. -/
structure SpelledInstruction where
  opcode : Opcode
  args : List SpelledArg
  fits : args.map (·.arg.kind) = opcode.signature

namespace SpelledInstruction

def bytes (i : SpelledInstruction) : List UInt8 :=
  i.opcode.toByte :: i.args.flatMap SpelledArg.bytes

def instruction (i : SpelledInstruction) : Instruction where
  opcode := i.opcode
  args := i.args.map SpelledArg.arg
  fits := by rw [List.map_map]; exact i.fits

def events (i : SpelledInstruction) (offset : Nat) : List Event :=
  eventsAlong SpelledArg.bytes SpelledArg.events i.args (offset + 1) ++
    [.instructionDecoded offset i.opcode i.args.length]

end SpelledInstruction

-- ---------------------------------------------------------------------------
-- Blocks
-- ---------------------------------------------------------------------------

structure SpelledBlock where
  lengthBytes : List UInt8
  width : lengthBytes.length = Reader.lengthWidth
  instructions : List SpelledInstruction

namespace SpelledBlock

def declared (b : SpelledBlock) : Nat := Encoding.ofLittleEndian b.lengthBytes

def body (b : SpelledBlock) : List UInt8 := b.instructions.flatMap SpelledInstruction.bytes

def bytes (b : SpelledBlock) : List UInt8 := b.lengthBytes ++ b.body

theorem length_bytes (b : SpelledBlock) : b.bytes.length = Reader.lengthWidth + b.body.length := by
  rw [bytes, List.length_append, b.width]

/-- The declared length is that of the instructions. Where blocks may overrun, it need
only end within the last instruction or right behind it; a length of zero has none. -/
def Fits (b : SpelledBlock) : Boundary → Prop
  | .strict => b.body.length = b.declared
  | .lax =>
    if b.declared = 0 then b.instructions = []
    else b.instructions ≠ [] ∧
      (b.instructions.dropLast.flatMap SpelledInstruction.bytes).length < b.declared ∧
      b.declared ≤ b.body.length

def block (b : SpelledBlock) (index offset : Nat) : Block where
  index := index
  offset := offset
  declared := b.declared
  consumed := b.body.length
  instructions := b.instructions.map SpelledInstruction.instruction

/-- The instructions reach a length of `n`, and all but the last do not. -/
def Covers : Nat → List SpelledInstruction → Prop
  | n, [] => n = 0
  | n, i :: is => n ≠ 0 ∧ Covers (n - i.bytes.length) is

theorem Covers.le_length {n : Nat} {is : List SpelledInstruction} (h : Covers n is) :
    n ≤ (is.flatMap SpelledInstruction.bytes).length := by
  induction is generalizing n with
  | nil => exact Nat.le_of_eq h
  | cons i is ih =>
    have others := ih h.2
    rw [List.flatMap_cons, List.length_append]
    omega

theorem covers_iff {n : Nat} {is : List SpelledInstruction} :
    Covers n is ↔ if n = 0 then is = [] else is ≠ [] ∧
      (is.dropLast.flatMap SpelledInstruction.bytes).length < n ∧
      n ≤ (is.flatMap SpelledInstruction.bytes).length := by
  induction is generalizing n with
  | nil => simp [Covers]
  | cons i is ih =>
    rw [Covers, ih]
    cases is with
    | nil => split <;> simp; all_goals omega
    | cons j js => split <;> simp; all_goals omega

theorem covers_of_length_eq {n : Nat} {is : List SpelledInstruction}
    (h : (is.flatMap SpelledInstruction.bytes).length = n) : Covers n is := by
  induction is generalizing n with
  | nil => exact h.symm
  | cons i is ih =>
    rw [List.flatMap_cons, List.length_append] at h
    have nonempty : 0 < i.bytes.length := Nat.succ_pos _
    exact ⟨by omega, ih (by omega)⟩

theorem fits_lax_iff {b : SpelledBlock} : b.Fits .lax ↔ Covers b.declared b.instructions :=
  covers_iff.symm

theorem Fits.covers {b : SpelledBlock} {boundary : Boundary} (h : b.Fits boundary) :
    Covers b.declared b.instructions := by
  cases boundary with
  | lax => exact fits_lax_iff.1 h
  | strict => exact covers_of_length_eq h

def events (b : SpelledBlock) (index offset : Nat) : List Event :=
  .blockStarted index offset b.declared ::
    (eventsAlong SpelledInstruction.bytes SpelledInstruction.events b.instructions
        (offset + Reader.lengthWidth) ++
      if (b.block index offset).overrun = 0 then []
      else [.blockOverran index b.declared b.body.length])

def blocksFrom : List SpelledBlock → Nat → Nat → List Block
  | [], _, _ => []
  | b :: bs, index, offset =>
    b.block index offset :: blocksFrom bs (index + 1) (offset + b.bytes.length)

end SpelledBlock

-- ---------------------------------------------------------------------------
-- Headers and files
-- ---------------------------------------------------------------------------

/-- The name that the last field of a kind gives. -/
def HeaderField.lastName (field : HeaderField) (fields : List (HeaderField × String)) :
    Option String :=
  (fields.reverse.find? (·.1 = field)).map Prod.snd

def Header.ofFields (version : Int) (fields : List (HeaderField × String)) : Header where
  version := version
  moduleName := HeaderField.moduleName.lastName fields
  packageName := HeaderField.packageName.lastName fields

theorem HeaderField.lastName_cons (field : HeaderField) (f : HeaderField × String)
    (fields : List (HeaderField × String)) :
    field.lastName (f :: fields) =
      (field.lastName fields).or (if field = f.1 then some f.2 else none) := by
  unfold lastName
  rw [List.reverse_cons, List.find?_append, Option.map_or]
  by_cases h : f.1 = field
  · simp [h]
  · simp [h, Ne.symm h]

def Header.setAll (header : Header) (fields : List (HeaderField × String)) : Header :=
  fields.foldl (fun (header : Header) f => header.set f.2 f.1) header

theorem Header.get_setAll (header : Header) (fields : List (HeaderField × String))
    (field : HeaderField) :
    (header.setAll fields).get field = (field.lastName fields).or (header.get field) := by
  unfold setAll
  induction fields generalizing header with
  | nil => rfl
  | cons f fields ih =>
    rw [List.foldl_cons, ih, Header.get_set, HeaderField.lastName_cons, Option.or_assoc]
    split <;> rfl

theorem Header.version_setAll (header : Header) (fields : List (HeaderField × String)) :
    (header.setAll fields).version = header.version := by
  unfold setAll
  induction fields generalizing header with
  | nil => rfl
  | cons f fields ih => rw [List.foldl_cons, ih, Header.version_set]

theorem Header.setAll_eq_ofFields (version : Int) (fields : List (HeaderField × String)) :
    Header.setAll { version } fields = .ofFields version fields := by
  have kept := Header.version_setAll { version } fields
  have moduleName := Header.get_setAll { version } fields .moduleName
  have packageName := Header.get_setAll { version } fields .packageName
  simp only [Header.get, Option.or_none] at moduleName packageName
  generalize Header.setAll { version } fields = header at *
  cases header
  simp_all [Header.ofFields]

inductive SpelledValue
  | integer (i : SpelledInteger)
  | string (s : SpelledText)

namespace SpelledValue

def bytes : SpelledValue → List UInt8
  | .integer i => Nature.integer.toByte :: i.bytes
  | .string s => Nature.string.toByte :: s.bytes

def value : SpelledValue → HeaderValue
  | .integer i => .integer i.value
  | .string s => .string s.text

def events : SpelledValue → Nat → List Event
  | .integer _, _ => []
  | .string s, offset => s.events (offset + 1)

end SpelledValue

structure SpelledField where
  field : HeaderField
  name : SpelledText

namespace SpelledField

def bytes (f : SpelledField) : List UInt8 :=
  f.field.toByte :: Nature.string.toByte :: f.name.bytes

def named (f : SpelledField) : HeaderField × String := (f.field, f.name.text)

def events (f : SpelledField) (offset : Nat) : List Event := f.name.events (offset + 2)

end SpelledField

/-- A version, fields, and the byte of any value behind the one that ends them. -/
structure SpelledHeader where
  version : SpelledInteger
  fields : List SpelledField
  last : UInt8

namespace SpelledHeader

def bytes (h : SpelledHeader) : List UInt8 :=
  h.version.bytes ++ (h.fields.flatMap SpelledField.bytes ++ [Header.endByte, h.last])

def header (h : SpelledHeader) : Header :=
  .ofFields h.version.value (h.fields.map SpelledField.named)

def events (h : SpelledHeader) (offset : Nat) : List Event :=
  eventsAlong SpelledField.bytes SpelledField.events h.fields (offset + h.version.bytes.length) ++
    [.headerDecoded h.header]

end SpelledHeader

structure SpelledFile where
  header : SpelledHeader
  blocks : List SpelledBlock

namespace SpelledFile

def bytes (file : SpelledFile) : List UInt8 :=
  file.header.bytes ++ file.blocks.flatMap SpelledBlock.bytes

def Fits (file : SpelledFile) (policy : Policy) : Prop :=
  file.header.version.value = policy.expectedVersion ∧ ∀ b ∈ file.blocks, b.Fits policy.boundary

def readBlocks (file : SpelledFile) : List Block :=
  SpelledBlock.blocksFrom file.blocks 0 file.header.bytes.length

end SpelledFile

end Latitude
