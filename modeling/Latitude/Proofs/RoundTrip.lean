import Latitude.Proofs.Language

/-!
# Encoded files are read back

What `Encoding` writes is a spelling: the one with plain signs, no dropped bytes and exact
lengths. So an encoded file is read back as it was given, whatever the boundary, and with
nothing to warn of.

Magnitudes have four bytes. An integer beyond them is written without its upper part,
and is not read back.
-/

namespace Latitude

-- ---------------------------------------------------------------------------
-- Integers and strings
-- ---------------------------------------------------------------------------

namespace SpelledInteger

def ofInt (n : Int) : SpelledInteger where
  sign := if n < 0 then 1 else 0
  magnitude := Encoding.littleEndian Reader.integerWidth n.natAbs
  width := Encoding.length_littleEndian ..

@[simp] theorem bytes_ofInt (n : Int) : (ofInt n).bytes = Encoding.integer n := rfl

theorem value_ofInt {n : Int} (h : n.natAbs < 2 ^ 32) : (ofInt n).value = n := by
  have magnitude : n.natAbs < 256 ^ Reader.integerWidth := h
  simp only [ofInt, value, Encoding.ofLittleEndian_littleEndian magnitude, Reader.signedValue]
  by_cases negative : n < 0
  · rw [if_pos negative, if_neg (by decide)]
    omega
  · rw [if_neg negative, if_pos rfl]
    omega

end SpelledInteger

namespace TextPiece

def ofByte (b : UInt8) : TextPiece := if h : b = 0 then .zero else .plain b h

@[simp] theorem content_ofByte (b : UInt8) : (ofByte b).content = [b] := by
  unfold ofByte
  split
  · simp_all [content]
  · rfl

@[simp] theorem bytes_ofByte (b : UInt8) :
    (ofByte b).bytes = if b = 0 then [0, Reader.zeroEscape] else [b] := by
  unfold ofByte
  split <;> simp_all [bytes]

@[simp] theorem events_ofByte (b : UInt8) (offset : Nat) : (ofByte b).events offset = [] := by
  unfold ofByte
  split <;> rfl

end TextPiece

namespace SpelledText

def ofString (s : String) : SpelledText where
  pieces := (Text.encodeUtf8 s).map TextPiece.ofByte
  text := s
  spells := by simp [List.flatMap_map]

@[simp] theorem bytes_ofString (s : String) : (ofString s).bytes = Encoding.string s := by
  simp [ofString, bytes, Encoding.string, Encoding.escapeZeros, List.flatMap_map]

end SpelledText

-- ---------------------------------------------------------------------------
-- Instructions and blocks
-- ---------------------------------------------------------------------------

/-- An integer is one whose magnitude has a place in the file. -/
def Arg.InRange : Arg → Prop
  | .integer n => n.natAbs < 2 ^ 32
  | _ => True

namespace SpelledArg

def ofArg : Arg → SpelledArg
  | .integer n => .integer (.ofInt n)
  | .string s => .string (.ofString s)
  | .register r => .register r
  | .method m => .method (Encoding.littleEndian Reader.methodWidth m.index.toNat)
      (Encoding.length_littleEndian ..)

@[simp] theorem bytes_ofArg (a : Arg) : (ofArg a).bytes = a.encode := by
  cases a <;> simp [ofArg, bytes, Arg.encode]

@[simp] theorem kind_ofArg (a : Arg) : (ofArg a).arg.kind = a.kind := by
  cases a <;> rfl

theorem arg_ofArg {a : Arg} (h : a.InRange) : (ofArg a).arg = a := by
  cases a with
  | integer n => simp [ofArg, arg, SpelledInteger.value_ofInt h]
  | string s => rfl
  | register r => rfl
  | method m =>
    have small : m.index.toNat < 256 ^ Reader.methodWidth := m.index.toNat_lt
    simp [ofArg, arg, Encoding.ofLittleEndian_littleEndian small]

end SpelledArg

namespace SpelledInstruction

def ofInstruction (i : Instruction) : SpelledInstruction where
  opcode := i.opcode
  args := i.args.map SpelledArg.ofArg
  fits := by simpa [Function.comp_def] using i.fits

@[simp] theorem bytes_ofInstruction (i : Instruction) : (ofInstruction i).bytes = i.encode := by
  simp [ofInstruction, bytes, Instruction.encode, List.flatMap_map]

theorem instruction_ofInstruction {i : Instruction} (h : ∀ a ∈ i.args, a.InRange) :
    (ofInstruction i).instruction = i := by
  obtain ⟨opcode, args, fits⟩ := i
  have same : args.map (SpelledArg.arg ∘ SpelledArg.ofArg) = args.map id :=
    List.map_congr_left fun a mem => SpelledArg.arg_ofArg (h a mem)
  simpa [ofInstruction, instruction] using same

end SpelledInstruction

namespace SpelledBlock

def ofInstructions (is : List Instruction) : SpelledBlock where
  lengthBytes := Encoding.littleEndian Reader.lengthWidth (is.flatMap Instruction.encode).length
  width := Encoding.length_littleEndian ..
  instructions := is.map SpelledInstruction.ofInstruction

@[simp] theorem body_ofInstructions (is : List Instruction) :
    (ofInstructions is).body = is.flatMap Instruction.encode := by
  simp [ofInstructions, body, List.flatMap_map]

@[simp] theorem bytes_ofInstructions (is : List Instruction) :
    (ofInstructions is).bytes = Encoding.block is := by
  rw [bytes, body_ofInstructions]
  rfl

theorem declared_ofInstructions {is : List Instruction}
    (short : (is.flatMap Instruction.encode).length < 2 ^ 64) :
    (ofInstructions is).declared = (is.flatMap Instruction.encode).length :=
  Encoding.ofLittleEndian_littleEndian short

theorem block_ofInstructions {is : List Instruction}
    (short : (is.flatMap Instruction.encode).length < 2 ^ 64)
    (inRange : ∀ i ∈ is, ∀ a ∈ i.args, a.InRange) (index offset : Nat) :
    (ofInstructions is).block index offset =
      { index, offset, declared := (is.flatMap Instruction.encode).length,
        consumed := (is.flatMap Instruction.encode).length, instructions := is } := by
  have same : is.map (SpelledInstruction.instruction ∘ SpelledInstruction.ofInstruction) =
      is.map id :=
    List.map_congr_left fun i mem => SpelledInstruction.instruction_ofInstruction (inRange i mem)
  rw [block, declared_ofInstructions short, body_ofInstructions, ofInstructions, List.map_map,
    same, List.map_id]

theorem fits_of_declared {b : SpelledBlock} (exact : b.body.length = b.declared)
    (boundary : Boundary) : b.Fits boundary := by
  cases boundary with
  | strict => exact exact
  | lax => exact fits_lax_iff.2 (covers_of_length_eq exact)

theorem blocksFrom_eq_mapIdx (bs : List SpelledBlock) (index offset : Nat) :
    blocksFrom bs index offset =
      bs.mapIdx fun i b => b.block (index + i) (offset + ((bs.take i).flatMap bytes).length) := by
  induction bs generalizing index offset with
  | nil => rfl
  | cons b bs ih => simp [blocksFrom, ih, List.mapIdx_cons, Nat.add_assoc, Nat.add_comm 1]

theorem mem_deliveriesFrom {bs : List SpelledBlock} {index offset : Nat} {d : Delivery}
    (h : d ∈ deliveriesFrom bs index offset) :
    ∃ b ∈ bs, ∃ i o, d.events = b.events i o := by
  induction bs generalizing index offset with
  | nil => cases h
  | cons b bs ih =>
    rcases List.mem_cons.1 h with rfl | later
    · exact ⟨b, List.mem_cons_self, index, offset, rfl⟩
    · obtain ⟨b', mem, found⟩ := ih later
      exact ⟨b', List.mem_cons_of_mem _ mem, found⟩

end SpelledBlock

-- ---------------------------------------------------------------------------
-- Nothing to warn of
-- ---------------------------------------------------------------------------

theorem mem_eventsAlong {α : Type} {bytes : α → List UInt8} {events : α → Nat → List Event}
    {items : List α} {offset : Nat} {e : Event} (h : e ∈ eventsAlong bytes events items offset) :
    ∃ item ∈ items, ∃ o, e ∈ events item o := by
  induction items generalizing offset with
  | nil => cases h
  | cons item items ih =>
    rcases List.mem_append.1 h with here | later
    · exact ⟨item, List.mem_cons_self, offset, here⟩
    · obtain ⟨item', mem, found⟩ := ih later
      exact ⟨item', List.mem_cons_of_mem _ mem, found⟩

theorem SpelledText.events_ofString (s : String) (offset : Nat) :
    (SpelledText.ofString s).events offset = [] := by
  refine List.eq_nil_iff_forall_not_mem.2 fun e h => ?_
  obtain ⟨piece, mem, o, he⟩ := mem_eventsAlong h
  obtain ⟨b, -, rfl⟩ := List.mem_map.1 mem
  simp at he

theorem SpelledArg.events_ofArg (a : Arg) (offset : Nat) : (ofArg a).events offset = [] := by
  cases a with
  | string s => exact SpelledText.events_ofString s offset
  | _ => rfl

theorem SpelledInstruction.level_ofInstruction {i : Instruction} {offset : Nat} {e : Event}
    (h : e ∈ (ofInstruction i).events offset) : e.level = .trace := by
  rcases List.mem_append.1 h with ofArgs | own
  · obtain ⟨a, mem, o, he⟩ := mem_eventsAlong ofArgs
    obtain ⟨a, -, rfl⟩ := List.mem_map.1 mem
    simp [SpelledArg.events_ofArg] at he
  · cases List.mem_singleton.1 own
    rfl

theorem SpelledBlock.level_ofInstructions {is : List Instruction} {index offset : Nat} {e : Event}
    (short : (is.flatMap Instruction.encode).length < 2 ^ 64)
    (h : e ∈ (ofInstructions is).events index offset) : e.level ≠ .warn := by
  have within : ((ofInstructions is).block index offset).overrun = 0 := by
    simp [block, Block.overrun, declared_ofInstructions short]
  rw [events, if_pos within, List.append_nil] at h
  rcases List.mem_cons.1 h with rfl | inside
  · simp [Event.level]
  · obtain ⟨i, mem, o, he⟩ := mem_eventsAlong inside
    obtain ⟨i, -, rfl⟩ := List.mem_map.1 mem
    simp [SpelledInstruction.level_ofInstruction he]

-- ---------------------------------------------------------------------------
-- Files
-- ---------------------------------------------------------------------------

def SpelledField.ofNamed (f : HeaderField × String) : SpelledField := ⟨f.1, .ofString f.2⟩

namespace SpelledHeader

def ofFields (version : Int) (fields : List (HeaderField × String)) (last : UInt8) :
    SpelledHeader where
  version := .ofInt version
  fields := fields.map SpelledField.ofNamed
  last := last

@[simp] theorem bytes_ofFields (version : Int) (fields : List (HeaderField × String))
    (last : UInt8) :
    (ofFields version fields last).bytes = Encoding.header version fields last := by
  simp [ofFields, bytes, Encoding.header, Encoding.headerField, List.flatMap_map,
    SpelledField.ofNamed, SpelledField.bytes]

theorem header_ofFields {version : Int} (h : version.natAbs < 2 ^ 32)
    (fields : List (HeaderField × String)) (last : UInt8) :
    (ofFields version fields last).header = .ofFields version fields := by
  simp [ofFields, header, SpelledInteger.value_ofInt h, Function.comp_def, SpelledField.named,
    SpelledField.ofNamed, SpelledText.ofString]

theorem level_ofFields {version : Int} {fields : List (HeaderField × String)} {last : UInt8}
    {offset : Nat} {e : Event} (h : e ∈ (ofFields version fields last).events offset) :
    e.level = .debug := by
  rcases List.mem_append.1 h with ofNames | own
  · obtain ⟨f, mem, o, he⟩ := mem_eventsAlong ofNames
    obtain ⟨f, -, rfl⟩ := List.mem_map.1 mem
    simp [SpelledField.events, SpelledField.ofNamed, SpelledText.events_ofString] at he
  · cases List.mem_singleton.1 own
    rfl

end SpelledHeader

namespace SpelledFile

variable {version : Int} {fields : List (HeaderField × String)} {last : UInt8}
  {blocks : List (List Instruction)}

def ofBlocks (version : Int) (fields : List (HeaderField × String)) (last : UInt8)
    (blocks : List (List Instruction)) : SpelledFile where
  header := .ofFields version fields last
  blocks := blocks.map SpelledBlock.ofInstructions

@[simp] theorem bytes_ofBlocks :
    (ofBlocks version fields last blocks).bytes = Encoding.file version fields last blocks := by
  simp [ofBlocks, bytes, Encoding.file, List.flatMap_map]

theorem length_encode_lt {is : List Instruction}
    (short : (Encoding.file version fields last blocks).length < Reader.maxOffset)
    (mem : is ∈ blocks) : (is.flatMap Instruction.encode).length < 2 ^ 64 := by
  have within : (Encoding.block is).length ≤ (blocks.flatMap Encoding.block).length :=
    (List.sublist_flatten_of_mem (List.mem_map_of_mem mem)).length_le
  simp only [Encoding.file, Encoding.block, List.length_append, Reader.maxOffset] at short within
  omega

theorem fits_ofBlocks (h : version.natAbs < 2 ^ 32)
    (short : (Encoding.file version fields last blocks).length < Reader.maxOffset)
    (boundary : Boundary) : (ofBlocks version fields last blocks).Fits ⟨version, boundary⟩ := by
  refine ⟨SpelledInteger.value_ofInt h, ?_⟩
  rintro b mem
  obtain ⟨is, given, rfl⟩ := List.mem_map.1 mem
  apply SpelledBlock.fits_of_declared
  simp [SpelledBlock.declared_ofInstructions (length_encode_lt short given)]

theorem readBlocks_ofBlocks
    (short : (Encoding.file version fields last blocks).length < Reader.maxOffset)
    (inRange : ∀ is ∈ blocks, ∀ i ∈ is, ∀ a ∈ i.args, a.InRange) :
    (ofBlocks version fields last blocks).readBlocks = blocks.mapIdx fun i is =>
      { index := i
        offset := (Encoding.file version fields last (blocks.take i)).length
        declared := (is.flatMap Instruction.encode).length
        consumed := (is.flatMap Instruction.encode).length
        instructions := is } := by
  rw [readBlocks, SpelledBlock.blocksFrom_eq_mapIdx]
  apply List.ext_getElem (by simp [ofBlocks])
  intro i _ bound
  have inside : i < blocks.length := by simpa using bound
  have mem : blocks[i] ∈ blocks := List.getElem_mem inside
  simp only [ofBlocks, List.getElem_mapIdx, List.getElem_map,
    SpelledBlock.block_ofInstructions (length_encode_lt short mem) (inRange _ mem)]
  simp [Encoding.file, List.flatMap_map, ← List.map_take]

theorem level_ofBlocks {e : Event} {index offset : Nat}
    (short : (Encoding.file version fields last blocks).length < Reader.maxOffset)
    (h : e ∈ (SpelledBlock.deliveriesFrom (ofBlocks version fields last blocks).blocks index
      offset).flatMap Delivery.events) : e.level ≠ .warn := by
  obtain ⟨d, given, found⟩ := List.mem_flatMap.1 h
  obtain ⟨b, mem, i, o, same⟩ := SpelledBlock.mem_deliveriesFrom given
  obtain ⟨is, source, rfl⟩ := List.mem_map.1 mem
  rw [same] at found
  exact SpelledBlock.level_ofInstructions (length_encode_lt short source) found

end SpelledFile

/-- Reading undoes encoding: the header keeps the last name of each field, and the blocks
are those that were given, each exactly as long as it says. The file is read to its end, and
no event is a warning. -/
theorem reading_encoded (boundary : Boundary) {version : Int}
    {fields : List (HeaderField × String)} {last : UInt8} {blocks : List (List Instruction)}
    (versionInRange : version.natAbs < 2 ^ 32)
    (inRange : ∀ is ∈ blocks, ∀ i ∈ is, ∀ a ∈ i.args, a.InRange)
    (short : (Encoding.file version fields last blocks).length < Reader.maxOffset) :
    let reading :=
      Reading.ofSource ⟨version, boundary⟩ (.ofBytes (Encoding.file version fields last blocks))
    reading.opening.result = .ok (.ofFields version fields) ∧
    reading.blocks = (blocks.mapIdx fun i is =>
      { index := i
        offset := (Encoding.file version fields last (blocks.take i)).length
        declared := (is.flatMap Instruction.encode).length
        consumed := (is.flatMap Instruction.encode).length
        instructions := is }) ∧
    (∀ b ∈ reading.blocks, b.overrun = 0) ∧
    reading.outcome = .ok () ∧
    reading.cursor = ⟨[], (Encoding.file version fields last blocks).length⟩ ∧
    ∀ e ∈ reading.allEvents, e.level ≠ .warn := by
  have fits := SpelledFile.fits_ofBlocks versionInRange short boundary
  have read := Reading.ofSource_spelled fits (by simpa using short)
  have given := SpelledFile.readBlocks_ofBlocks short inRange
  rw [SpelledFile.bytes_ofBlocks] at read
  rw [SpelledFile.readBlocks, ← SpelledBlock.map_block_deliveriesFrom] at given
  rw [read]
  simp only [Reading.blocks, Reading.allEvents, given, true_and]
  refine ⟨?_, ?_, ?_⟩
  · exact congrArg Except.ok (SpelledHeader.header_ofFields versionInRange fields last)
  · intro b mem
    obtain ⟨i, bound, rfl⟩ := List.mem_mapIdx.1 mem
    simp [Block.overrun]
  · intro e mem
    rw [List.append_nil] at mem
    rcases List.mem_append.1 mem with ofHeader | ofBlocks
    · simp [SpelledHeader.level_ofFields ofHeader]
    · exact SpelledFile.level_ofBlocks short ofBlocks

/-- A module named twice, zeros in the strings, the largest magnitude, and an empty block. -/
theorem reading_encoded_zeros :
    let fields : List (HeaderField × String) :=
      [(.moduleName, "first"), (.packageName, "p\x00"), (.moduleName, "\x00.")]
    let blocks : List (List Instruction) :=
      [[⟨.yld, [.integer (-4294967295), .register .ptr], rfl⟩,
        ⟨.cmplx, [.string "\x00\x00", .string ""], rfl⟩], []]
    let reading :=
      Reading.ofSource ⟨-7, .strict⟩ (.ofBytes (Encoding.file (-7) fields 0x99 blocks))
    (∀ is ∈ blocks, ∀ i ∈ is, ∀ a ∈ i.args, a.InRange) ∧
    reading.opening.result = .ok ⟨-7, some "\x00.", some "p\x00"⟩ ∧
    reading.blocks.map Block.instructions = blocks ∧
    reading.blocks.map Block.consumed = [16, 0] ∧
    reading.outcome = .ok () ∧ reading.position = 62 ∧
    ∀ e ∈ reading.allEvents, e.level ≠ .warn := by
  intro fields blocks reading
  have inRange : ∀ is ∈ blocks, ∀ i ∈ is, ∀ a ∈ i.args, a.InRange := by
    simp [blocks, Arg.InRange]
  obtain ⟨opened, given, -, ended, stopped, quiet⟩ :=
    @reading_encoded .strict (-7) fields 0x99 blocks (by decide) inRange (by decide)
  refine ⟨inRange, opened, ?_, ?_, ended, ?_, quiet⟩
  · exact (congrArg _ given).trans (by decide)
  · exact (congrArg _ given).trans (by decide)
  · exact (congrArg Cursor.position stopped).trans (by decide)

end Latitude
