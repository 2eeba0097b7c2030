import Latitude.Proofs.Rendering
import Latitude.Proofs.RoundTrip

/-!
# The plainest form of a file

A file can be written in many ways: with any nonzero byte for a minus sign, with zeros that
are dropped, with fields named again and again, with blocks that declare too little. What is
read from it can be encoded again, and the encoding shows none of that: it is no longer than
the file, is accepted under either boundary without a warning, reads and lists the same, and
is its own encoding.

The bounds follow the spelling from its parts up: what a part stands for takes no more bytes
in the encoding than the part does.
-/

namespace Latitude

theorem length_flatMap_le {α β : Type} {items : List α} {f g : α → List β}
    (h : ∀ a ∈ items, (f a).length ≤ (g a).length) :
    (items.flatMap f).length ≤ (items.flatMap g).length := by
  induction items with
  | nil => exact Nat.le_refl 0
  | cons a items ih =>
    simp only [List.forall_mem_cons] at h
    simp only [List.flatMap_cons, List.length_append]
    exact Nat.add_le_add h.1 (ih h.2)

-- ---------------------------------------------------------------------------
-- What is spelled can be encoded
-- ---------------------------------------------------------------------------

theorem SpelledInteger.natAbs_value_lt (i : SpelledInteger) : i.value.natAbs < 2 ^ 32 := by
  have bound : Encoding.ofLittleEndian i.magnitude < 256 ^ Reader.integerWidth :=
    Encoding.ofLittleEndian_lt_of_le (Nat.le_of_eq i.width)
  have width : 256 ^ Reader.integerWidth = 2 ^ 32 := by decide
  simp only [value, Reader.signedValue]
  split <;> simp <;> omega

theorem SpelledArg.inRange (a : SpelledArg) : a.arg.InRange := by
  cases a with
  | integer i => exact i.natAbs_value_lt
  | _ => trivial

theorem SpelledBlock.inRange (b : SpelledBlock) {index offset : Nat} {i : Instruction}
    (mem : i ∈ (b.block index offset).instructions) {a : Arg} (arg : a ∈ i.args) : a.InRange := by
  obtain ⟨i, -, rfl⟩ := List.mem_map.1 mem
  obtain ⟨a, -, rfl⟩ := List.mem_map.1 arg
  exact a.inRange

-- ---------------------------------------------------------------------------
-- Nothing gets longer
-- ---------------------------------------------------------------------------

theorem SpelledText.length_string_le (s : SpelledText) :
    (Encoding.string s.text).length ≤ s.bytes.length := by
  have escaped : Encoding.escapeZeros (Text.encodeUtf8 s.text) =
      s.pieces.flatMap fun piece => Encoding.escapeZeros piece.content := by
    rw [← s.spells, Encoding.escapeZeros, List.flatMap_assoc]
    rfl
  have pieces : (Encoding.escapeZeros (Text.encodeUtf8 s.text)).length ≤
      (s.pieces.flatMap TextPiece.bytes).length := by
    rw [escaped]
    refine length_flatMap_le fun piece _ => ?_
    cases piece with
    | plain byte nonzero => simp [TextPiece.content, TextPiece.bytes, Encoding.escapeZeros, nonzero]
    | zero => simp [TextPiece.content, TextPiece.bytes, Encoding.escapeZeros]
    | dropped => simp [TextPiece.content, TextPiece.bytes, Encoding.escapeZeros]
  simpa [Encoding.string, bytes] using pieces

theorem SpelledArg.length_encode_le (a : SpelledArg) : a.arg.encode.length ≤ a.bytes.length := by
  cases a with
  | integer i => simp [arg, bytes, Arg.encode, Encoding.integer, SpelledInteger.bytes, i.width]
  | string s => exact s.length_string_le
  | register r => simp [arg, bytes, Arg.encode]
  | method number width => simp [arg, bytes, Arg.encode, width]

theorem SpelledInstruction.length_encode_le (i : SpelledInstruction) :
    i.instruction.encode.length ≤ i.bytes.length := by
  simp only [instruction, Instruction.encode, bytes, List.length_cons, List.flatMap_map]
  exact Nat.succ_le_succ (length_flatMap_le fun a _ => a.length_encode_le)

theorem SpelledBlock.length_encode_le (b : SpelledBlock) (index offset : Nat) :
    (Encoding.block (b.block index offset).instructions).length ≤ b.bytes.length := by
  simp only [block, Encoding.block, length_bytes, List.length_append, Encoding.length_littleEndian,
    List.flatMap_map]
  exact Nat.add_le_add_left (length_flatMap_le fun i _ => i.length_encode_le) _

theorem SpelledBlock.length_encode_blocksFrom_le (bs : List SpelledBlock) (index offset : Nat) :
    (((blocksFrom bs index offset).map Block.instructions).flatMap Encoding.block).length ≤
      (bs.flatMap bytes).length := by
  induction bs generalizing index offset with
  | nil => exact Nat.le_refl 0
  | cons b bs ih =>
    simp only [blocksFrom, List.map_cons, List.flatMap_cons, List.length_append]
    exact Nat.add_le_add (b.length_encode_le index offset) (ih _ _)

def Encoding.optionalField (field : HeaderField) (name : Option String) : List UInt8 :=
  name.elim [] (headerField field)

theorem Header.flatMap_names (header : Header) :
    header.names.flatMap (fun f => Encoding.headerField f.1 f.2) =
      Encoding.optionalField .moduleName header.moduleName ++
        Encoding.optionalField .packageName header.packageName := by
  obtain ⟨version, moduleName, packageName⟩ := header
  cases moduleName <;> cases packageName <;> simp [names, get, Encoding.optionalField]

theorem Encoding.length_optionalField_or_le (field : HeaderField) (a b : Option String) :
    (optionalField field (a.or b)).length ≤
      (optionalField field a).length + (optionalField field b).length := by
  cases a <;> simp [optionalField]

theorem SpelledField.length_names_le (fields : List SpelledField) :
    (Encoding.optionalField .moduleName
        (HeaderField.moduleName.lastName (fields.map named))).length +
      (Encoding.optionalField .packageName
        (HeaderField.packageName.lastName (fields.map named))).length ≤
      (fields.flatMap bytes).length := by
  induction fields with
  | nil => simp [HeaderField.lastName, Encoding.optionalField]
  | cons f fields ih =>
    have name := f.name.length_string_le
    have moduleName := Encoding.length_optionalField_or_le .moduleName
      (HeaderField.moduleName.lastName (fields.map named))
      (if HeaderField.moduleName = f.field then some f.name.text else none)
    have packageName := Encoding.length_optionalField_or_le .packageName
      (HeaderField.packageName.lastName (fields.map named))
      (if HeaderField.packageName = f.field then some f.name.text else none)
    simp only [List.map_cons, HeaderField.lastName_cons, named, List.flatMap_cons,
      List.length_append]
    -- The field counts for one of the two names at most.
    have own : (Encoding.optionalField .moduleName
          (if HeaderField.moduleName = f.field then some f.name.text else none)).length +
        (Encoding.optionalField .packageName
          (if HeaderField.packageName = f.field then some f.name.text else none)).length ≤
        f.bytes.length := by
      cases field : f.field <;>
        simpa [Encoding.optionalField, Encoding.headerField, bytes] using name
    omega

theorem SpelledHeader.length_encode_le (h : SpelledHeader) (last : UInt8) :
    (Encoding.header h.header.version h.header.names last).length ≤ h.bytes.length := by
  have names := SpelledField.length_names_le h.fields
  have version : h.version.bytes.length = (Encoding.integer h.header.version).length := by
    simp [SpelledInteger.bytes, h.version.width, Encoding.integer]
  simp only [Encoding.header, Header.flatMap_names, bytes, List.length_append, version]
  simp only [header, Header.ofFields, List.length_cons] at names ⊢
  omega

-- ---------------------------------------------------------------------------
-- Files
-- ---------------------------------------------------------------------------

/-- What is listed of a block. -/
def Block.content (block : Block) : Nat × List Instruction := (block.index, block.instructions)

theorem Block.map_listing_eq {blocks others : List Block}
    (same : blocks.map content = others.map content) :
    blocks.map listing = others.map listing := by
  let lines (shown : Nat × List Instruction) : String :=
    label shown.1 ++ "\n" ++ String.join (shown.2.map fun i => "  " ++ i.listing ++ "\n")
  have shown : listing = lines ∘ content := rfl
  rw [shown, ← List.map_map, same, List.map_map]

theorem Header.ofFields_names (header : Header) :
    .ofFields header.version header.names = header := by
  obtain ⟨version, moduleName, packageName⟩ := header
  cases moduleName <;> cases packageName <;>
    simp [ofFields, names, get, HeaderField.lastName]

namespace SpelledFile

theorem map_content_readBlocks (file : SpelledFile) :
    file.readBlocks.map Block.content =
      (file.readBlocks.map Block.instructions).mapIdx Prod.mk := by
  rw [readBlocks, SpelledBlock.blocksFrom_eq_mapIdx]
  apply List.ext_getElem (by simp)
  intro i _ _
  simp [Block.content, SpelledBlock.block]

theorem inRange (file : SpelledFile) {b : Block} (mem : b ∈ file.readBlocks) {i : Instruction}
    (given : i ∈ b.instructions) {a : Arg} (arg : a ∈ i.args) : a.InRange := by
  rw [readBlocks, SpelledBlock.blocksFrom_eq_mapIdx] at mem
  obtain ⟨n, bound, rfl⟩ := List.mem_mapIdx.1 mem
  exact SpelledBlock.inRange _ given arg

theorem length_encodeFile_le (file : SpelledFile) :
    (file.header.header.encodeFile file.readBlocks).length ≤ file.bytes.length := by
  have blocks := SpelledBlock.length_encode_blocksFrom_le file.blocks 0 file.header.bytes.length
  simp only [Header.encodeFile, Encoding.file, bytes, List.length_append]
  exact Nat.add_le_add (file.header.length_encode_le 0) blocks

end SpelledFile

section
variable {header : Header} {blocks : List Block}

def Header.spelling (header : Header) (blocks : List Block) : SpelledFile :=
  .ofBlocks header.version header.names 0 (blocks.map Block.instructions)

theorem Header.bytes_spelling : (header.spelling blocks).bytes = header.encodeFile blocks :=
  SpelledFile.bytes_ofBlocks

theorem accepts_encodeFile (version : header.version.natAbs < 2 ^ 32)
    (inRange : ∀ b ∈ blocks, ∀ i ∈ b.instructions, ∀ a ∈ i.args, a.InRange)
    (short : (header.encodeFile blocks).length < Reader.maxOffset) (boundary : Boundary) :
    ∃ again, Accepts ⟨header.version, boundary⟩ (header.encodeFile blocks) header again ∧
      again.map Block.content = (blocks.map Block.instructions).mapIdx Prod.mk := by
  have fits : (header.spelling blocks).Fits ⟨header.version, boundary⟩ :=
    SpelledFile.fits_ofBlocks version short boundary
  have opened : (header.spelling blocks).header.header = header :=
    (SpelledHeader.header_ofFields version _ _).trans header.ofFields_names
  have same : (header.spelling blocks).readBlocks.map Block.instructions =
      blocks.map Block.instructions := by
    rw [Header.spelling, SpelledFile.readBlocks_ofBlocks short (by simpa using inRange)]
    apply List.ext_getElem (by simp)
    intro i _ _
    simp
  refine ⟨(header.spelling blocks).readBlocks, ?_, ?_⟩
  · have accepted := accepts_of_spelled fits (by rw [Header.bytes_spelling]; exact short)
    rwa [Header.bytes_spelling, opened] at accepted
  · rw [SpelledFile.map_content_readBlocks, same]

theorem level_encodeFile (version : header.version.natAbs < 2 ^ 32)
    (short : (header.encodeFile blocks).length < Reader.maxOffset) (boundary : Boundary)
    {e : Event} (mem : e ∈ (Reading.ofSource ⟨header.version, boundary⟩
      (.ofBytes (header.encodeFile blocks))).allEvents) : e.level ≠ .warn := by
  have fits : (header.spelling blocks).Fits ⟨header.version, boundary⟩ :=
    SpelledFile.fits_ofBlocks version short boundary
  have read := Reading.ofSource_spelled fits (by rw [Header.bytes_spelling]; exact short)
  rw [Header.bytes_spelling] at read
  rw [read] at mem
  simp only [Reading.allEvents, List.append_nil] at mem
  rcases List.mem_append.1 mem with ofHeader | ofBlocks
  · simp [SpelledHeader.level_ofFields ofHeader]
  · exact SpelledFile.level_ofBlocks short ofBlocks

theorem sink_of_accepts {policy : Policy} {data : List UInt8} {sink : Sink}
    (accepted : Accepts policy data header blocks) (never : sink.NeverFails) (file : String) :
    (disassemble (.ofBytes data) file policy sink).sink =
      { sink.accept (Text.encodeUtf8
          (header.listing file ++ String.join (blocks.map Block.listing))) with
        flushes := sink.flushes + 1 } := by
  obtain ⟨opened, given, ended⟩ := Reading.of_accepts accepted
  rw [disassemble_of_neverFails _ file policy never]
  simp only [Reading.filled, Reading.text, opened, given, ended]
  rfl

end

/-- Of an accepted file, whatever was read can be encoded: the version and the integers have a
place in it, and the arguments fit their operations. The encoding is no longer than the file,
and under either boundary it is accepted and read as the same header and the same blocks, with
nothing to warn of; it is listed as the file is, under every name; and what is read from it has
that same encoding again. -/
theorem encoding_is_normal_form {expected : Int} {data : List UInt8} {header : Header}
    {blocks : List Block} (short : data.length < Reader.maxOffset)
    (accepted : Accepts ⟨expected, .lax⟩ data header blocks) :
    header.version.natAbs < 2 ^ 32 ∧
    (∀ b ∈ blocks, ∀ i ∈ b.instructions,
      (∀ a ∈ i.args, a.InRange) ∧ Instruction.build i.opcode i.args = .ok i) ∧
    (header.encodeFile blocks).length ≤ data.length ∧
    ∀ boundary, ∃ again,
      Accepts ⟨expected, boundary⟩ (header.encodeFile blocks) header again ∧
      again.map Block.content = blocks.map Block.content ∧
      header.encodeFile again = header.encodeFile blocks ∧
      (∀ e ∈ (Reading.ofSource ⟨expected, boundary⟩
        (.ofBytes (header.encodeFile blocks))).allEvents, e.level ≠ .warn) ∧
      ∀ file (sink : Sink), sink.NeverFails →
        (disassemble (.ofBytes (header.encodeFile blocks)) file ⟨expected, boundary⟩ sink).sink =
          (disassemble (.ofBytes data) file ⟨expected, .lax⟩ sink).sink := by
  obtain ⟨spelled, ⟨version, -⟩, rfl, rfl, rfl⟩ := spelled_of_accepts short accepted
  obtain rfl : spelled.header.header.version = expected := version
  have small : spelled.header.header.version.natAbs < 2 ^ 32 :=
    spelled.header.version.natAbs_value_lt
  have inRange (b) (mem : b ∈ spelled.readBlocks) (i) (given : i ∈ b.instructions) (a)
      (arg : a ∈ i.args) : a.InRange := spelled.inRange mem given arg
  have shorter := spelled.length_encodeFile_le
  have low := Nat.lt_of_le_of_lt shorter short
  refine ⟨small, ?_, shorter, fun boundary => ?_⟩
  · intro b mem i given
    exact ⟨inRange b mem i given, i.build_self⟩
  · obtain ⟨again, reread, content⟩ := accepts_encodeFile small inRange low boundary
    rw [← spelled.map_content_readBlocks] at content
    have instructions : again.map Block.instructions =
        spelled.readBlocks.map Block.instructions := by
      simpa [Function.comp_def, Block.content] using congrArg (List.map Prod.snd) content
    refine ⟨again, reread, content, ?_, ?_, ?_⟩
    · rw [Header.encodeFile, instructions, Header.encodeFile]
    · intro e mem
      exact level_encodeFile small low boundary mem
    · intro file sink never
      rw [sink_of_accepts reread never, sink_of_accepts accepted never,
        Block.map_listing_eq content]

/-- A version of minus zero, a module named twice with a byte dropped from its name, and a
block that declares one of its seven bytes. -/
theorem encoding_is_normal_form_of_redundant :
    let data : List UInt8 :=
      [7, 0, 0, 0, 0, 0x4D, 0x24, 0x78, 0, 0, 0x4D, 0x24, 0x61, 0, 0x41, 0x62, 0, 0, 0x2E, 0xFF,
        1, 0, 0, 0, 0, 0, 0, 0, 0x31, 9, 1, 0, 0, 0, 0x01]
    let header : Header := { version := 0, moduleName := some "ab" }
    let i : Instruction := ⟨.yld, [.integer (-1), .register .ptr], rfl⟩
    let encoded : List UInt8 :=
      [0, 0, 0, 0, 0, 0x4D, 0x24, 0x61, 0x62, 0, 0, 0x2E, 0,
        7, 0, 0, 0, 0, 0, 0, 0, 0x31, 1, 1, 0, 0, 0, 0x01]
    Accepts ⟨0, .lax⟩ data header [⟨0, 20, 1, 7, [i]⟩] ∧
      ∃ again, Accepts ⟨0, .strict⟩ encoded header again ∧
        again.map Block.content = [(0, [i])] ∧ header.encodeFile again = encoded := by
  intro data header i encoded
  let file : SpelledFile :=
    { header :=
        { version := ⟨7, [0, 0, 0, 0], rfl⟩
          fields :=
            [⟨.moduleName, [.plain 0x78 (by decide)], "x", by decide⟩,
              ⟨.moduleName, [.plain 0x61 (by decide), .dropped 0x41 (by decide) (by decide),
                .plain 0x62 (by decide)], "ab", by decide⟩]
          last := 0xFF }
      blocks := [⟨[1, 0, 0, 0, 0, 0, 0, 0], rfl,
        [⟨.yld, [.integer ⟨9, [1, 0, 0, 0], rfl⟩, .register .ptr], rfl⟩]⟩] }
  have fits : file.Fits ⟨0, .lax⟩ := ⟨by decide, by simp [file, SpelledBlock.Fits]; decide⟩
  have accepted : Accepts ⟨0, .lax⟩ data header [⟨0, 20, 1, 7, [i]⟩] :=
    accepts_of_spelled fits (by decide)
  have written : header.encodeFile [⟨0, 20, 1, 7, [i]⟩] = encoded := by decide
  obtain ⟨-, -, -, normal⟩ := encoding_is_normal_form (by decide) accepted
  obtain ⟨again, reread, content, same, -⟩ := normal .strict
  rw [written] at reread same
  exact ⟨accepted, again, reread, content, same⟩

end Latitude
