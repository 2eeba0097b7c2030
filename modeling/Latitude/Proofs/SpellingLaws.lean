import Latitude.Proofs.Spelling

/-!
# Reading what is spelled

Every reader of the format takes exactly the bytes of a spelled thing, gives what they
stand for and reports their events, wherever they start and whatever follows. For a block
this needs that its length fits the boundary, and that it ends below the highest offset
that a length can reach.
-/

namespace Latitude.Reader

open Encoding

-- ---------------------------------------------------------------------------
-- Integers and strings
-- ---------------------------------------------------------------------------

theorem takes_integer (i : SpelledInteger) (p : Nat) :
    Takes (signed integerWidth) p i.bytes (.ok i.value) [] := by
  have narrow : i.magnitude.length ≤ 4 := Nat.le_of_eq i.width
  have small : ofLittleEndian i.magnitude < magnitudeLimit :=
    Nat.lt_of_lt_of_le (ofLittleEndian_lt_of_le narrow) (by decide)
  have takes := takes_signed (by omega) small i.sign p
  rwa [i.width] at takes

theorem takes_stringRound (piece : TextPiece) (seen : List UInt8) (p : Nat) :
    Takes (stringRound seen) p piece.bytes (.ok (.again (piece.content.reverse ++ seen)))
      (piece.events p) := by
  cases piece with
  | plain byte nonzero =>
    refine .bind_byte ?_
    rw [if_neg nonzero]
    exact .pure _ _
  | zero => exact .bind_byte (.bind_position (.bind_byte (.pure _ _)))
  | dropped byte nonzero unescaped =>
    refine .bind_byte (.bind_position (.bind_byte ?_))
    rw [if_neg nonzero, if_neg unescaped]
    exact .bind_emit (.pure _ _)

/-- `seen` are the bytes before the pieces, the latest first. -/
theorem takes_stringLoop {advances : ∀ seen, Action.Advances Cursor.remaining (stringRound seen)}
    (pieces : List TextPiece) (seen : List UInt8) (p : Nat) :
    Takes (Action.loop Cursor.remaining stringRound advances seen) p
      (pieces.flatMap TextPiece.bytes ++ [0, 0])
      (.ok (seen.reverse ++ pieces.flatMap TextPiece.content))
      (eventsAlong TextPiece.bytes TextPiece.events pieces p) := by
  induction pieces generalizing seen p with
  | nil =>
    simp only [List.flatMap_nil, List.append_nil]
    exact .loop_done (.bind_byte (.bind_position (.bind_byte (.pure _ _))))
  | cons piece pieces ih =>
    have others := ih (piece.content.reverse ++ seen) (p + piece.bytes.length)
    rw [List.reverse_append, List.reverse_reverse, List.append_assoc] at others
    rw [List.flatMap_cons, List.append_assoc]
    exact (takes_stringRound piece seen p).loop_again others

theorem takes_string (s : SpelledText) (p : Nat) :
    Takes string p s.bytes (.ok s.text) (s.events p) := by
  refine .bind_position (.bind_done (takes_stringLoop s.pieces [] p) ?_)
  rw [List.reverse_nil, List.nil_append, s.spells, Text.decodeUtf8?_encodeUtf8]
  exact .pure _ _

-- ---------------------------------------------------------------------------
-- Instructions
-- ---------------------------------------------------------------------------

theorem takes_opcode (op : Opcode) (p : Nat) : Takes opcode p [op.toByte] (.ok op) [] := by
  refine .bind_position (.bind_byte ?_)
  rw [Opcode.ofByte?_toByte]
  exact .pure _ _

theorem takes_register (r : Register) (p : Nat) : Takes register p [r.toByte] (.ok r) [] := by
  refine .bind_position (.bind_byte ?_)
  rw [Register.ofByte?_toByte]
  exact .pure _ _

theorem takes_method {number : List UInt8} (width : number.length = methodWidth) (p : Nat) :
    Takes method p number (.ok ⟨UInt32.ofNat (ofLittleEndian number)⟩) [] := by
  have narrow : number.length ≤ 4 := Nat.le_of_eq width
  have takes := takes_unsigned (w := number) (by omega) p
  rw [width] at takes
  have cut : (UInt64.ofNat (ofLittleEndian number)).toUInt32 =
      UInt32.ofNat (ofLittleEndian number) := UInt64.toUInt32_ofNat' _
  rw [← cut]
  exact takes.bind_done (.pure _ _)

theorem takes_arg (a : SpelledArg) (p : Nat) :
    Takes (arg a.arg.kind) p a.bytes (.ok a.arg) (a.events p) := by
  cases a with
  | integer i => exact (takes_integer i p).bind_done (.pure _ _)
  | string s => exact (takes_string s p).bind_done (.pure _ _)
  | register r => exact (takes_register r p).bind_done (.pure _ _)
  | method number width => exact (takes_method width p).bind_done (.pure _ _)

theorem takes_args (as : List SpelledArg) (p : Nat) :
    Takes (args (as.map (·.arg.kind))) p (as.flatMap SpelledArg.bytes)
      (.ok (as.map SpelledArg.arg)) (eventsAlong SpelledArg.bytes SpelledArg.events as p) := by
  induction as generalizing p with
  | nil => exact .pure _ p
  | cons a as ih =>
    exact (takes_arg a p).bind ((ih (p + a.bytes.length)).bind_done (.pure _ _))

theorem takes_instruction (i : SpelledInstruction) (p : Nat) :
    Takes instruction p i.bytes (.ok i.instruction) (i.events p) := by
  have found := takes_args i.args (p + 1)
  rw [i.fits] at found
  have ending : Takes (Action.emit (.instructionDecoded p i.opcode i.instruction.args.length) >>=
        fun _ => Action.ofExcept
          ((Instruction.build i.opcode i.instruction.args).mapError .instruction))
      (p + 1 + (i.args.flatMap SpelledArg.bytes).length) [] (.ok i.instruction)
      [.instructionDecoded p i.opcode i.args.length] := by
    have built : Instruction.build i.opcode i.instruction.args = .ok i.instruction :=
      Instruction.build_self i.instruction
    rw [built, SpelledInstruction.instruction, List.length_map]
    exact .bind_emit (.pure _ _)
  have takes := (takes_opcode i.opcode p).bind (f := fun code =>
    args code.signature >>= fun found =>
      Action.emit (.instructionDecoded p code found.length) >>= fun _ =>
        Action.ofExcept ((Instruction.build code found).mapError .instruction)) (found.bind ending)
  rw [List.append_nil] at takes
  exact .bind_position takes

-- ---------------------------------------------------------------------------
-- Blocks
-- ---------------------------------------------------------------------------

theorem takes_blockRound {stop p : Nat} (before : p < stop) (i : SpelledInstruction)
    (seen : List Instruction) :
    Takes (blockRound stop seen) p i.bytes (.ok (.again (i.instruction :: seen))) (i.events p) := by
  refine .bind_position ?_
  rw [if_pos before]
  exact (takes_instruction i p).bind_done (.pure _ _)

/-- `seen` are the instructions before these, the latest first. -/
theorem takes_blockLoop {stop : Nat}
    {advances : ∀ seen, Action.Advances Cursor.remaining (blockRound stop seen)}
    (is : List SpelledInstruction) (seen : List Instruction) {p : Nat}
    (covers : SpelledBlock.Covers (stop - p) is) :
    Takes (Action.loop Cursor.remaining (blockRound stop) advances seen) p
      (is.flatMap SpelledInstruction.bytes)
      (.ok (seen.reverse ++ is.map SpelledInstruction.instruction))
      (eventsAlong SpelledInstruction.bytes SpelledInstruction.events is p) := by
  induction is generalizing seen p with
  | nil =>
    have reached : ¬ p < stop := Nat.not_lt.2 (Nat.sub_eq_zero_iff_le.1 covers)
    refine .loop_done (.bind_position ?_)
    rw [if_neg reached, List.map_nil, List.append_nil]
    exact .pure _ _
  | cons i is ih =>
    obtain ⟨before, others⟩ := covers
    rw [Nat.sub_sub] at others
    have takes := ih (i.instruction :: seen) others
    rw [List.reverse_cons, List.append_assoc] at takes
    exact (takes_blockRound (by omega) i seen).loop_again takes

theorem takes_settle {boundary : Boundary} {block : Block}
    (fits : boundary = .strict → block.overrun = 0) (p : Nat) :
    Takes (settle boundary block) p [] (.ok ())
      (if block.overrun = 0 then []
        else [.blockOverran block.index block.declared block.consumed]) := by
  unfold settle
  by_cases h : block.overrun = 0
  · rw [if_pos h, if_pos h]
    exact .pure _ _
  · rw [if_neg h, if_neg h]
    cases boundary with
    | lax => exact .emit _ _
    | strict => exact absurd (fits rfl) h

theorem overrun_eq_zero_of_fits {b : SpelledBlock} (fits : b.Fits .strict) (index offset : Nat) :
    (b.block index offset).overrun = 0 :=
  Nat.sub_eq_zero_of_le (Nat.le_of_eq fits)

theorem takes_presentBlock {boundary : Boundary} {b : SpelledBlock} (fits : b.Fits boundary)
    (index : Nat) {p : Nat} (low : p + b.bytes.length < maxOffset) :
    Takes (presentBlock index boundary) p b.bytes (.ok (b.block index p)) (b.events index p) := by
  have width : b.lengthBytes.length = 8 := b.width
  have length := takes_unsigned (w := b.lengthBytes) (by omega) p
  have value : (UInt64.ofNat (ofLittleEndian b.lengthBytes)).toNat = b.declared :=
    UInt64.toNat_ofNat_of_lt' (ofLittleEndian_lt_of_le (Nat.le_of_eq width))
  have covers := fits.covers
  have within := covers.le_length
  have stop : min (p + 8 + b.declared) maxOffset - (p + 8) = b.declared := by
    rw [SpelledBlock.bytes, SpelledBlock.body, List.length_append] at low
    omega
  have taken : p + 8 + b.body.length - (p + 8) = b.body.length := by omega
  rw [b.width] at length
  refine .bind_position (length.bind ?_)
  rw [value, width]
  refine .bind_position (.bind_emit (.bind_tail (takes_blockLoop b.instructions [] ?_) ?_))
  · rwa [stop]
  · refine .bind_position ?_
    dsimp only
    rw [taken]
    refine (takes_settle ?_ _).bind_done (.pure (b.block index p) _)
    rintro rfl
    exact overrun_eq_zero_of_fits fits index p

-- ---------------------------------------------------------------------------
-- Headers
-- ---------------------------------------------------------------------------

theorem takes_headerValue (v : SpelledValue) (p : Nat) :
    Takes headerValue p v.bytes (.ok v.value) (v.events p) := by
  refine .bind_position ?_
  cases v with
  | integer i =>
    refine .bind_byte ?_
    rw [Nature.ofByte?_toByte]
    exact (takes_integer i (p + 1)).bind_done (.pure _ _)
  | string s =>
    refine .bind_byte ?_
    rw [Nature.ofByte?_toByte]
    exact (takes_string s (p + 1)).bind_done (.pure _ _)

theorem takes_headerRound (f : SpelledField) (header : Header) (p : Nat) :
    Takes (headerRound header) p f.bytes (.ok (.again (header.set f.name.text f.field)))
      (f.events p) := by
  have tag : f.field.toByte ≠ Header.endByte := by cases f.field <;> decide
  refine .bind_position (.bind_byte ?_)
  rw [if_neg tag]
  refine (takes_headerValue (.string f.name) (p + 1)).bind_done ?_
  rw [HeaderField.ofByte?_toByte]
  exact .pure _ _

theorem takes_headerLoop
    {advances : ∀ header, Action.Advances Cursor.remaining (headerRound header)}
    (fields : List SpelledField) (last : UInt8) (header : Header) (p : Nat) :
    Takes (Action.loop Cursor.remaining headerRound advances header) p
      (fields.flatMap SpelledField.bytes ++ [Header.endByte, last])
      (.ok (header.setAll (fields.map SpelledField.named)))
      (eventsAlong SpelledField.bytes SpelledField.events fields p) := by
  induction fields generalizing header p with
  | nil => exact .loop_done (.bind_position (.bind_byte (.bind_byte (.pure _ _))))
  | cons f fields ih =>
    rw [List.flatMap_cons, List.append_assoc]
    exact (takes_headerRound f header p).loop_again (ih _ (p + f.bytes.length))

theorem takes_header (h : SpelledHeader) (p : Nat) :
    Takes header p h.bytes (.ok h.header) (h.events p) := by
  refine (takes_integer h.version p).bind (.bind_tail (takes_headerLoop h.fields h.last _ _) ?_)
  rw [Header.setAll_eq_ofFields]
  exact .bind_emit (.pure _ _)

end Latitude.Reader
