import Mathlib.Algebra.Ring.Nat
import Latitude.Proofs.Boundary
import Latitude.Proofs.Flaws
import Latitude.Proofs.Tiling

/-!
# Errors are true

Whatever error ends the reading of a file that is nothing but bytes, what it says is so:
the offset it gives is that of the byte it names, the byte is in no table, the string there
is no text, the block runs past its length. `ReadError.TrueAt` says this for each error, by
the place where the reading has stopped. Errors about the source itself, about integers that
are too wide and about arguments that do not fit cannot occur.
-/

namespace Latitude

open Reader (lengthWidth maxOffset)

-- ---------------------------------------------------------------------------
-- What is true of a file
-- ---------------------------------------------------------------------------

def Spans (data : List UInt8) (p q : Nat) (w : List UInt8) : Prop :=
  ∃ x rest, data = x ++ (w ++ rest) ∧ x.length = p ∧ p + w.length = q

/-- Where the reading of a file has stopped. -/
structure Halt where
  policy : Policy
  data : List UInt8
  /-- How many bytes have been taken. -/
  position : Nat
  /-- How many blocks have been given. -/
  count : Nat
  /-- Where the last of them ends, or the header if there is none. -/
  edge : Nat

/-- What the error says of the file is so. -/
def ReadError.TrueAt (halt : Halt) : ReadError → Prop
  | .endOfStream o => o = halt.position ∧ halt.position = halt.data.length
  | .unknownOpcode b o =>
    o + 1 = halt.position ∧ halt.data[o]? = some b ∧ ¬ (0x01 ≤ b.toNat ∧ b.toNat ≤ 0x36)
  | .unknownRegister b o =>
    o + 1 = halt.position ∧ halt.data[o]? = some b ∧ ¬ (0x01 ≤ b.toNat ∧ b.toNat ≤ 0x1E)
  | .unknownNature b o =>
    o + 1 = halt.position ∧ halt.data[o]? = some b ∧ b ≠ 0x23 ∧ b ≠ 0x24
  | .unknownHeaderTag b o =>
    halt.data[o]? = some b ∧ b ≠ 0x4D ∧ b ≠ 0x50 ∧ b ≠ 0x2E ∧
      ∃ v : SpelledValue, Spans halt.data (o + 1) halt.position v.bytes
  | .headerTypeMismatch b =>
    (b = 0x4D ∨ b = 0x50) ∧ 7 ≤ halt.position ∧ halt.data[halt.position - 7]? = some b ∧
      halt.data[halt.position - 6]? = some 0x23
  | .invalidUtf8 o =>
    ∃ pieces : List TextPiece,
      Spans halt.data o halt.position (pieces.flatMap TextPiece.bytes ++ [0, 0]) ∧
      (∀ i, o ≤ i → halt.data[i]? = some 0 → halt.data[i + 1]? = some 0 →
        halt.position ≤ i + 2) ∧
      ∀ text, Text.encodeUtf8 text ≠ pieces.flatMap TextPiece.content
  | .versionMismatch expected found =>
    expected = halt.policy.expectedVersion ∧ found ≠ expected ∧
      ∃ h : SpelledHeader, Spans halt.data 0 halt.position h.bytes ∧
        Spans halt.data 0 5 h.version.bytes ∧ found = h.version.value
  | .blockOverrun index declared consumed =>
    halt.policy.boundary = .strict ∧ index = halt.count ∧
      ∃ s : SpelledBlock, Spans halt.data halt.edge halt.position s.bytes ∧ s.Fits .lax ∧
        declared = s.declared ∧ consumed = s.body.length ∧ declared < consumed
  | .integerOverflow .. | .instruction _ | .io _ => False

theorem TextPiece.length_le_of_zeros {pieces : List TextPiece} {rest : List UInt8} {i : Nat}
    (first : (pieces.flatMap bytes ++ rest)[i]? = some 0)
    (second : (pieces.flatMap bytes ++ rest)[i + 1]? = some 0) :
    (pieces.flatMap bytes).length ≤ i := by
  induction pieces generalizing i with
  | nil => exact Nat.zero_le i
  | cons piece pieces ih =>
    rw [List.flatMap_cons, List.append_assoc] at first second
    rw [List.flatMap_cons, List.length_append]
    by_cases within : i < piece.bytes.length
    · -- A zero in a piece is its first byte, and the second is none.
      rw [List.getElem?_append_left within] at first
      cases piece with
      | plain byte nonzero =>
        obtain rfl : i = 0 := Nat.lt_one_iff.1 within
        exact absurd (Option.some.inj first) nonzero
      | zero =>
        match i, within with
        | 0, _ => cases second
        | 1, _ => cases first
      | dropped byte nonzero unescaped =>
        match i, within with
        | 0, _ => exact absurd (Option.some.inj second) nonzero
        | 1, _ => exact absurd (Option.some.inj first) nonzero
    · rw [List.getElem?_append_right (by omega)] at first second
      rw [Nat.sub_add_comm (by omega)] at second
      have later := ih first second
      omega

variable {halt : Halt} {e : ReadError}

theorem ReadError.trueAt_of_flaw {x w rest : List UInt8} (split : halt.data = x ++ (w ++ rest))
    (stop : halt.position = x.length + w.length) (flaw : Flaw x.length rest w e) :
    e.TrueAt halt := by
  have there (i : Nat) {b : UInt8} (found : w[i]? = some b) :
      halt.data[x.length + i]? = some b := by
    have within := (List.getElem?_eq_some_iff.1 found).1
    rw [split, List.getElem?_append_right (by omega), Nat.add_sub_cancel_left,
      List.getElem?_append_left within, found]
  cases flaw with
  | missing ends =>
    refine ⟨stop.symm, ?_⟩
    rw [stop, split, ends]
    simp
  | opcode unknown =>
    refine ⟨stop.symm, there 0 rfl, fun known => ?_⟩
    obtain ⟨op, found⟩ := (Opcode.exists_toByte_iff _).2 known
    exact unknown op found
  | register unknown =>
    refine ⟨stop.symm, there 0 rfl, fun known => ?_⟩
    obtain ⟨r, found⟩ := (Register.exists_toByte_iff _).2 known
    exact unknown r found
  | nature unknown =>
    exact ⟨stop.symm, there 0 rfl, (unknown .integer).symm, (unknown .string).symm⟩
  | @tag b v other unknown =>
    refine ⟨there 0 rfl, (unknown .moduleName).symm, (unknown .packageName).symm, other, v,
      x ++ [b], rest, by simp [split], by simp, ?_⟩
    rw [stop, List.length_cons]
    omega
  | mismatch field i =>
    have width : i.magnitude.length = 4 := i.width
    have seven : halt.position = x.length + 7 := by
      simp [stop, SpelledValue.bytes, SpelledInteger.bytes, width]
    refine ⟨(HeaderField.exists_toByte_iff _).1 ⟨field, rfl⟩, by omega, ?_, ?_⟩
    · rw [seven]
      exact there 0 rfl
    · rw [seven]
      exact there 1 rfl
  | encoding pieces invalid =>
    refine ⟨pieces, ⟨x, rest, split, rfl, stop.symm⟩, fun i behind first second => ?_, invalid⟩
    obtain ⟨j, rfl⟩ := Nat.exists_eq_add_of_le behind
    rw [split, List.append_assoc, List.getElem?_append_right (by omega),
      Nat.add_sub_cancel_left] at first
    rw [split, List.append_assoc, Nat.add_assoc, List.getElem?_append_right (by omega),
      Nat.add_sub_cancel_left] at second
    have later := TextPiece.length_le_of_zeros first second
    rw [stop, List.length_append]
    simp only [List.length_cons, List.length_nil]
    omega

theorem ReadError.trueAt_of_shows (h : Reader.Shows 0 halt.data halt.position e) :
    e.TrueAt halt := by
  obtain ⟨x, w, rest, split, stop, flaw⟩ := h
  rw [Nat.zero_add] at stop flaw
  exact trueAt_of_flaw split stop flaw

-- ---------------------------------------------------------------------------
-- Headers
-- ---------------------------------------------------------------------------

/-- The version is held against the policy once the whole header has been read. -/
theorem Disassembly.takes_acceptedHeader_of_ne {policy : Policy} {h : SpelledHeader}
    (version : h.version.value ≠ policy.expectedVersion) (p : Nat) :
    Reader.Takes (acceptedHeader policy) p h.bytes
      (.error (.versionMismatch policy.expectedVersion h.version.value)) (h.events p) := by
  refine (Reader.takes_header h p).bind_done ?_
  rw [if_neg (show ¬ h.header.version = policy.expectedVersion from version)]
  exact .fail _ _

theorem Disassembly.trueAt_of_start {policy : Policy} {data : List UInt8} {c : Cursor}
    {events : List Event} (failed : start policy (.ofBytes data) = ⟨.error e, c, events⟩)
    (count edge : Nat) : e.TrueAt ⟨policy, data, c.position, count, edge⟩ := by
  rcases run : (acceptedHeader policy).run (.over data 0) with ⟨result, c', events'⟩
  rw [start_of_run run] at failed
  cases result with
  | ok header => cases failed
  | error e =>
    cases failed
    cases read : (Reader.header.run (.over data 0)).result with
    | error e' =>
      have truthful : Reader.Truthful (acceptedHeader policy) 0 data :=
        (Reader.header_truthful 0 data).bind_error read
      have shown := truthful e (by rw [run])
      rw [run] at shown
      exact ReadError.trueAt_of_shows shown
    | ok header =>
      obtain ⟨h, rest, rfl⟩ := Reader.spelled_header read
      by_cases version : h.version.value = policy.expectedVersion
      · rw [takes_acceptedHeader version 0 rest] at run
        cases run
      · rw [takes_acceptedHeader_of_ne version 0 rest] at run
        cases run
        have width : h.version.bytes.length = 5 := congrArg Nat.succ h.version.width
        have front : h.bytes ++ rest = h.version.bytes ++
            (h.fields.flatMap SpelledField.bytes ++ [Header.endByte, h.last] ++ rest) :=
          List.append_assoc ..
        exact ⟨rfl, version, h, ⟨[], rest, rfl, rfl, rfl⟩, ⟨[], _, front, rfl, by rw [width]⟩, rfl⟩

-- ---------------------------------------------------------------------------
-- Blocks
-- ---------------------------------------------------------------------------

/-- Why a block is refused, with `data` from its offset `p` on and all taken up to `q`. -/
inductive BlockFault (boundary : Boundary) (index p : Nat) (data : List UInt8) (q : Nat) :
    ReadError → Prop
  | flaw {e : ReadError} : Reader.Shows p data q e → BlockFault boundary index p data q e
  | overrun (s : SpelledBlock) (rest : List UInt8) : boundary = .strict → s.Fits .lax →
      s.declared < s.body.length → data = s.bytes ++ rest → q = p + s.bytes.length →
      BlockFault boundary index p data q (.blockOverrun index s.declared s.body.length)

theorem Reader.blockFault_of_run {index p : Nat} {boundary : Boundary} {data : List UInt8}
    {c : Cursor} {events : List Event} (low : p + data.length < maxOffset)
    (run : (presentBlock index boundary).run (.over data p) = ⟨.error e, c, events⟩) :
    BlockFault boundary index p data c.position e := by
  rcases presentBlock_boundary index (.over data p) with
    ⟨step, same, -⟩ | ⟨b, c', _, _, overran, lax, strict⟩
  · have shown := presentBlock_lax_truthful index p data e
    rw [same, ← same boundary, run] at shown
    exact .flaw (shown rfl)
  · cases boundary with
    | lax =>
      rw [lax] at run
      cases run
    | strict =>
      rw [strict] at run
      cases run
      obtain ⟨s, rest, fits, rfl, rfl, rfl⟩ := presentBlock_over_ok low lax
      exact .overrun s rest rfl fits (Nat.lt_of_sub_pos overran) rfl rfl

theorem ReadError.trueAt_of_blockFault {policy : Policy} {data : List UInt8}
    {q count edge : Nat} (within : edge ≤ data.length)
    (fault : BlockFault policy.boundary count edge (data.drop edge) q e) :
    e.TrueAt ⟨policy, data, q, count, edge⟩ := by
  have length : (data.take edge).length = edge := by rw [List.length_take, Nat.min_eq_left within]
  cases fault with
  | flaw shown =>
    refine trueAt_of_shows ?_
    have whole : Reader.Shows 0 (data.take edge ++ data.drop edge) q e :=
      Reader.Shows.prepend (by rwa [length, Nat.zero_add])
    rwa [List.take_append_drop] at whole
  | overrun s rest strict fits overran split stop =>
    refine ⟨strict, rfl, s, ⟨data.take edge, rest, ?_, length, stop.symm⟩, fits, rfl, rfl, overran⟩
    rw [← split, List.take_append_drop]

-- ---------------------------------------------------------------------------
-- Walks
-- ---------------------------------------------------------------------------

namespace Disassembly

/-- The walk goes through a file of the bytes `data`, and is not over. -/
structure Underway (data : List UInt8) (walk : Disassembly) : Prop where
  unfinished : walk.finished = false
  within : walk.position ≤ data.length
  cursor : walk.cursor = .over (data.drop walk.position) walk.position

variable {walk : Disassembly} {data : List UInt8}

theorem advance_underway (underway : walk.Underway data) (low : data.length < maxOffset) :
    (∃ b next events, walk.advance = ⟨.ok (some b), next, events⟩ ∧ next.Underway data ∧
      next.policy = walk.policy ∧ next.nextIndex = walk.nextIndex + 1 ∧
      next.position = walk.position + (lengthWidth + b.consumed)) ∨
    ∃ result next events, walk.advance = ⟨result, next, events⟩ ∧ next.finished = true ∧
      (∀ b, result ≠ .ok (some b)) ∧
      ∀ e, result = .error e → BlockFault walk.policy.boundary walk.nextIndex walk.position
        (data.drop walk.position) next.position e := by
  obtain ⟨unfinished, within, cursor⟩ := underway
  have short : walk.position + (data.drop walk.position).length < maxOffset := by
    rw [List.length_drop]
    omega
  rcases readBlock_over_cases cursor with ⟨-, read⟩ | ⟨-, result, c, events, run, read⟩
  · exact .inr ⟨_, _, _, advance_of_end unfinished read, rfl, nofun, nofun⟩
  · cases result with
    | error e =>
      refine .inr ⟨_, _, _, advance_of_error unfinished read, rfl, nofun, ?_⟩
      rintro _ ⟨⟩
      exact Reader.blockFault_of_run short run
    | ok b =>
      obtain ⟨s, rest, -, split, rfl, rfl⟩ := Reader.presentBlock_over_ok short run
      have length := congrArg List.length split
      rw [List.length_drop, List.length_append] at length
      refine .inl ⟨_, _, _, advance_of_block unfinished read, ⟨unfinished, ?_, ?_⟩, rfl, rfl, ?_⟩
      · change walk.position + s.bytes.length ≤ data.length
        omega
      · change Cursor.over rest _ = .over (data.drop (walk.position + s.bytes.length)) _
        rw [← List.drop_drop, split, List.drop_left]
        rfl
      · change walk.position + s.bytes.length = walk.position + (lengthWidth + s.body.length)
        rw [s.length_bytes]

theorem blockFault_of_nextBlocks (underway : walk.Underway data) (low : data.length < maxOffset)
    {n : Nat} (failed : e ∈ (walk.yield (List.replicate n .nextBlock)).errors) :
    let given := walk.yield (List.replicate n .nextBlock)
    let edge := walk.position + (given.blocks.map fun b => lengthWidth + b.consumed).sum
    edge ≤ data.length ∧ BlockFault walk.policy.boundary (walk.nextIndex + given.blocks.length)
      edge (data.drop edge) given.last.position e := by
  induction n generalizing walk with
  | zero => cases failed
  | succ n ih =>
    rw [List.replicate_succ, yield_cons] at failed ⊢
    rcases advance_underway underway low with
      ⟨b, next, events, step, further, policy, counted, moved⟩ |
        ⟨result, next, events, step, stopped, without, fault⟩
    · rw [ask_nextBlock step] at failed ⊢
      have later := ih further failed
      dsimp only at later
      rw [policy, counted, moved, Nat.add_assoc walk.position, Nat.add_assoc walk.nextIndex,
        Nat.add_comm 1] at later
      exact later
    · rw [ask_nextBlock step, yield_of_finished stopped] at failed ⊢
      match result with
      | .ok (some b) => exact absurd rfl (without b)
      | .ok none => cases failed
      | .error e' =>
        obtain rfl : e = e' := by
          simpa [Exchange.yield, Answer.error?, Yield.followedBy] using failed
        exact ⟨underway.within, fault e rfl⟩

theorem underway_of_start {policy : Policy}
    (started : (start policy (.ofBytes data)).result = .ok walk) :
    walk.Underway data ∧ walk.policy = policy ∧ walk.nextIndex = 0 := by
  obtain ⟨s, rest, version, rfl⟩ := spelled_of_start started
  rw [start_spelled version rest] at started
  cases started
  refine ⟨⟨rfl, ?_, ?_⟩, rfl, rfl⟩
  · change s.bytes.length ≤ (s.bytes ++ rest).length
    rw [List.length_append]
    omega
  · change Cursor.over rest s.bytes.length = .over ((s.bytes ++ rest).drop s.bytes.length) _
    rw [List.drop_left]
    rfl

end Disassembly

/-- Whatever error the reading of bytes comes to, at the header or by any calls behind it, what
the error says of the bytes is so. -/
theorem read_errors_true (policy : Policy) {data : List UInt8}
    (short : data.length < Reader.maxOffset) :
    (∀ e c events, Disassembly.start policy (.ofBytes data) = ⟨.error e, c, events⟩ →
      e.TrueAt { policy, data, position := c.position, count := 0, edge := 0 }) ∧
    ∀ walk calls e, (Disassembly.start policy (.ofBytes data)).result = .ok walk →
      e ∈ (walk.yield calls).errors →
      let blocks := (walk.yield calls).blocks
      e.TrueAt
        { policy, data
          position := (walk.leave calls).position
          count := blocks.length
          edge := walk.position + (blocks.map fun b => 8 + b.consumed).sum } := by
  refine ⟨fun e c events failed => Disassembly.trueAt_of_start failed 0 0, ?_⟩
  intro walk calls e started failed
  obtain ⟨underway, rfl, first⟩ := Disassembly.underway_of_start started
  obtain ⟨n, same⟩ := walk.exists_nextBlocks calls
  rw [same] at failed
  obtain ⟨within, fault⟩ := Disassembly.blockFault_of_nextBlocks underway short failed
  rw [← same] at within fault
  rw [first, Nat.zero_add] at fault
  exact ReadError.trueAt_of_blockFault within fault

/-- A field of an unknown kind with an integer for its value, and a second block of two bytes
that declares one. -/
theorem read_errors_true_of_tag_and_overrun :
    let field : List UInt8 := [0, 0xE8, 0x03, 0, 0, 0x51, 0x23, 1, 7, 0, 0, 0, 0x2E, 0]
    let blocks : List UInt8 :=
      [0, 0xE8, 0x03, 0, 0, 0x2E, 0, 2, 0, 0, 0, 0, 0, 0, 0, 0x04, 0x01,
        1, 0, 0, 0, 0, 0, 0, 0, 0x04, 0x01]
    let calls : List Call := [.nextItem, .nextBlock, .nextItem]
    field.length < Reader.maxOffset ∧ blocks.length < Reader.maxOffset ∧
    (∃ c events,
      Disassembly.start {} (.ofBytes field) = ⟨.error (.unknownHeaderTag 0x51 5), c, events⟩ ∧
      ∃ v : SpelledValue, Spans field 6 12 v.bytes) ∧
    ∃ walk, (Disassembly.start { boundary := .strict } (.ofBytes blocks)).result = .ok walk ∧
      .blockOverrun 1 1 2 ∈ (walk.yield calls).errors ∧
      ∃ s : SpelledBlock, Spans blocks 17 27 s.bytes ∧ s.declared = 1 ∧ s.body.length = 2 := by
  intro field blocks calls
  have short : field.length < Reader.maxOffset ∧ blocks.length < Reader.maxOffset := by decide
  have refused : Disassembly.start {} (.ofBytes field) =
      ⟨.error (.unknownHeaderTag 0x51 5), .over (field.drop 12) 12, []⟩ := by cbv
  let walk : Disassembly :=
    { policy := { boundary := .strict }, header := { version := 1000 }
      cursor := .over (blocks.drop 7) 7 }
  have started :
      (Disassembly.start { boundary := .strict } (.ofBytes blocks)).result = .ok walk := by cbv
  let first : Block := ⟨0, 7, 2, 2, [⟨.getl, [.register .ptr], rfl⟩]⟩
  have given : (walk.yield calls).blocks = [first] := by cbv
  have errors : (walk.yield calls).errors = [.blockOverrun 1 1 2] := by cbv
  have stop : (walk.leave calls).position = 27 := by cbv
  have failed : .blockOverrun 1 1 2 ∈ (walk.yield calls).errors := by
    rw [errors]
    exact .head _
  obtain ⟨-, -, -, -, v, value⟩ := (read_errors_true {} short.1).1 _ _ _ refused
  have told := (read_errors_true { boundary := .strict } short.2).2 walk calls _ started failed
  dsimp only at told
  rw [given, stop] at told
  obtain ⟨-, -, s, overran, -, declared, consumed, -⟩ := told
  exact ⟨short.1, short.2, ⟨_, _, refused, v, value⟩, walk, started, failed, s, overran,
    declared.symm, consumed.symm⟩

end Latitude
