import Latitude.Proofs.SpellingLaws

/-!
# Only what is spelled is read

The converse of the laws of spelling: bytes on which a reader succeeds start with the
bytes of a spelled thing. What the reader gives and where it stops then follows from
those laws.
-/

namespace Latitude.Reader

open Encoding

section
variable {α β γ : Type} {m : Reader α} {f : α → Reader β} {p : Nat} {v data rest : List UInt8}

theorem RunsOut.result_ne_ok (h : RunsOut m p data) (a : α) :
    (m.run (.over data p)).result ≠ .ok a := by
  obtain ⟨events, run⟩ := h
  rw [run]
  exact fun h => nomatch h

theorem Takes.ok_of_bind {a : α} {b : β} {events : List Event} (hm : Takes m p v (.ok a) events)
    (rest : List UInt8) (h : ((m >>= f).run (.over (v ++ rest) p)).result = .ok b) :
    ((f a).run (.over rest (p + v.length))).result = .ok b := by
  have first := hm rest
  rw [Action.run_bind_ok (by rw [first]), first] at h
  exact h

theorem ok_of_bind_position {g : Nat → Reader β} {b : β}
    (h : ((position >>= g).run (.over data p)).result = .ok b) :
    ((g p).run (.over data p)).result = .ok b := h

theorem ok_of_bind_emit {event : Event} {g : Unit → Reader β} {b : β}
    (h : ((Action.emit event >>= g).run (.over data p)).result = .ok b) :
    ((g ()).run (.over data p)).result = .ok b := h

variable {size : Cursor → Nat} {body : γ → Reader (Round γ α)}
  {advances : ∀ c, Action.Advances size (body c)} {c next : γ}

theorem Takes.ok_of_loop {a : α} {events : List Event}
    (first : Takes (body c) p v (.ok (.again next)) events) (rest : List UInt8)
    (h : ((Action.loop size body advances c).run (.over (v ++ rest) p)).result = .ok a) :
    ((Action.loop size body advances next).run (.over rest (p + v.length))).result = .ok a := by
  rw [Action.loop_eq] at h
  exact first.ok_of_bind rest h

theorem RunsOut.loop (first : RunsOut (body c) p data) :
    RunsOut (Action.loop size body advances c) p data := by
  rw [Action.loop_eq]
  exact first.bind

end

variable {p : Nat} {data : List UInt8}

-- ---------------------------------------------------------------------------
-- Integers and strings
-- ---------------------------------------------------------------------------

theorem spelled_integer {n : Int}
    (h : ((signed integerWidth).run (.over data p)).result = .ok n) :
    ∃ (i : SpelledInteger) (rest : List UInt8), data = i.bytes ++ rest := by
  by_cases long : data.length < integerWidth + 1
  · exact absurd h ((signed_runsOut (by decide) long p).result_ne_ok n)
  · exact SpelledInteger.exists_bytes_append (Nat.le_of_not_lt long)

/-- The bytes are looked at one by one, after a zero two at a time. -/
theorem spelled_stringLoop {p : Nat} {data seen content : List UInt8}
    {advances : ∀ seen, Action.Advances Cursor.remaining (stringRound seen)}
    (h : ((Action.loop Cursor.remaining stringRound advances seen).run (.over data p)).result =
      .ok content) :
    ∃ (pieces : List TextPiece) (rest : List UInt8),
      data = pieces.flatMap TextPiece.bytes ++ [0, 0] ++ rest := by
  cases data with
  | nil =>
    have short : RunsOut (stringRound seen) p [] := ⟨[], rfl⟩
    exact absurd h (short.loop.result_ne_ok content)
  | cons first data =>
    by_cases zero : first = 0
    · subst zero
      cases data with
      | nil =>
        have short : RunsOut (stringRound seen) p [0] := ⟨[], rfl⟩
        exact absurd h (short.loop.result_ne_ok content)
      | cons second data =>
        by_cases ends : second = 0
        · exact ⟨[], data, by rw [ends]; rfl⟩
        · have step : ∃ piece : TextPiece, piece.bytes = [0, second] := by
            by_cases escape : second = zeroEscape
            · exact ⟨.zero, by rw [escape]; rfl⟩
            · exact ⟨.dropped second ends escape, rfl⟩
          obtain ⟨piece, spelled⟩ := step
          have takes := takes_stringRound piece seen p
          rw [spelled] at takes
          obtain ⟨pieces, rest, rfl⟩ := spelled_stringLoop (takes.ok_of_loop data h)
          exact ⟨piece :: pieces, rest, by rw [List.flatMap_cons, spelled]; rfl⟩
    · have takes := takes_stringRound (.plain first zero) seen p
      obtain ⟨pieces, rest, rfl⟩ := spelled_stringLoop (takes.ok_of_loop data h)
      exact ⟨.plain first zero :: pieces, rest, rfl⟩
termination_by data.length

theorem spelled_string {text : String} (h : (string.run (.over data p)).result = .ok text) :
    ∃ (s : SpelledText) (rest : List UInt8), data = s.bytes ++ rest := by
  have looped := ok_of_bind_position h
  obtain ⟨content, read, -⟩ := result_bind_ok looped
  obtain ⟨pieces, rest, rfl⟩ := spelled_stringLoop read
  have decoded := (takes_stringLoop pieces [] p).ok_of_bind rest looped
  cases valid : Text.decodeUtf8? (pieces.flatMap TextPiece.content) with
  | none =>
    rw [List.reverse_nil, List.nil_append, valid] at decoded
    cases decoded
  | some text =>
    exact ⟨⟨pieces, text, (Text.decodeUtf8?_eq_some_iff.1 valid).symm⟩, rest, rfl⟩

-- ---------------------------------------------------------------------------
-- Instructions
-- ---------------------------------------------------------------------------

theorem spelled_opcode {op : Opcode} (h : (opcode.run (.over data p)).result = .ok op) :
    ∃ rest, data = op.toByte :: rest := by
  have read := ok_of_bind_position h
  cases data with
  | nil => cases read
  | cons code data =>
    have found := (Takes.byte code p).ok_of_bind data read
    cases known : Opcode.ofByte? code with
    | none =>
      rw [known] at found
      cases found
    | some other =>
      rw [known] at found
      cases found
      exact ⟨data, by rw [Opcode.toByte_of_ofByte? known]⟩

theorem spelled_register {r : Register} (h : (register.run (.over data p)).result = .ok r) :
    ∃ rest, data = r.toByte :: rest := by
  have read := ok_of_bind_position h
  cases data with
  | nil => cases read
  | cons code data =>
    have found := (Takes.byte code p).ok_of_bind data read
    cases known : Register.ofByte? code with
    | none =>
      rw [known] at found
      cases found
    | some other =>
      rw [known] at found
      cases found
      exact ⟨data, by rw [Register.toByte_of_ofByte? known]⟩

theorem spelled_unsigned {width : Nat} {n : UInt64} (narrow : width ≤ 8)
    (h : ((unsigned width).run (.over data p)).result = .ok n) :
    ∃ w rest, w.length = width ∧ data = w ++ rest := by
  by_cases long : data.length < width
  · exact absurd h ((unsigned_runsOut narrow long p).result_ne_ok n)
  · refine ⟨data.take width, data.drop width, ?_, (List.take_append_drop width data).symm⟩
    rw [List.length_take]
    omega

theorem spelled_arg {kind : ArgKind} {a : Arg}
    (h : ((arg kind).run (.over data p)).result = .ok a) :
    ∃ (s : SpelledArg) (rest : List UInt8), s.arg.kind = kind ∧ data = s.bytes ++ rest := by
  cases kind with
  | integer =>
    obtain ⟨n, read, -⟩ := result_bind_ok h
    obtain ⟨i, rest, rfl⟩ := spelled_integer read
    exact ⟨.integer i, rest, rfl, rfl⟩
  | string =>
    obtain ⟨text, read, -⟩ := result_bind_ok h
    obtain ⟨s, rest, rfl⟩ := spelled_string read
    exact ⟨.string s, rest, rfl, rfl⟩
  | register =>
    obtain ⟨r, read, -⟩ := result_bind_ok h
    obtain ⟨rest, rfl⟩ := spelled_register read
    exact ⟨.register r, rest, rfl, rfl⟩
  | method =>
    obtain ⟨m, read, -⟩ := result_bind_ok h
    obtain ⟨n, read, -⟩ := result_bind_ok read
    obtain ⟨number, rest, width, rfl⟩ := spelled_unsigned (by decide) read
    exact ⟨.method number width, rest, rfl, rfl⟩

theorem spelled_args {kinds : List ArgKind} {p : Nat} {data : List UInt8} {found : List Arg}
    (h : ((args kinds).run (.over data p)).result = .ok found) :
    ∃ (ss : List SpelledArg) (rest : List UInt8), ss.map (·.arg.kind) = kinds ∧
      data = ss.flatMap SpelledArg.bytes ++ rest := by
  induction kinds generalizing p data found with
  | nil => exact ⟨[], data, rfl, rfl⟩
  | cons kind kinds ih =>
    obtain ⟨a, read, -⟩ := result_bind_ok h
    obtain ⟨s, rest, rfl, rfl⟩ := spelled_arg read
    have others := (takes_arg s p).ok_of_bind rest h
    obtain ⟨_, read, -⟩ := result_bind_ok others
    obtain ⟨ss, rest, rfl, rfl⟩ := ih read
    exact ⟨s :: ss, rest, rfl, by rw [List.flatMap_cons, List.append_assoc]⟩

theorem spelled_instruction {i : Instruction}
    (h : (instruction.run (.over data p)).result = .ok i) :
    ∃ (s : SpelledInstruction) (rest : List UInt8), data = s.bytes ++ rest := by
  have read := ok_of_bind_position h
  obtain ⟨op, first, -⟩ := result_bind_ok read
  obtain ⟨rest, rfl⟩ := spelled_opcode first
  have others := (takes_opcode op p).ok_of_bind rest read
  obtain ⟨found, second, -⟩ := result_bind_ok others
  obtain ⟨ss, rest, fits, rfl⟩ := spelled_args second
  exact ⟨⟨op, ss, fits⟩, rest, rfl⟩

-- ---------------------------------------------------------------------------
-- Blocks
-- ---------------------------------------------------------------------------

theorem spelled_blockLoop {stop p : Nat} {data : List UInt8} {seen is : List Instruction}
    {advances : ∀ seen, Action.Advances Cursor.remaining (blockRound stop seen)}
    (h : ((Action.loop Cursor.remaining (blockRound stop) advances seen).run
      (.over data p)).result = .ok is) :
    ∃ (ss : List SpelledInstruction) (rest : List UInt8), SpelledBlock.Covers (stop - p) ss ∧
      data = ss.flatMap SpelledInstruction.bytes ++ rest := by
  by_cases before : p < stop
  · have round := h
    rw [Action.loop_eq] at round
    obtain ⟨_, round, -⟩ := result_bind_ok round
    have guarded := ok_of_bind_position round
    rw [if_pos before] at guarded
    obtain ⟨i, read, -⟩ := result_bind_ok guarded
    obtain ⟨s, rest, rfl⟩ := spelled_instruction read
    have others := (takes_blockRound before s seen).ok_of_loop rest h
    have shorter : rest.length < (s.bytes ++ rest).length := by
      rw [List.length_append]
      exact Nat.lt_add_of_pos_left (Nat.succ_pos _)
    obtain ⟨ss, rest, covers, rfl⟩ := spelled_blockLoop others
    rw [← Nat.sub_sub] at covers
    exact ⟨s :: ss, rest, ⟨by omega, covers⟩, by rw [List.flatMap_cons, List.append_assoc]⟩
  · exact ⟨[], data, Nat.sub_eq_zero_of_le (Nat.not_lt.1 before), rfl⟩
termination_by data.length

theorem settle_strict_ok {block : Block} {c : Cursor}
    (h : ((settle .strict block).run c).result = .ok ()) : block.overrun = 0 := by
  unfold settle at h
  split at h
  · assumption
  · cases h

theorem spelled_presentBlock {index : Nat} {boundary : Boundary} {block : Block}
    (low : p + data.length < maxOffset)
    (h : ((presentBlock index boundary).run (.over data p)).result = .ok block) :
    ∃ (b : SpelledBlock) (rest : List UInt8), b.Fits boundary ∧ data = b.bytes ++ rest := by
  unfold presentBlock at h
  have placed := ok_of_bind_position h
  obtain ⟨_, read, -⟩ := result_bind_ok placed
  obtain ⟨lengthBytes, rest, width, rfl⟩ := spelled_unsigned (by decide) read
  have eight : lengthBytes.length = 8 := width
  have length := takes_unsigned (w := lengthBytes) (by omega) p
  rw [width] at length
  have declared : (UInt64.ofNat (ofLittleEndian lengthBytes)).toNat = ofLittleEndian lengthBytes :=
    UInt64.toNat_ofNat_of_lt' (ofLittleEndian_lt_of_le (Nat.le_of_eq eight))
  have opened := length.ok_of_bind rest placed
  rw [declared] at opened
  replace opened := ok_of_bind_position opened
  replace opened := ok_of_bind_emit opened
  obtain ⟨is, read, -⟩ := result_bind_ok opened
  obtain ⟨ss, rest, covers, rfl⟩ := spelled_blockLoop read
  have closed := (takes_blockLoop ss [] covers).ok_of_bind rest opened
  -- The cap on the end of a block lies beyond the last byte, so it was not what ended this one.
  have uncapped : min (p + lengthBytes.length + ofLittleEndian lengthBytes) maxOffset -
      (p + lengthBytes.length) = ofLittleEndian lengthBytes := by
    have reached := covers.le_length
    rw [List.length_append, List.length_append] at low
    omega
  rw [uncapped] at covers
  refine ⟨⟨lengthBytes, width, ss⟩, rest, ?_, (List.append_assoc ..).symm⟩
  cases boundary with
  | lax => exact SpelledBlock.fits_lax_iff.2 covers
  | strict =>
    replace closed := ok_of_bind_position closed
    obtain ⟨_, settled, -⟩ := result_bind_ok closed
    have overrun := settle_strict_ok settled
    have reached := covers.le_length
    simp only [Block.overrun] at overrun
    show (ss.flatMap SpelledInstruction.bytes).length = ofLittleEndian lengthBytes
    omega

theorem presentBlock_over_ok {index : Nat} {boundary : Boundary} {block : Block} {c : Cursor}
    {events : List Event} (low : p + data.length < maxOffset)
    (run : (presentBlock index boundary).run (.over data p) = ⟨.ok block, c, events⟩) :
    ∃ (b : SpelledBlock) (rest : List UInt8), b.Fits boundary ∧ data = b.bytes ++ rest ∧
      block = b.block index p ∧ c = .over rest (p + b.bytes.length) := by
  obtain ⟨b, rest, fits, rfl⟩ := spelled_presentBlock low (congrArg Step.result run)
  rw [List.length_append] at low
  rw [takes_presentBlock fits index (by omega) rest] at run
  cases run
  exact ⟨b, rest, fits, rfl, rfl, rfl⟩

-- ---------------------------------------------------------------------------
-- Headers
-- ---------------------------------------------------------------------------

theorem spelled_headerValue {value : HeaderValue}
    (h : (headerValue.run (.over data p)).result = .ok value) :
    ∃ (v : SpelledValue) (rest : List UInt8), data = v.bytes ++ rest ∧ v.value = value := by
  suffices spelled : ∃ (v : SpelledValue) (rest : List UInt8), data = v.bytes ++ rest by
    obtain ⟨v, rest, rfl⟩ := spelled
    rw [takes_headerValue v p rest] at h
    exact ⟨v, rest, rfl, by cases h; rfl⟩
  have read := ok_of_bind_position h
  cases data with
  | nil => cases read
  | cons code data =>
    replace read := (Takes.byte code p).ok_of_bind data read
    cases known : Nature.ofByte? code with
    | none =>
      rw [known] at read
      cases read
    | some nature =>
      rw [known] at read
      obtain rfl := Nature.ofByte?_eq_some_iff.1 known
      cases nature with
      | integer =>
        obtain ⟨n, given, -⟩ := result_bind_ok read
        obtain ⟨i, rest, rfl⟩ := spelled_integer given
        exact ⟨.integer i, rest, rfl⟩
      | string =>
        obtain ⟨text, given, -⟩ := result_bind_ok read
        obtain ⟨s, rest, rfl⟩ := spelled_string given
        exact ⟨.string s, rest, rfl⟩

theorem spelled_headerRound {header : Header} {round : Round Header Header}
    (h : ((headerRound header).run (.over data p)).result = .ok round) :
    (∃ last rest, data = Header.endByte :: last :: rest) ∨
      ∃ (f : SpelledField) (rest : List UInt8), data = f.bytes ++ rest := by
  have read := ok_of_bind_position h
  cases data with
  | nil => cases read
  | cons tag data =>
    replace read := (Takes.byte tag p).ok_of_bind data read
    by_cases ends : tag = Header.endByte
    · rw [if_pos ends] at read
      cases data with
      | nil => cases read
      | cons last data => exact .inl ⟨last, data, by rw [ends]⟩
    · rw [if_neg ends] at read
      obtain ⟨value, given, checked⟩ := result_bind_ok read
      cases known : HeaderField.ofByte? tag with
      | none =>
        rw [known] at checked
        cases checked
      | some field =>
        rw [known] at checked
        obtain ⟨v, rest, rfl, rfl⟩ := spelled_headerValue given
        cases v with
        | integer i => cases checked
        | string s =>
          exact .inr ⟨⟨field, s⟩, rest, by rw [← HeaderField.ofByte?_eq_some_iff.1 known]; rfl⟩

theorem spelled_headerLoop {p : Nat} {data : List UInt8} {header result : Header}
    {advances : ∀ header, Action.Advances Cursor.remaining (headerRound header)}
    (h : ((Action.loop Cursor.remaining headerRound advances header).run
      (.over data p)).result = .ok result) :
    ∃ (fields : List SpelledField) (last : UInt8) (rest : List UInt8),
      data = fields.flatMap SpelledField.bytes ++ [Header.endByte, last] ++ rest := by
  have first := h
  rw [Action.loop_eq] at first
  obtain ⟨_, round, -⟩ := result_bind_ok first
  rcases spelled_headerRound round with ⟨last, rest, rfl⟩ | ⟨f, rest, rfl⟩
  · exact ⟨[], last, rest, rfl⟩
  · have others := (takes_headerRound f header p).ok_of_loop rest h
    have shorter : rest.length < (f.bytes ++ rest).length := by
      rw [List.length_append]
      exact Nat.lt_add_of_pos_left (Nat.succ_pos _)
    obtain ⟨fields, last, rest, rfl⟩ := spelled_headerLoop others
    exact ⟨f :: fields, last, rest, by simp [List.flatMap_cons]⟩
termination_by data.length

theorem spelled_header {result : Header} (h : (header.run (.over data p)).result = .ok result) :
    ∃ (s : SpelledHeader) (rest : List UInt8), data = s.bytes ++ rest := by
  obtain ⟨_, read, -⟩ := result_bind_ok h
  obtain ⟨version, rest, rfl⟩ := spelled_integer read
  have others := (takes_integer version p).ok_of_bind rest h
  obtain ⟨_, read, -⟩ := result_bind_ok others
  obtain ⟨fields, last, rest, rfl⟩ := spelled_headerLoop read
  exact ⟨⟨version, fields, last⟩, rest, by simp [SpelledHeader.bytes]⟩

end Latitude.Reader
