import Latitude.Proofs.Recognition

/-!
# What errors say of bytes

An error names an offset, a byte or a tag. `Flaw` states, error by error, what the bytes
there must be for the error to be true; they are the last bytes taken when it is met. A
reader is truthful where each error that it can fail with has such a flaw among the bytes
it was given, wherever that is. Sequencing and loops keep readers truthful.

Of blocks this holds as long as they may overrun: that a block does is no flaw within it.
-/

namespace Latitude

/-- What the error says of the bytes `w` at offset `o`, with `rest` behind them. -/
inductive Flaw (o : Nat) (rest : List UInt8) : (w : List UInt8) → ReadError → Prop
  | missing : rest = [] → Flaw o rest [] (.endOfStream o)
  | opcode {b : UInt8} : (∀ op : Opcode, op.toByte ≠ b) → Flaw o rest [b] (.unknownOpcode b o)
  | register {b : UInt8} :
      (∀ r : Register, r.toByte ≠ b) → Flaw o rest [b] (.unknownRegister b o)
  | nature {b : UInt8} : (∀ n : Nature, n.toByte ≠ b) → Flaw o rest [b] (.unknownNature b o)
  | tag {b : UInt8} (v : SpelledValue) : b ≠ Header.endByte →
      (∀ field : HeaderField, field.toByte ≠ b) →
      Flaw o rest (b :: v.bytes) (.unknownHeaderTag b o)
  | mismatch (field : HeaderField) (i : SpelledInteger) :
      Flaw o rest (field.toByte :: (SpelledValue.integer i).bytes)
        (.headerTypeMismatch field.toByte)
  | encoding (pieces : List TextPiece) :
      (∀ text, Text.encodeUtf8 text ≠ pieces.flatMap TextPiece.content) →
      Flaw o rest (pieces.flatMap TextPiece.bytes ++ [0, 0]) (.invalidUtf8 o)

namespace Reader

variable {α β γ : Type} {m : Reader α} {f : α → Reader β} {p q : Nat}
  {v w data : List UInt8} {e : ReadError}

/-- Among the bytes from offset `p` on is the flaw that the error tells of; it ends at `q`. -/
def Shows (p : Nat) (data : List UInt8) (q : Nat) (e : ReadError) : Prop :=
  ∃ x w rest, data = x ++ (w ++ rest) ∧ q = p + x.length + w.length ∧
    Flaw (p + x.length) rest w e

theorem Shows.prepend (h : Shows (p + v.length) data q e) : Shows p (v ++ data) q e := by
  obtain ⟨x, w, rest, rfl, rfl, flaw⟩ := h
  have moved : p + (v ++ x).length = p + v.length + x.length := by
    rw [List.length_append, Nat.add_assoc]
  refine ⟨v ++ x, w, rest, (List.append_assoc ..).symm, by rw [moved], ?_⟩
  rw [moved]
  exact flaw

def Truthful (m : Reader α) (p : Nat) (data : List UInt8) : Prop :=
  ∀ e, (m.run (.over data p)).result = .error e →
    Shows p data (m.run (.over data p)).state.position e

-- ---------------------------------------------------------------------------
-- Parts of readers
-- ---------------------------------------------------------------------------

theorem RunsOut.truthful (h : RunsOut m p data) : Truthful m p data := by
  obtain ⟨events, run⟩ := h
  intro e failed
  rw [run] at failed ⊢
  cases failed
  exact ⟨data, [], [], by simp, rfl, .missing rfl⟩

theorem Takes.truthful {result : Except ReadError α} {events : List Event}
    (takes : Takes m p w result events) (rest : List UInt8)
    (flaw : ∀ e, result = .error e → Flaw p rest w e) : Truthful m p (w ++ rest) := by
  intro e failed
  rw [takes rest] at failed ⊢
  exact ⟨[], w, rest, rfl, rfl, flaw e failed⟩

theorem Takes.truthful_bind {a : α} {events : List Event} {rest : List UInt8}
    (first : Takes m p v (.ok a) events) (second : Truthful (f a) (p + v.length) rest) :
    Truthful (m >>= f) p (v ++ rest) := by
  intro e failed
  have run := first rest
  rw [Action.run_bind_ok (by rw [run]), run] at failed ⊢
  exact (second e failed).prepend

theorem Truthful.bind_error (first : (m.run (.over data p)).result = .error e)
    (hm : Truthful m p data) : Truthful (m >>= f) p data := by
  intro e' failed
  rw [Action.run_bind_error first] at failed ⊢
  cases failed
  exact hm e first

theorem Plain.exists_takes (plain : Plain m) {a : α}
    (h : (m.run (.over data p)).result = .ok a) :
    ∃ v rest events, data = v ++ rest ∧ Takes m p v (.ok a) events := by
  cases plain.verdict p data with
  | short short => exact absurd h ((short data [] (by simp)).result_ne_ok a)
  | settled v rest result events split takes _ _ =>
    subst split
    rw [takes rest] at h
    exact ⟨v, rest, events, rfl, h ▸ takes⟩

theorem Truthful.bind (plain : Plain m) (hm : Truthful m p data)
    (hf : ∀ a p data, Truthful (f a) p data) : Truthful (m >>= f) p data := by
  cases first : (m.run (.over data p)).result with
  | error e => exact hm.bind_error first
  | ok a =>
    obtain ⟨v, rest, events, rfl, takes⟩ := plain.exists_takes first
    exact takes.truthful_bind (hf a _ rest)

theorem pure_truthful (a : α) (p : Nat) (data : List UInt8) :
    Truthful (Pure.pure a : Reader α) p data :=
  (Takes.pure a p).truthful data nofun

theorem emit_truthful (event : Event) (p : Nat) (data : List UInt8) :
    Truthful (Action.emit event) p data :=
  (Takes.emit event p).truthful data nofun

theorem position_truthful (p : Nat) (data : List UInt8) : Truthful position p data :=
  (Takes.position p).truthful data nofun

theorem byte_truthful (p : Nat) (data : List UInt8) : Truthful byte p data := by
  cases data with
  | nil => exact RunsOut.truthful ⟨[], rfl⟩
  | cons b data => exact (Takes.byte b p).truthful data nofun

theorem loop_truthful {size : Cursor → Nat} {body : γ → Reader (Round γ α)}
    {advances : ∀ c, Action.Advances size (body c)} (plain : ∀ c, Plain (body c))
    (hbody : ∀ c p data, Truthful (body c) p data) (c : γ) (p : Nat) (data : List UInt8) :
    Truthful (Action.loop size body advances c) p data := by
  rw [Action.loop_eq]
  cases first : ((body c).run (.over data p)).result with
  | error e => exact (hbody c p data).bind_error first
  | ok round =>
    obtain ⟨v, rest, events, split, takes⟩ := (plain c).exists_takes first
    have moved : ((body c).run (.over data p)).state = .over rest (p + v.length) := by
      rw [split, takes rest]
    cases round with
    | done a =>
      rw [split]
      exact takes.truthful_bind (pure_truthful a _ rest)
    | again next =>
      have lt : size (.over rest (p + v.length)) < size (.over data p) :=
        moved ▸ advances c (.over data p) next first
      have later : Truthful (Action.loop size body advances next) (p + v.length) rest :=
        loop_truthful plain hbody next _ rest
      rw [split]
      exact takes.truthful_bind later
termination_by size (.over data p)

-- ---------------------------------------------------------------------------
-- Integers and strings
-- ---------------------------------------------------------------------------

theorem unsigned_truthful {width : Nat} (narrow : width ≤ 8) (p : Nat) (data : List UInt8) :
    Truthful (unsigned width) p data := by
  by_cases long : data.length < width
  · exact (unsigned_runsOut narrow long p).truthful
  · have cut : (data.take width).length = width := by
      rw [List.length_take]
      omega
    have takes := takes_unsigned (w := data.take width) (by omega) p
    rw [cut] at takes
    have whole := takes.truthful (data.drop width) nofun
    rwa [List.take_append_drop] at whole

theorem integer_truthful (p : Nat) (data : List UInt8) :
    Truthful (signed integerWidth) p data := by
  by_cases long : data.length < integerWidth + 1
  · exact (signed_runsOut (by decide) long p).truthful
  · obtain ⟨i, rest, rfl⟩ := SpelledInteger.exists_bytes_append (Nat.le_of_not_lt long)
    exact (takes_integer i p).truthful rest nofun

theorem stringRound_truthful (seen : List UInt8) (p : Nat) (data : List UInt8) :
    Truthful (stringRound seen) p data := by
  refine .bind .byte (byte_truthful p data) fun first p data => ?_
  split
  · refine .bind .position (position_truthful p data) fun offset p data =>
      .bind .byte (byte_truthful p data) fun second p data => ?_
    split
    · exact pure_truthful _ p data
    · split
      · exact pure_truthful _ p data
      · exact .bind (.emit _) (emit_truthful _ p data) fun _ => pure_truthful _
  · exact pure_truthful _ p data

theorem takes_string_of_invalid {pieces : List TextPiece}
    (invalid : ∀ text, Text.encodeUtf8 text ≠ pieces.flatMap TextPiece.content) (p : Nat) :
    Takes string p (pieces.flatMap TextPiece.bytes ++ [0, 0]) (.error (.invalidUtf8 p))
      (eventsAlong TextPiece.bytes TextPiece.events pieces p) := by
  have undecoded : Text.decodeUtf8? (pieces.flatMap TextPiece.content) = none :=
    Option.eq_none_iff_forall_ne_some.2 fun text valid =>
      invalid text (Text.decodeUtf8?_eq_some_iff.1 valid)
  refine .bind_position ((takes_stringLoop pieces [] p).bind_done ?_)
  rw [List.reverse_nil, List.nil_append, undecoded]
  exact .fail _ _

theorem string_truthful (p : Nat) (data : List UInt8) : Truthful string p data := by
  cases read : (stringBytes.run (.over data p)).result with
  | error e =>
    have bytes : Truthful stringBytes p data :=
      loop_truthful stringRound_plain stringRound_truthful [] p data
    exact (Takes.position p).truthful_bind (bytes.bind_error read)
  | ok content =>
    obtain ⟨pieces, rest, rfl⟩ := spelled_stringLoop read
    by_cases valid : ∃ text, Text.encodeUtf8 text = pieces.flatMap TextPiece.content
    · obtain ⟨text, spells⟩ := valid
      exact (takes_string ⟨pieces, text, spells.symm⟩ p).truthful rest nofun
    · have invalid : ∀ text, Text.encodeUtf8 text ≠ pieces.flatMap TextPiece.content :=
        not_exists.1 valid
      refine (takes_string_of_invalid invalid p).truthful rest ?_
      rintro _ ⟨⟩
      exact .encoding pieces invalid

-- ---------------------------------------------------------------------------
-- Instructions and blocks
-- ---------------------------------------------------------------------------

theorem truthful_of_table {toByte : α → UInt8} (fault : UInt8 → Nat → ReadError)
    (empty : RunsOut m p []) (known : ∀ a, Takes m p [toByte a] (.ok a) [])
    (unknown : ∀ b, (∀ a, toByte a ≠ b) → Takes m p [b] (.error (fault b p)) [])
    (flaw : ∀ b rest, (∀ a, toByte a ≠ b) → Flaw p rest [b] (fault b p)) (data : List UInt8) :
    Truthful m p data := by
  cases data with
  | nil => exact empty.truthful
  | cons b data =>
    by_cases found : ∃ a, toByte a = b
    · obtain ⟨a, rfl⟩ := found
      exact (known a).truthful data nofun
    · have none : ∀ a, toByte a ≠ b := not_exists.1 found
      refine (unknown b none).truthful data ?_
      rintro _ ⟨⟩
      exact flaw b data none

theorem opcode_truthful (p : Nat) (data : List UInt8) : Truthful opcode p data := by
  refine truthful_of_table .unknownOpcode ⟨[], rfl⟩ (fun op => takes_opcode op p) ?_
    (fun b rest => .opcode) data
  intro b none
  have unknown : Opcode.ofByte? b = .none :=
    Option.eq_none_iff_forall_ne_some.2 fun op h => none op (Opcode.toByte_of_ofByte? h)
  refine .bind_position (.bind_byte ?_)
  rw [unknown]
  exact .fail _ _

theorem register_truthful (p : Nat) (data : List UInt8) : Truthful register p data := by
  refine truthful_of_table .unknownRegister ⟨[], rfl⟩ (fun r => takes_register r p) ?_
    (fun b rest => .register) data
  intro b none
  have unknown : Register.ofByte? b = .none :=
    Option.eq_none_iff_forall_ne_some.2 fun r h => none r (Register.toByte_of_ofByte? h)
  refine .bind_position (.bind_byte ?_)
  rw [unknown]
  exact .fail _ _

theorem arg_truthful (kind : ArgKind) (p : Nat) (data : List UInt8) :
    Truthful (arg kind) p data := by
  cases kind with
  | integer => exact .bind (signed_plain _) (integer_truthful p data) fun _ => pure_truthful _
  | string => exact .bind string_plain (string_truthful p data) fun _ => pure_truthful _
  | register => exact .bind register_plain (register_truthful p data) fun _ => pure_truthful _
  | method =>
    have number : Truthful method p data :=
      .bind (unsigned_plain _) (unsigned_truthful (by decide) p data) fun _ => pure_truthful _
    exact .bind method_plain number fun _ => pure_truthful _

theorem args_truthful (kinds : List ArgKind) (p : Nat) (data : List UInt8) :
    Truthful (args kinds) p data := by
  induction kinds generalizing p data with
  | nil => exact pure_truthful _ p data
  | cons kind kinds ih =>
    exact .bind (arg_plain kind) (arg_truthful kind p data) fun _ p data =>
      .bind (args_plain kinds) (ih p data) fun _ => pure_truthful _

theorem instruction_truthful (p : Nat) (data : List UInt8) : Truthful instruction p data := by
  cases first : (opcode.run (.over data p)).result with
  | error e => exact (Takes.position p).truthful_bind ((opcode_truthful p data).bind_error first)
  | ok op =>
    obtain ⟨rest, rfl⟩ := spelled_opcode first
    cases second : ((args op.signature).run (.over rest (p + 1))).result with
    | error e =>
      have others := args_truthful op.signature (p + 1) rest
      exact (Takes.position p).truthful_bind
        ((takes_opcode op p).truthful_bind (others.bind_error second))
    | ok found =>
      -- Arguments that are read as the signature asks make an instruction, so no error is left.
      obtain ⟨ss, rest, fits, rfl⟩ := spelled_args second
      exact (takes_instruction ⟨op, ss, fits⟩ p).truthful rest nofun

theorem instructionsUpTo_truthful (stop p : Nat) (data : List UInt8) :
    Truthful (instructionsUpTo stop) p data := by
  refine loop_truthful (blockRound_plain stop) (fun seen p data => ?_) [] p data
  refine .bind .position (position_truthful p data) fun offset p data => ?_
  split
  · exact .bind instruction_plain (instruction_truthful p data) fun _ => pure_truthful _
  · exact pure_truthful _ p data

theorem settle_lax_truthful (block : Block) (p : Nat) (data : List UInt8) :
    Truthful (settle .lax block) p data := by
  unfold settle
  split
  · exact pure_truthful _ p data
  · exact emit_truthful _ p data

theorem presentBlock_lax_truthful (index p : Nat) (data : List UInt8) :
    Truthful (presentBlock index .lax) p data :=
  .bind .position (position_truthful p data) fun _ p data =>
    .bind (unsigned_plain _) (unsigned_truthful (by decide) p data) fun _ p data =>
    .bind .position (position_truthful p data) fun _ p data =>
    .bind (.emit _) (emit_truthful _ p data) fun _ p data =>
    .bind (instructionsUpTo_plain _) (instructionsUpTo_truthful _ p data) fun _ p data =>
    .bind .position (position_truthful p data) fun _ p data =>
    .bind (settle_plain _ _) (settle_lax_truthful _ p data) fun _ => pure_truthful _

-- ---------------------------------------------------------------------------
-- Headers
-- ---------------------------------------------------------------------------

theorem headerValue_truthful (p : Nat) (data : List UInt8) : Truthful headerValue p data := by
  cases data with
  | nil => exact RunsOut.truthful ⟨[], rfl⟩
  | cons b data =>
    cases known : Nature.ofByte? b with
    | none =>
      have takes : Takes headerValue p [b] (.error (.unknownNature b p)) [] := by
        refine .bind_position (.bind_byte ?_)
        rw [known]
        exact .fail _ _
      refine takes.truthful data ?_
      rintro _ ⟨⟩
      refine .nature ?_
      rintro n rfl
      rw [Nature.ofByte?_toByte] at known
      cases known
    | some nature =>
      refine (Takes.position p).truthful_bind ((Takes.byte b p).truthful_bind ?_)
      rw [known]
      cases nature with
      | integer => exact .bind (signed_plain _) (integer_truthful _ data) fun _ => pure_truthful _
      | string => exact .bind string_plain (string_truthful _ data) fun _ => pure_truthful _

/-- The tag is held against the value once that has been read. -/
theorem headerRound_truthful (header : Header) (p : Nat) (data : List UInt8) :
    Truthful (headerRound header) p data := by
  cases data with
  | nil => exact RunsOut.truthful ⟨[], rfl⟩
  | cons tag data =>
    by_cases ends : tag = Header.endByte
    · refine (Takes.position p).truthful_bind ((Takes.byte tag p).truthful_bind ?_)
      rw [if_pos ends]
      exact .bind .byte (byte_truthful _ data) fun _ => pure_truthful _
    · cases read : (headerValue.run (.over data (p + 1))).result with
      | error e =>
        refine (Takes.position p).truthful_bind ((Takes.byte tag p).truthful_bind ?_)
        rw [if_neg ends]
        exact (headerValue_truthful _ data).bind_error read
      | ok value =>
        obtain ⟨v, rest, rfl, rfl⟩ := spelled_headerValue read
        cases known : HeaderField.ofByte? tag with
        | none =>
          have takes : Takes (headerRound header) p (tag :: v.bytes)
              (.error (.unknownHeaderTag tag p)) (v.events (p + 1)) := by
            refine .bind_position (.bind_byte ?_)
            rw [if_neg ends]
            refine (takes_headerValue v (p + 1)).bind_done ?_
            rw [known]
            exact .fail _ _
          refine takes.truthful rest ?_
          rintro _ ⟨⟩
          refine .tag v ends ?_
          rintro field rfl
          rw [HeaderField.ofByte?_toByte] at known
          cases known
        | some field =>
          obtain rfl := HeaderField.ofByte?_eq_some_iff.1 known
          cases v with
          | integer i =>
            have takes : Takes (headerRound header) p
                (field.toByte :: (SpelledValue.integer i).bytes)
                (.error (.headerTypeMismatch field.toByte)) [] := by
              refine .bind_position (.bind_byte ?_)
              rw [if_neg ends]
              refine (takes_headerValue (.integer i) (p + 1)).bind_done ?_
              rw [known]
              exact .fail _ _
            refine takes.truthful rest ?_
            rintro _ ⟨⟩
            exact .mismatch field i
          | string s => exact (takes_headerRound ⟨field, s⟩ header p).truthful rest nofun

theorem header_truthful (p : Nat) (data : List UInt8) : Truthful header p data :=
  .bind (signed_plain _) (integer_truthful p data) fun _ p data =>
    .bind (.loop _ headerRound_plain)
      (loop_truthful headerRound_plain headerRound_truthful _ p data) fun _ p data =>
    .bind (.emit _) (emit_truthful _ p data) fun _ => pure_truthful _

end Reader

end Latitude
