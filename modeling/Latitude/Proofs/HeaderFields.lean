import Latitude.Proofs.Literals
import Latitude.Proofs.Notices

/-!
# Headers field by field

Of the fields with one tag the last gives the name, so fields with different tags may
change places. The first field that is no good decides what reading a header comes to. A
field can be wrong in several ways at once; what is reported then depends on the order in
which its parts are looked at: the nature, the value, the tag, and last whether they match.
-/

namespace Latitude

open Literal (ZerosAt EndsAt content)

-- ---------------------------------------------------------------------------
-- Names
-- ---------------------------------------------------------------------------

theorem HeaderField.lastName_filter (field : HeaderField) (fields : List (HeaderField × String)) :
    field.lastName fields = (fields.filter (·.1 = field)).getLast?.map Prod.snd := by
  rw [lastName, ← List.head?_filter, List.filter_reverse, List.head?_reverse]

theorem Header.ofFields_eq_of_filter (version : Int) {fields others : List SpelledField}
    (same : ∀ kind, fields.filter (·.field = kind) = others.filter (·.field = kind)) :
    ofFields version (fields.map SpelledField.named) =
      ofFields version (others.map SpelledField.named) := by
  have filtered (kind : HeaderField) (fields : List SpelledField) :
      kind.lastName (fields.map SpelledField.named) =
        ((fields.filter (·.field = kind)).map SpelledField.named).getLast?.map Prod.snd := by
    rw [HeaderField.lastName_filter, List.filter_map]
    rfl
  simp only [ofFields, filtered, same]

-- ---------------------------------------------------------------------------
-- Faults
-- ---------------------------------------------------------------------------

/-- The bytes from offset `o` on start with no value. It shows once `w` has been read, of
the bytes that `rest` follows, and the error says why. -/
inductive ValueFault (o : Nat) : (w rest : List UInt8) → ReadError → Prop
  | missing : ValueFault o [] [] (.endOfStream o)
  | nature {b : UInt8} {rest : List UInt8} :
      (∀ n : Nature, n.toByte ≠ b) → ValueFault o [b] rest (.unknownNature b o)
  | integerCut {value : List UInt8} : value.length < Reader.integerWidth + 1 →
      ValueFault o (Nature.integer.toByte :: value) [] (.endOfStream (o + 1 + value.length))
  | stringCut {value : List UInt8} : (∀ i, ¬ ZerosAt value i) →
      ValueFault o (Nature.string.toByte :: value) [] (.endOfStream (o + 1 + value.length))
  | encoding {literal rest : List UInt8} :
      EndsAt (literal ++ [0, 0] ++ rest) literal.length →
      (∀ text, Text.encodeUtf8 text ≠ content literal) →
      ValueFault o (Nature.string.toByte :: (literal ++ [0, 0])) rest (.invalidUtf8 (o + 1))

/-- The tag at offset `o` starts no field with the bytes behind it. A tag that is unknown or
does not go with an integer is met only where there is a value. -/
inductive FieldFault (tag : UInt8) (o : Nat) : (w rest : List UInt8) → ReadError → Prop
  | value {w rest : List UInt8} {e : ReadError} :
      ValueFault (o + 1) w rest e → FieldFault tag o w rest e
  | unknown (v : SpelledValue) (rest : List UInt8) : (∀ field : HeaderField, field.toByte ≠ tag) →
      FieldFault tag o v.bytes rest (.unknownHeaderTag tag o)
  | mismatch (i : SpelledInteger) (rest : List UInt8) (field : HeaderField) :
      field.toByte = tag →
      FieldFault tag o (SpelledValue.integer i).bytes rest (.headerTypeMismatch tag)

theorem exists_valueFault (o : Nat) (data : List UInt8) :
    (∃ (v : SpelledValue) (rest : List UInt8), data = v.bytes ++ rest) ∨
      ∃ w rest e, data = w ++ rest ∧ ValueFault o w rest e := by
  cases data with
  | nil => exact .inr ⟨[], [], _, rfl, .missing⟩
  | cons b value =>
    by_cases known : ∃ n : Nature, n.toByte = b
    · obtain ⟨nature, rfl⟩ := known
      cases nature with
      | integer =>
        by_cases cut : value.length < Reader.integerWidth + 1
        · exact .inr ⟨_, [], _, (List.append_nil _).symm, .integerCut cut⟩
        · obtain ⟨i, rest, rfl⟩ := SpelledInteger.exists_bytes_append (Nat.le_of_not_lt cut)
          exact .inl ⟨.integer i, rest, rfl⟩
      | string =>
        rcases Literal.text_cases value with
          ⟨s, rest, rfl⟩ | ⟨literal, rest, rfl, ends, invalid⟩ | unended
        · exact .inl ⟨.string s, rest, rfl⟩
        · exact .inr ⟨_, rest, _, rfl, .encoding ends invalid⟩
        · exact .inr ⟨_, [], _, (List.append_nil _).symm, .stringCut unended⟩
    · exact .inr ⟨[b], value, _, rfl, .nature (not_exists.1 known)⟩

theorem exists_fieldFault {tag : UInt8} {data : List UInt8}
    (bad : ∀ f : SpelledField, ¬ f.bytes <+: tag :: data) (o : Nat) :
    ∃ w rest e, data = w ++ rest ∧ FieldFault tag o w rest e := by
  rcases exists_valueFault (o + 1) data with ⟨v, rest, rfl⟩ | ⟨w, rest, e, split, fault⟩
  · by_cases known : ∃ field : HeaderField, field.toByte = tag
    · obtain ⟨field, rfl⟩ := known
      cases v with
      | integer i => exact ⟨_, rest, _, rfl, .mismatch i rest field rfl⟩
      | string s => exact absurd ⟨rest, rfl⟩ (bad ⟨field, s⟩)
    · exact ⟨_, rest, _, rfl, .unknown v rest (not_exists.1 known)⟩
  · exact ⟨w, rest, e, split, .value fault⟩

-- ---------------------------------------------------------------------------
-- Refusals
-- ---------------------------------------------------------------------------

namespace Reader

variable {α β : Type} {m : Reader α} {f : α → Reader β} {p o : Nat} {v w rest : List UInt8}
  {e : ReadError}

structure Refuses (m : Reader α) (p : Nat) (w rest : List UInt8) (e : ReadError) : Prop where
  result : (m.run (.over (w ++ rest) p)).result = .error e
  position : (m.run (.over (w ++ rest) p)).state.position = p + w.length
  left : (m.run (.over (w ++ rest) p)).state.source.bytes = rest

theorem Takes.refuses {events : List Event} (h : Takes m p w (.error e) events)
    (rest : List UInt8) : Refuses m p w rest e := by
  constructor <;> rw [h rest]
  · rfl
  · exact List.append_nil rest

theorem RunsOut.refuses (h : RunsOut m p w) : Refuses m p w [] (.endOfStream (p + w.length)) := by
  obtain ⟨events, run⟩ := h
  constructor <;> rw [List.append_nil, run]
  rfl

theorem Refuses.bind (h : Refuses m p w rest e) : Refuses (m >>= f) p w rest e := by
  constructor <;> rw [Action.run_bind_error h.result]
  · exact h.position
  · exact h.left

theorem Takes.bind_refuses {a : α} {events : List Event} (hm : Takes m p v (.ok a) events)
    (hf : Refuses (f a) (p + v.length) w rest e) : Refuses (m >>= f) p (v ++ w) rest e := by
  have first := hm (w ++ rest)
  constructor <;> rw [List.append_assoc, Action.run_bind_ok (by rw [first]), first]
  · exact hf.result
  · rw [Action.state_after, hf.position, List.length_append, Nat.add_assoc]
  · exact hf.left

theorem headerValue_refuses (fault : ValueFault o w rest e) : Refuses headerValue o w rest e := by
  cases fault with
  | missing =>
    have short : RunsOut headerValue o [] := ⟨[], rfl⟩
    exact short.refuses
  | @nature b _ none =>
    have unknown : Nature.ofByte? b = .none :=
      Option.eq_none_iff_forall_ne_some.2 fun n h => none n (Nature.ofByte?_eq_some_iff.1 h)
    refine (Takes.position o).bind_refuses ((Takes.byte b o).bind_refuses (w := []) ?_)
    rw [unknown]
    exact (Takes.fail _ _).refuses rest
  | integerCut cut =>
    have value := (signed_runsOut (by decide) cut (o + 1)).refuses
    refine (Takes.position o).bind_refuses ((Takes.byte _ o).bind_refuses ?_)
    rw [Nature.ofByte?_toByte]
    exact value.bind
  | stringCut unended =>
    obtain ⟨pieces, tail, rfl, short⟩ := Literal.exists_pieces_of_unended unended
    have value : RunsOut string (o + 1) (pieces.flatMap TextPiece.bytes ++ tail) :=
      ⟨_, string_short pieces short (o + 1)⟩
    refine (Takes.position o).bind_refuses ((Takes.byte _ o).bind_refuses ?_)
    rw [Nature.ofByte?_toByte]
    exact value.refuses.bind
  | encoding ends invalid =>
    obtain ⟨pieces, behind, split, length⟩ := ends.exists_pieces
    rw [List.append_assoc] at split
    obtain ⟨rfl, -⟩ := List.append_inj split length
    rw [Literal.content_pieces] at invalid
    refine (Takes.position o).bind_refuses ((Takes.byte _ o).bind_refuses ?_)
    rw [Nature.ofByte?_toByte]
    exact ((takes_string_of_invalid invalid (o + 1)).refuses rest).bind

theorem headerRound_refuses {tag : UInt8} (inside : tag ≠ Header.endByte)
    (fault : FieldFault tag o w rest e) (header : Header) :
    Refuses (headerRound header) o (tag :: w) rest e := by
  refine (Takes.position o).bind_refuses ((Takes.byte tag o).bind_refuses ?_)
  rw [if_neg inside]
  cases fault with
  | value fault => exact (headerValue_refuses fault).bind
  | unknown v _ none =>
    have unknown : HeaderField.ofByte? tag = .none :=
      Option.eq_none_iff_forall_ne_some.2 fun f h => none f (HeaderField.ofByte?_eq_some_iff.1 h)
    refine Takes.refuses ((takes_headerValue v (o + 1)).bind_done ?_) rest
    rw [unknown]
    exact .fail _ _
  | mismatch i _ field same =>
    subst same
    refine Takes.refuses ((takes_headerValue (.integer i) (o + 1)).bind_done ?_) rest
    rw [HeaderField.ofByte?_toByte]
    exact .fail _ _

theorem headerLoop_refuses
    {advances : ∀ header, Action.Advances Cursor.remaining (headerRound header)}
    (fields : List SpelledField) {p : Nat} (header : Header)
    (bad : ∀ header, Refuses (headerRound header) (p + (fields.flatMap SpelledField.bytes).length)
      w rest e) :
    Refuses (Action.loop Cursor.remaining headerRound advances header) p
      (fields.flatMap SpelledField.bytes ++ w) rest e := by
  induction fields generalizing header p with
  | nil =>
    rw [Action.loop_eq]
    exact (bad header).bind
  | cons f fields ih =>
    rw [List.flatMap_cons, List.append_assoc, Action.loop_eq]
    refine (takes_headerRound f header p).bind_refuses (ih _ fun header => ?_)
    have good := bad header
    rwa [List.flatMap_cons, List.length_append, ← Nat.add_assoc] at good

theorem header_refuses (version : SpelledInteger) (fields : List SpelledField) {tag : UInt8}
    (inside : tag ≠ Header.endByte)
    (fault : FieldFault tag
      (p + (version.bytes ++ fields.flatMap SpelledField.bytes).length) w rest e) :
    Refuses header p (version.bytes ++ fields.flatMap SpelledField.bytes ++ tag :: w) rest e := by
  rw [List.length_append, ← Nat.add_assoc] at fault
  rw [List.append_assoc]
  refine (takes_integer version p).bind_refuses (Refuses.bind ?_)
  exact headerLoop_refuses fields _ fun header => headerRound_refuses inside fault header

/-- A header gives its version and the last name of each kind, and ends right behind the byte
that follows its end. So fields of different kinds may change places. A field that is no good
has a fault, and the fault is what the header comes to; nothing behind it is read. -/
theorem header_field_by_field (version : SpelledInteger) (fields : List SpelledField) (p : Nat) :
    let front := version.bytes ++ fields.flatMap SpelledField.bytes
    let o := p + front.length
    (∀ last rest,
      let step := header.run (.over (front ++ Header.endByte :: last :: rest) p)
      step.result = .ok (.ofFields version.value (fields.map SpelledField.named)) ∧
        step.state = .over rest (o + 2)) ∧
    (∀ others : List SpelledField,
      (∀ kind, fields.filter (·.field = kind) = others.filter (·.field = kind)) →
      ∀ last rest,
        (header.run (.over (version.bytes ++ others.flatMap SpelledField.bytes ++
            Header.endByte :: last :: rest) p)).result =
          (header.run (.over (front ++ Header.endByte :: last :: rest) p)).result) ∧
    ∀ tag data, tag ≠ Header.endByte → (∀ f : SpelledField, ¬ f.bytes <+: tag :: data) →
      (∃ w rest e, data = w ++ rest ∧ FieldFault tag o w rest e) ∧
      ∀ w rest e, data = w ++ rest → FieldFault tag o w rest e →
        let step := header.run (.over (front ++ tag :: data) p)
        step.result = .error e ∧ step.state.position = o + 1 + w.length ∧
          step.state.source.bytes = rest ∧ told step.events = [] := by
  intro front o
  have read (fields : List SpelledField) (last : UInt8) (rest : List UInt8) :
      ∃ events, header.run (.over (version.bytes ++ fields.flatMap SpelledField.bytes ++
          Header.endByte :: last :: rest) p) =
        ⟨.ok (.ofFields version.value (fields.map SpelledField.named)),
          .over rest (p + (version.bytes ++ fields.flatMap SpelledField.bytes).length + 2),
          events⟩ := by
    have run := takes_header ⟨version, fields, last⟩ p rest
    have bytes : SpelledHeader.bytes ⟨version, fields, last⟩ =
        version.bytes ++ fields.flatMap SpelledField.bytes ++ [Header.endByte, last] :=
      (List.append_assoc ..).symm
    have length : p + (version.bytes ++ fields.flatMap SpelledField.bytes ++
        [Header.endByte, last]).length =
          p + (version.bytes ++ fields.flatMap SpelledField.bytes).length + 2 := by
      rw [List.length_append, ← Nat.add_assoc]
      rfl
    rw [bytes, length, List.append_assoc, List.cons_append, List.cons_append,
      List.nil_append] at run
    exact ⟨_, run⟩
  refine ⟨?_, ?_, ?_⟩
  · intro last rest
    obtain ⟨events, run⟩ := read fields last rest
    dsimp only [front]
    rw [run]
    exact ⟨rfl, rfl⟩
  · intro others same last rest
    obtain ⟨_, run⟩ := read fields last rest
    obtain ⟨_, run'⟩ := read others last rest
    dsimp only [front]
    rw [run, run', Header.ofFields_eq_of_filter version.value same]
  · intro tag data inside bad
    refine ⟨exists_fieldFault bad o, ?_⟩
    rintro w rest e rfl fault
    have refused := header_refuses version fields inside fault
    have whole : front ++ tag :: (w ++ rest) =
        version.bytes ++ fields.flatMap SpelledField.bytes ++ tag :: w ++ rest := by
      simp [front]
    have length : p + (version.bytes ++ fields.flatMap SpelledField.bytes ++ tag :: w).length =
        o + 1 + w.length := by
      simp [o, front]
      omega
    dsimp only
    rw [whole, ← length]
    exact ⟨refused.result, refused.position, refused.left,
      header_failsQuietly _ e refused.result⟩

/-- The names of a module and a package in either order, and a field of an unknown kind with a
string that is no text. -/
theorem header_field_by_field_reordered :
    let version : SpelledInteger := ⟨0, [0xE8, 0x03, 0, 0], rfl⟩
    let a : SpelledField := ⟨.moduleName, .ofString "a"⟩
    let b : SpelledField := ⟨.packageName, .ofString "b"⟩
    let read (fields : List SpelledField) (data : List UInt8) :=
      (header.run (.over (version.bytes ++ fields.flatMap SpelledField.bytes ++ data) 0)).result
    read [a, b] [Header.endByte, 7, 8] = .ok ⟨1000, some "a", some "b"⟩ ∧
      read [b, a] [Header.endByte, 7, 8] = read [a, b] [Header.endByte, 7, 8] ∧
      read [a] [0x51, Nature.string.toByte, 0xFF, 0, 0, 7, 8] = .error (.invalidUtf8 12) := by
  intro version a b read
  have good := (header_field_by_field version [a, b] 0).1 7 [8]
  have names : Header.ofFields version.value ([a, b].map SpelledField.named) =
      ⟨1000, some "a", some "b"⟩ := by decide
  rw [names] at good
  have swapped := (header_field_by_field version [a, b] 0).2.1 [b, a]
    (by rintro (_ | _) <;> rfl) 7 [8]
  have unknown : ∀ f : SpelledField,
      ¬ f.bytes <+: 0x51 :: [Nature.string.toByte, 0xFF, 0, 0, 7, 8] := by
    intro f starts
    have tag : f.field.toByte = 0x51 := (List.cons_prefix_cons.1 starts).1
    revert tag
    cases f.field <;> decide
  have invalid : ∀ text, Text.encodeUtf8 text ≠ content [0xFF] := by
    intro text spells
    have decoded := Text.decodeUtf8?_eq_some_iff.2 spells
    rw [show Text.decodeUtf8? (content [0xFF]) = none by decide] at decoded
    cases decoded
  have ends : EndsAt ([0xFF] ++ [0, 0] ++ [7, 8]) 1 := ⟨by decide, by decide⟩
  have fault : FieldFault 0x51 10 [Nature.string.toByte, 0xFF, 0, 0] [7, 8] (.invalidUtf8 12) :=
    .value (.encoding ends invalid)
  have refused :=
    ((header_field_by_field version [a] 0).2.2 0x51 _ (by decide) unknown).2 _ [7, 8] _ rfl fault
  exact ⟨good.1, swapped, refused.1⟩

end Reader

end Latitude
