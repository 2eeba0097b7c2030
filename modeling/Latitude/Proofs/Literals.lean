import Latitude.Proofs.Diagnosis
import Latitude.Proofs.RoundTrip

/-!
# String literals by their bytes

A literal ends at the first two zeros that stand side by side, wherever they are. What it
says can be told from the bytes ahead of them: a zero with its mark is a zero, and any other
byte behind a zero is dropped together with the zero.

The reader of strings knows nothing of first places. It takes bytes one by one and, after a
zero, two at a time. Both agree because a byte that is taken together with a zero is no zero
itself unless the literal ends there; so no pair of zeros is missed between two rounds.
-/

namespace Latitude.Literal

open Reader (zeroEscape)

def ZerosAt (data : List UInt8) (j : Nat) : Prop := data[j]? = some 0 ∧ data[j + 1]? = some 0

/-- The literal at the start of the bytes ends at index `j`, with the first two zeros that
stand side by side. -/
structure EndsAt (data : List UInt8) (j : Nat) : Prop where
  zeros : ZerosAt data j
  first : ∀ i < j, ¬ ZerosAt data i

instance (data : List UInt8) (j : Nat) : Decidable (ZerosAt data j) :=
  inferInstanceAs (Decidable (_ ∧ _))

/-- The bytes with every pair of a zero and its mark replaced by a zero, and every other pair
of a zero and a byte left out. -/
def content : List UInt8 → List UInt8
  | first :: second :: data =>
    if first = 0 then (if second = zeroEscape then [0] else []) ++ content data
    else first :: content (second :: data)
  | data => data

/-- One event for every pair that `content` leaves out, with the second byte of the pair and
its offset, if the bytes start at `offset`. -/
def notices (offset : Nat) : List UInt8 → List Event
  | first :: second :: data =>
    if first = 0 then
      (if second = zeroEscape then [] else [.escapeIgnored (offset + 1) second]) ++
        notices (offset + 2) data
    else notices (offset + 1) (second :: data)
  | _ => []

theorem EndsAt.unique {data : List UInt8} {i j : Nat} (hi : EndsAt data i) (hj : EndsAt data j) :
    i = j := by
  rcases Nat.lt_trichotomy i j with less | same | more
  · exact absurd hi.zeros (hj.first i less)
  · exact same
  · exact absurd hj.zeros (hi.first j more)

-- ---------------------------------------------------------------------------
-- Pieces
-- ---------------------------------------------------------------------------

open TextPiece (bytes)

theorem content_piece (piece : TextPiece) (data : List UInt8) :
    content (piece.bytes ++ data) = piece.content ++ content data := by
  cases piece with
  | plain byte nonzero => cases data <;> simp [bytes, content, TextPiece.content, nonzero]
  | zero => simp [bytes, content, TextPiece.content]
  | dropped byte nonzero unescaped => simp [bytes, content, TextPiece.content, unescaped]

theorem content_pieces (pieces : List TextPiece) :
    content (pieces.flatMap bytes) = pieces.flatMap TextPiece.content := by
  induction pieces with
  | nil => rfl
  | cons piece pieces ih => simp [content_piece, ih]

theorem notices_piece (piece : TextPiece) (offset : Nat) (data : List UInt8) :
    notices offset (piece.bytes ++ data) =
      piece.events offset ++ notices (offset + piece.bytes.length) data := by
  cases piece with
  | plain byte nonzero => cases data <;> simp [bytes, notices, TextPiece.events, nonzero]
  | zero => simp [bytes, notices, TextPiece.events]
  | dropped byte nonzero unescaped => simp [bytes, notices, TextPiece.events, unescaped]

theorem notices_pieces (pieces : List TextPiece) {tail : List UInt8} (short : tail.length < 2)
    (offset : Nat) :
    notices offset (pieces.flatMap bytes ++ tail) =
      eventsAlong bytes TextPiece.events pieces offset := by
  induction pieces generalizing offset with
  | nil =>
    match tail, short with
    | [], _ => rfl
    | [_], _ => rfl
  | cons piece pieces ih => simp [notices_piece, ih, eventsAlong]

/-- From the left, bytes fall into pieces until two zeros come or less than a piece is left. -/
theorem exists_pieces : ∀ data : List UInt8, ∃ (pieces : List TextPiece) (tail : List UInt8),
    data = pieces.flatMap bytes ++ tail ∧
      (tail = [] ∨ tail = [0] ∨ ∃ rest, tail = 0 :: 0 :: rest)
  | [] => ⟨[], [], rfl, .inl rfl⟩
  | [first] => by
    by_cases zero : first = 0
    · exact ⟨[], [first], rfl, .inr (.inl (by rw [zero]))⟩
    · exact ⟨[.plain first zero], [], rfl, .inl rfl⟩
  | first :: second :: data => by
    by_cases zero : first = 0
    · subst zero
      by_cases ends : second = 0
      · exact ⟨[], _, rfl, .inr (.inr ⟨data, by rw [ends]⟩)⟩
      · obtain ⟨pieces, tail, rfl, shape⟩ := exists_pieces data
        by_cases mark : second = zeroEscape
        · exact ⟨.zero :: pieces, tail, by rw [mark]; rfl, shape⟩
        · exact ⟨.dropped second ends mark :: pieces, tail, rfl, shape⟩
    · obtain ⟨pieces, tail, split, shape⟩ := exists_pieces (second :: data)
      exact ⟨.plain first zero :: pieces, tail, by rw [split]; rfl, shape⟩

theorem endsAt_pieces (pieces : List TextPiece) (rest : List UInt8) :
    EndsAt (pieces.flatMap bytes ++ 0 :: 0 :: rest) (pieces.flatMap bytes).length where
  zeros := by simp [ZerosAt]
  first i less zeros :=
    Nat.not_le_of_lt less (TextPiece.length_le_of_zeros zeros.1 zeros.2)

theorem not_zerosAt_pieces {pieces : List TextPiece} {tail : List UInt8}
    (short : tail.length < 2) (i : Nat) : ¬ ZerosAt (pieces.flatMap bytes ++ tail) i := by
  rintro ⟨first, second⟩
  have behind := TextPiece.length_le_of_zeros first second
  have within := (List.getElem?_eq_some_iff.1 second).1
  rw [List.length_append] at within
  omega

theorem EndsAt.exists_pieces {data : List UInt8} {j : Nat} (ends : EndsAt data j) :
    ∃ (pieces : List TextPiece) (rest : List UInt8),
      data = pieces.flatMap bytes ++ 0 :: 0 :: rest ∧ j = (pieces.flatMap bytes).length := by
  obtain ⟨pieces, tail, rfl, rfl | rfl | ⟨rest, rfl⟩⟩ := Literal.exists_pieces data
  · exact absurd ends.zeros (not_zerosAt_pieces (by simp) j)
  · exact absurd ends.zeros (not_zerosAt_pieces (by simp) j)
  · exact ⟨pieces, rest, rfl, ends.unique (endsAt_pieces pieces rest)⟩

theorem exists_pieces_of_unended {data : List UInt8} (unended : ∀ i, ¬ ZerosAt data i) :
    ∃ (pieces : List TextPiece) (tail : List UInt8),
      data = pieces.flatMap bytes ++ tail ∧ (tail = [] ∨ tail = [0]) := by
  obtain ⟨pieces, tail, rfl, nothing | zero | ⟨rest, rfl⟩⟩ := exists_pieces data
  · exact ⟨pieces, tail, rfl, .inl nothing⟩
  · exact ⟨pieces, tail, rfl, .inr zero⟩
  · exact absurd (endsAt_pieces pieces rest).zeros (unended _)

theorem text_cases (data : List UInt8) :
    (∃ (s : SpelledText) (rest : List UInt8), data = s.bytes ++ rest) ∨
      (∃ literal rest, data = literal ++ [0, 0] ++ rest ∧ EndsAt data literal.length ∧
        ∀ text, Text.encodeUtf8 text ≠ content literal) ∨
      ∀ i, ¬ ZerosAt data i := by
  obtain ⟨pieces, tail, rfl, rfl | rfl | ⟨rest, rfl⟩⟩ := exists_pieces data
  · exact .inr (.inr (not_zerosAt_pieces (by simp)))
  · exact .inr (.inr (not_zerosAt_pieces (by simp)))
  · by_cases valid : ∃ text, Text.encodeUtf8 text = pieces.flatMap TextPiece.content
    · obtain ⟨text, spells⟩ := valid
      exact .inl ⟨⟨pieces, text, spells.symm⟩, rest, by simp [SpelledText.bytes]⟩
    · refine .inr (.inl ⟨pieces.flatMap bytes, rest, by simp, endsAt_pieces pieces rest, ?_⟩)
      rw [content_pieces]
      exact not_exists.1 valid

end Latitude.Literal

-- ---------------------------------------------------------------------------
-- Reading
-- ---------------------------------------------------------------------------

namespace Latitude.Reader

open Literal (ZerosAt EndsAt content notices)

theorem stringLoop_short {advances : ∀ seen, Action.Advances Cursor.remaining (stringRound seen)}
    (pieces : List TextPiece) {tail : List UInt8} (short : tail = [] ∨ tail = [0])
    (seen : List UInt8) (p : Nat) :
    let data := pieces.flatMap TextPiece.bytes ++ tail
    (Action.loop Cursor.remaining stringRound advances seen).run (.over data p) =
      ⟨.error (.endOfStream (p + data.length)), ⟨[], p + data.length⟩,
        eventsAlong TextPiece.bytes TextPiece.events pieces p⟩ := by
  induction pieces generalizing seen p with
  | nil =>
    rcases short with rfl | rfl
    · rw [Action.loop_eq]
      rfl
    · rw [Action.loop_eq]
      rfl
  | cons piece pieces ih =>
    intro data
    have round := takes_stringRound piece seen p (pieces.flatMap TextPiece.bytes ++ tail)
    have length : p + data.length = p + piece.bytes.length +
        (pieces.flatMap TextPiece.bytes ++ tail).length := by
      simp [data, Nat.add_assoc]
    have split : data = piece.bytes ++ (pieces.flatMap TextPiece.bytes ++ tail) := by
      simp [data]
    rw [Action.loop_eq, length, split, Action.run_bind_ok (by rw [round]), round]
    simp only [ih]
    rfl

theorem string_short (pieces : List TextPiece) {tail : List UInt8}
    (short : tail = [] ∨ tail = [0]) (p : Nat) :
    let data := pieces.flatMap TextPiece.bytes ++ tail
    string.run (.over data p) =
      ⟨.error (.endOfStream (p + data.length)), ⟨[], p + data.length⟩,
        eventsAlong TextPiece.bytes TextPiece.events pieces p⟩ := by
  intro data
  have looped : stringBytes.run (.over data p) = _ := stringLoop_short pieces short [] p
  have placed : (position.run (.over data p)) = ⟨.ok p, .over data p, []⟩ := rfl
  rw [string, Action.run_bind_ok (by rw [placed]), placed, Action.run_bind_error (by rw [looped]),
    looped]
  rfl

/-- A string is what stands ahead of the first two zeros that are side by side. They are taken
with it, and nothing behind them. It is refused if it is no text, and in either case there is
an event for every pair that was left out. Without two such zeros the reader runs out of bytes.
So a text that was written as a string is read back, whatever follows it. -/
theorem string_by_first_zeros (p : Nat) (data : List UInt8) :
    (∀ j, EndsAt data j →
      let step := string.run (.over data p)
      step.state = .over (data.drop (j + 2)) (p + (j + 2)) ∧
      step.events = notices p (data.take j) ∧
      (∀ text, Text.encodeUtf8 text = content (data.take j) → step.result = .ok text) ∧
      ((∀ text, Text.encodeUtf8 text ≠ content (data.take j)) →
        step.result = .error (.invalidUtf8 p))) ∧
    ((∀ i, ¬ ZerosAt data i) →
      string.run (.over data p) =
        ⟨.error (.endOfStream (p + data.length)), ⟨[], p + data.length⟩, notices p data⟩) ∧
    ∀ text rest, string.run (.over (Encoding.string text ++ rest) p) =
      ⟨.ok text, .over rest (p + (Encoding.string text).length), []⟩ := by
  refine ⟨?_, ?_, ?_⟩
  · intro j ends
    obtain ⟨pieces, rest, rfl, rfl⟩ := ends.exists_pieces
    have literal : (pieces.flatMap TextPiece.bytes ++ 0 :: 0 :: rest).take
        (pieces.flatMap TextPiece.bytes).length = pieces.flatMap TextPiece.bytes :=
      List.take_left
    have behind : (pieces.flatMap TextPiece.bytes ++ 0 :: 0 :: rest).drop
        ((pieces.flatMap TextPiece.bytes).length + 2) = rest := by
      rw [← List.drop_drop, List.drop_left]
      rfl
    have told := Literal.notices_pieces pieces (show ([] : List UInt8).length < 2 by decide) p
    have whole : pieces.flatMap TextPiece.bytes ++ 0 :: 0 :: rest =
        pieces.flatMap TextPiece.bytes ++ [0, 0] ++ rest := by simp
    have length : (pieces.flatMap TextPiece.bytes ++ [0, 0]).length =
        (pieces.flatMap TextPiece.bytes).length + 2 := List.length_append
    rw [List.append_nil] at told
    rw [literal, behind, Literal.content_pieces, told, whole]
    by_cases valid : ∃ text, Text.encodeUtf8 text = pieces.flatMap TextPiece.content
    · obtain ⟨text, spells⟩ := valid
      have run := takes_string ⟨pieces, text, spells.symm⟩ p rest
      simp only [SpelledText.bytes, SpelledText.events, length] at run
      rw [run]
      refine ⟨rfl, rfl, fun other same => ?_, fun invalid => absurd spells (invalid text)⟩
      rw [Text.encodeUtf8_inj (same.trans spells.symm)]
    · have run := takes_string_of_invalid (not_exists.1 valid) p rest
      rw [length] at run
      rw [run]
      exact ⟨rfl, rfl, fun text same => absurd ⟨text, same⟩ valid, fun _ => rfl⟩
  · intro unended
    obtain ⟨pieces, tail, rfl, short⟩ := Literal.exists_pieces_of_unended unended
    have brief : tail.length < 2 := by rcases short with rfl | rfl <;> decide
    rw [string_short pieces short p, Literal.notices_pieces pieces brief]
  · intro text rest
    have run := takes_string (.ofString text) p rest
    rwa [SpelledText.bytes_ofString, SpelledText.events_ofString] at run

/-- A pair that is left out joins the halves of a letter and is warned of, a zero is spelled by a
pair of its own, and a lone zero at the end is no end. -/
theorem string_by_first_zeros_joining :
    let data : List UInt8 := [0xC3, 0x00, 0x41, 0xA9, 0x00, 0x2E, 0x62, 0x00, 0x00, 0x07]
    let step := string.run (.over data 10)
    EndsAt data 7 ∧
      step = ⟨.ok "é\x00b", .over [0x07] 19, [.escapeIgnored 12 0x41]⟩ ∧
      (∀ event ∈ step.events, event.level = .warn) ∧
      (∀ i, ¬ ZerosAt [0x61, 0x00] i) ∧
      string.run (.over [0x61, 0x00] 10) = ⟨.error (.endOfStream 12), ⟨[], 12⟩, []⟩ := by
  intro data step
  have ends : EndsAt data 7 := ⟨by decide, by decide⟩
  have unended : ∀ i, ¬ ZerosAt [0x61, 0x00] i := by
    rintro (_ | _ | i) <;> simp [ZerosAt]
  obtain ⟨state, events, ok, -⟩ := (string_by_first_zeros 10 data).1 7 ends
  have result := ok "é\x00b" (by decide)
  have joined : step = ⟨.ok "é\x00b", .over [0x07] 19, [.escapeIgnored 12 0x41]⟩ :=
    calc step
      _ = ⟨step.result, step.state, step.events⟩ := rfl
      _ = ⟨.ok "é\x00b", .over [0x07] 19, [.escapeIgnored 12 0x41]⟩ := by
        rw [result, state, events]
        rfl
  refine ⟨ends, joined, ?_, unended, (string_by_first_zeros 10 [0x61, 0x00]).2.1 unended⟩
  rw [joined]
  decide

end Latitude.Reader
