import Latitude.Proofs.SpellingLaws

/-!
# Bytes are spelled in one way

Two spelled things of one kind that start the same bytes are the same thing, and so are
the bytes left behind them. Where the reader does the same on both, this is because a
reader takes only one front of given bytes (`Reader.Takes.unique`); lists add that their
ends are told from their items.
-/

namespace Latitude

open Reader (Takes)

variable {r s : List UInt8}

/-- Lists of items are the same where the items are, and no item starts an end. -/
theorem eq_of_flatMap_append {α : Type} {bytes : α → List UInt8} (Item : α → Prop)
    (End : List UInt8 → Prop)
    (item : ∀ x y r s, Item x → Item y → bytes x ++ r = bytes y ++ s → x = y ∧ r = s)
    (apart : ∀ x r, ¬ End (bytes x ++ r)) {xs ys : List α} (hx : ∀ x ∈ xs, Item x)
    (hy : ∀ y ∈ ys, Item y) (hr : End r) (hs : End s)
    (same : xs.flatMap bytes ++ r = ys.flatMap bytes ++ s) : xs = ys ∧ r = s := by
  induction xs generalizing ys with
  | nil =>
    cases ys with
    | nil => exact ⟨rfl, same⟩
    | cons y ys =>
      rw [List.flatMap_nil, List.nil_append, List.flatMap_cons, List.append_assoc] at same
      exact absurd (same ▸ hr) (apart y _)
  | cons x xs ih =>
    cases ys with
    | nil =>
      rw [List.flatMap_nil, List.nil_append, List.flatMap_cons, List.append_assoc] at same
      exact absurd (same ▸ hs) (apart x _)
    | cons y ys =>
      simp only [List.flatMap_cons, List.append_assoc] at same
      simp only [List.forall_mem_cons] at hx hy
      obtain ⟨rfl, others⟩ := item x y _ _ hx.1 hy.1 same
      obtain ⟨rfl, rfl⟩ := ih hx.2 hy.2 others
      exact ⟨rfl, rfl⟩

-- ---------------------------------------------------------------------------
-- Integers and strings
-- ---------------------------------------------------------------------------

theorem SpelledInteger.unique {i j : SpelledInteger} (same : i.bytes ++ r = j.bytes ++ s) :
    i = j ∧ r = s := by
  obtain ⟨_, _, hi⟩ := i
  obtain ⟨_, _, hj⟩ := j
  simp only [bytes, List.cons_append, List.cons.injEq] at same
  obtain ⟨rfl, same⟩ := same
  obtain ⟨rfl, rfl⟩ := List.append_inj same (hi.trans hj.symm)
  exact ⟨rfl, rfl⟩

theorem TextPiece.bytes_inj {x y : TextPiece} (same : x.bytes = y.bytes) : x = y := by
  cases x <;> cases y <;> cases same <;> first | rfl | contradiction

theorem TextPiece.unique {x y : TextPiece} (same : x.bytes ++ r = y.bytes ++ s) :
    x = y ∧ r = s := by
  obtain ⟨-, rest, spelled⟩ :=
    (Reader.takes_stringRound x [] 0).unique (Reader.takes_stringRound y [] 0) same
  exact ⟨bytes_inj spelled, rest⟩

theorem TextPiece.ne_end (x : TextPiece) (r : List UInt8) :
    ¬ ∃ t, x.bytes ++ r = 0 :: 0 :: t := by
  rintro ⟨t, same⟩
  cases x with
  | plain byte nonzero => exact nonzero (List.cons.inj same).1
  | zero => cases same
  | dropped byte nonzero _ => exact nonzero (List.cons.inj (List.cons.inj same).2).1

theorem Text.encodeUtf8_inj {a b : String} (same : Text.encodeUtf8 a = Text.encodeUtf8 b) :
    a = b := by
  have decoded := Text.decodeUtf8?_encodeUtf8 a
  rw [same, Text.decodeUtf8?_encodeUtf8] at decoded
  exact (Option.some.inj decoded).symm

theorem SpelledText.unique {a b : SpelledText} (same : a.bytes ++ r = b.bytes ++ s) :
    a = b ∧ r = s := by
  obtain ⟨xs, text, hx⟩ := a
  obtain ⟨ys, other, hy⟩ := b
  simp only [bytes, List.append_assoc] at same
  obtain ⟨rfl, same⟩ := eq_of_flatMap_append (fun _ => True) (fun r => ∃ t, r = 0 :: 0 :: t)
    (fun _ _ _ _ _ _ => TextPiece.unique) TextPiece.ne_end (fun _ _ => trivial)
    (fun _ _ => trivial) ⟨r, rfl⟩ ⟨s, rfl⟩ same
  obtain rfl := Text.encodeUtf8_inj (hx.symm.trans hy)
  exact ⟨rfl, by simpa using same⟩

-- ---------------------------------------------------------------------------
-- Instructions and blocks
-- ---------------------------------------------------------------------------

theorem SpelledArg.unique {a b : SpelledArg} (kind : a.arg.kind = b.arg.kind)
    (same : a.bytes ++ r = b.bytes ++ s) : a = b ∧ r = s := by
  cases a <;> cases b <;> try cases kind
  case integer.integer i j =>
    obtain ⟨rfl, rfl⟩ := SpelledInteger.unique same
    exact ⟨rfl, rfl⟩
  case string.string s t =>
    obtain ⟨rfl, rfl⟩ := SpelledText.unique same
    exact ⟨rfl, rfl⟩
  case register.register a b =>
    obtain ⟨given, rfl, -⟩ := (Reader.takes_register a 0).unique (Reader.takes_register b 0) same
    cases given
    exact ⟨rfl, rfl⟩
  case method.method hm _ hn =>
    obtain ⟨rfl, rfl⟩ := List.append_inj same (hm.trans hn.symm)
    exact ⟨rfl, rfl⟩

theorem SpelledArg.unique_list {as bs : List SpelledArg}
    (kinds : as.map (·.arg.kind) = bs.map (·.arg.kind))
    (same : as.flatMap bytes ++ r = bs.flatMap bytes ++ s) : as = bs ∧ r = s := by
  induction as generalizing bs with
  | nil =>
    cases bs with
    | nil => exact ⟨rfl, same⟩
    | cons => cases kinds
  | cons a as ih =>
    cases bs with
    | nil => cases kinds
    | cons b bs =>
      simp only [List.map_cons, List.cons.injEq] at kinds
      simp only [List.flatMap_cons, List.append_assoc] at same
      obtain ⟨rfl, others⟩ := SpelledArg.unique kinds.1 same
      obtain ⟨rfl, rfl⟩ := ih kinds.2 others
      exact ⟨rfl, rfl⟩

theorem SpelledInstruction.unique {i j : SpelledInstruction}
    (same : i.bytes ++ r = j.bytes ++ s) : i = j ∧ r = s := by
  obtain ⟨op, as, hi⟩ := i
  obtain ⟨other, bs, hj⟩ := j
  obtain ⟨given, others, -⟩ := (Reader.takes_opcode op 0).unique (Reader.takes_opcode other 0) same
  cases given
  obtain ⟨rfl, rfl⟩ := SpelledArg.unique_list (hi.trans hj.symm) others
  exact ⟨rfl, rfl⟩

theorem SpelledBlock.Covers.unique {n : Nat} {is js : List SpelledInstruction}
    (hi : Covers n is) (hj : Covers n js)
    (same : is.flatMap SpelledInstruction.bytes ++ r = js.flatMap SpelledInstruction.bytes ++ s) :
    is = js ∧ r = s := by
  -- What is left of the length is the same for both, so they stop at the same instruction.
  induction is generalizing n js with
  | nil =>
    cases js with
    | nil => exact ⟨rfl, same⟩
    | cons => exact absurd hi hj.1
  | cons i is ih =>
    cases js with
    | nil => exact absurd hj hi.1
    | cons j js =>
      simp only [List.flatMap_cons, List.append_assoc] at same
      obtain ⟨rfl, others⟩ := SpelledInstruction.unique same
      obtain ⟨rfl, rfl⟩ := ih hi.2 hj.2 others
      exact ⟨rfl, rfl⟩

theorem SpelledBlock.unique {boundary : Boundary} {b c : SpelledBlock} (hb : b.Fits boundary)
    (hc : c.Fits boundary) (same : b.bytes ++ r = c.bytes ++ s) : b = c ∧ r = s := by
  have fb := hb.covers
  have fc := hc.covers
  obtain ⟨_, wb, is⟩ := b
  obtain ⟨_, wc, js⟩ := c
  simp only [bytes, body, List.append_assoc] at same
  obtain ⟨rfl, others⟩ := List.append_inj same (wb.trans wc.symm)
  obtain ⟨rfl, rfl⟩ := fb.unique fc others
  exact ⟨rfl, rfl⟩

-- ---------------------------------------------------------------------------
-- Headers and files
-- ---------------------------------------------------------------------------

theorem SpelledField.unique {f g : SpelledField} (same : f.bytes ++ r = g.bytes ++ s) :
    f = g ∧ r = s := by
  obtain ⟨field, name⟩ := f
  obtain ⟨other, title⟩ := g
  simp only [bytes, List.cons_append, List.cons.injEq] at same
  obtain ⟨tag, -, same⟩ := same
  have known := HeaderField.ofByte?_toByte field
  rw [tag, HeaderField.ofByte?_toByte] at known
  cases known
  obtain ⟨rfl, rfl⟩ := SpelledText.unique same
  exact ⟨rfl, rfl⟩

theorem SpelledField.ne_end (f : SpelledField) (r : List UInt8) :
    ¬ ∃ t, f.bytes ++ r = Header.endByte :: t := by
  rintro ⟨t, same⟩
  have tag : f.field.toByte = Header.endByte := (List.cons.inj same).1
  cases h : f.field <;> rw [h] at tag <;> cases tag

theorem SpelledHeader.unique {h g : SpelledHeader} (same : h.bytes ++ r = g.bytes ++ s) :
    h = g ∧ r = s := by
  obtain ⟨version, fs, last⟩ := h
  obtain ⟨_, gs, _⟩ := g
  simp only [bytes, List.append_assoc] at same
  obtain ⟨rfl, others⟩ := SpelledInteger.unique same
  obtain ⟨rfl, ends⟩ := eq_of_flatMap_append (fun _ => True) (fun r => ∃ t, r = Header.endByte :: t)
    (fun _ _ _ _ _ _ => SpelledField.unique) SpelledField.ne_end (fun _ _ => trivial)
    (fun _ _ => trivial) ⟨_, rfl⟩ ⟨_, rfl⟩ others
  simp only [List.cons.injEq, true_and] at ends
  obtain ⟨rfl, rfl⟩ := ends
  exact ⟨rfl, rfl⟩

theorem SpelledBlock.bytes_ne_nil (b : SpelledBlock) (r : List UInt8) : ¬ b.bytes ++ r = [] := by
  intro h
  have width := b.width
  rw [bytes, List.append_assoc] at h
  rw [(List.append_eq_nil_iff.1 h).1] at width
  cases width

theorem SpelledFile.unique {policy : Policy} {f g : SpelledFile} (hf : f.Fits policy)
    (hg : g.Fits policy) (same : f.bytes = g.bytes) : f = g := by
  obtain ⟨header, bs⟩ := f
  obtain ⟨_, cs⟩ := g
  obtain ⟨rfl, blocks⟩ := SpelledHeader.unique same
  obtain ⟨rfl, -⟩ := eq_of_flatMap_append (·.Fits policy.boundary) (· = [])
    (fun _ _ _ _ => SpelledBlock.unique) SpelledBlock.bytes_ne_nil hf.2 hg.2 rfl rfl
    (by simpa using blocks)
  rfl

end Latitude
