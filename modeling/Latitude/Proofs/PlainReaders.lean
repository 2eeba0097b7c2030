import Latitude.Disassembly

/-!
# Plain readers

A plain reader is put together from single bytes, the position, events and failures, by
sequencing and by loops. It never asks whether the source is at an end, and reports a
truncation only where a byte is missing. Every reader of the format is plain except
`isExhausted` and, because of it, `block`.

`Plain.law`: what holds of the parts and passes through sequencing holds of every plain
reader, on every cursor. Loops need no clause of their own.
-/

namespace Latitude.Reader

theorem result_bind_ok {α β : Type} {m : Reader α} {f : α → Reader β} {c : Cursor} {b : β}
    (h : ((m >>= f).run c).result = .ok b) :
    ∃ a, (m.run c).result = .ok a ∧ ((f a).run (m.run c).state).result = .ok b := by
  cases first : (m.run c).result with
  | ok a =>
    rw [Action.run_bind_ok first] at h
    exact ⟨a, rfl, h⟩
  | error e =>
    rw [Action.run_bind_error first] at h
    cases h

inductive Plain : {α : Type} → Reader α → Prop
  | pure {α : Type} (a : α) : Plain (Pure.pure a : Reader α)
  | fail {α : Type} (e : ReadError) : e.isTruncation = false → Plain (Action.fail e : Reader α)
  | emit (event : Event) : Plain (Action.emit event : Reader Unit)
  | position : Plain Reader.position
  | byte : Plain Reader.byte
  | bind {α β : Type} {m : Reader α} {f : α → Reader β} :
      Plain m → (∀ a, Plain (f a)) → Plain (m >>= f)
  | loop {α β : Type} {size : Cursor → Nat} {body : β → Reader (Round β α)}
      {advances : ∀ b, Action.Advances size (body b)} (b : β) :
      (∀ b, Plain (body b)) → Plain (Action.loop size body advances b)

/-- A property of a reader at a cursor that passes from the parts of a plain reader to
the whole. What follows in a sequence is looked at only where the first part leads. -/
structure Law (P : (α : Type) → Reader α → Cursor → Prop) : Prop where
  pure : ∀ {α : Type} (a : α) c, P α (Pure.pure a) c
  fail : ∀ {α : Type} (e : ReadError) c, e.isTruncation = false → P α (Action.fail e) c
  emit : ∀ event c, P Unit (Action.emit event) c
  position : ∀ c, P Nat Reader.position c
  byte : ∀ c, P UInt8 Reader.byte c
  bind : ∀ {α β : Type} {m : Reader α} {f : α → Reader β} {c : Cursor}, P α m c →
    (∀ a, (m.run c).result = .ok a → P β (f a) (m.run c).state) → P β (m >>= f) c

theorem Law.loop {P : (α : Type) → Reader α → Cursor → Prop} (law : Law P) {α β : Type}
    {size : Cursor → Nat} {body : β → Reader (Round β α)}
    {advances : ∀ b, Action.Advances size (body b)} (hbody : ∀ b c, P _ (body b) c) (b : β)
    (c : Cursor) : P α (Action.loop size body advances b) c := by
  rw [Action.loop_eq]
  refine law.bind (hbody b c) fun r hr => ?_
  cases r with
  | done a => exact law.pure a _
  | again next =>
    have lt := advances b c next hr
    exact law.loop hbody next _
termination_by size c

theorem Plain.law {P : (α : Type) → Reader α → Cursor → Prop} {α : Type} {m : Reader α}
    (hm : Plain m) (law : Law P) (c : Cursor) : P α m c := by
  induction hm generalizing c with
  | pure a => exact law.pure a c
  | fail e he => exact law.fail e c he
  | emit event => exact law.emit event c
  | position => exact law.position c
  | byte => exact law.byte c
  | bind _ _ ihm ihf => exact law.bind (ihm c) fun a _ => ihf a _
  | loop b _ ih => exact law.loop ih b c

-- ---------------------------------------------------------------------------
-- The readers of the format
-- ---------------------------------------------------------------------------

theorem word_plain (width : Nat) : Plain (word width) := by
  induction width with
  | zero => exact .pure _
  | succ width ih => exact .bind .byte fun _ => .bind ih fun _ => .pure _

theorem unsigned_plain (width : Nat) : Plain (unsigned width) := by
  refine .bind .position fun offset => ?_
  split
  · exact .fail _ rfl
  · exact word_plain width

theorem signed_plain (width : Nat) : Plain (signed width) := by
  refine .bind .position fun offset => .bind .byte fun sign =>
    .bind (unsigned_plain width) fun magnitude => ?_
  split
  · exact .pure _
  · exact .fail _ rfl

theorem stringRound_plain (seen : List UInt8) : Plain (stringRound seen) := by
  refine .bind .byte fun first => ?_
  split
  · refine .bind .position fun offset => .bind .byte fun second => ?_
    split
    · exact .pure _
    · split
      · exact .pure _
      · exact .bind (.emit _) fun _ => .pure _
  · exact .pure _

theorem string_plain : Plain string := by
  refine .bind .position fun offset => .bind (.loop _ stringRound_plain) fun data => ?_
  split
  · exact .pure _
  · exact .fail _ rfl

theorem headerValue_plain : Plain headerValue := by
  refine .bind .position fun offset => .bind .byte fun nature => ?_
  split
  · exact .bind (signed_plain _) fun _ => .pure _
  · exact .bind string_plain fun _ => .pure _
  · exact .fail _ rfl

theorem headerRound_plain (header : Header) : Plain (headerRound header) := by
  refine .bind .position fun offset => .bind .byte fun tag => ?_
  split
  · exact .bind .byte fun _ => .pure _
  · refine .bind headerValue_plain fun value => ?_
    split
    · exact .fail _ rfl
    · exact .fail _ rfl
    · exact .pure _

theorem header_plain : Plain header :=
  .bind (signed_plain _) fun _ => .bind (.loop _ headerRound_plain) fun _ =>
    .bind (.emit _) fun _ => .pure _

theorem opcode_plain : Plain opcode := by
  refine .bind .position fun offset => .bind .byte fun code => ?_
  split
  · exact .pure _
  · exact .fail _ rfl

theorem register_plain : Plain register := by
  refine .bind .position fun offset => .bind .byte fun code => ?_
  split
  · exact .pure _
  · exact .fail _ rfl

theorem method_plain : Plain method :=
  .bind (unsigned_plain _) fun _ => .pure _

theorem arg_plain (kind : ArgKind) : Plain (arg kind) := by
  cases kind
  · exact .bind (signed_plain _) fun _ => .pure _
  · exact .bind string_plain fun _ => .pure _
  · exact .bind register_plain fun _ => .pure _
  · exact .bind method_plain fun _ => .pure _

theorem args_plain (kinds : List ArgKind) : Plain (args kinds) := by
  induction kinds with
  | nil => exact .pure _
  | cons kind kinds ih => exact .bind (arg_plain kind) fun _ => .bind ih fun _ => .pure _

theorem instruction_plain : Plain instruction := by
  refine .bind .position fun offset => .bind opcode_plain fun code =>
    .bind (args_plain _) fun found => .bind (.emit _) fun _ => ?_
  cases Instruction.build code found with
  | ok i => exact .pure i
  | error e => exact .fail _ rfl

theorem blockRound_plain (stop : Nat) (seen : List Instruction) :
    Plain (blockRound stop seen) := by
  refine .bind .position fun offset => ?_
  split
  · exact .bind instruction_plain fun _ => .pure _
  · exact .pure _

theorem instructionsUpTo_plain (stop : Nat) : Plain (instructionsUpTo stop) :=
  .loop _ (blockRound_plain stop)

theorem settle_plain (boundary : Boundary) (block : Block) : Plain (settle boundary block) := by
  unfold settle
  split
  · exact .pure _
  · cases boundary
    · exact .emit _
    · exact .fail _ rfl

theorem presentBlock_plain (index : Nat) (boundary : Boundary) :
    Plain (presentBlock index boundary) :=
  .bind .position fun _ => .bind (unsigned_plain _) fun _ => .bind .position fun _ =>
    .bind (.emit _) fun _ => .bind (instructionsUpTo_plain _) fun _ => .bind .position fun _ =>
      .bind (settle_plain _ _) fun _ => .pure _

-- ---------------------------------------------------------------------------
-- Blocks
-- ---------------------------------------------------------------------------

def foundBlock (index : Nat) (boundary : Boundary) : Reader (Option Block) :=
  presentBlock index boundary >>= fun found => pure (some found)

theorem foundBlock_plain (index : Nat) (boundary : Boundary) :
    Plain (foundBlock index boundary) :=
  .bind (presentBlock_plain index boundary) fun _ => .pure _

-- What `block` does, by what it sees when it looks whether the source is at an end.

theorem isExhausted_cases (c : Cursor) :
    (∃ c', isExhausted.run c = ⟨.ok true, c', []⟩) ∨
      (∃ c', isExhausted.run c = ⟨.ok false, c', []⟩) ∨
      ∃ e c', isExhausted.run c = ⟨.error e, c', []⟩ := by
  simp only [isExhausted, Cursor.atEnd]
  split
  · exact .inr (.inl ⟨_, rfl⟩)
  · exact .inl ⟨_, rfl⟩
  · exact .inr (.inr ⟨_, _, rfl⟩)

variable {c c' : Cursor}

theorem block_of_end (looked : isExhausted.run c = ⟨.ok true, c', []⟩) (index : Nat)
    (boundary : Boundary) : (block index boundary).run c = ⟨.ok none, c', []⟩ := by
  rw [block, Action.run_bind_ok (by rw [looked]), looked]
  rfl

theorem block_of_error {e : ReadError} (looked : isExhausted.run c = ⟨.error e, c', []⟩)
    (index : Nat) (boundary : Boundary) :
    (block index boundary).run c = ⟨.error e, c', []⟩ := by
  rw [block, Action.run_bind_error (by rw [looked]), looked]

theorem block_of_more (looked : isExhausted.run c = ⟨.ok false, c', []⟩) (index : Nat)
    (boundary : Boundary) :
    (block index boundary).run c = (foundBlock index boundary).run c' := by
  rw [block, Action.run_bind_ok (by rw [looked]), looked]
  simp only [Action.after_nil, Bool.false_eq_true, if_false, foundBlock]

end Latitude.Reader

namespace Latitude.Disassembly

theorem acceptedHeader_plain (policy : Policy) : Reader.Plain (acceptedHeader policy) := by
  refine .bind Reader.header_plain fun header => ?_
  split
  · exact .pure _
  · exact .fail _ rfl

end Latitude.Disassembly
