import Latitude.Proofs.Origins
import Latitude.Proofs.Tiling

/-!
# Notices

Most events tell of something that has been decoded: a header, the length of a block, an
instruction. The others are notices of bytes that a string leaves out, and can come at any
time before that.

A quiet reader reports nothing but notices, whatever it comes to. The parts of headers and
instructions are quiet; so a header or an instruction that cannot be read is not told of. What
is told of spelled things can be listed without the notices (`SpelledBlock.log`).
-/

namespace Latitude

/-- The event tells of bytes that were dropped, and not of anything that was decoded. -/
def Event.isNotice : Event → Bool
  | .escapeIgnored .. => true
  | _ => false

def told (events : List Event) : List Event := events.filter (!·.isNotice)

@[simp] theorem told_nil : told [] = [] := rfl

@[simp] theorem told_append (events more : List Event) :
    told (events ++ more) = told events ++ told more := List.filter_append ..

namespace Reader

variable {α β γ : Type} {m : Reader α} {f : α → Reader β}

def Quiet (m : Reader α) : Prop := ∀ c, told (m.run c).events = []

/-- Where the reader fails, it has reported nothing but notices. -/
def FailsQuietly (m : Reader α) : Prop :=
  ∀ c e, (m.run c).result = .error e → told (m.run c).events = []

theorem Quiet.bind (hm : Quiet m) (hf : ∀ a, Quiet (f a)) : Quiet (m >>= f) := by
  intro c
  cases first : (m.run c).result with
  | error e =>
    rw [Action.run_bind_error first]
    exact hm c
  | ok a =>
    rw [Action.run_bind_ok first, Action.events_after, told_append, hm c, hf a]
    rfl

theorem Quiet.bind_failsQuietly (hm : Quiet m)
    (hf : ∀ c a, (m.run c).result = .ok a → FailsQuietly (f a)) : FailsQuietly (m >>= f) := by
  intro c e failed
  cases first : (m.run c).result with
  | error e =>
    rw [Action.run_bind_error first]
    exact hm c
  | ok a =>
    rw [Action.run_bind_ok first] at failed ⊢
    rw [Action.events_after, told_append, hm c, hf c a first _ e failed]
    rfl

theorem Quiet.loop {size : Cursor → Nat} {body : γ → Reader (Round γ α)}
    {advances : ∀ b, Action.Advances size (body b)} (hbody : ∀ b, Quiet (body b)) (b : γ) :
    Quiet (Action.loop size body advances b) := by
  intro c
  rw [Action.loop_eq]
  cases first : ((body b).run c).result with
  | error e =>
    rw [Action.run_bind_error first]
    exact hbody b c
  | ok round =>
    rw [Action.run_bind_ok first, Action.events_after, told_append, hbody b c]
    cases round with
    | done a => rfl
    | again next =>
      have lt := advances b c next first
      exact Quiet.loop hbody next _
termination_by c => size c

theorem Quiet.pure (a : α) : Quiet (Pure.pure a : Reader α) := fun _ => rfl

theorem Quiet.fail (e : ReadError) : Quiet (Action.fail e : Reader α) := fun _ => rfl

theorem Quiet.position : Quiet Reader.position := fun _ => rfl

theorem Quiet.byte : Quiet Reader.byte := by
  intro c
  rw [events_byte]
  rfl

-- ---------------------------------------------------------------------------
-- Integers and strings
-- ---------------------------------------------------------------------------

theorem unsigned_quiet (width : Nat) : Quiet (unsigned width) := by
  have word_quiet : Quiet (word width) := by
    induction width with
    | zero => exact .pure _
    | succ width ih => exact Quiet.byte.bind fun _ => ih.bind fun _ => .pure _
  refine Quiet.position.bind fun offset => ?_
  split
  · exact .fail _
  · exact word_quiet

theorem signed_quiet (width : Nat) : Quiet (signed width) := by
  refine Quiet.position.bind fun offset => Quiet.byte.bind fun sign =>
    (unsigned_quiet width).bind fun magnitude => ?_
  split
  · exact .pure _
  · exact .fail _

theorem stringRound_quiet (seen : List UInt8) : Quiet (stringRound seen) := by
  refine Quiet.byte.bind fun first => ?_
  split
  · refine Quiet.position.bind fun offset => Quiet.byte.bind fun second => ?_
    split
    · exact .pure _
    · split
      · exact .pure _
      · have notice : Quiet (Action.emit (.escapeIgnored offset second)) := fun _ => rfl
        exact notice.bind fun _ => .pure _
  · exact .pure _

theorem string_quiet : Quiet string := by
  refine Quiet.position.bind fun offset => (Quiet.loop stringRound_quiet []).bind fun data => ?_
  split
  · exact .pure _
  · exact .fail _

-- ---------------------------------------------------------------------------
-- Headers
-- ---------------------------------------------------------------------------

theorem headerRound_quiet (header : Header) : Quiet (headerRound header) := by
  have value_quiet : Quiet headerValue := by
    refine Quiet.position.bind fun offset => Quiet.byte.bind fun nature => ?_
    split
    · exact (signed_quiet _).bind fun _ => .pure _
    · exact string_quiet.bind fun _ => .pure _
    · exact .fail _
  refine Quiet.position.bind fun offset => Quiet.byte.bind fun tag => ?_
  split
  · exact Quiet.byte.bind fun _ => .pure _
  · refine value_quiet.bind fun value => ?_
    split
    · exact .fail _
    · exact .fail _
    · exact .pure _

theorem header_failsQuietly : FailsQuietly header :=
  (signed_quiet _).bind_failsQuietly fun _ _ _ =>
    (Quiet.loop headerRound_quiet _).bind_failsQuietly fun _ _ _ => nofun

-- ---------------------------------------------------------------------------
-- Instructions
-- ---------------------------------------------------------------------------

theorem opcode_quiet : Quiet opcode := by
  refine Quiet.position.bind fun offset => Quiet.byte.bind fun code => ?_
  split
  · exact .pure _
  · exact .fail _

theorem register_quiet : Quiet register := by
  refine Quiet.position.bind fun offset => Quiet.byte.bind fun code => ?_
  split
  · exact .pure _
  · exact .fail _

theorem arg_quiet (kind : ArgKind) : Quiet (arg kind) := by
  cases kind with
  | integer => exact (signed_quiet _).bind fun _ => .pure _
  | string => exact string_quiet.bind fun _ => .pure _
  | register => exact register_quiet.bind fun _ => .pure _
  | method => exact ((unsigned_quiet _).bind fun _ => .pure _).bind fun _ => .pure _

theorem args_quiet (kinds : List ArgKind) : Quiet (args kinds) := by
  induction kinds with
  | nil => exact .pure _
  | cons kind kinds ih => exact (arg_quiet kind).bind fun _ => ih.bind fun _ => .pure _

/-- Once its arguments are there, an instruction cannot fail any more. -/
theorem instruction_failsQuietly : FailsQuietly instruction := by
  refine Quiet.position.bind_failsQuietly fun _ offset _ =>
    opcode_quiet.bind_failsQuietly fun _ code _ =>
      (args_quiet _).bind_failsQuietly fun c found given => ?_
  rw [build_of_args ((args_meets _).ok given)]
  nofun

end Reader

open Reader (lengthWidth)

-- ---------------------------------------------------------------------------
-- What is told of spelled things
-- ---------------------------------------------------------------------------

theorem told_eventsAlong_of_notices {α : Type} {bytes : α → List UInt8}
    {events : α → Nat → List Event} (notices : ∀ item offset, told (events item offset) = [])
    (items : List α) (offset : Nat) : told (eventsAlong bytes events items offset) = [] := by
  induction items generalizing offset with
  | nil => rfl
  | cons item items ih => rw [eventsAlong, told_append, notices, ih]; rfl

theorem SpelledText.told_events (s : SpelledText) (offset : Nat) : told (s.events offset) = [] := by
  refine told_eventsAlong_of_notices (fun piece offset => ?_) s.pieces offset
  cases piece <;> rfl

theorem SpelledHeader.told_events (h : SpelledHeader) (offset : Nat) :
    told (h.events offset) = [.headerDecoded h.header] := by
  have quiet (f : SpelledField) (offset : Nat) : told (f.events offset) = [] :=
    f.name.told_events (offset + 2)
  rw [events, told_append, told_eventsAlong_of_notices quiet]
  rfl

theorem SpelledInstruction.length_args (i : SpelledInstruction) :
    i.args.length = i.opcode.signature.length := by
  rw [← i.fits, List.length_map]

theorem SpelledInstruction.told_events (i : SpelledInstruction) (offset : Nat) :
    told (i.events offset) = [.instructionDecoded offset i.opcode i.opcode.signature.length] := by
  have quiet (a : SpelledArg) (offset : Nat) : told (a.events offset) = [] := by
    cases a with
    | string s => exact s.told_events offset
    | integer | register | method => rfl
  rw [events, told_append, told_eventsAlong_of_notices quiet, i.length_args]
  rfl

namespace SpelledBlock

def decodedFrom : Nat → List SpelledInstruction → List Event
  | _, [] => []
  | offset, i :: is =>
    .instructionDecoded offset i.opcode i.opcode.signature.length ::
      decodedFrom (offset + i.bytes.length) is

/-- What is told of a block up to its last instruction. -/
def log (b : SpelledBlock) (index offset : Nat) : List Event :=
  .blockStarted index offset b.declared :: decodedFrom (offset + lengthWidth) b.instructions

def logFrom : List SpelledBlock → Nat → Nat → List Event
  | [], _, _ => []
  | b :: bs, index, offset =>
    b.log index offset ++
      (if (b.block index offset).overrun = 0 then []
        else [.blockOverran index b.declared b.body.length]) ++
      logFrom bs (index + 1) (offset + b.bytes.length)

theorem told_instructions (is : List SpelledInstruction) (offset : Nat) :
    told (eventsAlong SpelledInstruction.bytes SpelledInstruction.events is offset) =
      decodedFrom offset is := by
  induction is generalizing offset with
  | nil => rfl
  | cons i is ih => rw [eventsAlong, told_append, i.told_events, ih]; rfl

theorem told_started (b : SpelledBlock) (index offset : Nat) (more : List Event) :
    told (.blockStarted index offset b.declared ::
      (eventsAlong SpelledInstruction.bytes SpelledInstruction.events b.instructions
        (offset + lengthWidth) ++ more)) = b.log index offset ++ told more := by
  have others := told_append (eventsAlong SpelledInstruction.bytes SpelledInstruction.events
    b.instructions (offset + lengthWidth)) more
  rw [told_instructions] at others
  exact congrArg (_ :: ·) others

theorem eventsAlong_instructions {is : List SpelledInstruction} (nonempty : is ≠ [])
    (offset : Nat) :
    ∃ front last op, eventsAlong SpelledInstruction.bytes SpelledInstruction.events is offset =
      front ++ [.instructionDecoded last op op.signature.length] := by
  induction is generalizing offset with
  | nil => exact absurd rfl nonempty
  | cons i is ih =>
    cases is with
    | nil =>
      rw [eventsAlong, eventsAlong, List.append_nil, SpelledInstruction.events, i.length_args]
      exact ⟨_, _, _, rfl⟩
    | cons j is =>
      obtain ⟨front, last, op, same⟩ := ih (List.cons_ne_nil j is) (offset + i.bytes.length)
      rw [eventsAlong, same]
      exact ⟨i.events offset ++ front, last, op, (List.append_assoc ..).symm⟩

theorem events_of_overrun {b : SpelledBlock} {index offset : Nat}
    (overran : 0 < (b.block index offset).overrun) :
    ∃ front last op, b.events index offset = front ++
      [.instructionDecoded last op op.signature.length,
        .blockOverran index b.declared b.body.length] := by
  have nonempty : b.instructions ≠ [] := by
    intro none
    simp [Block.overrun, block, body, none] at overran
  obtain ⟨front, last, op, same⟩ := eventsAlong_instructions nonempty (offset + lengthWidth)
  refine ⟨.blockStarted index offset b.declared :: front, last, op, ?_⟩
  rw [events, if_neg (Nat.ne_of_gt overran), same, List.append_assoc]
  rfl

theorem told_events (b : SpelledBlock) (index offset : Nat) :
    told (b.events index offset) = b.log index offset ++
      if (b.block index offset).overrun = 0 then []
      else [.blockOverran index b.declared b.body.length] := by
  rw [events, told_started]
  split <;> rfl

end SpelledBlock

end Latitude
