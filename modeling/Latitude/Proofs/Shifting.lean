import Latitude.Proofs.Accounting

/-!
# Reading at another offset

`shift d` puts a thing `d` bytes further on: a cursor, and every offset that a block, an
error or an event names. Blocks are read at a shifted cursor as they are at the cursor
itself, with everything that comes of it shifted (`tour_shift`).

Only one thing in a reader looks at the size of an offset: no block ends beyond
`maxOffset`. So `Moves` is about cursors that stay below a bound, and the bound must leave
room for the shift.
-/

namespace Latitude

def Cursor.shift (d : Nat) (c : Cursor) : Cursor := { c with position := c.position + d }

def ReadError.shift (d : Nat) : ReadError → ReadError
  | .endOfStream offset => .endOfStream (offset + d)
  | .unknownOpcode byte offset => .unknownOpcode byte (offset + d)
  | .unknownRegister byte offset => .unknownRegister byte (offset + d)
  | .unknownHeaderTag byte offset => .unknownHeaderTag byte (offset + d)
  | .unknownNature byte offset => .unknownNature byte (offset + d)
  | .invalidUtf8 offset => .invalidUtf8 (offset + d)
  | .integerOverflow width offset => .integerOverflow width (offset + d)
  -- The others name no offset.
  | e => e

def Event.shift (d : Nat) : Event → Event
  | .escapeIgnored offset byte => .escapeIgnored (offset + d) byte
  | .blockStarted index offset declared => .blockStarted index (offset + d) declared
  | .instructionDecoded offset opcode args => .instructionDecoded (offset + d) opcode args
  | event => event

def Block.shift (d : Nat) (block : Block) : Block := { block with offset := block.offset + d }

def Step.shift {α β : Type} (d : Nat) (g : α → β) (step : Step Cursor α) : Step Cursor β :=
  ⟨(step.result.mapError (·.shift d)).map g, step.state.shift d, step.events.map (·.shift d)⟩

-- ---------------------------------------------------------------------------
-- Readers
-- ---------------------------------------------------------------------------

namespace Reader

/-- At the shifted cursor the second reader does as the first one does at the cursor, and that
does not get beyond `n`. -/
structure MovesAt {α β : Type} (d n : Nat) (g : α → β) (m : Reader α) (m' : Reader β)
    (c : Cursor) : Prop where
  within : (m.run c).state.reach ≤ n
  run : m'.run (c.shift d) = (m.run c).shift d g

def Moves {α β : Type} (d n : Nat) (g : α → β) (m : Reader α) (m' : Reader β) : Prop :=
  ∀ c, c.reach ≤ n → MovesAt d n g m m' c

section
variable {α β α' β' : Type} {d n : Nat} {g : α → α'} {h : β → β'}

theorem Moves.pure {a : α} {a' : α'} (same : a' = g a) :
    Moves d n g (Pure.pure a) (Pure.pure a') := by
  subst same
  exact fun c below => ⟨below, rfl⟩

theorem Moves.fail {e e' : ReadError} (same : e' = e.shift d) :
    Moves d n g (Action.fail e) (Action.fail e') := by
  subst same
  exact fun c below => ⟨below, rfl⟩

theorem Moves.emit {event event' : Event} (same : event' = event.shift d) :
    Moves d n id (Action.emit event) (Action.emit event') := by
  subst same
  exact fun c below => ⟨below, rfl⟩

theorem byte_moves : Moves d n id byte byte := by
  intro c below
  refine ⟨Nat.le_trans (Nat.le_of_eq (Cursor.reach_takeByte c)) below, ?_⟩
  simp only [byte, Cursor.takeByte, Cursor.shift]
  rcases c.source.request with ⟨supply, source⟩
  cases supply with
  | byte b => simp only [Step.shift, Cursor.shift, Nat.add_right_comm]; rfl
  | endOfFile => rfl
  | fault fault =>
    dsimp only
    split <;> rfl

theorem isExhausted_moves : Moves d n id isExhausted isExhausted := by
  intro c below
  refine ⟨Nat.le_trans (Nat.le_of_eq (Cursor.reach_atEnd c)) below, ?_⟩
  simp only [isExhausted, Cursor.atEnd, Cursor.shift]
  rcases c.source.request with ⟨supply, source⟩
  cases supply <;> rfl

theorem MovesAt.bind {m : Reader α} {m' : Reader α'} {f : α → Reader β} {f' : α' → Reader β'}
    {c : Cursor} (hm : MovesAt d n g m m' c)
    (hf : ∀ a, (m.run c).result = .ok a → MovesAt d n h (f a) (f' (g a)) (m.run c).state) :
    MovesAt d n h (m >>= f) (m' >>= f') c := by
  obtain ⟨within, moved⟩ := hm
  cases first : (m.run c).result with
  | error e =>
    have failed : (m'.run (c.shift d)).result = .error (e.shift d) := by
      rw [moved, Step.shift, first]
      rfl
    constructor
    · rwa [Action.run_bind_error first]
    · rw [Action.run_bind_error first, Action.run_bind_error failed, moved]
      rfl
  | ok a =>
    have given : (m'.run (c.shift d)).result = .ok (g a) := by
      rw [moved, Step.shift, first]
      rfl
    obtain ⟨later, rest⟩ := hf a first
    constructor
    · rwa [Action.run_bind_ok first]
    · rw [Action.run_bind_ok first, Action.run_bind_ok given, moved]
      simp only [Step.shift] at rest ⊢
      rw [rest]
      simp [Step.after]

theorem Moves.bind {m : Reader α} {m' : Reader α'} {f : α → Reader β} {f' : α' → Reader β'}
    (hm : Moves d n g m m') (hf : ∀ a, Moves d n h (f a) (f' (g a))) :
    Moves d n h (m >>= f) (m' >>= f') :=
  fun c below => (hm c below).bind fun a _ => hf a _ (hm c below).within

theorem Moves.bind_same {m m' : Reader α} {f : α → Reader β} {f' : α → Reader β'}
    (hm : Moves d n id m m') (hf : ∀ a, Moves d n h (f a) (f' a)) :
    Moves d n h (m >>= f) (m' >>= f') :=
  hm.bind hf

theorem Moves.bind_position {f : Nat → Reader β} {f' : Nat → Reader β'}
    (hf : ∀ p ≤ n, Moves d n h (f p) (f' (p + d))) :
    Moves d n h (position >>= f) (position >>= f') := by
  intro c below
  obtain ⟨within, run⟩ := hf c.position (Nat.le_trans (Nat.le_add_right ..) below) c below
  exact ⟨within, run⟩

theorem Moves.loop {size : Cursor → Nat} {body body' : β → Reader (Round β α)}
    {advances : ∀ b, Action.Advances size (body b)}
    {advances' : ∀ b, Action.Advances size (body' b)}
    (hbody : ∀ b, Moves d n id (body b) (body' b)) (b : β) :
    Moves d n id (Action.loop size body advances b) (Action.loop size body' advances' b) := by
  intro c below
  rw [Action.loop_eq, Action.loop_eq]
  have first := hbody b c below
  refine first.bind fun round given => ?_
  cases round with
  | done a => exact Moves.pure rfl _ first.within
  | again next =>
    have lt := advances b c next given
    exact Moves.loop hbody next _ first.within
termination_by c => size c

end

-- ---------------------------------------------------------------------------
-- The readers of blocks
-- ---------------------------------------------------------------------------

variable {d n : Nat}

theorem word_moves (width : Nat) : Moves d n id (word width) (word width) := by
  induction width with
  | zero => exact .pure rfl
  | succ width ih => exact .bind_same byte_moves fun _ => .bind_same ih fun _ => .pure rfl

theorem unsigned_moves (width : Nat) : Moves d n id (unsigned width) (unsigned width) := by
  refine .bind_position fun offset _ => ?_
  split
  · exact .fail rfl
  · exact word_moves width

theorem signed_moves (width : Nat) : Moves d n id (signed width) (signed width) := by
  refine .bind_position fun offset _ => .bind_same byte_moves fun sign =>
    .bind_same (unsigned_moves width) fun magnitude => ?_
  split
  · exact .pure rfl
  · exact .fail rfl

theorem stringRound_moves (seen : List UInt8) :
    Moves d n id (stringRound seen) (stringRound seen) := by
  refine .bind_same byte_moves fun first => ?_
  split
  · refine .bind_position fun offset _ => .bind_same byte_moves fun second => ?_
    split
    · exact .pure rfl
    · split
      · exact .pure rfl
      · exact .bind_same (.emit rfl) fun _ => .pure rfl
  · exact .pure rfl

theorem string_moves : Moves d n id string string := by
  refine .bind_position fun offset _ => .bind_same (.loop stringRound_moves _) fun data => ?_
  split
  · exact .pure rfl
  · exact .fail rfl

theorem opcode_moves : Moves d n id opcode opcode := by
  refine .bind_position fun offset _ => .bind_same byte_moves fun code => ?_
  split
  · exact .pure rfl
  · exact .fail rfl

theorem register_moves : Moves d n id register register := by
  refine .bind_position fun offset _ => .bind_same byte_moves fun code => ?_
  split
  · exact .pure rfl
  · exact .fail rfl

theorem arg_moves (kind : ArgKind) : Moves d n id (arg kind) (arg kind) := by
  cases kind
  · exact .bind_same (signed_moves _) fun _ => .pure rfl
  · exact .bind_same string_moves fun _ => .pure rfl
  · exact .bind_same register_moves fun _ => .pure rfl
  · exact .bind_same (.bind_same (unsigned_moves _) fun _ => .pure rfl) fun _ => .pure rfl

theorem args_moves (kinds : List ArgKind) : Moves d n id (args kinds) (args kinds) := by
  induction kinds with
  | nil => exact .pure rfl
  | cons kind kinds ih =>
    exact .bind_same (arg_moves kind) fun _ => .bind_same ih fun _ => .pure rfl

theorem instruction_moves : Moves d n id instruction instruction := by
  refine .bind_position fun offset _ => .bind_same opcode_moves fun code =>
    .bind_same (args_moves _) fun found => .bind_same (.emit rfl) fun _ => ?_
  cases Instruction.build code found with
  | ok i => exact .pure rfl
  | error e => exact .fail rfl

/-- Two ends of a block that cut off the same of what is within reach. -/
def SameCut (d n stop stop' : Nat) : Prop := ∀ q ≤ n, q < stop ↔ q + d < stop'

theorem instructionsUpTo_moves {stop stop' : Nat} (same : SameCut d n stop stop') :
    Moves d n id (instructionsUpTo stop) (instructionsUpTo stop') := by
  refine .loop (fun seen => .bind_position fun q below => ?_) []
  by_cases more : q < stop
  · rw [if_pos more, if_pos ((same q below).1 more)]
    exact .bind_same instruction_moves fun _ => .pure rfl
  · rw [if_neg more, if_neg (mt (same q below).2 more)]
    exact .pure rfl

theorem settle_moves (boundary : Boundary) (block : Block) :
    Moves d n id (settle boundary block) (settle boundary (block.shift d)) := by
  have overrun : (block.shift d).overrun = block.overrun := rfl
  unfold settle
  rw [overrun]
  split
  · exact .pure rfl
  · cases boundary
    · exact .emit rfl
    · exact .fail rfl

theorem presentBlock_moves (low : n + d < maxOffset) (index : Nat) (boundary : Boundary) :
    Moves d n (·.shift d) (presentBlock index boundary) (presentBlock index boundary) := by
  refine .bind_position fun offset _ => .bind_same (unsigned_moves _) fun length =>
    .bind_position fun start _ => .bind_same (.emit rfl) fun _ =>
      .bind_same (instructionsUpTo_moves fun q below => ?_) fun instructions =>
        .bind_position fun stop _ => ?_
  · omega
  · rw [Nat.add_sub_add_right]
    exact .bind_same (settle_moves _ _) fun _ => .pure rfl

theorem block_moves (low : n + d < maxOffset) (index : Nat) (boundary : Boundary) :
    Moves d n (Option.map (·.shift d)) (block index boundary) (block index boundary) := by
  refine .bind_same isExhausted_moves fun exhausted => ?_
  cases exhausted with
  | true => exact .pure rfl
  | false => exact (presentBlock_moves low index boundary).bind fun _ => .pure rfl

end Reader

-- ---------------------------------------------------------------------------
-- Walks
-- ---------------------------------------------------------------------------

def Delivery.shift (d : Nat) (given : Delivery) : Delivery :=
  ⟨given.block.shift d, given.cursor.shift d, given.events.map (·.shift d)⟩

namespace Disassembly

def shift (d : Nat) (walk : Disassembly) : Disassembly :=
  { walk with cursor := walk.cursor.shift d }

theorem readBlock_shift {d : Nat} {walk : Disassembly}
    (low : walk.cursor.reach + d < Reader.maxOffset) :
    (walk.shift d).readBlock = walk.readBlock.shift d (Option.map (·.shift d)) :=
  (Reader.block_moves low walk.nextIndex walk.policy.boundary walk.cursor (Nat.le_refl _)).run

end Disassembly

namespace Tour

def shift (d : Nat) (tour : Tour) : Tour :=
  ⟨tour.deliveries.map (·.shift d), tour.outcome.mapError (·.shift d), tour.last.shift d,
    tour.events.map (·.shift d)⟩

theorem blocks_shift (d : Nat) (tour : Tour) :
    (tour.shift d).blocks = tour.blocks.map (·.shift d) := by
  simp [blocks, shift, Delivery.shift]

theorem allEvents_shift (d : Nat) (tour : Tour) :
    (tour.shift d).allEvents = tour.allEvents.map (·.shift d) := by
  simp [allEvents, shift, Delivery.shift, List.flatMap_map, List.map_flatMap]

end Tour

theorem Disassembly.tour_shift {d : Nat} {walk : Disassembly} (unfinished : walk.finished = false)
    (low : walk.cursor.reach + d < Reader.maxOffset) :
    (walk.shift d).tour = walk.tour.shift d := by
  refine tour_induction (P := fun walk tour => walk.cursor.reach + d < Reader.maxOffset →
    (walk.shift d).tour = tour.shift d) ?_ ?_ ?_ walk unfinished low
  · intro walk c events h read low
    have moved := readBlock_shift low
    rw [read] at moved
    have still : (walk.shift d).finished = false := h
    exact tour_of_end still moved
  · intro walk c events e h read low
    have moved := readBlock_shift low
    rw [read] at moved
    have still : (walk.shift d).finished = false := h
    exact tour_of_error still moved
  · intro walk c events block h read ih low
    have moved := readBlock_shift low
    rw [read] at moved
    have reach : c.reach = walk.cursor.reach := readBlock_keeps (Cursor.reach_kept _) read rfl
    have rest : ((walk.moved c).shift d).tour = (walk.moved c).tour.shift d :=
      ih (by rw [← reach] at low; exact low)
    have still : (walk.shift d).finished = false := h
    refine (tour_of_block still moved).trans ?_
    exact congrArg (Tour.cons _) rest

end Latitude
