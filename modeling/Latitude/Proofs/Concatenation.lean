import Latitude.Proofs.Language
import Latitude.Proofs.Rendering
import Latitude.Proofs.Shifting

/-!
# Bytes behind a file

Put any bytes behind a file that is accepted. The header and the blocks of the file are read
as before, and then the bytes behind them as they would be read on their own, from an index
that counts on and with all offsets moved on by the length of the file. Nothing but the
index and the position passes from one block to the next.
-/

namespace Latitude

-- ---------------------------------------------------------------------------
-- Blocks on their own
-- ---------------------------------------------------------------------------

/-- Blocks read one after another, how that ended and where, and the events on the way. -/
structure BlockRun where
  blocks : List Block
  outcome : Except ReadError Unit
  cursor : Cursor
  events : List Event

def BlockRun.cons (b : Block) (events : List Event) (rest : BlockRun) : BlockRun :=
  { rest with blocks := b :: rest.blocks, events := events ++ rest.events }

namespace Reader

variable {boundary : Boundary} {index : Nat} {c c' : Cursor} {events : List Event}

/-- Reads a block at a time, counting on from `index`, up to the first end or error. -/
def blockRun (boundary : Boundary) (index : Nat) (c : Cursor) : BlockRun :=
  match _h : (block index boundary).run c with
  | ⟨.ok (some b), c', events⟩ => (blockRun boundary (index + 1) c').cons b events
  | ⟨.ok none, c', events⟩ => ⟨[], .ok (), c', events⟩
  | ⟨.error e, c', events⟩ => ⟨[], .error e, c', events⟩
termination_by c.remaining
decreasing_by
  have lt := remaining_block_lt (congrArg Step.result _h)
  rwa [_h] at lt

theorem blockRun_of_block {b : Block}
    (read : (block index boundary).run c = ⟨.ok (some b), c', events⟩) :
    blockRun boundary index c = (blockRun boundary (index + 1) c').cons b events := by
  conv => lhs; rw [blockRun]
  split <;> simp_all

theorem blockRun_of_end (read : (block index boundary).run c = ⟨.ok none, c', events⟩) :
    blockRun boundary index c = ⟨[], .ok (), c', events⟩ := by
  rw [blockRun]
  split <;> simp_all

theorem blockRun_of_error {e : ReadError}
    (read : (block index boundary).run c = ⟨.error e, c', events⟩) :
    blockRun boundary index c = ⟨[], .error e, c', events⟩ := by
  rw [blockRun]
  split <;> simp_all

end Reader

namespace Disassembly

theorem blockRun_eq_tour {walk : Disassembly} (unfinished : walk.finished = false) :
    Reader.blockRun walk.policy.boundary walk.nextIndex walk.cursor =
      ⟨walk.tour.blocks, walk.tour.outcome, walk.tour.last.cursor, walk.tour.allEvents⟩ := by
  refine tour_induction (P := fun walk tour =>
    Reader.blockRun walk.policy.boundary walk.nextIndex walk.cursor =
      ⟨tour.blocks, tour.outcome, tour.last.cursor, tour.allEvents⟩) ?_ ?_ ?_ walk unfinished
  · intro walk c events _ read
    exact Reader.blockRun_of_end read
  · intro walk c events e _ read
    exact Reader.blockRun_of_error read
  · intro walk c events block _ read ih
    have others : Reader.blockRun walk.policy.boundary (walk.nextIndex + 1) c = _ := ih
    rw [Reader.blockRun_of_block read, others, Tour.allEvents_cons]
    rfl

-- ---------------------------------------------------------------------------
-- Spelled blocks with anything behind them
-- ---------------------------------------------------------------------------

def past (walk : Disassembly) (count : Nat) (c : Cursor) : Disassembly :=
  { walk with cursor := c, nextIndex := walk.nextIndex + count }

theorem past_moved (walk : Disassembly) (count : Nat) (c c' : Cursor) :
    (walk.moved c).past count c' = walk.past (count + 1) c' := by
  simp [past, moved, Nat.add_assoc, Nat.add_comm 1]

theorem tour_spelled_append {bs : List SpelledBlock} {walk : Disassembly} {p : Nat}
    {rest : List UInt8} (fits : ∀ b ∈ bs, b.Fits walk.policy.boundary)
    (unfinished : walk.finished = false)
    (cursor : walk.cursor = .over (bs.flatMap SpelledBlock.bytes ++ rest) p)
    (low : p + (bs.flatMap SpelledBlock.bytes).length < Reader.maxOffset) :
    let later := walk.past bs.length (.over rest (p + (bs.flatMap SpelledBlock.bytes).length))
    let front := SpelledBlock.deliveriesFrom bs walk.nextIndex p
    walk.tour.blocks = front.map Delivery.block ++ later.tour.blocks ∧
      walk.tour.outcome = later.tour.outcome ∧
      walk.tour.last.cursor = later.tour.last.cursor ∧
      walk.tour.allEvents = front.flatMap Delivery.events ++ later.tour.allEvents := by
  induction bs generalizing walk p with
  | nil =>
    have same : walk.past 0 (.over rest p) = walk := by
      simp only [List.flatMap_nil, List.nil_append] at cursor
      rw [← cursor]
      rfl
    simp [same, SpelledBlock.deliveriesFrom]
  | cons b bs ih =>
    simp only [List.forall_mem_cons] at fits
    simp only [List.flatMap_cons, List.length_append, List.append_assoc] at cursor low ⊢
    have run := Reader.takes_presentBlock fits.1 walk.nextIndex (p := p) (by omega)
      (bs.flatMap SpelledBlock.bytes ++ rest)
    have read := readBlock_over cursor (b.bytes_ne_nil _) run
    obtain ⟨blocks, outcome, last, events⟩ :=
      @ih (walk.moved (.over (bs.flatMap SpelledBlock.bytes ++ rest) (p + b.bytes.length)))
        (p + b.bytes.length) fits.2 unfinished rfl (by omega)
    rw [past_moved, Nat.add_assoc] at blocks outcome last events
    rw [tour_of_block unfinished read]
    refine ⟨?_, outcome, last, ?_⟩
    · rw [Tour.blocks_cons, blocks]
      rfl
    · rw [Tour.allEvents_cons, events, ← List.append_assoc]
      rfl

def afresh (policy : Policy) (header : Header) (index : Nat) (data : List UInt8) :
    Disassembly where
  policy := policy
  header := header
  cursor := .over data 0
  nextIndex := index

theorem tour_behind_append {h : SpelledHeader} {policy : Policy} {bs : List SpelledBlock}
    {tail : List UInt8} (fits : ∀ b ∈ bs, b.Fits policy.boundary)
    (low : (h.bytes ++ bs.flatMap SpelledBlock.bytes).length + tail.length < Reader.maxOffset) :
    let tour := (behind h policy (bs.flatMap SpelledBlock.bytes ++ tail)).tour
    let front := SpelledBlock.deliveriesFrom bs 0 h.bytes.length
    let later := (afresh policy h.header bs.length tail).tour.shift
      (h.bytes ++ bs.flatMap SpelledBlock.bytes).length
    tour.blocks = front.map Delivery.block ++ later.blocks ∧ tour.outcome = later.outcome ∧
      tour.last.cursor = later.last.cursor ∧
      tour.allEvents = front.flatMap Delivery.events ++ later.allEvents := by
  intro tour front later
  have moved : ((afresh policy h.header bs.length tail).shift
      (h.bytes ++ bs.flatMap SpelledBlock.bytes).length).tour = later := by
    refine tour_shift rfl ?_
    have reach : (afresh policy h.header bs.length tail).cursor.reach = tail.length := by
      simp [afresh, Cursor.reach, Cursor.remaining, Cursor.over, Source.ofBytes, Source.remaining]
    rwa [reach, Nat.add_comm]
  have there : (behind h policy (bs.flatMap SpelledBlock.bytes ++ tail)).past bs.length
      (.over tail (h.bytes.length + (bs.flatMap SpelledBlock.bytes).length)) =
      (afresh policy h.header bs.length tail).shift
        (h.bytes ++ bs.flatMap SpelledBlock.bytes).length := by
    simp [behind, past, afresh, shift, Cursor.shift, Cursor.over]
  rw [← moved, ← there]
  rw [List.length_append] at low
  exact tour_spelled_append fits rfl rfl (by omega)

end Disassembly

-- ---------------------------------------------------------------------------
-- Files
-- ---------------------------------------------------------------------------

theorem SpelledBlock.length_blocksFrom (bs : List SpelledBlock) (index offset : Nat) :
    (blocksFrom bs index offset).length = bs.length := by
  induction bs generalizing index offset with
  | nil => rfl
  | cons b bs ih => simp [blocksFrom, ih]

theorem SpelledFile.length_readBlocks (file : SpelledFile) :
    file.readBlocks.length = file.blocks.length :=
  SpelledBlock.length_blocksFrom ..

theorem Reading.ofSource_spelled_append {policy : Policy} {file : SpelledFile}
    (fits : file.Fits policy) (tail : List UInt8)
    (low : file.bytes.length + tail.length < Reader.maxOffset) :
    let alone := ofSource policy (.ofBytes file.bytes)
    let whole := ofSource policy (.ofBytes (file.bytes ++ tail))
    let more := Reader.blockRun policy.boundary file.blocks.length { source := .ofBytes tail }
    whole.opening.result = .ok file.header.header ∧
      whole.blocks = alone.blocks ++ more.blocks.map (·.shift file.bytes.length) ∧
      whole.outcome = more.outcome.mapError (·.shift file.bytes.length) ∧
      whole.cursor = more.cursor.shift file.bytes.length ∧
      whole.allEvents = alone.allEvents ++ more.events.map (·.shift file.bytes.length) := by
  intro alone whole more
  let rest := Disassembly.afresh policy file.header.header file.blocks.length tail
  have unfinished : rest.finished = false := rfl
  have run : more = _ := Disassembly.blockRun_eq_tour unfinished
  have front : alone = _ := ofSource_spelled fits (by omega)
  obtain ⟨version, blocks⟩ := fits
  have started := Disassembly.start_spelled version
    (file.blocks.flatMap SpelledBlock.bytes ++ tail)
  rw [← List.append_assoc, ← SpelledFile.bytes] at started
  have reading : whole = _ := ofSource_of_start started
  obtain ⟨given, outcome, last, events⟩ := Disassembly.tour_behind_append blocks low
  rw [Tour.blocks_shift] at given
  rw [Tour.allEvents_shift] at events
  rw [reading, front, run]
  refine ⟨rfl, given, outcome, last, ?_⟩
  simp only [allEvents, List.append_nil, List.append_assoc]
  exact congrArg (file.header.events 0 ++ ·) events

/-- Of an accepted file with any bytes behind it, the header and the blocks are those of the
file, and then those that are read from the bytes behind it alone, counted on and moved on by
the length of the file; the reading ends as theirs does, with the offset of an error moved on
in the same way. It lists the file and then the further blocks. -/
theorem reading_append {policy : Policy} {front : List UInt8} {header : Header}
    {blocks : List Block} (accepted : Accepts policy front header blocks) (tail : List UInt8)
    (short : front.length + tail.length < Reader.maxOffset) :
    let whole := Reading.ofSource policy (.ofBytes (front ++ tail))
    let more := Reader.blockRun policy.boundary blocks.length { source := .ofBytes tail }
    whole.opening.result = .ok header ∧
    whole.blocks = blocks ++ more.blocks.map (·.shift front.length) ∧
    whole.outcome = more.outcome.mapError (·.shift front.length) ∧
    whole.position = more.cursor.position + front.length ∧
    whole.allEvents = (Reading.ofSource policy (.ofBytes front)).allEvents ++
      more.events.map (·.shift front.length) ∧
    ∀ file (sink : Sink), sink.NeverFails →
      (disassemble (.ofBytes (front ++ tail)) file policy sink).sink.output =
        (disassemble (.ofBytes front) file policy sink).sink.output ++
          Text.encodeUtf8 (String.join (more.blocks.map Block.listing)) := by
  obtain ⟨spelled, fits, rfl, rfl, rfl⟩ := spelled_of_accepts (by omega) accepted
  rw [SpelledFile.length_readBlocks]
  intro whole more
  let alone := Reading.ofSource policy (.ofBytes spelled.bytes)
  obtain ⟨opened, own, -⟩ : alone.opening.result = _ ∧ alone.blocks = _ ∧ _ :=
    Reading.of_accepts accepted
  obtain ⟨opening, given, outcome, cursor, events⟩ :
      whole.opening.result = _ ∧ whole.blocks = alone.blocks ++ more.blocks.map _ ∧ _ :=
    Reading.ofSource_spelled_append fits tail short
  refine ⟨opening, own ▸ given, outcome, congrArg Cursor.position cursor, events,
    fun file sink never => ?_⟩
  have unmoved (d : Nat) : Block.listing ∘ Block.shift d = Block.listing := rfl
  have text : whole.text file =
      alone.text file ++ String.join (more.blocks.map Block.listing) := by
    simp [Reading.text, opening, opened, given, unmoved, String.append_assoc]
  rw [disassemble_of_neverFails _ file policy never, disassemble_of_neverFails _ file policy never,
    Reading.output_filled, Reading.output_filled, List.append_assoc, ← Text.encodeUtf8_append]
  exact congrArg (fun listed => sink.output ++ Text.encodeUtf8 listed) text

/-- Behind a file of one block stand another block and one that does not start with an
operation. -/
theorem reading_append_unknownOpcode :
    let front : List UInt8 :=
      [0, 0xE8, 0x03, 0, 0, 0x2E, 0, 2, 0, 0, 0, 0, 0, 0, 0, 0x04, 0x01]
    let tail : List UInt8 := [2, 0, 0, 0, 0, 0, 0, 0, 0x04, 0x02, 1, 0, 0, 0, 0, 0, 0, 0, 0xFF]
    let whole := Reading.ofSource {} (.ofBytes (front ++ tail))
    whole.blocks =
      [⟨0, 7, 2, 2, [⟨.getl, [.register .ptr], rfl⟩]⟩,
        ⟨1, 17, 2, 2, [⟨.getl, [.register .slf], rfl⟩]⟩] ∧
      whole.outcome = .error (.unknownOpcode 0xFF 35) := by
  intro front tail whole
  let file : SpelledFile :=
    { header := { version := ⟨0, [0xE8, 0x03, 0, 0], rfl⟩, fields := [], last := 0 }
      blocks := [⟨[2, 0, 0, 0, 0, 0, 0, 0], rfl, [⟨.getl, [.register .ptr], rfl⟩]⟩] }
  have fits : file.Fits {} := ⟨by decide, by simp [file, SpelledBlock.Fits]; decide⟩
  have accepted : Accepts {} front file.header.header file.readBlocks :=
    accepts_of_spelled fits (by decide)
  obtain ⟨-, blocks, outcome, -⟩ := reading_append accepted tail (by decide)
  have count : file.readBlocks.length = 1 := rfl
  rw [count] at blocks outcome
  obtain ⟨_, first⟩ : ∃ events,
      (Reader.block 1 ({} : Policy).boundary).run { source := .ofBytes tail } =
        ⟨.ok (some ⟨1, 0, 2, 2, [⟨.getl, [.register .slf], rfl⟩]⟩), .over (tail.drop 10) 10,
          events⟩ := ⟨_, by cbv⟩
  obtain ⟨_, second⟩ : ∃ events,
      (Reader.block 2 ({} : Policy).boundary).run (.over (tail.drop 10) 10) =
        ⟨.error (.unknownOpcode 0xFF 18), .over [] 19, events⟩ := ⟨_, by cbv⟩
  rw [Reader.blockRun_of_block first, Reader.blockRun_of_error second] at blocks outcome
  exact ⟨blocks, outcome⟩

end Latitude
