import Mathlib.Algebra.Ring.Nat
import Latitude.Proofs.Calls
import Latitude.Proofs.Queries
import Latitude.Proofs.Truncation

/-!
# Blocks tile the bytes of a file

The blocks that a walk gives lie side by side, from the end of the header on: each length
prefix stands where the instructions of the block before it end, wherever that block said it
would end. This holds on every source, also on one that fails or ends and goes on.

A block holds the shortest run of instructions behind its length prefix that takes up the
declared length (`ShortestRun`). So only its last instruction can run past that length, and
it starts ahead of it.
-/

namespace Latitude

-- ---------------------------------------------------------------------------
-- Runs of instructions
-- ---------------------------------------------------------------------------

/-- The bytes start with the instructions, which take up at least `n` of them, and every other
run of instructions at the start of the bytes that does so begins with these. -/
structure ShortestRun (data : List UInt8) (n : Nat) (is : List SpelledInstruction) : Prop where
  front : is.flatMap SpelledInstruction.bytes <+: data
  reaches : n ≤ (is.flatMap SpelledInstruction.bytes).length
  shortest : ∀ js : List SpelledInstruction, js.flatMap SpelledInstruction.bytes <+: data →
    n ≤ (js.flatMap SpelledInstruction.bytes).length → is <+: js

namespace SpelledBlock

theorem Covers.isPrefix {n : Nat} {is js : List SpelledInstruction} {r s : List UInt8}
    (covers : Covers n is)
    (same : js.flatMap SpelledInstruction.bytes ++ r = is.flatMap SpelledInstruction.bytes ++ s)
    (reaches : n ≤ (js.flatMap SpelledInstruction.bytes).length) : is <+: js := by
  induction is generalizing n js with
  | nil => exact List.nil_prefix
  | cons i is ih =>
    obtain ⟨some, covers⟩ := covers
    cases js with
    | nil => exact absurd (Nat.le_zero.1 reaches) some
    | cons j js =>
      simp only [List.flatMap_cons, List.append_assoc] at same
      obtain ⟨rfl, others⟩ := SpelledInstruction.unique same
      rw [List.flatMap_cons, List.length_append] at reaches
      exact List.prefix_cons_inj j |>.2 (ih covers others (by omega))

theorem Covers.shortestRun {n : Nat} {is : List SpelledInstruction} (covers : Covers n is)
    (rest : List UInt8) :
    ShortestRun (is.flatMap SpelledInstruction.bytes ++ rest) n is where
  front := List.prefix_append ..
  reaches := covers.le_length
  shortest := by
    rintro js ⟨r, same⟩ reaches
    exact covers.isPrefix same reaches

end SpelledBlock

namespace ShortestRun

variable {data : List UInt8} {n : Nat}

theorem eq_nil_iff {is : List SpelledInstruction} (h : ShortestRun data n is) :
    is = [] ↔ n = 0 := by
  constructor
  · rintro rfl
    exact Nat.le_zero.1 h.reaches
  · rintro rfl
    exact List.prefix_nil.1 (h.shortest [] List.nil_prefix (Nat.le_refl 0))

theorem init_lt {init : List SpelledInstruction} {last : SpelledInstruction}
    (h : ShortestRun data n (init ++ [last])) :
    (init.flatMap SpelledInstruction.bytes).length < n := by
  refine Nat.lt_of_not_le fun reaches => ?_
  have front : init.flatMap SpelledInstruction.bytes <+: data := by
    refine List.IsPrefix.trans ?_ h.front
    rw [List.flatMap_append]
    exact List.prefix_append ..
  -- `init` would be a run that reaches the length without the last instruction.
  have shorter := (h.shortest init front reaches).length_le
  rw [List.length_append] at shorter
  exact Nat.not_succ_le_self init.length shorter

end ShortestRun

-- ---------------------------------------------------------------------------
-- Readers that succeed
-- ---------------------------------------------------------------------------

namespace Reader

theorem events_byte (c : Cursor) : (byte.run c).events = [] := by
  simp only [byte, Cursor.takeByte]
  split <;> rfl

/-- What a plain reader makes of a source, it makes of the bytes alone. -/
theorem over_law : Law fun _ m c => ∀ a, (m.run c).result = .ok a →
    m.run (.over c.source.bytes c.position) =
      ⟨.ok a, .over (m.run c).state.source.bytes (m.run c).state.position, (m.run c).events⟩ where
  pure _ _ _ h := by cases h; rfl
  fail _ _ _ _ h := by cases h
  emit _ _ _ h := by cases h; rfl
  position _ _ h := by cases h; rfl
  byte c b h := by
    have took : c.Took [b] (byte.run c).state := Cursor.took_byte h
    rw [took.bytes, took.position, events_byte]
    rfl
  bind := by
    intro α β m f c hm hf b h
    obtain ⟨a, first, second⟩ := result_bind_ok h
    have run := hm a first
    rw [Action.run_bind_ok first, Action.run_bind_ok (by rw [run]), run, hf a first b second]
    rfl

theorem Plain.run_over {α : Type} {m : Reader α} (hm : Plain m) {c : Cursor} {a : α}
    (h : (m.run c).result = .ok a) :
    m.run (.over c.source.bytes c.position) =
      ⟨.ok a, .over (m.run c).state.source.bytes (m.run c).state.position, (m.run c).events⟩ :=
  hm.law over_law c a h

variable {index : Nat} {boundary : Boundary} {c c' : Cursor} {b : Block} {events : List Event}

theorem spelled_presentBlock_of_run (low : c.reach < maxOffset)
    (run : (presentBlock index boundary).run c = ⟨.ok b, c', events⟩) :
    ∃ s : SpelledBlock, s.Fits boundary ∧ b = s.block index c.position ∧ c.Took s.bytes c' := by
  have alone := (presentBlock_plain index boundary).run_over (congrArg Step.result run)
  rw [run] at alone
  have short : c.position + c.source.bytes.length < maxOffset := by
    rwa [Cursor.reach, Cursor.remaining, Source.remaining_eq_length] at low
  obtain ⟨s, rest, fits, split, given, left⟩ := presentBlock_over_ok short alone
  obtain ⟨rfl, position⟩ : c'.source.bytes = rest ∧
      c'.position = c.position + s.bytes.length := by
    simpa [Cursor.over, Source.ofBytes] using left
  exact ⟨s, fits, given, split, position⟩

theorem spelled_block (low : c.reach < maxOffset)
    (run : (block index boundary).run c = ⟨.ok (some b), c', events⟩) :
    ∃ s : SpelledBlock, s.Fits boundary ∧ b = s.block index c.position ∧ c.Took s.bytes c' := by
  have looked := c.took_atEnd
  change c.Took [] (isExhausted.run c).state at looked
  rcases isExhausted_cases c with ⟨c₁, run₁⟩ | ⟨c₁, run₁⟩ | ⟨e, c₁, run₁⟩
  · rw [block_of_end run₁] at run
    cases run
  · rw [run₁] at looked
    rw [block_of_more run₁, foundBlock] at run
    obtain ⟨found, given, ⟨⟩⟩ := result_bind_ok (congrArg Step.result run)
    rcases present : (presentBlock index boundary).run c₁ with ⟨result, c₂, more⟩
    rw [present] at given
    cases given
    have last : c₂ = c' := by
      rw [Action.run_bind_ok (by rw [present]), present] at run
      exact congrArg Step.state run
    have still : c₁.reach < maxOffset := by
      have kept := c.reach_atEnd
      change (isExhausted.run c).state.reach = c.reach at kept
      rw [run₁] at kept
      rwa [kept]
    obtain ⟨s, fits, given, took⟩ := spelled_presentBlock_of_run still present
    have position : c₁.position = c.position := looked.position
    rw [position] at given
    exact ⟨s, fits, given, last ▸ looked.trans took⟩
  · rw [block_of_error run₁] at run
    cases run

theorem took_block_none (run : (block index boundary).run c = ⟨.ok none, c', events⟩) :
    c.Took [] c' := by
  have looked := c.took_atEnd
  change c.Took [] (isExhausted.run c).state at looked
  rcases isExhausted_cases c with ⟨c₁, run₁⟩ | ⟨c₁, run₁⟩ | ⟨e, c₁, run₁⟩ <;> rw [run₁] at looked
  · rw [block_of_end run₁] at run
    cases run
    exact looked
  · rw [block_of_more run₁] at run
    obtain ⟨found, -, ⟨⟩⟩ := result_bind_ok (congrArg Step.result run)
  · rw [block_of_error run₁] at run
    cases run

end Reader

-- ---------------------------------------------------------------------------
-- Blocks and bytes
-- ---------------------------------------------------------------------------

open Reader (lengthWidth)

/-- In a file of the bytes `data` the block has its length prefix at its offset, and holds the
shortest run of instructions behind it that takes up the declared length. -/
structure Block.Framed (b : Block) (data : List UInt8) (is : List SpelledInstruction) : Prop where
  within : b.stop ≤ data.length
  declared : b.declared = Encoding.ofLittleEndian ((data.drop b.offset).take lengthWidth)
  run : ShortestRun (data.drop (b.offset + lengthWidth)) b.declared is
  instructions : b.instructions = is.map SpelledInstruction.instruction
  consumed : b.consumed = (is.flatMap SpelledInstruction.bytes).length

namespace Block

theorem framed_of_spelled {data rest : List UInt8} {s : SpelledBlock} {offset : Nat}
    (covers : SpelledBlock.Covers s.declared s.instructions) (low : offset ≤ data.length)
    (split : data.drop offset = s.bytes ++ rest) (index : Nat) :
    (s.block index offset).Framed data s.instructions where
  within := by
    have length := congrArg List.length split
    rw [List.length_drop, List.length_append, s.length_bytes] at length
    change offset + lengthWidth + s.body.length ≤ data.length
    omega
  declared := by
    change s.declared = Encoding.ofLittleEndian ((data.drop offset).take lengthWidth)
    rw [split, SpelledBlock.bytes, List.append_assoc, List.take_left' s.width]
    rfl
  run := by
    change ShortestRun (data.drop (offset + lengthWidth)) s.declared s.instructions
    rw [← List.drop_drop, split, SpelledBlock.bytes, List.append_assoc, List.drop_left' s.width]
    exact covers.shortestRun rest
  instructions := rfl
  consumed := rfl

theorem Framed.overrun_lt {b : Block} {data : List UInt8} {init : List SpelledInstruction}
    {last : SpelledInstruction} (framed : b.Framed data (init ++ [last])) :
    b.overrun < last.bytes.length := by
  have below := framed.run.init_lt
  have total := framed.consumed
  have nonempty : 0 < last.bytes.length := Nat.succ_pos _
  rw [List.flatMap_append, List.length_append, List.flatMap_singleton] at total
  rw [Block.overrun]
  omega

theorem Framed.instructions_eq_nil_iff {b : Block} {data : List UInt8}
    {is : List SpelledInstruction} (framed : b.Framed data is) :
    b.instructions = [] ↔ b.declared = 0 := by
  rw [framed.instructions, List.map_eq_nil_iff]
  exact framed.run.eq_nil_iff

end Block

/-- The blocks lie side by side from `start` to `stop`, numbered from `index` on. -/
def Tiles : (index start : Nat) → List Block → (stop : Nat) → Prop
  | _, start, [], stop => start = stop
  | index, start, b :: bs, stop =>
    b.index = index ∧ b.offset = start ∧ Tiles (index + 1) b.stop bs stop

namespace Tiles

variable {index start stop : Nat} {blocks : List Block}

theorem index_eq (h : Tiles index start blocks stop) {i : Nat} {b : Block}
    (found : blocks[i]? = some b) : b.index = index + i := by
  induction blocks generalizing index start i with
  | nil => simp at found
  | cons x blocks ih =>
    obtain ⟨first, -, later⟩ := h
    cases i with
    | zero =>
      cases found
      exact first
    | succ i =>
      rw [ih later found]
      omega

theorem offset_head (h : Tiles index start blocks stop) {b : Block}
    (found : blocks[0]? = some b) : b.offset = start := by
  cases blocks with
  | nil => simp at found
  | cons x blocks =>
    cases found
    exact h.2.1

theorem offset_succ (h : Tiles index start blocks stop) {i : Nat} {b c : Block}
    (found : blocks[i]? = some b) (next : blocks[i + 1]? = some c) : c.offset = b.stop := by
  induction blocks generalizing index start i with
  | nil => simp at found
  | cons x blocks ih =>
    obtain ⟨-, -, later⟩ := h
    cases i with
    | zero =>
      cases found
      exact later.offset_head next
    | succ i => exact ih later found next

theorem stop_eq (h : Tiles index start blocks stop) :
    stop = start + (blocks.map fun b => lengthWidth + b.consumed).sum := by
  induction blocks generalizing index start with
  | nil => exact h.symm
  | cons x blocks ih =>
    obtain ⟨-, rfl, later⟩ := h
    rw [ih later, Block.stop, List.map_cons, List.sum_cons]
    omega

end Tiles

-- ---------------------------------------------------------------------------
-- Walks
-- ---------------------------------------------------------------------------

/-- What is left of the source are the bytes of the file from the position on. -/
structure Cursor.Within (data : List UInt8) (c : Cursor) : Prop where
  le : c.position ≤ data.length
  bytes : c.source.bytes = data.drop c.position

theorem Cursor.Within.took {data w : List UInt8} {c c' : Cursor} (within : c.Within data)
    (took : c.Took w c') : c'.Within data := by
  have left := within.bytes.symm.trans took.bytes
  have length := congrArg List.length left
  rw [List.length_drop, List.length_append] at length
  have le := within.le
  refine ⟨by rw [took.position]; omega, ?_⟩
  rw [took.position, ← List.drop_drop, left, List.drop_left]

theorem Cursor.within_kept (data : List UInt8) : Cursor.Kept (Within data) where
  takeByte := by
    intro c within
    cases taken : c.takeByte.result with
    | ok b => exact within.took (took_byte taken)
    | error e => exact within.took (took_nothing taken)
  atEnd := fun {c} within => within.took c.took_atEnd

theorem Cursor.Within.reach_eq {data : List UInt8} {c : Cursor} (within : c.Within data) :
    c.reach = data.length := by
  have le := within.le
  rw [reach, remaining, Source.remaining_eq_length, within.bytes, List.length_drop]
  omega

namespace Disassembly

variable {walk : Disassembly} {data : List UInt8}

theorem advance_tiles (within : walk.cursor.Within data) (low : data.length < Reader.maxOffset) :
    (∃ b next events, walk.advance = ⟨.ok (some b), next, events⟩ ∧
      b.index = walk.nextIndex ∧ b.offset = walk.position ∧ next.position = b.stop ∧
      next.nextIndex = walk.nextIndex + 1 ∧ next.cursor.Within data ∧ ∃ is, b.Framed data is) ∨
    ∃ result next events, walk.advance = ⟨result, next, events⟩ ∧
      (∀ b, result ≠ .ok (some b)) ∧ next.finished = true ∧
      (result = .ok none → next.position = walk.position) := by
  cases stopped : walk.finished with
  | true => exact .inr ⟨_, _, _, advance_of_finished stopped, nofun, stopped, fun _ => rfl⟩
  | false =>
    match read : walk.readBlock with
    | ⟨.error e, c, events⟩ =>
      exact .inr ⟨_, _, _, advance_of_error stopped read, nofun, rfl, nofun⟩
    | ⟨.ok none, c, events⟩ =>
      have position : c.position = walk.cursor.position := (Reader.took_block_none read).position
      exact .inr ⟨_, _, _, advance_of_end stopped read, nofun, rfl, fun _ => position⟩
    | ⟨.ok (some b), c, events⟩ =>
      obtain ⟨s, fits, rfl, took⟩ := Reader.spelled_block (within.reach_eq ▸ low) read
      have split : data.drop walk.cursor.position = s.bytes ++ c.source.bytes :=
        within.bytes.symm.trans took.bytes
      refine .inl ⟨_, _, _, advance_of_block stopped read, rfl, rfl, ?_, rfl,
        within.took took, s.instructions,
        Block.framed_of_spelled fits.covers within.le split walk.nextIndex⟩
      change c.position = walk.cursor.position + lengthWidth + s.body.length
      rw [took.position, s.length_bytes, Nat.add_assoc]

theorem yield_of_finished (stopped : walk.finished = true) (calls : List Call) :
    walk.yield calls = ⟨[], [], walk, []⟩ := by
  induction calls with
  | nil => rfl
  | cons call calls ih =>
    rw [yield_cons, ask_of_finished stopped, ih]
    cases call <;> rfl

theorem tiles_nextBlocks (within : walk.cursor.Within data)
    (low : data.length < Reader.maxOffset) (n : Nat) :
    let given := walk.yield (List.replicate n .nextBlock)
    ∃ stop, Tiles walk.nextIndex walk.position given.blocks stop ∧
      (given.errors = [] → given.last.position = stop) ∧
      ∀ b ∈ given.blocks, ∃ is, b.Framed data is := by
  induction n generalizing walk with
  | zero => exact ⟨walk.position, rfl, fun _ => rfl, nofun⟩
  | succ n ih =>
    rw [List.replicate_succ, yield_cons]
    rcases advance_tiles within low with
      ⟨b, next, events, step, index, offset, moved, counted, later, framed⟩ |
        ⟨result, next, events, step, without, stopped, still⟩
    · obtain ⟨stop, tiles, unfailed, others⟩ := ih later
      rw [moved, counted] at tiles
      rw [ask_nextBlock step]
      exact ⟨stop, ⟨index, offset, tiles⟩, unfailed, List.forall_mem_cons.2 ⟨framed, others⟩⟩
    · rw [ask_nextBlock step, yield_of_finished stopped]
      match result with
      | .ok (some b) => exact absurd rfl (without b)
      | .ok none => exact ⟨walk.position, rfl, fun _ => still rfl, nofun⟩
      | .error e => exact ⟨walk.position, rfl, nofun, nofun⟩

theorem within_of_start {policy : Policy} {source : Source}
    (started : (start policy source).result = .ok walk) :
    walk.cursor.Within source.bytes ∧ walk.nextIndex = 0 := by
  obtain ⟨c, events, step⟩ : ∃ c events, start policy source = ⟨.ok walk, c, events⟩ :=
    ⟨_, _, by rw [← started]⟩
  have fresh := eq_of_start step
  have opened : c.Within source.bytes :=
    start_keeps (Cursor.within_kept source.bytes) step ⟨Nat.zero_le _, rfl⟩
  rw [fresh]
  exact ⟨opened, rfl⟩

end Disassembly

/-- Whatever calls are made on a walk, and whatever its source does: the blocks that have been
given so far are numbered from zero on, the first starts where the header ends and every other
one where the one before it ends, and the walk stands at the end of the last one unless a call
has failed. Each block holds the shortest run of instructions behind its length prefix that
takes up the declared length: the last of them starts ahead of that length, the overrun is less
than the last of them takes up, and there is none exactly if the length is zero. -/
theorem delivered_blocks_tile {policy : Policy} {source : Source} {walk : Disassembly}
    (short : source.bytes.length < Reader.maxOffset)
    (started : (Disassembly.start policy source).result = .ok walk) (calls : List Call) :
    let blocks := (walk.yield calls).blocks
    (∀ b, blocks[0]? = some b → b.offset = walk.position) ∧
    (∀ (i : Nat) b c, blocks[i]? = some b → blocks[i + 1]? = some c →
      c.offset = b.offset + 8 + b.consumed) ∧
    (∀ (i : Nat) b, blocks[i]? = some b → b.index = i) ∧
    ((walk.yield calls).errors = [] →
      (walk.leave calls).position = walk.position + (blocks.map fun b => 8 + b.consumed).sum) ∧
    ∀ b ∈ blocks, ∃ is : List SpelledInstruction, b.Framed source.bytes is ∧
      b.declared ≤ b.consumed ∧
      (∀ init last, is = init ++ [last] →
        b.offset + 8 + (init.flatMap SpelledInstruction.bytes).length <
          b.offset + 8 + b.declared ∧
        b.overrun < last.bytes.length) ∧
      (b.instructions = [] ↔ b.declared = 0) := by
  intro blocks
  obtain ⟨within, first⟩ := Disassembly.within_of_start started
  obtain ⟨n, same⟩ := walk.exists_nextBlocks calls
  obtain ⟨stop, tiles, unfailed, framed⟩ := Disassembly.tiles_nextBlocks within short n
  rw [← same, first] at tiles
  rw [← same] at unfailed framed
  refine ⟨fun b => tiles.offset_head, fun i b c => tiles.offset_succ, ?_, ?_, ?_⟩
  · intro i b found
    rw [tiles.index_eq found, Nat.zero_add]
  · intro unbroken
    exact (unfailed unbroken).trans tiles.stop_eq
  · intro b mem
    obtain ⟨is, frame⟩ := framed b mem
    refine ⟨is, frame, ?_, ?_, frame.instructions_eq_nil_iff⟩
    · rw [frame.consumed]
      exact frame.run.reaches
    · rintro init last rfl
      exact ⟨Nat.add_lt_add_left frame.run.init_lt _, frame.overrun_lt⟩

/-- The source is interrupted within the first block, which runs past its length, and breaks
behind the second. -/
theorem delivered_blocks_tile_until_fault :
    let source : Source :=
      [.bytes [0, 0xE8, 0x03, 0, 0, 0x2E, 0, 1, 0, 0], .fault ⟨.interrupted, "again"⟩,
        .bytes [0, 0, 0, 0, 0, 0x04, 0x01, 2, 0, 0, 0, 0, 0, 0, 0, 0x04, 0x01],
        .fault ⟨.other, "gone"⟩, .bytes [0, 0]]
    source.bytes.length < Reader.maxOffset ∧
      ∃ walk, (Disassembly.start {} source).result = .ok walk ∧ walk.position = 7 ∧
        ∃ b c, (walk.yield [.nextBlock, .nextItem, .nextBlock]).blocks = [b, c] ∧
          b.declared = 1 ∧ b.consumed = 2 ∧ c.offset = 17 := by
  intro source
  have short : source.bytes.length < Reader.maxOffset := by decide
  let walk : Disassembly :=
    { policy := {}, header := { version := 1000 }
      cursor := ⟨.bytes [1, 0, 0] :: source.drop 1, 7⟩ }
  have started : (Disassembly.start {} source).result = .ok walk := by cbv
  obtain ⟨b, c, given, declared, consumed⟩ :
      ∃ b c, (walk.yield [.nextBlock, .nextItem, .nextBlock]).blocks = [b, c] ∧
        b.declared = 1 ∧ b.consumed = 2 :=
    ⟨⟨0, 7, 1, 2, [⟨.getl, [.register .ptr], rfl⟩]⟩,
      ⟨1, 17, 2, 2, [⟨.getl, [.register .ptr], rfl⟩]⟩, by cbv, rfl, rfl⟩
  obtain ⟨first, next, -⟩ :=
    delivered_blocks_tile short started [.nextBlock, .nextItem, .nextBlock]
  rw [given] at first next
  refine ⟨short, walk, started, rfl, b, c, given, declared, consumed, ?_⟩
  rw [next 0 b c rfl rfl, first b rfl, consumed]
  rfl

end Latitude
