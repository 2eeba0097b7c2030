import Latitude.Proofs.Accounting
import Latitude.Proofs.Language
import Latitude.Proofs.Reports

/-!
# The boundary of blocks

Whether a block may overrun is asked once it has been read. So on every source, strict
reading is lax reading that stops behind the first block which overruns; without such a
block the two come to the same.

A block is read on until its declared length is reached. As long as the source is too
short for the largest offset to matter, no block falls short of its length, and a block
that strict reading gives has exactly that length.
-/

namespace Latitude

namespace Reader

-- ---------------------------------------------------------------------------
-- A block and its settlement
-- ---------------------------------------------------------------------------

/-- A block as it is before its length is held against it. -/
def measuredBlock (index : Nat) : Reader Block := do
  let offset ← position
  let length ← unsigned lengthWidth
  let declared := length.toNat
  let start ← position
  Action.emit (.blockStarted index offset declared)
  let instructions ← instructionsUpTo (min (start + declared) maxOffset)
  let stop ← position
  return { index, offset, declared, consumed := stop - start, instructions }

theorem presentBlock_eq (index : Nat) (boundary : Boundary) :
    presentBlock index boundary =
      measuredBlock index >>= fun block => settle boundary block >>= fun _ => pure block := by
  simp only [presentBlock, measuredBlock, Action.bind_assoc]
  rfl

variable {index : Nat} {boundary : Boundary} {c : Cursor} {b : Block}

theorem le_position_of_blockLoop {stop : Nat} {seen is : List Instruction} {c : Cursor}
    (h : ((Action.loop Cursor.remaining (blockRound stop) (blockRound_advances stop) seen).run
      c).result = .ok is) :
    stop ≤ ((Action.loop Cursor.remaining (blockRound stop) (blockRound_advances stop) seen).run
      c).state.position := by
  rw [Action.loop_eq] at h ⊢
  obtain ⟨round, first, later⟩ := result_bind_ok h
  rw [Action.run_bind_ok first, Action.state_after]
  cases round with
  | again next =>
    have lt := blockRound_advances stop seen c next first
    exact le_position_of_blockLoop later
  | done found =>
    -- The last round has looked at the position and left it.
    unfold blockRound at first ⊢
    have looked : (position.run c).result = .ok c.position := rfl
    rw [Action.run_bind_ok looked] at first ⊢
    split at first
    · obtain ⟨i, -, ended⟩ := result_bind_ok first
      cases ended
    · rename_i reached
      rw [if_neg reached]
      exact Nat.le_of_not_lt reached
termination_by c.remaining

theorem le_position_of_instructionsUpTo {stop : Nat} {is : List Instruction}
    (h : ((instructionsUpTo stop).run c).result = .ok is) :
    stop ≤ ((instructionsUpTo stop).run c).state.position :=
  le_position_of_blockLoop h

theorem measuredBlock_ok (h : ((measuredBlock index).run c).result = .ok b) :
    b.index = index ∧ (c.reach < maxOffset → b.declared ≤ b.consumed) := by
  have looks (c : Cursor) : (position.run c).state = c := rfl
  have emits (event : Event) (c : Cursor) : ((Action.emit event).run c).state = c := rfl
  obtain ⟨offset, -, h⟩ := result_bind_ok h
  obtain ⟨length, -, h⟩ := result_bind_ok h
  rw [looks] at h
  -- From here on `c₁` is the cursor behind the length, and `c₂` the one behind the instructions.
  have first := (unsigned_plain lengthWidth).reach_eq c
  generalize ((unsigned lengthWidth).run c).state = c₁ at first h
  obtain ⟨start, ⟨⟩, h⟩ := result_bind_ok h
  obtain ⟨-, -, h⟩ := result_bind_ok h
  obtain ⟨is, read, h⟩ := result_bind_ok h
  rw [looks, emits] at read h
  have others := (instructionsUpTo_plain (min (c₁.position + length.toNat) maxOffset)).reach_eq c₁
  have reached := le_position_of_instructionsUpTo read
  generalize ((instructionsUpTo (min (c₁.position + length.toNat) maxOffset)).run c₁).state = c₂
    at others reached h
  obtain ⟨stop, ⟨⟩, ⟨⟩⟩ := result_bind_ok h
  refine ⟨rfl, fun low => ?_⟩
  simp only [Cursor.reach] at first others low ⊢
  omega

-- ---------------------------------------------------------------------------
-- The two boundaries
-- ---------------------------------------------------------------------------

/-- Lax and strict reading of a block come to the same, or the block overruns. -/
theorem presentBlock_boundary (index : Nat) (c : Cursor) :
    (∃ step, (∀ boundary, (presentBlock index boundary).run c = step) ∧
      ∀ b, step.result = .ok b → b.overrun = 0) ∨
    ∃ b c' lax strict, 0 < b.overrun ∧
      (presentBlock index .lax).run c = ⟨.ok b, c', lax⟩ ∧
      (presentBlock index .strict).run c =
        ⟨.error (.blockOverrun index b.declared b.consumed), c', strict⟩ := by
  -- An error within the block comes before the boundary is asked, so it is the same for both.
  simp only [presentBlock_eq]
  match run : (measuredBlock index).run c with
  | ⟨.error e, c', events⟩ =>
    refine .inl ⟨⟨.error e, c', events⟩, fun boundary => ?_, fun _ h => nomatch h⟩
    rw [Action.run_bind_error (by rw [run]), run]
  | ⟨.ok b, c', events⟩ =>
    have settled (boundary : Boundary) := Action.run_bind_ok (f := fun block =>
      settle boundary block >>= fun _ => pure block) (congrArg Step.result run)
    by_cases within : b.overrun = 0
    · refine .inl ⟨⟨.ok b, c', events⟩, fun boundary => ?_, by rintro _ ⟨⟩; exact within⟩
      rw [settled, run]
      simp [settle, within, Action.run_bind, Action.run_pure, Step.after]
    · refine .inr ⟨b, c', events ++ [.blockOverran b.index b.declared b.consumed], events,
        Nat.pos_of_ne_zero within, ?_, ?_⟩
      · rw [settled, run]
        simp [settle, within, Action.run_bind, Action.run_pure, Action.emit, Step.after]
      · obtain ⟨rfl, -⟩ := measuredBlock_ok (congrArg Step.result run)
        rw [settled, run]
        simp [settle, within, Action.run_bind, Action.fail, Step.after]

theorem block_cases (index : Nat) (c : Cursor) :
    (∃ step, (∀ boundary, (block index boundary).run c = step) ∧
      ∀ b, step.result ≠ .ok (some b)) ∨
    ∃ c', c'.reach = c.reach ∧
      ∀ boundary, (block index boundary).run c = (foundBlock index boundary).run c' := by
  have still : (isExhausted.run c).state.reach = c.reach := Cursor.reach_atEnd c
  rcases isExhausted_cases c with ⟨c', looked⟩ | ⟨c', looked⟩ | ⟨e, c', looked⟩
  · exact .inl ⟨_, block_of_end looked index, fun _ h => nomatch h⟩
  · rw [looked] at still
    exact .inr ⟨c', still, block_of_more looked index⟩
  · exact .inl ⟨_, block_of_error looked index, fun _ h => nomatch h⟩

theorem block_boundary (index : Nat) (c : Cursor) :
    (∃ step, (∀ boundary, (block index boundary).run c = step) ∧
      ∀ b, step.result = .ok (some b) → b.overrun = 0) ∨
    ∃ b c' lax strict, 0 < b.overrun ∧
      (block index .lax).run c = ⟨.ok (some b), c', lax⟩ ∧
      (block index .strict).run c =
        ⟨.error (.blockOverrun index b.declared b.consumed), c', strict⟩ := by
  rcases block_cases index c with ⟨step, same, none⟩ | ⟨c', -, present⟩
  · exact .inl ⟨step, same, fun b h => absurd h (none b)⟩
  · simp only [present, foundBlock]
    rcases presentBlock_boundary index c' with
      ⟨step, same, within⟩ | ⟨b, c'', lax, strict, overran, hl, hs⟩
    · refine .inl ⟨(presentBlock index .lax >>= fun b => pure (some b)).run c',
        fun boundary => ?_, ?_⟩
      · rw [Action.run_bind, Action.run_bind, same, same]
      · intro b h
        obtain ⟨a, read, ⟨⟩⟩ := result_bind_ok h
        rw [same] at read
        exact within b read
    · refine .inr ⟨b, c'', lax, strict, overran, ?_, ?_⟩
      · simp [Action.run_bind, hl, Action.run_pure, Step.after]
      · simp [Action.run_bind, hs]

theorem consumed_eq_of_block (low : c.reach < maxOffset)
    (h : ((block index .strict).run c).result = .ok (some b)) : b.consumed = b.declared := by
  rcases block_cases index c with ⟨step, same, none⟩ | ⟨c', reach, present⟩
  · rw [same] at h
    exact absurd h (none b)
  · rw [present] at h
    obtain ⟨a, read, ⟨⟩⟩ := result_bind_ok h
    rw [presentBlock_eq] at read
    obtain ⟨a, measured, settled⟩ := result_bind_ok read
    obtain ⟨_, passed, ⟨⟩⟩ := result_bind_ok settled
    have reached := (measuredBlock_ok measured).2 (reach ▸ low)
    have within := settle_strict_ok passed
    simp only [Block.overrun] at within
    omega

end Reader

-- ---------------------------------------------------------------------------
-- Walks
-- ---------------------------------------------------------------------------

namespace Disassembly

def strictly (walk : Disassembly) : Disassembly :=
  { walk with policy := { walk.policy with boundary := .strict } }

theorem moved_strictly (walk : Disassembly) (c : Cursor) :
    walk.strictly.moved c = (walk.moved c).strictly := rfl

variable {walk : Disassembly}

theorem strictly_unfinished (h : walk.finished = false) : walk.strictly.finished = false := h

theorem strictly_readBlock (lax : walk.policy.boundary = .lax)
    (fitting : ∀ b, walk.readBlock.result = .ok (some b) → b.overrun = 0) :
    walk.strictly.readBlock = walk.readBlock := by
  unfold readBlock at fitting ⊢
  rw [lax] at fitting ⊢
  rcases Reader.block_boundary walk.nextIndex walk.cursor with
    ⟨step, same, -⟩ | ⟨b, c, _, _, overran, hl, -⟩
  · exact (same .strict).trans (same .lax).symm
  · have fits := fitting b (by rw [hl])
    omega

theorem strictly_readBlock_of_overrun (lax : walk.policy.boundary = .lax) {b : Block} {c : Cursor}
    {more : List Event} (read : walk.readBlock = ⟨.ok (some b), c, more⟩)
    (overran : 0 < b.overrun) :
    ∃ events, walk.strictly.readBlock =
      ⟨.error (.blockOverrun walk.nextIndex b.declared b.consumed), c, events⟩ := by
  unfold readBlock at read ⊢
  rw [lax] at read
  rcases Reader.block_boundary walk.nextIndex walk.cursor with
    ⟨step, same, within⟩ | ⟨b', c', _, events, -, hl, hs⟩
  · rw [same] at read
    have fits := within b (by rw [read])
    omega
  · rw [hl] at read
    cases read
    exact ⟨events, hs⟩

/-- Tours that show the same, though the policies of their walks may differ. -/
structure Agree (s t : Tour) : Prop where
  deliveries : s.deliveries = t.deliveries
  outcome : s.outcome = t.outcome
  cursor : s.last.cursor = t.last.cursor
  events : s.events = t.events

theorem strictly_tour (unfinished : walk.finished = false) (lax : walk.policy.boundary = .lax)
    (fitting : ∀ d ∈ walk.tour.deliveries, d.block.overrun = 0) :
    Agree walk.strictly.tour walk.tour := by
  refine tour_induction (P := fun walk tour => walk.policy.boundary = .lax →
    (∀ d ∈ tour.deliveries, d.block.overrun = 0) → Agree walk.strictly.tour tour)
    ?_ ?_ ?_ walk unfinished lax fitting
  · intro walk c events unfinished read lax _
    have same := strictly_readBlock lax (by rw [read]; rintro _ ⟨⟩)
    rw [tour_of_end (strictly_unfinished unfinished) (same.trans read)]
    exact ⟨rfl, rfl, rfl, rfl⟩
  · intro walk c events e unfinished read lax _
    have same := strictly_readBlock lax (by rw [read]; rintro _ ⟨⟩)
    rw [tour_of_error (strictly_unfinished unfinished) (same.trans read)]
    exact ⟨rfl, rfl, rfl, rfl⟩
  · intro walk c events block unfinished read ih lax fitting
    simp only [Tour.deliveries_cons, List.forall_mem_cons] at fitting
    have same := strictly_readBlock lax (by rw [read]; rintro _ ⟨⟩; exact fitting.1)
    obtain ⟨hd, ho, hc, he⟩ := ih lax fitting.2
    rw [tour_of_block (strictly_unfinished unfinished) (same.trans read), moved_strictly]
    exact ⟨congrArg (List.cons _) hd, ho, hc, he⟩

/-- Strict reading stops behind the first block that overruns. -/
theorem strictly_tour_of_overrun (unfinished : walk.finished = false)
    (lax : walk.policy.boundary = .lax) {pre post : List Delivery} {d : Delivery}
    (split : walk.tour.deliveries = pre ++ d :: post)
    (fitting : ∀ x ∈ pre, x.block.overrun = 0) (overran : 0 < d.block.overrun) :
    walk.strictly.tour.deliveries = pre ∧
      walk.strictly.tour.outcome = .error
        (.blockOverrun (walk.nextIndex + pre.length) d.block.declared d.block.consumed) ∧
      walk.strictly.tour.last.cursor = d.cursor := by
  refine tour_induction (P := fun walk tour => walk.policy.boundary = .lax →
    ∀ pre, tour.deliveries = pre ++ d :: post → (∀ x ∈ pre, x.block.overrun = 0) →
      walk.strictly.tour.deliveries = pre ∧
      walk.strictly.tour.outcome = .error
        (.blockOverrun (walk.nextIndex + pre.length) d.block.declared d.block.consumed) ∧
      walk.strictly.tour.last.cursor = d.cursor)
    ?_ ?_ ?_ walk unfinished lax pre split fitting
  · intro walk c events _ _ _ pre split
    simp at split
  · intro walk c events e _ _ _ pre split
    simp at split
  · intro walk c events block unfinished read ih lax pre split fitting
    rw [Tour.deliveries_cons] at split
    cases pre with
    | nil =>
      obtain ⟨rfl, -⟩ := List.cons.inj split
      obtain ⟨_, refused⟩ := strictly_readBlock_of_overrun lax read overran
      rw [tour_of_error (strictly_unfinished unfinished) refused]
      exact ⟨rfl, rfl, rfl⟩
    | cons x pre =>
      obtain ⟨rfl, later⟩ := List.cons.inj split
      simp only [List.forall_mem_cons] at fitting
      have same := strictly_readBlock lax (by rw [read]; rintro _ ⟨⟩; exact fitting.1)
      obtain ⟨hd, ho, hc⟩ := ih lax pre later fitting.2
      rw [tour_of_block (strictly_unfinished unfinished) (same.trans read), moved_strictly]
      refine ⟨congrArg (List.cons _) hd, ?_, hc⟩
      rw [List.length_cons, Nat.add_comm pre.length, ← Nat.add_assoc]
      exact ho

theorem consumed_eq_of_strict (unfinished : walk.finished = false)
    (strict : walk.policy.boundary = .strict) (low : walk.cursor.reach < Reader.maxOffset) :
    ∀ d ∈ walk.tour.deliveries, d.block.consumed = d.block.declared := by
  refine tour_induction (P := fun walk tour => walk.policy.boundary = .strict →
    walk.cursor.reach < Reader.maxOffset →
    ∀ d ∈ tour.deliveries, d.block.consumed = d.block.declared) ?_ ?_ ?_ walk unfinished strict low
  · intros; contradiction
  · intros; contradiction
  · intro walk c events block unfinished read ih strict low
    have reach := readBlock_keeps (Cursor.reach_kept walk.cursor.reach) read rfl
    have lengths := @Reader.consumed_eq_of_block walk.nextIndex walk.cursor block low
    unfold readBlock at read
    rw [strict] at read
    refine List.forall_mem_cons.2 ⟨lengths (by rw [read]), ?_⟩
    exact ih strict (reach ▸ low)

theorem start_strict (version : Int) (source : Source) :
    start ⟨version, .strict⟩ source =
      { start ⟨version, .lax⟩ source with
        result := (start ⟨version, .lax⟩ source).result.map strictly } := by
  have same : acceptedHeader ⟨version, .strict⟩ = acceptedHeader ⟨version, .lax⟩ := rfl
  unfold start
  rw [same]
  obtain ⟨result, c, events⟩ := (acceptedHeader ⟨version, .lax⟩).run { source }
  cases result with
  | error e => rfl
  | ok header => rfl

end Disassembly

-- ---------------------------------------------------------------------------
-- Files
-- ---------------------------------------------------------------------------

namespace Reading

open Disassembly (start)

variable {version : Int} {source : Source}

theorem boundary_cases (version : Int) (source : Source) :
    (ofSource ⟨version, .strict⟩ source = ofSource ⟨version, .lax⟩ source ∧
      (ofSource ⟨version, .lax⟩ source).deliveries = []) ∨
    ∃ walk c events, start ⟨version, .lax⟩ source = ⟨.ok walk, c, events⟩ ∧
      start ⟨version, .strict⟩ source = ⟨.ok walk.strictly, c, events⟩ ∧
      walk = { policy := ⟨version, .lax⟩, header := walk.header, cursor := c } := by
  have strict := Disassembly.start_strict version source
  match lax : start ⟨version, .lax⟩ source with
  | ⟨.error e, c, events⟩ =>
    rw [lax] at strict
    exact .inl ⟨(ofSource_of_start_error strict).trans (ofSource_of_start_error lax).symm,
      by rw [ofSource_of_start_error lax]⟩
  | ⟨.ok walk, c, events⟩ =>
    rw [lax] at strict
    exact .inr ⟨walk, c, events, rfl, strict, Disassembly.eq_of_start lax⟩

theorem strict_eq_lax
    (fitting : ∀ d ∈ (ofSource ⟨version, .lax⟩ source).deliveries, d.block.overrun = 0) :
    ofSource ⟨version, .strict⟩ source = ofSource ⟨version, .lax⟩ source := by
  rcases boundary_cases version source with ⟨same, -⟩ | ⟨walk, c, events, lax, strict, fresh⟩
  · exact same
  · rw [ofSource_of_start lax] at fitting
    obtain ⟨hd, ho, hc, he⟩ :=
      Disassembly.strictly_tour (by rw [fresh]) (by rw [fresh]) fitting
    rw [ofSource_of_start strict, ofSource_of_start lax, hd, ho, hc, he]
    rfl

theorem strict_of_overrun {pre post : List Delivery} {d : Delivery}
    (split : (ofSource ⟨version, .lax⟩ source).deliveries = pre ++ d :: post)
    (fitting : ∀ x ∈ pre, x.block.overrun = 0) (overran : 0 < d.block.overrun) :
    let strict := ofSource ⟨version, .strict⟩ source
    strict.opening = (ofSource ⟨version, .lax⟩ source).opening ∧ strict.deliveries = pre ∧
      strict.outcome =
        .error (.blockOverrun pre.length d.block.declared d.block.consumed) ∧
      strict.cursor = d.cursor := by
  rcases boundary_cases version source with ⟨-, none⟩ | ⟨walk, c, events, lax, strict, fresh⟩
  · simp [none] at split
  · rw [ofSource_of_start lax] at split
    obtain ⟨hd, ho, hc⟩ :=
      Disassembly.strictly_tour_of_overrun (by rw [fresh]) (by rw [fresh]) split fitting overran
    have first : walk.nextIndex = 0 := by rw [fresh]
    rw [first, Nat.zero_add] at ho
    rw [ofSource_of_start strict, ofSource_of_start lax]
    exact ⟨rfl, hd, ho, hc⟩

theorem consumed_eq_declared (short : source.bytes.length < Reader.maxOffset) :
    ∀ b ∈ (ofSource ⟨version, .strict⟩ source).blocks, b.consumed = b.declared := by
  match started : start ⟨version, .strict⟩ source with
  | ⟨.error e, c, events⟩ =>
    rw [ofSource_of_start_error started]
    simp [blocks]
  | ⟨.ok walk, c, events⟩ =>
    have fresh := Disassembly.eq_of_start started
    have reach : walk.cursor.reach = source.bytes.length := by
      rw [fresh]
      exact Disassembly.start_keeps (Cursor.reach_kept _) started (Cursor.reach_of_source source)
    have low : walk.cursor.reach < Reader.maxOffset := reach ▸ short
    have lengths := Disassembly.consumed_eq_of_strict (by rw [fresh]) (by rw [fresh]) low
    rw [ofSource_of_start started]
    simpa [blocks] using lengths

theorem fitting_of_strict (ended : (ofSource ⟨version, .strict⟩ source).outcome = .ok ()) :
    ∀ d ∈ (ofSource ⟨version, .lax⟩ source).deliveries, d.block.overrun = 0 := by
  cases found : (ofSource ⟨version, .lax⟩ source).deliveries.find? (0 < ·.block.overrun) with
  | none => simpa using found
  | some d =>
    obtain ⟨overran, pre, post, split, fitting⟩ := List.find?_eq_some_iff_append.1 found
    obtain ⟨-, -, failed, -⟩ :=
      strict_of_overrun split (by simpa using fitting) (by simpa using overran)
    rw [failed] at ended
    cases ended

end Reading

/-- Strict reading is lax reading up to the first block that overruns, whatever the source
does in between. Where there is none the two come to the same, and so do their listings. A
block that strict reading gives has the length that it declares. -/
theorem strict_reading_cut_at_overrun (version : Int) {source : Source}
    (short : source.bytes.length < Reader.maxOffset) :
    let lax := Reading.ofSource ⟨version, .lax⟩ source
    let strict := Reading.ofSource ⟨version, .strict⟩ source
    ((∀ b ∈ lax.blocks, b.overrun = 0) → strict = lax) ∧
    (∀ pre d post, lax.deliveries = pre ++ d :: post → (∀ x ∈ pre, x.block.overrun = 0) →
      0 < d.block.overrun →
      strict.opening = lax.opening ∧ strict.deliveries = pre ∧
        strict.outcome =
          .error (.blockOverrun pre.length d.block.declared d.block.consumed) ∧
        strict.cursor = d.cursor) ∧
    (∀ walk, (Disassembly.start ⟨version, .strict⟩ source).result = .ok walk →
      walk.tour.last.advance = ⟨.ok none, walk.tour.last, []⟩) ∧
    (strict.outcome = .ok () → lax = strict ∧ ∀ file sink,
      disassemble source file ⟨version, .lax⟩ sink =
        disassemble source file ⟨version, .strict⟩ sink) ∧
    ∀ b ∈ strict.blocks, b.consumed = b.declared := by
  intro lax strict
  refine ⟨?_, ?_, ?_, ?_, Reading.consumed_eq_declared short⟩
  · intro fitting
    exact Reading.strict_eq_lax (by simpa [lax, Reading.blocks] using fitting)
  · intro pre d post split fitting overran
    exact Reading.strict_of_overrun split fitting overran
  · intro walk _
    exact walk.advance_tour_last
  · intro ended
    have same := Reading.strict_eq_lax (Reading.fitting_of_strict ended)
    refine ⟨same.symm, fun file sink => ?_⟩
    rw [disassemble_eq_report, disassemble_eq_report, same]

/-- The second of three blocks declares one byte and takes two. -/
theorem strict_reading_cut_at_second_block :
    let data : List UInt8 :=
      [0, 0xE8, 0x03, 0, 0, 0x2E, 0, 2, 0, 0, 0, 0, 0, 0, 0, 0x04, 0x01,
        1, 0, 0, 0, 0, 0, 0, 0, 0x04, 0x01, 0, 0, 0, 0, 0, 0, 0, 0]
    let strict := Reading.ofSource ⟨1000, .strict⟩ (.ofBytes data)
    (Source.ofBytes data).bytes.length < Reader.maxOffset ∧
      strict.deliveries.map (·.block.index) = [0] ∧
      strict.outcome = .error (.blockOverrun 1 1 2) ∧ strict.position = 27 := by
  intro data strict
  let whole : SpelledBlock :=
    ⟨[2, 0, 0, 0, 0, 0, 0, 0], rfl, [⟨.getl, [.register .ptr], rfl⟩]⟩
  let overran : SpelledBlock :=
    ⟨[1, 0, 0, 0, 0, 0, 0, 0], rfl, [⟨.getl, [.register .ptr], rfl⟩]⟩
  let empty : SpelledBlock := ⟨[0, 0, 0, 0, 0, 0, 0, 0], rfl, []⟩
  let file : SpelledFile :=
    ⟨⟨⟨0, [0xE8, 0x03, 0, 0], rfl⟩, [], 0⟩, [whole, overran, empty]⟩
  have fits : file.Fits ⟨1000, .lax⟩ :=
    ⟨by decide, by simp [file, whole, overran, empty, SpelledBlock.Fits]; decide⟩
  have lax := Reading.ofSource_spelled fits (by decide)
  have cut := (@strict_reading_cut_at_overrun 1000 (.ofBytes data) (by decide)).2.1
  have spelled : data = file.bytes := rfl
  rw [← spelled] at lax
  rw [lax] at cut
  obtain ⟨-, hd, ho, hc⟩ := cut [_] _ [_] rfl (by decide) (by decide)
  exact ⟨by decide, congrArg (List.map (·.block.index)) hd, ho, congrArg Cursor.position hc⟩

end Latitude
