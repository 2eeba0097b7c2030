import Latitude.Proofs.BlockAccounts

/-!
# The log

The events of a reading tell what has been decoded and nothing else: the header, the length
of every block that has been read, every instruction behind it with its offset, and that a
block has run past its length. They stop where the decoding does, also within a block.
-/

namespace Latitude

open Reader (lengthWidth)

-- ---------------------------------------------------------------------------
-- Readings
-- ---------------------------------------------------------------------------

/-- In a delivery that overruns, the warning stands right behind the last instruction. -/
def Delivery.Warned (d : Delivery) : Prop :=
  ∃ front last op, d.events = front ++
    [.instructionDecoded last op op.signature.length,
      .blockOverran d.block.index d.block.declared d.block.consumed]

namespace Disassembly

/-- The tour of a walk, by the blocks that are spelled from where it stands: up to some cursor
there are those that are given, and from there on is what has been read for nothing. -/
theorem tour_accounts (walk : Disassembly) (unfinished : walk.finished = false) :
    ∃ (bs : List SpelledBlock) (c : Cursor),
      walk.cursor.Took (bs.flatMap SpelledBlock.bytes) c ∧
      walk.tour.blocks = SpelledBlock.blocksFrom bs walk.nextIndex walk.position ∧
      told (walk.tour.deliveries.flatMap Delivery.events) =
        SpelledBlock.logFrom bs walk.nextIndex walk.position ∧
      (∀ d ∈ walk.tour.deliveries, 0 < d.block.overrun →
        walk.policy.boundary = .lax ∧ d.Warned) ∧
      Reader.BreaksOff (walk.nextIndex + bs.length) c walk.tour.last.cursor walk.tour.events := by
  refine tour_induction (P := fun walk tour => ∃ (bs : List SpelledBlock) (c : Cursor),
    walk.cursor.Took (bs.flatMap SpelledBlock.bytes) c ∧
    tour.blocks = SpelledBlock.blocksFrom bs walk.nextIndex walk.position ∧
    told (tour.deliveries.flatMap Delivery.events) =
      SpelledBlock.logFrom bs walk.nextIndex walk.position ∧
    (∀ d ∈ tour.deliveries, 0 < d.block.overrun → walk.policy.boundary = .lax ∧ d.Warned) ∧
    Reader.BreaksOff (walk.nextIndex + bs.length) c tour.last.cursor tour.events)
    ?_ ?_ ?_ walk unfinished
  · intro walk c events _ read
    exact ⟨[], walk.cursor, .refl _, rfl, rfl, nofun,
      Reader.block_accounts_other read fun _ h => nomatch h⟩
  · intro walk c events e _ read
    exact ⟨[], walk.cursor, .refl _, rfl, rfl, nofun,
      Reader.block_accounts_other read fun _ h => nomatch h⟩
  · intro walk c events block _ read ih
    obtain ⟨s, took, rfl, rfl, lax⟩ := Reader.block_accounts_some read
    obtain ⟨bs, c', took', blocks, log, warned, breaksOff⟩ := ih
    have moved : (walk.moved c).position = walk.position + s.bytes.length := took.position
    have counted : (walk.moved c).nextIndex = walk.nextIndex + 1 := rfl
    rw [moved, counted] at blocks log
    rw [counted, Nat.add_assoc, Nat.add_comm 1] at breaksOff
    refine ⟨s :: bs, c', took.trans took', ?_, ?_, ?_, breaksOff⟩
    · rw [Tour.blocks_cons, blocks]
      rfl
    · rw [Tour.deliveries_cons, List.flatMap_cons, told_append, log, s.told_events]
      rfl
    · refine List.forall_mem_cons.2 ⟨fun overran => ⟨lax overran, ?_⟩, warned⟩
      exact SpelledBlock.events_of_overrun overran

end Disassembly

theorem Reader.header_accounts_ok {h : Header} {c c' : Cursor} {events : List Event}
    (run : Reader.header.run c = ⟨.ok h, c', events⟩) :
    ∃ s : SpelledHeader, c.Took s.bytes c' ∧ h = s.header ∧ events = s.events c.position := by
  obtain ⟨w, took, takes⟩ := header_plain.accounts_ok run
  obtain ⟨s, rest, split⟩ := spelled_header (congrArg Step.result (takes []))
  rw [List.append_nil] at split
  obtain ⟨rfl, given, told⟩ := takes.eq_of_takes (takes_header s c.position) split
  cases given
  exact ⟨s, took, rfl, told⟩

theorem Disassembly.start_of_header_error {source : Source} {e : ReadError} {c : Cursor}
    {events : List Event} (read : Reader.header.run { source } = ⟨.error e, c, events⟩)
    (policy : Policy) : start policy source = ⟨.error e, c, events⟩ := by
  simp [start, acceptedHeader, Action.run_bind, read, Except.map]

theorem Disassembly.start_of_header {source : Source} {h : Header} {c : Cursor}
    {events : List Event} (read : Reader.header.run { source } = ⟨.ok h, c, events⟩)
    (policy : Policy) :
    start policy source =
      ⟨if h.version = policy.expectedVersion then .ok { policy, header := h, cursor := c }
        else .error (.versionMismatch policy.expectedVersion h.version), c, events⟩ := by
  by_cases version : h.version = policy.expectedVersion
  · simp [start, acceptedHeader, Action.run_bind, Action.run_pure, read, version, Except.map,
      Step.after]
  · simp [start, acceptedHeader, Action.run_bind, Action.fail, read, version, Except.map,
      Step.after]

theorem Reading.accounts {source : Source} {h : Header} {c : Cursor} {events : List Event}
    (read : Reader.header.run { source } = ⟨.ok h, c, events⟩) (policy : Policy) :
    let reading := ofSource policy source
    reading.opening.events = events ∧
    (∀ d ∈ reading.deliveries, 0 < d.block.overrun → policy.boundary = .lax ∧ d.Warned) ∧
    ∃ (bs : List SpelledBlock) (c' : Cursor), c.Took (bs.flatMap SpelledBlock.bytes) c' ∧
      reading.blocks = SpelledBlock.blocksFrom bs 0 c.position ∧
      told (reading.deliveries.flatMap Delivery.events) =
        SpelledBlock.logFrom bs 0 c.position ∧
      Reader.BreaksOff bs.length c' reading.cursor reading.events := by
  intro reading
  have start := Disassembly.start_of_header read policy
  by_cases version : h.version = policy.expectedVersion
  · rw [if_pos version] at start
    obtain ⟨bs, c', took, blocks, log, warned, breaksOff⟩ :=
      Disassembly.tour_accounts { policy, header := h, cursor := c } rfl
    rw [Nat.zero_add] at breaksOff
    dsimp only [reading]
    rw [ofSource_of_start start]
    exact ⟨rfl, warned, bs, c', took, blocks, log, breaksOff⟩
  · rw [if_neg version] at start
    dsimp only [reading]
    rw [ofSource_of_start_error start]
    exact ⟨rfl, nofun, [], c, .refl c, rfl, rfl, .length [] (.refl c) (by decide) rfl⟩

/-- What a reading tells of is what it has decoded. Without a header that is nothing. With one,
also if it is of another version, it is the header; then block after block its length and its
instructions, each with its offset; and last what was decoded of a block that could not be
given, if its length is there in full: all its instructions but the one that breaks off. A block
that runs past its length is given only if that is allowed, and then there is a warning right
behind its last instruction. -/
theorem log_accounts_for_reading (policy : Policy) (source : Source) :
    let reading := Reading.ofSource policy source
    let opened := (Reader.header.run { source }).result
    ((∃ e, opened = .error e ∧ told reading.allEvents = []) ∨
      ∃ (head : SpelledHeader) (bs : List SpelledBlock) (x rest : List UInt8) (tail : List Event),
        opened = .ok head.header ∧
        source.bytes = head.bytes ++ bs.flatMap SpelledBlock.bytes ++ x ++ rest ∧
        reading.position = (head.bytes ++ bs.flatMap SpelledBlock.bytes ++ x).length ∧
        reading.blocks = SpelledBlock.blocksFrom bs 0 head.bytes.length ∧
        told reading.allEvents = .headerDecoded head.header ::
          (SpelledBlock.logFrom bs 0 head.bytes.length ++ tail) ∧
        ((x.length < lengthWidth ∧ tail = []) ∨
          ∃ (s : SpelledBlock) (cut : List UInt8), x = s.bytes ++ cut ∧ Reader.CutOff cut ∧
            tail = s.log bs.length (head.bytes ++ bs.flatMap SpelledBlock.bytes).length)) ∧
    ∀ d ∈ reading.deliveries, 0 < d.block.overrun → policy.boundary = .lax ∧ d.Warned := by
  intro reading opened
  match read : Reader.header.run { source } with
  | ⟨.error e, c, events⟩ =>
    have quiet := Reader.header_failsQuietly { source } e (by rw [read])
    have same : reading = _ :=
      Reading.ofSource_of_start_error (Disassembly.start_of_header_error read policy)
    rw [read] at quiet
    rw [same]
    refine ⟨.inl ⟨e, by simp only [opened, read], ?_⟩, nofun⟩
    simpa [Reading.allEvents] using quiet
  | ⟨.ok h, c, events⟩ =>
    obtain ⟨first, warned, bs, c', took', blocks, log, breaksOff⟩ :=
      Reading.accounts read policy
    obtain ⟨head, took, rfl, rfl⟩ := Reader.header_accounts_ok read
    have begin : c.position = head.bytes.length := took.position.trans (Nat.zero_add _)
    have all : told reading.allEvents = .headerDecoded head.header ::
        (SpelledBlock.logFrom bs 0 head.bytes.length ++ told reading.events) := by
      rw [Reading.allEvents, told_append, told_append, first, head.told_events, log, begin]
      rfl
    rw [begin] at blocks
    -- What is read behind the last block is what the call that gave none has read.
    obtain ⟨x, took'', last⟩ : ∃ x, c'.Took x reading.cursor ∧
        ((x.length < lengthWidth ∧ told reading.events = []) ∨
          ∃ (s : SpelledBlock) (cut : List UInt8), x = s.bytes ++ cut ∧ Reader.CutOff cut ∧
            told reading.events = s.log bs.length c'.position) := by
      cases breaksOff with
      | length w took short quiet => exact ⟨w, took, .inl ⟨short, quiet⟩⟩
      | body s cut took cutOff told => exact ⟨_, took, .inr ⟨s, cut, rfl, cutOff, told⟩⟩
    have edge := took.trans took'
    have position : c'.position = (head.bytes ++ bs.flatMap SpelledBlock.bytes).length :=
      edge.position.trans (Nat.zero_add _)
    have whole := edge.trans took''
    rw [position] at last
    exact ⟨.inr ⟨head, bs, x, reading.cursor.source.bytes, told reading.events,
      by simp only [opened, read], whole.bytes, whole.position.trans (Nat.zero_add _), blocks, all,
      last⟩, warned⟩

/-- A block of two bytes that declares one, and a block that breaks off in its second
instruction. -/
theorem log_accounts_for_reading_overrunning :
    let data : List UInt8 :=
      [0, 0xE8, 0x03, 0, 0, 0x2E, 0, 1, 0, 0, 0, 0, 0, 0, 0, 0x04, 0x01,
        3, 0, 0, 0, 0, 0, 0, 0, 0x04, 0x01, 0x99]
    let reading := Reading.ofSource {} (.ofBytes data)
    told reading.allEvents =
      [.headerDecoded { version := 1000 }, .blockStarted 0 7 1, .instructionDecoded 15 .getl 1,
        .blockOverran 0 1 2, .blockStarted 1 17 3, .instructionDecoded 25 .getl 1] ∧
    ∃ d ∈ reading.deliveries, 0 < d.block.overrun ∧ d.Warned := by
  intro data reading
  let header : Header := { version := 1000 }
  let walk : Disassembly := { policy := {}, header, cursor := .over (data.drop 7) 7 }
  let block : Block := ⟨0, 7, 1, 2, [⟨.getl, [.register .ptr], rfl⟩]⟩
  let events : List Event :=
    [.blockStarted 0 7 1, .instructionDecoded 15 .getl 1, .blockOverran 0 1 2]
  have started : Disassembly.start {} (.ofBytes data) =
      ⟨.ok walk, .over (data.drop 7) 7, [.headerDecoded header]⟩ := by cbv
  have first : walk.readBlock = ⟨.ok (some block), .over (data.drop 17) 17, events⟩ := by cbv
  have second : (walk.moved (.over (data.drop 17) 17)).readBlock =
      ⟨.error (.unknownOpcode 0x99 27), .over [] 28,
        [.blockStarted 1 17 3, .instructionDecoded 25 .getl 1]⟩ := by cbv
  have same : reading = _ := Reading.ofSource_of_start started
  rw [Disassembly.tour_of_block rfl first, Disassembly.tour_of_error rfl second] at same
  have given : ⟨block, .over (data.drop 17) 17, events⟩ ∈ reading.deliveries := by
    rw [same]
    exact .head _
  have overran : 0 < block.overrun := by decide
  have warned := (log_accounts_for_reading {} (.ofBytes data)).2 _ given overran
  refine ⟨?_, _, given, overran, warned.2⟩
  rw [same]
  decide

end Latitude
