import Latitude.Proofs.Recognition
import Latitude.Proofs.Tour
import Latitude.Proofs.Unambiguity

/-!
# The files that are accepted

A file is read to its end exactly when it is spelled: a header of the expected version and
blocks that fit the boundary. The bytes settle how it is spelled, and with it the header
and the blocks.
-/

namespace Latitude

-- ---------------------------------------------------------------------------
-- Bytes of operations and registers
-- ---------------------------------------------------------------------------

theorem exists_toByte_iff_of_table {α : Type} {toByte : α → UInt8} (all : List α) {top : Nat}
    (below : ∀ a, 0 < (toByte a).toNat ∧ (toByte a).toNat ≤ top)
    (found : ∀ n < top, ∃ a ∈ all, (toByte a).toNat = n + 1) (b : UInt8) :
    (∃ a, toByte a = b) ↔ 0 < b.toNat ∧ b.toNat ≤ top := by
  constructor
  · rintro ⟨a, rfl⟩
    exact below a
  · rintro ⟨pos, le⟩
    obtain ⟨a, -, ha⟩ := found (b.toNat - 1) (by omega)
    exact ⟨a, UInt8.toNat_inj.1 (by omega)⟩

theorem Opcode.exists_toByte_iff (b : UInt8) :
    (∃ op : Opcode, op.toByte = b) ↔ 0 < b.toNat ∧ b.toNat ≤ 0x36 :=
  exists_toByte_iff_of_table Opcode.all (by intro op; cases op <;> decide) (by decide) b

theorem Register.exists_toByte_iff (b : UInt8) :
    (∃ r : Register, r.toByte = b) ↔ 0 < b.toNat ∧ b.toNat ≤ 0x1E :=
  exists_toByte_iff_of_table Register.all (by intro r; cases r <;> decide) (by decide) b

theorem HeaderField.exists_toByte_iff (b : UInt8) :
    (∃ field : HeaderField, field.toByte = b) ↔ b = 0x4D ∨ b = 0x50 := by
  constructor
  · rintro ⟨field, rfl⟩
    cases field <;> simp [toByte]
  · rintro (rfl | rfl)
    · exact ⟨.moduleName, rfl⟩
    · exact ⟨.packageName, rfl⟩

-- ---------------------------------------------------------------------------
-- Blocks over bytes
-- ---------------------------------------------------------------------------

namespace Reader

variable {index p : Nat} {boundary : Boundary} {data : List UInt8}

theorem block_over_nil (index : Nat) (boundary : Boundary) (p : Nat) :
    (block index boundary).run (.over [] p) = ⟨.ok none, ⟨[], p⟩, []⟩ := rfl

theorem block_over {result : Except ReadError Block} {c : Cursor} {events : List Event}
    (h : data ≠ [])
    (run : (presentBlock index boundary).run (.over data p) = ⟨result, c, events⟩) :
    (block index boundary).run (.over data p) = ⟨result.map some, c, events⟩ := by
  cases data with
  | nil => exact absurd rfl h
  | cons b data =>
    have more : isExhausted.run (.over (b :: data) p) = ⟨.ok false, .over (b :: data) p, []⟩ := rfl
    rw [block_of_more more, foundBlock]
    cases result with
    | ok found => simp [Action.run_bind, Action.run_pure, run, Step.after, Except.map]
    | error e => simp [Action.run_bind, run, Except.map]

end Reader

namespace SpelledBlock

/-- What a walk gives of blocks one behind another, the first with the given index and
offset. -/
def deliveriesFrom : List SpelledBlock → Nat → Nat → List Delivery
  | [], _, _ => []
  | b :: bs, index, offset =>
    ⟨b.block index offset, .over (bs.flatMap bytes) (offset + b.bytes.length),
      b.events index offset⟩ :: deliveriesFrom bs (index + 1) (offset + b.bytes.length)

theorem map_block_deliveriesFrom (bs : List SpelledBlock) (index offset : Nat) :
    (deliveriesFrom bs index offset).map Delivery.block = blocksFrom bs index offset := by
  induction bs generalizing index offset with
  | nil => rfl
  | cons b bs ih => simp [deliveriesFrom, blocksFrom, ih]

end SpelledBlock

namespace Disassembly

theorem readBlock_over_nil {walk : Disassembly} {p : Nat} (cursor : walk.cursor = .over [] p) :
    walk.readBlock = ⟨.ok none, ⟨[], p⟩, []⟩ := by
  rw [readBlock, cursor]
  exact Reader.block_over_nil ..

theorem readBlock_over {walk : Disassembly} {data : List UInt8} {p : Nat}
    {result : Except ReadError Block} {c : Cursor} {events : List Event}
    (cursor : walk.cursor = .over data p) (h : data ≠ [])
    (run : (Reader.presentBlock walk.nextIndex walk.policy.boundary).run (.over data p) =
      ⟨result, c, events⟩) :
    walk.readBlock = ⟨result.map some, c, events⟩ := by
  rw [readBlock, cursor]
  exact Reader.block_over h run

theorem readBlock_over_cases {walk : Disassembly} {data : List UInt8} {p : Nat}
    (cursor : walk.cursor = .over data p) :
    (data = [] ∧ walk.readBlock = ⟨.ok none, ⟨[], p⟩, []⟩) ∨
      (data ≠ [] ∧ ∃ result c events,
        (Reader.presentBlock walk.nextIndex walk.policy.boundary).run (.over data p) =
          ⟨result, c, events⟩ ∧ walk.readBlock = ⟨result.map some, c, events⟩) := by
  cases data with
  | nil => exact .inl ⟨rfl, readBlock_over_nil cursor⟩
  | cons b data =>
    exact .inr ⟨by simp, _, _, _, rfl, readBlock_over cursor (by simp) rfl⟩

theorem tour_spelled {bs : List SpelledBlock} {walk : Disassembly} {p : Nat}
    (fits : ∀ b ∈ bs, b.Fits walk.policy.boundary) (unfinished : walk.finished = false)
    (cursor : walk.cursor = .over (bs.flatMap SpelledBlock.bytes) p)
    (low : p + (bs.flatMap SpelledBlock.bytes).length < Reader.maxOffset) :
    walk.tour.deliveries = SpelledBlock.deliveriesFrom bs walk.nextIndex p ∧
      walk.tour.outcome = .ok () ∧ walk.tour.events = [] ∧
      walk.tour.last.cursor = ⟨[], p + (bs.flatMap SpelledBlock.bytes).length⟩ := by
  induction bs generalizing walk p with
  | nil =>
    rw [tour_of_end unfinished (readBlock_over_nil cursor)]
    exact ⟨rfl, rfl, rfl, rfl⟩
  | cons b bs ih =>
    simp only [List.forall_mem_cons] at fits
    simp only [List.flatMap_cons, List.length_append] at cursor low ⊢
    have run := Reader.takes_presentBlock fits.1 walk.nextIndex (p := p) (by omega)
      (bs.flatMap SpelledBlock.bytes)
    have read := readBlock_over cursor (b.bytes_ne_nil _) run
    obtain ⟨hd, ho, he, hc⟩ :=
      @ih (walk.moved (.over (bs.flatMap SpelledBlock.bytes) (p + b.bytes.length)))
        (p + b.bytes.length) fits.2 unfinished rfl (by omega)
    rw [tour_of_block unfinished read]
    refine ⟨?_, ho, he, ?_⟩
    · rw [Tour.deliveries_cons, hd]
      rfl
    · rw [Tour.last_cons, hc, Nat.add_assoc]

theorem spelled_of_tour {walk : Disassembly} {data : List UInt8} {p : Nat}
    (unfinished : walk.finished = false) (cursor : walk.cursor = .over data p)
    (low : p + data.length < Reader.maxOffset) (done : walk.tour.outcome = .ok ()) :
    ∃ bs : List SpelledBlock, (∀ b ∈ bs, b.Fits walk.policy.boundary) ∧
      data = bs.flatMap SpelledBlock.bytes := by
  refine tour_induction (P := fun walk tour => ∀ data p, walk.cursor = .over data p →
      p + data.length < Reader.maxOffset → tour.outcome = .ok () →
      ∃ bs : List SpelledBlock, (∀ b ∈ bs, b.Fits walk.policy.boundary) ∧
        data = bs.flatMap SpelledBlock.bytes) ?_ ?_ ?_ walk unfinished data p cursor low done
  · intro walk c events _ read data p cursor _ _
    rcases readBlock_over_cases cursor with ⟨rfl, -⟩ | ⟨-, result, c', events', -, read'⟩
    · exact ⟨[], by simp, rfl⟩
    · cases result <;> rw [read'] at read <;> cases read
  · intro walk c events e _ _ data p _ _ done
    cases done
  · intro walk c events block _ read ih data p cursor low done
    rcases readBlock_over_cases cursor with ⟨rfl, read'⟩ | ⟨-, result, c', events', run, read'⟩
    · rw [read'] at read
      cases read
    · rw [read'] at read
      cases result with
      | error e => cases read
      | ok found =>
        cases read
        obtain ⟨b, rest, fits, rfl⟩ := Reader.spelled_presentBlock low (congrArg Step.result run)
        rw [List.length_append] at low
        rw [Reader.takes_presentBlock fits walk.nextIndex (by omega) rest] at run
        cases run
        obtain ⟨bs, others, rfl⟩ := ih rest (p + b.bytes.length) rfl (by omega) done
        exact ⟨b :: bs, List.forall_mem_cons.2 ⟨fits, others⟩, rfl⟩

def behind (h : SpelledHeader) (policy : Policy) (rest : List UInt8) : Disassembly where
  policy := policy
  header := h.header
  cursor := .over rest h.bytes.length

theorem takes_acceptedHeader {policy : Policy} {h : SpelledHeader}
    (version : h.version.value = policy.expectedVersion) (p : Nat) :
    Reader.Takes (acceptedHeader policy) p h.bytes (.ok h.header) (h.events p) := by
  refine (Reader.takes_header h p).bind_done ?_
  rw [if_pos (show h.header.version = policy.expectedVersion from version)]
  exact .pure _ _

theorem start_of_run {policy : Policy} {data : List UInt8} {result : Except ReadError Header}
    {c : Cursor} {events : List Event}
    (run : (acceptedHeader policy).run (.over data 0) = ⟨result, c, events⟩) :
    start policy (.ofBytes data) =
      ⟨result.map fun header => { policy, header, cursor := c }, c, events⟩ := by
  have opened : ({ source := .ofBytes data } : Cursor) = .over data 0 := rfl
  rw [start, opened, run]

theorem start_of_takes {policy : Policy} {w : List UInt8} {result : Except ReadError Header}
    {events : List Event} (takes : Reader.Takes (acceptedHeader policy) 0 w result events)
    (rest : List UInt8) :
    start policy (.ofBytes (w ++ rest)) =
      ⟨result.map fun header => { policy, header, cursor := .over rest w.length },
        .over rest w.length, events⟩ := by
  have run := takes rest
  rw [Nat.zero_add] at run
  exact start_of_run run

theorem start_spelled {policy : Policy} {h : SpelledHeader}
    (version : h.version.value = policy.expectedVersion) (rest : List UInt8) :
    start policy (.ofBytes (h.bytes ++ rest)) =
      ⟨.ok (behind h policy rest), .over rest h.bytes.length, h.events 0⟩ :=
  start_of_takes (takes_acceptedHeader version 0) rest

theorem spelled_of_start {policy : Policy} {data : List UInt8} {walk : Disassembly}
    (h : (start policy (.ofBytes data)).result = .ok walk) :
    ∃ (s : SpelledHeader) (rest : List UInt8),
      s.version.value = policy.expectedVersion ∧ data = s.bytes ++ rest := by
  obtain ⟨result, c, events, run⟩ :
      ∃ result c events, (acceptedHeader policy).run (.over data 0) = ⟨result, c, events⟩ :=
    ⟨_, _, _, rfl⟩
  rw [start_of_run run] at h
  cases result with
  | error e => cases h
  | ok header =>
    have accepted := congrArg Step.result run
    obtain ⟨_, read, -⟩ := Reader.result_bind_ok accepted
    obtain ⟨s, rest, rfl⟩ := Reader.spelled_header read
    refine ⟨s, rest, ?_, rfl⟩
    have checked := (Reader.takes_header s 0).ok_of_bind rest accepted
    split at checked
    · assumption
    · cases checked

theorem tour_behind {h : SpelledHeader} {policy : Policy} {bs : List SpelledBlock}
    (fits : ∀ b ∈ bs, b.Fits policy.boundary)
    (low : h.bytes.length + (bs.flatMap SpelledBlock.bytes).length < Reader.maxOffset) :
    let tour := (behind h policy (bs.flatMap SpelledBlock.bytes)).tour
    tour.deliveries = SpelledBlock.deliveriesFrom bs 0 h.bytes.length ∧ tour.outcome = .ok () ∧
      tour.events = [] ∧
      tour.last.cursor = ⟨[], h.bytes.length + (bs.flatMap SpelledBlock.bytes).length⟩ :=
  tour_spelled fits rfl rfl low

end Disassembly

-- ---------------------------------------------------------------------------
-- Files
-- ---------------------------------------------------------------------------

theorem Reading.ofSource_spelled {policy : Policy} {file : SpelledFile} (fits : file.Fits policy)
    (low : file.bytes.length < Reader.maxOffset) :
    Reading.ofSource policy (.ofBytes file.bytes) =
      { opening := ⟨.ok file.header.header,
          .over (file.blocks.flatMap SpelledBlock.bytes) file.header.bytes.length,
          file.header.events 0⟩
        deliveries := SpelledBlock.deliveriesFrom file.blocks 0 file.header.bytes.length
        outcome := .ok ()
        cursor := ⟨[], file.bytes.length⟩
        events := [] } := by
  obtain ⟨version, blocks⟩ := fits
  rw [SpelledFile.bytes, List.length_append] at low ⊢
  obtain ⟨hd, ho, he, hc⟩ := Disassembly.tour_behind blocks low
  rw [ofSource_of_start (Disassembly.start_spelled version _), hd, ho, he, hc]
  rfl

/-- The header is accepted, and the blocks are all collected. -/
def Accepts (policy : Policy) (data : List UInt8) (header : Header) (blocks : List Block) : Prop :=
  ∃ walk, (Disassembly.start policy (.ofBytes data)).result = .ok walk ∧ walk.header = header ∧
    (Disassembly.collect.run walk).result = .ok blocks

theorem Reading.of_accepts {policy : Policy} {data : List UInt8} {header : Header}
    {blocks : List Block} (h : Accepts policy data header blocks) :
    let reading := ofSource policy (.ofBytes data)
    reading.opening.result = .ok header ∧ reading.blocks = blocks ∧ reading.outcome = .ok () := by
  obtain ⟨walk, started, rfl, collected⟩ := h
  rw [Disassembly.collect_run] at collected
  match opened : Disassembly.start policy (.ofBytes data) with
  | ⟨.error e, c, events⟩ => simp [opened] at started
  | ⟨.ok walk', c, events⟩ =>
    obtain rfl : walk' = walk := by simpa [opened] using started
    rw [ofSource_of_start opened]
    cases outcome : walk'.tour.outcome with
    | error e => simp [outcome, Except.map] at collected
    | ok =>
      simp only [outcome, Except.map, Except.ok.injEq] at collected
      exact ⟨rfl, collected, rfl⟩

theorem accepts_of_spelled {policy : Policy} {file : SpelledFile} (fits : file.Fits policy)
    (low : file.bytes.length < Reader.maxOffset) :
    Accepts policy file.bytes file.header.header file.readBlocks := by
  obtain ⟨version, blocks⟩ := fits
  rw [SpelledFile.bytes] at low ⊢
  rw [List.length_append] at low
  have started := Disassembly.start_spelled version (file.blocks.flatMap SpelledBlock.bytes)
  refine ⟨_, by rw [started], rfl, ?_⟩
  obtain ⟨hd, ho, -, -⟩ := Disassembly.tour_behind blocks low
  rw [Disassembly.collect_run, ho, Tour.blocks, hd, SpelledBlock.map_block_deliveriesFrom]
  rfl

theorem spelled_of_accepts {policy : Policy} {data : List UInt8} {header : Header}
    {blocks : List Block} (low : data.length < Reader.maxOffset)
    (h : Accepts policy data header blocks) :
    ∃ file : SpelledFile, file.Fits policy ∧ file.bytes = data ∧ file.header.header = header ∧
      file.readBlocks = blocks := by
  obtain ⟨walk, started, rfl, collected⟩ := h
  obtain ⟨s, rest, version, rfl⟩ := Disassembly.spelled_of_start started
  rw [Disassembly.start_spelled version rest] at started
  cases started
  rw [List.length_append] at low
  have done : (Disassembly.behind s policy rest).tour.outcome = .ok () := by
    rw [Disassembly.collect_run] at collected
    cases outcome : (Disassembly.behind s policy rest).tour.outcome with
    | ok => rfl
    | error e => simp [outcome, Except.map] at collected
  obtain ⟨bs, fits, rfl⟩ := Disassembly.spelled_of_tour rfl rfl low done
  refine ⟨⟨s, bs⟩, ⟨version, fits⟩, rfl, rfl, ?_⟩
  obtain ⟨hd, -, -, -⟩ := @Disassembly.tour_behind s policy bs fits low
  rw [Disassembly.collect_run, done, Tour.blocks, hd, SpelledBlock.map_block_deliveriesFrom]
    at collected
  cases collected
  rfl

/-- A file is accepted, with a header and blocks, exactly when it is spelled with them; there
is one way to spell it. The bytes of operations, registers and fields are those of the
tables. -/
theorem accepts_iff_spelled (policy : Policy) {data : List UInt8}
    (short : data.length < Reader.maxOffset) :
    (∀ header blocks, Accepts policy data header blocks ↔
      ∃ file : SpelledFile, file.Fits policy ∧ file.bytes = data ∧
        file.header.header = header ∧ file.readBlocks = blocks) ∧
    (∀ f g : SpelledFile, f.Fits policy → g.Fits policy →
      f.bytes = data → g.bytes = data → f = g) ∧
    (∀ b : UInt8, (∃ op : Opcode, op.toByte = b) ↔ 0 < b.toNat ∧ b.toNat ≤ 0x36) ∧
    (∀ b : UInt8, (∃ r : Register, r.toByte = b) ↔ 0 < b.toNat ∧ b.toNat ≤ 0x1E) ∧
    (∀ b : UInt8, (∃ field : HeaderField, field.toByte = b) ↔ b = 0x4D ∨ b = 0x50) := by
  refine ⟨fun header blocks => ⟨spelled_of_accepts short, ?_⟩, ?_, Opcode.exists_toByte_iff,
    Register.exists_toByte_iff, HeaderField.exists_toByte_iff⟩
  · rintro ⟨file, fits, rfl, rfl, rfl⟩
    exact accepts_of_spelled fits short
  · intro f g hf hg bf bg
    exact SpelledFile.unique hf hg (bf.trans bg.symm)

/-- A name with a dropped byte in it, and a block that declares one byte and takes two. -/
theorem accepts_iff_spelled_overrunning :
    let data : List UInt8 :=
      [0, 0xE8, 0x03, 0, 0, 0x4D, 0x24, 0x61, 0, 0x41, 0x62, 0, 0, 0x2E, 0xFF,
        1, 0, 0, 0, 0, 0, 0, 0, 0x04, 0x01]
    data.length < Reader.maxOffset ∧
      Accepts { expectedVersion := 1000, boundary := .lax } data
        { version := 1000, moduleName := some "ab" }
        [{ index := 0, offset := 15, declared := 1, consumed := 2,
           instructions := [⟨.getl, [.register .ptr], rfl⟩] }] := by
  refine ⟨by decide, ((accepts_iff_spelled _ (by decide)).1 _ _).2 ⟨?file, ?_, ?_, ?_, ?_⟩⟩
  case file =>
    exact
      { header :=
          { version := ⟨0, [0xE8, 0x03, 0, 0], rfl⟩
            fields := [⟨.moduleName,
              [.plain 0x61 (by decide), .dropped 0x41 (by decide) (by decide),
                .plain 0x62 (by decide)], "ab", by decide⟩]
            last := 0xFF }
        blocks := [⟨[1, 0, 0, 0, 0, 0, 0, 0], rfl, [⟨.getl, [.register .ptr], rfl⟩]⟩] }
  · exact ⟨by decide, by simp [SpelledBlock.Fits]; decide⟩
  all_goals decide

end Latitude
