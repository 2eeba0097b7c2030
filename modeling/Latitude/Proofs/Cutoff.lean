import Latitude.Proofs.Language
import Latitude.Proofs.Rendering

/-!
# Sources that are cut off

A source can stop giving bytes ahead of its last segment: at an end that it reports, or at
a failure that does not ask to try again. The bytes in front of such a cutoff are read as if
nothing followed. Only where they run out does the cutoff show, and then nothing behind it
is touched.

A failure shows in one of two ways: where a byte of a header or a block is missing, and
where the next block is looked for. An end reported as a failure is a truncation in the
first place and a failure in the second.
-/

namespace Latitude

/-- Where a source stops giving bytes. -/
inductive Cutoff
  | endOfFile
  | failure (fault : Fault) (hard : fault.kind ≠ .interrupted)

namespace Cutoff

def segment : Cutoff → Segment
  | .endOfFile => .endOfFile
  | .failure fault _ => .fault fault

def missing (cut : Cutoff) (offset : Nat) : ReadError :=
  match cut with
  | .endOfFile => .endOfStream offset
  | .failure fault _ =>
    if fault.kind = .unexpectedEof then .endOfStream offset else .io fault.reason

/-- What becomes of an error on bytes with the cut behind them. -/
def instead (cut : Cutoff) : ReadError → ReadError
  | .endOfStream offset => cut.missing offset
  | e => e

def between : Cutoff → Except ReadError Unit
  | .endOfFile => .ok ()
  | .failure fault _ => .error (.io fault.reason)

/-- What becomes of the outcome of a reading of bytes with the cut behind them. -/
def closing (cut : Cutoff) : Except ReadError Unit → Except ReadError Unit
  | .ok () => cut.between
  | .error e => .error (cut.instead e)

theorem instead_of_not_truncation (cut : Cutoff) {e : ReadError} (h : e.isTruncation = false) :
    cut.instead e = e := by
  cases e with
  | endOfStream => cases h
  | _ => rfl

theorem instead_endOfFile (e : ReadError) : endOfFile.instead e = e := by
  cases e <;> rfl

theorem closing_endOfFile (outcome : Except ReadError Unit) :
    endOfFile.closing outcome = outcome := by
  cases outcome with
  | ok => rfl
  | error e => exact congrArg Except.error (instead_endOfFile e)

end Cutoff

-- ---------------------------------------------------------------------------
-- Plain readers
-- ---------------------------------------------------------------------------

variable {cut : Cutoff} {post : Source}

/-- The cursor with the cut, and `post` behind it, at the end of what it holds. A cursor that
holds nothing has met the cut. -/
def Cursor.before (cut : Cutoff) (post : Source) (c : Cursor) : Cursor :=
  match c.source with
  | [] => ⟨post, c.position⟩
  | source => ⟨source ++ cut.segment :: post, c.position⟩

theorem Cursor.before_eq (cut : Cutoff) (c : Cursor) :
    ∃ unread : Source, ∀ post, c.before cut post = ⟨unread ++ post, c.position⟩ := by
  obtain ⟨source, position⟩ := c
  cases source with
  | nil => exact ⟨[], fun post => rfl⟩
  | cons segment source =>
    exact ⟨segment :: source ++ [cut.segment], fun post => by simp [before]⟩

namespace Reader

variable {α β : Type} {m : Reader α} {c : Cursor}

/-- At `c` the reader does with the cut behind the bytes what it does without, up to where
the bytes run out. -/
structure Heeds (cut : Cutoff) (post : Source) (m : Reader α) (c : Cursor) : Prop where
  run : m.run (c.before cut post) =
    ⟨(m.run c).result.mapError cut.instead, (m.run c).state.before cut post, (m.run c).events⟩
  stays : ∀ a, (m.run c).result = .ok a → ∃ data p, (m.run c).state = .over data p

theorem heeds_byte (cut : Cutoff) (post : Source) (data : List UInt8) (p : Nat) :
    Heeds cut post byte (.over data p) := by
  cases data with
  | cons b data => exact ⟨rfl, fun _ _ => ⟨data, p + 1, rfl⟩⟩
  | nil =>
    refine ⟨?_, fun _ h => nomatch h⟩
    cases cut with
    | endOfFile => rfl
    | failure fault hard =>
      change Cursor.takeByte ⟨.bytes [] :: .fault fault :: post, p⟩ = _
      simp only [Cursor.takeByte, Source.request, hard, if_false]
      rfl

theorem heeds_law (cut : Cutoff) (post : Source) :
    Law fun _ m c => (∃ data p, c = .over data p) → Heeds cut post m c where
  pure a c h := ⟨rfl, fun _ _ => h⟩
  fail e c he h := by
    refine ⟨?_, fun _ h => nomatch h⟩
    change Step.mk (.error e) _ _ = ⟨.error (cut.instead e), _, _⟩
    rw [cut.instead_of_not_truncation he]
    rfl
  emit event c h := ⟨rfl, fun _ _ => h⟩
  position c h := by
    obtain ⟨data, p, rfl⟩ := h
    exact ⟨rfl, fun _ _ => ⟨data, p, rfl⟩⟩
  byte c h := by
    obtain ⟨data, p, rfl⟩ := h
    exact heeds_byte cut post data p
  bind := by
    intro α β m f c hm hf h
    obtain ⟨run, stays⟩ := hm h
    cases first : (m.run c).result with
    | error e =>
      rw [first] at run
      constructor
      · rw [Action.run_bind_error first, Action.run_bind_error (by rw [run]; rfl), run]
        rfl
      · rw [Action.run_bind_error first]
        exact fun _ h => nomatch h
    | ok a =>
      rw [first] at run
      obtain ⟨run', stays'⟩ := hf a first (stays a first)
      constructor
      · rw [Action.run_bind_ok first, Action.run_bind_ok (by rw [run]; rfl), run, run']
        rfl
      · rw [Action.run_bind_ok first]
        exact stays'

theorem Plain.heeds (hm : Plain m) (cut : Cutoff) (post : Source) (data : List UInt8) (p : Nat) :
    Heeds cut post m (.over data p) :=
  hm.law (heeds_law cut post) _ ⟨data, p, rfl⟩

end Reader

-- ---------------------------------------------------------------------------
-- Walks
-- ---------------------------------------------------------------------------

def Disassembly.before (cut : Cutoff) (post : Source) (walk : Disassembly) : Disassembly :=
  { walk with cursor := walk.cursor.before cut post }

def Delivery.before (cut : Cutoff) (post : Source) (d : Delivery) : Delivery :=
  { d with cursor := d.cursor.before cut post }

def Tour.before (cut : Cutoff) (post : Source) (tour : Tour) : Tour where
  deliveries := tour.deliveries.map (Delivery.before cut post)
  outcome := cut.closing tour.outcome
  last := tour.last.before cut post
  events := tour.events

namespace Disassembly

variable {walk : Disassembly} {data : List UInt8} {p : Nat} {c : Cursor} {events : List Event}

theorem before_unfinished (h : walk.finished = false) :
    (walk.before cut post).finished = false := h

theorem cursor_before (cursor : walk.cursor = c) :
    (walk.before cut post).cursor = c.before cut post :=
  congrArg (Cursor.before cut post) cursor

theorem readBlock_before (cut : Cutoff) (post : Source) (cursor : walk.cursor = .over data p)
    (some : data ≠ []) :
    (walk.before cut post).readBlock =
      ⟨walk.readBlock.result.mapError cut.instead, walk.readBlock.state.before cut post,
        walk.readBlock.events⟩ ∧
    ∀ block, walk.readBlock.result = .ok block →
      ∃ data p, walk.readBlock.state = .over data p := by
  obtain ⟨b, data, rfl⟩ := List.exists_cons_of_ne_nil some
  obtain ⟨run, stays⟩ :=
    (Reader.foundBlock_plain walk.nextIndex walk.policy.boundary).heeds cut post (b :: data) p
  have alone : walk.readBlock =
      (Reader.foundBlock walk.nextIndex walk.policy.boundary).run (.over (b :: data) p) := by
    rw [readBlock, cursor]
    exact Reader.block_of_more rfl ..
  have joined : (walk.before cut post).readBlock =
      (Reader.foundBlock walk.nextIndex walk.policy.boundary).run
        ((Cursor.over (b :: data) p).before cut post) := by
    rw [readBlock, cursor_before cursor]
    exact Reader.block_of_more rfl ..
  rw [alone, joined]
  exact ⟨run, stays⟩

theorem readBlock_before_nil (cut : Cutoff) (post : Source) (cursor : walk.cursor = .over [] p) :
    (walk.before cut post).readBlock =
      ⟨cut.between.map fun _ => none, ⟨post, p⟩, []⟩ := by
  rw [readBlock, cursor_before cursor]
  cases cut with
  | endOfFile => exact Reader.block_of_end rfl ..
  | failure fault hard =>
    refine Reader.block_of_error ?_ ..
    change Cursor.atEnd ⟨.bytes [] :: .fault fault :: post, p⟩ = _
    simp [Cursor.atEnd, Source.request, hard]

theorem tour_before (unfinished : walk.finished = false) (cursor : walk.cursor = .over data p) :
    (walk.before cut post).tour = walk.tour.before cut post := by
  refine tour_induction (P := fun walk tour => ∀ data p, walk.cursor = .over data p →
    (walk.before cut post).tour = tour.before cut post) ?_ ?_ ?_ walk unfinished data p cursor
  · intro walk c events unfinished read data p cursor
    rcases readBlock_over_cases cursor with ⟨rfl, ended⟩ | ⟨-, result, _, _, -, found⟩
    · rw [ended] at read
      cases read
      have met := readBlock_before_nil cut post cursor
      cases cut with
      | endOfFile => exact tour_of_end (before_unfinished unfinished) met
      | failure fault hard => exact tour_of_error (before_unfinished unfinished) met
    · cases result <;> rw [found] at read <;> cases read
  · intro walk c events e unfinished read data p cursor
    rcases readBlock_over_cases cursor with ⟨rfl, ended⟩ | ⟨some, -⟩
    · rw [ended] at read
      cases read
    · have met := (readBlock_before cut post cursor some).1
      rw [read] at met
      exact tour_of_error (before_unfinished unfinished) met
  · intro walk c events block unfinished read ih data p cursor
    rcases readBlock_over_cases cursor with ⟨rfl, ended⟩ | ⟨some, -⟩
    · rw [ended] at read
      cases read
    · obtain ⟨met, stays⟩ := readBlock_before cut post cursor some
      rw [read] at met stays
      obtain ⟨rest, q, stayed⟩ := stays _ rfl
      have later := ih rest q stayed
      rw [tour_of_block (before_unfinished unfinished) met]
      exact congrArg (Tour.cons _) later

theorem start_before (policy : Policy) (data : List UInt8) (cut : Cutoff) (post : Source) :
    start policy (.bytes data :: cut.segment :: post) =
      ⟨((start policy (.ofBytes data)).result.map (before cut post)).mapError cut.instead,
        (start policy (.ofBytes data)).state.before cut post,
        (start policy (.ofBytes data)).events⟩ := by
  have heeds := ((acceptedHeader_plain policy).heeds cut post data 0).run
  have joined : ({ source := .bytes data :: cut.segment :: post } : Cursor) =
    (Cursor.over data 0).before cut post := rfl
  have alone : ({ source := .ofBytes data } : Cursor) = .over data 0 := rfl
  rw [start, start, joined, heeds, alone]
  generalize (acceptedHeader policy).run (.over data 0) = step
  obtain ⟨result, c, events⟩ := step
  cases result <;> rfl

end Disassembly

-- ---------------------------------------------------------------------------
-- Files
-- ---------------------------------------------------------------------------

namespace Reading

def before (cut : Cutoff) (post : Source) (reading : Reading) : Reading where
  opening :=
    ⟨reading.opening.result.mapError cut.instead, reading.opening.state.before cut post,
      reading.opening.events⟩
  deliveries := reading.deliveries.map (Delivery.before cut post)
  outcome := cut.closing reading.outcome
  cursor := reading.cursor.before cut post
  events := reading.events

@[simp] theorem blocks_before (reading : Reading) :
    (reading.before cut post).blocks = reading.blocks := by
  simp [blocks, before, Delivery.before, Function.comp_def]

@[simp] theorem position_before (reading : Reading) :
    (reading.before cut post).position = reading.position := by
  obtain ⟨unread, kept⟩ := Cursor.before_eq cut reading.cursor
  simp [position, before, kept]

@[simp] theorem allEvents_before (reading : Reading) :
    (reading.before cut post).allEvents = reading.allEvents := by
  simp [allEvents, before, List.flatMap_map, Delivery.before]

theorem text_before (reading : Reading) (file : String) :
    (reading.before cut post).text file = reading.text file := by
  simp only [text, blocks_before]
  simp only [before]
  cases reading.opening.result <;> rfl

theorem summary_before (reading : Reading) :
    (reading.before cut post).summary = reading.summary := by
  simp [summary]

theorem ofSource_before (policy : Policy) (data : List UInt8) (cut : Cutoff) (post : Source) :
    ofSource policy (.bytes data :: cut.segment :: post) =
      (ofSource policy (.ofBytes data)).before cut post := by
  have joined := Disassembly.start_before policy data cut post
  match started : Disassembly.start policy (.ofBytes data) with
  | ⟨.error e, c, events⟩ =>
    rw [started] at joined
    rw [ofSource_of_start_error joined, ofSource_of_start_error started]
    rfl
  | ⟨.ok walk, c, events⟩ =>
    obtain ⟨header, rest, version, rfl⟩ :=
      Disassembly.spelled_of_start (congrArg Step.result started)
    have alone := Disassembly.start_spelled version rest
    rw [alone] at joined
    rw [ofSource_of_start joined, ofSource_of_start alone, Disassembly.tour_before rfl rfl]
    rfl

end Reading

theorem disassemble_before (data : List UInt8) (cut : Cutoff) (post : Source) (file : String)
    (policy : Policy) {sink : Sink} (h : sink.NeverFails) :
    let reading := Reading.ofSource policy (.ofBytes data)
    disassemble (.bytes data :: cut.segment :: post) file policy sink =
      ⟨(cut.closing reading.outcome).map fun _ => reading.summary,
        reading.cursor.before cut post, (reading.before cut post).filled file sink,
        reading.allEvents⟩ := by
  intro reading
  rw [disassemble_of_neverFails _ file policy h, Reading.ofSource_before]
  simp only [Reading.summary_before, Reading.allEvents_before]
  rfl

theorem disassemble_before_endOfFile (data : List UInt8) (post : Source) (file : String)
    (policy : Policy) {sink : Sink} (h : sink.NeverFails) :
    let alone := disassemble (.ofBytes data) file policy sink
    disassemble (.bytes data :: .endOfFile :: post) file policy sink =
      { alone with cursor := alone.cursor.before .endOfFile post } := by
  intro alone
  have bare : alone = _ := disassemble_of_neverFails (.ofBytes data) file policy h
  rw [bare]
  refine (disassemble_before data .endOfFile post file policy h).trans ?_
  simp only [Cutoff.closing_endOfFile, Reading.filled, Reading.text_before]
  simp only [Reading.before, Cutoff.closing_endOfFile]

theorem disassemble_before_failure (data : List UInt8) {fault : Fault}
    (hard : fault.kind ≠ .interrupted) (post : Source) (file : String)
    (policy : Policy) {sink : Sink} (h : sink.NeverFails) :
    let alone := disassemble (.ofBytes data) file policy sink
    let faulty := disassemble (.bytes data :: .fault fault :: post) file policy sink
    faulty.sink.output = alone.sink.output ∧
    faulty.result = match alone.result with
      | .ok _ => .error (.io fault.reason)
      | .error e => .error ((Cutoff.failure fault hard).instead e) := by
  intro alone faulty
  have bare : alone = _ := disassemble_of_neverFails (.ofBytes data) file policy h
  have listed : faulty = _ := disassemble_before data (.failure fault hard) post file policy h
  rw [listed, bare]
  constructor
  · rw [Reading.output_filled, Reading.output_filled, Reading.text_before]
  · cases (Reading.ofSource policy (.ofBytes data)).outcome <;> rfl

/-- What is read from bytes, and how it ends, with more of a source behind them. An end that
the source reports is the end of the bytes, and what follows it is not read. A failure ends
the listing where the bytes end. It is the result where the bytes would have been a whole
file or a part of one, except that an end reported as a failure is the end of a file that
breaks off; an error that the bytes alone have stays. So no failure passes for the end of a
file. -/
theorem disassemble_cut_off (data : List UInt8) (file : String) (policy : Policy) {sink : Sink}
    (h : sink.NeverFails) :
    let alone := disassemble (.ofBytes data) file policy sink
    let faulty (fault : Fault) (post : Source) :=
      disassemble (.bytes data :: .fault fault :: post) file policy sink
    (∃ unread : Source, ∀ post,
      disassemble (.bytes data :: .endOfFile :: post) file policy sink =
        { alone with cursor := ⟨unread ++ post, alone.cursor.position⟩ }) ∧
    (∀ fault post, fault.kind ∈ [.other, .wouldBlock, .invalidData] →
      (faulty fault post).sink.output = alone.sink.output ∧
      (faulty fault post).result = match alone.result with
        | .ok _ => .error (.io fault.reason)
        | .error (.endOfStream _) => .error (.io fault.reason)
        | .error e => .error e) ∧
    (∀ fault post, fault.kind = .unexpectedEof →
      (faulty fault post).sink.output = alone.sink.output ∧
      (faulty fault post).result = match alone.result with
        | .ok _ => .error (.io fault.reason)
        | .error e => .error e) ∧
    ∀ fault post total, fault.kind ≠ .interrupted → (faulty fault post).result ≠ .ok total := by
  intro alone faulty
  refine ⟨?_, ?_, ?_, ?_⟩
  · obtain ⟨unread, kept⟩ := Cursor.before_eq .endOfFile alone.cursor
    refine ⟨unread, fun post => ?_⟩
    rw [← kept]
    exact disassemble_before_endOfFile data post file policy h
  · intro fault post kind
    have hard : fault.kind ≠ .interrupted := by intro h; simp [h] at kind
    have other : fault.kind ≠ .unexpectedEof := by intro h; simp [h] at kind
    obtain ⟨output, result⟩ := disassemble_before_failure data hard post file policy h
    refine ⟨output, result.trans ?_⟩
    cases alone.result with
    | ok total => rfl
    | error e => cases e <;> simp [Cutoff.instead, Cutoff.missing, other]
  · intro fault post kind
    have hard : fault.kind ≠ .interrupted := by simp [kind]
    obtain ⟨output, result⟩ := disassemble_before_failure data hard post file policy h
    refine ⟨output, result.trans ?_⟩
    cases alone.result with
    | ok total => rfl
    | error e => cases e <;> simp [Cutoff.instead, Cutoff.missing, kind]
  · intro fault post total hard ok
    have result := (disassemble_before_failure data hard post file policy h).2
    rw [ok] at result
    split at result <;> cases result

/-- The first block breaks off, and the rest of it is there behind the cutoff. -/
theorem disassemble_cut_off_in_block :
    let data : List UInt8 := [0, 0xE8, 0x03, 0, 0, 0x2E, 0, 2, 0, 0, 0, 0, 0, 0, 0, 0x04]
    let result (kind : FaultKind) :=
      (disassemble [.bytes data, .fault ⟨kind, "later"⟩, .bytes [0x01]] "f" {} {}).result
    ({} : Sink).NeverFails ∧ result .wouldBlock = .error (.io "later") ∧
      result .unexpectedEof = .error (.endOfStream 16) ∧
      (disassemble [.bytes data, .endOfFile, .bytes [0x01]] "f" {} {}).result =
        .error (.endOfStream 16) := by
  intro data result
  have taking : ({} : Sink).NeverFails := Sink.neverFails_iff.2 ⟨rfl, by decide, rfl⟩
  obtain ⟨⟨unread, atEnd⟩, faulty, early, -⟩ := disassemble_cut_off data "f" {} taking
  let walk : Disassembly :=
    { policy := {}, header := { version := 1000 }
      cursor := .over [2, 0, 0, 0, 0, 0, 0, 0, 0x04] 7 }
  obtain ⟨_, started⟩ :
      ∃ events, Disassembly.start {} (.ofBytes data) = ⟨.ok walk, walk.cursor, events⟩ :=
    ⟨_, by cbv⟩
  obtain ⟨_, first⟩ : ∃ events, walk.readBlock = ⟨.error (.endOfStream 16), ⟨[], 16⟩, events⟩ :=
    ⟨_, by cbv⟩
  have alone : (disassemble (.ofBytes data) "f" {} {}).result = .error (.endOfStream 16) := by
    rw [disassemble_of_neverFails _ _ _ taking, Reading.ofSource_of_start started,
      Disassembly.tour_of_error rfl first]
    rfl
  refine ⟨taking, ?_, ?_, ?_⟩
  · refine (faulty ⟨.wouldBlock, "later"⟩ [.bytes [0x01]] (by decide)).2.trans ?_
    rw [alone]
  · refine (early ⟨.unexpectedEof, "later"⟩ [.bytes [0x01]] rfl).2.trans ?_
    rw [alone]
  · rw [atEnd [.bytes [0x01]]]
    exact alone

end Latitude
