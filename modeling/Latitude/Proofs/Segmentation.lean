import Mathlib.Algebra.Ring.Nat
import Latitude.Proofs.Calls
import Latitude.Proofs.Queries
import Latitude.Run

/-!
# How a source is cut into segments does not matter

A source may hold segments that nobody notices: bytes that go on in the next segment, no
bytes at all, interruptions. `condensed` is the source without them. Sources that condense
to the same give the same supplies, and so the same to whoever reads them: queries, walks and
whole listings come to the same results at the same positions, with the same events.

The two readings are run side by side. `Action.Respects` says that an action on related
states gives one result and leaves related states; it passes through sequencing and loops.
-/

namespace Latitude

-- ---------------------------------------------------------------------------
-- Actions on related states
-- ---------------------------------------------------------------------------

structure Step.Matches {σ α : Type} (R : σ → σ → Prop) (x y : Step σ α) : Prop where
  result : x.result = y.result
  events : x.events = y.events
  state : R x.state y.state

namespace Action

variable {σ α β : Type} {R : σ → σ → Prop}

def Respects (R : σ → σ → Prop) (m : Action σ α) : Prop :=
  ∀ s t, R s t → (m.run s).Matches R (m.run t)

theorem matches_bind {m : Action σ α} {f : α → Action σ β} {s t : σ}
    (first : (m.run s).Matches R (m.run t))
    (second : ∀ a, (m.run s).result = .ok a →
      ((f a).run (m.run s).state).Matches R ((f a).run (m.run t).state)) :
    ((m >>= f).run s).Matches R ((m >>= f).run t) := by
  cases given : (m.run s).result with
  | error e =>
    rw [run_bind_error given, run_bind_error (first.result.symm.trans given)]
    exact ⟨rfl, first.events, first.state⟩
  | ok a =>
    have later := second a given
    rw [run_bind_ok given, run_bind_ok (first.result.symm.trans given)]
    refine ⟨later.result, ?_, later.state⟩
    rw [events_after, events_after, first.events, later.events]

theorem Respects.pure (a : α) : Respects R (Pure.pure a : Action σ α) :=
  fun _ _ related => ⟨rfl, rfl, related⟩

theorem Respects.view {f : σ → α} (same : ∀ s t, R s t → f s = f t) : Respects R (view f) :=
  fun s t related => ⟨congrArg Except.ok (same s t related), rfl, related⟩

theorem Respects.bind {m : Action σ α} {f : α → Action σ β} (hm : Respects R m)
    (hf : ∀ a, Respects R (f a)) : Respects R (m >>= f) :=
  fun s t related =>
    matches_bind (hm s t related) fun a _ => hf a _ _ (hm s t related).state

theorem Respects.loop {size : σ → Nat} {body : β → Action σ (Round β α)}
    {advances : ∀ b, Advances size (body b)} (hbody : ∀ b, Respects R (body b)) (b : β) :
    Respects R (Action.loop size body advances b) := by
  intro s t related
  rw [loop_eq]
  have first := hbody b s t related
  refine matches_bind first fun round given => ?_
  cases round with
  | done a => exact Respects.pure a _ _ first.state
  | again next =>
    have lt := advances b s next given
    exact Respects.loop hbody next _ _ first.state
termination_by s => size s

end Action

-- ---------------------------------------------------------------------------
-- Sources
-- ---------------------------------------------------------------------------

/-- Nobody notices the segment: it holds no bytes, or is an interruption. -/
def Segment.isIdle : Segment → Bool
  | .bytes data => data.isEmpty
  | .endOfFile => false
  | .fault failure => failure.kind = .interrupted

namespace Source

def join : Segment → Source → Source
  | .bytes data, .bytes more :: rest => .bytes (data ++ more) :: rest
  | segment, rest => segment :: rest

/-- The source without idle segments, and with bytes that come to stand side by side joined. -/
def condensed (source : Source) : Source :=
  (source.filter (!·.isIdle)).foldr join []

/-- What the source answers, one after another, if the bytes that it shows are taken. -/
def supplies : Source → List Supply
  | [] => []
  | .bytes data :: rest => data.map .byte ++ supplies rest
  | .endOfFile :: rest => .endOfFile :: supplies rest
  | .fault fault :: rest =>
    if fault.kind = .interrupted then supplies rest else .fault fault :: supplies rest

theorem supplies_cons_of_isIdle {segment : Segment} (h : segment.isIdle = true) (rest : Source) :
    supplies (segment :: rest) = rest.supplies := by
  cases segment <;> simp_all [Segment.isIdle, supplies]

theorem supplies_join (segment : Segment) (rest : Source) :
    (join segment rest).supplies = supplies (segment :: rest) := by
  unfold join
  split <;> simp [supplies]

theorem supplies_cons_congr (segment : Segment) {rest rest' : Source}
    (h : rest.supplies = rest'.supplies) :
    supplies (segment :: rest) = supplies (segment :: rest') := by
  cases segment <;> simp [supplies, h]

theorem supplies_condensed (source : Source) : source.condensed.supplies = source.supplies := by
  unfold condensed
  induction source with
  | nil => rfl
  | cons segment rest ih =>
    cases idle : segment.isIdle with
    | true => rw [List.filter_cons_of_neg (by simp [idle]), ih, supplies_cons_of_isIdle idle]
    | false =>
      rw [List.filter_cons_of_pos (by simp [idle]), List.foldr_cons, supplies_join]
      exact supplies_cons_congr segment ih

/-- What is left of the supplies when the source has been asked: a byte is only shown. -/
def afterRequest : List Supply → List Supply
  | .byte b :: rest => .byte b :: rest
  | supplies => supplies.tail

theorem request_fst (source : Source) :
    source.request.1 = source.supplies.headD .endOfFile := by
  fun_induction request source <;> simp_all [supplies]

theorem supplies_request (source : Source) :
    source.request.2.supplies = afterRequest source.supplies := by
  fun_induction request source <;> simp_all [supplies, afterRequest]

theorem supplies_dropByte {source rest : Source} {b : UInt8}
    (h : source.request = (.byte b, rest)) : rest.dropByte.supplies = source.supplies.tail := by
  have first := request_fst source
  have left := supplies_request source
  obtain ⟨data, tail, rfl⟩ := request_eq_byte h
  rw [h] at first left
  cases all : source.supplies with
  | nil => simp [all] at first
  | cons x others =>
    obtain rfl : x = .byte b := by simpa [all] using first.symm
    simpa [all, afterRequest, supplies, dropByte] using left

end Source

-- ---------------------------------------------------------------------------
-- Cursors
-- ---------------------------------------------------------------------------

namespace Cursor

structure Alike (c d : Cursor) : Prop where
  supplies : c.source.supplies = d.source.supplies
  position : c.position = d.position

theorem alike_of_condensed {s t : Source} (same : s.condensed = t.condensed) :
    Alike { source := s } { source := t } where
  supplies := by rw [← s.supplies_condensed, same, t.supplies_condensed]
  position := rfl

variable {c d : Cursor}

theorem Alike.request (alike : c.Alike d) :
    c.source.request.1 = d.source.request.1 ∧
      c.source.request.2.supplies = d.source.request.2.supplies := by
  rw [Source.request_fst, Source.request_fst, Source.supplies_request, Source.supplies_request,
    alike.supplies]
  exact ⟨rfl, rfl⟩

theorem Alike.takeByte (alike : c.Alike d) : c.takeByte.Matches Alike d.takeByte := by
  obtain ⟨shown, left⟩ := alike.request
  have position := alike.position
  unfold Cursor.takeByte
  rcases hc : c.source.request with ⟨x, s⟩
  rcases hd : d.source.request with ⟨y, t⟩
  rw [hc, hd] at shown left
  obtain rfl : x = y := shown
  cases x with
  | byte b =>
    refine ⟨rfl, rfl, ?_, congrArg (· + 1) position⟩
    rw [Source.supplies_dropByte hc, Source.supplies_dropByte hd, alike.supplies]
  | endOfFile => exact ⟨by rw [position], rfl, left, position⟩
  | fault fault => exact ⟨by rw [position], rfl, left, position⟩

theorem Alike.atEnd (alike : c.Alike d) : c.atEnd.Matches Alike d.atEnd := by
  obtain ⟨shown, left⟩ := alike.request
  unfold Cursor.atEnd
  rcases hc : c.source.request with ⟨x, s⟩
  rcases hd : d.source.request with ⟨y, t⟩
  rw [hc, hd] at shown left
  obtain rfl : x = y := shown
  cases x <;> exact ⟨rfl, rfl, left, alike.position⟩

end Cursor

namespace Reader

open Latitude.Action (Respects)

theorem alike_law :
    Law fun _ m c => ∀ d, c.Alike d → (m.run c).Matches Cursor.Alike (m.run d) where
  pure _ _ _ alike := ⟨rfl, rfl, alike⟩
  fail _ _ _ _ alike := ⟨rfl, rfl, alike⟩
  emit _ _ _ alike := ⟨rfl, rfl, alike⟩
  position _ _ alike := ⟨congrArg Except.ok alike.position, rfl, alike⟩
  byte _ _ alike := alike.takeByte
  bind hm hf d alike :=
    Action.matches_bind (hm d alike) fun a given => hf a given _ (hm d alike).state

theorem Query.respects (query : Query) : Respects Cursor.Alike query.reader :=
  query.law alike_law fun _ _ alike => alike.atEnd

theorem Plain.respects {α : Type} {m : Reader α} (hm : Plain m) : Respects Cursor.Alike m :=
  hm.law alike_law

end Reader

-- ---------------------------------------------------------------------------
-- Walks
-- ---------------------------------------------------------------------------

namespace Disassembly

open Latitude.Action (Respects)

def placed (walk : Disassembly) (c : Cursor) : Disassembly := { walk with cursor := c }

def Alike (v w : Disassembly) : Prop := ∃ c, v.cursor.Alike c ∧ w = v.placed c

theorem Alike.position {v w : Disassembly} (alike : v.Alike w) : v.position = w.position := by
  obtain ⟨c, same, rfl⟩ := alike
  exact same.position

theorem Alike.header {v w : Disassembly} (alike : v.Alike w) : v.header = w.header := by
  obtain ⟨c, -, rfl⟩ := alike
  rfl

theorem nextBlock_respects : Respects Alike nextBlock := by
  rintro walk _ ⟨d, same, rfl⟩
  change walk.advance.Matches Alike (walk.placed d).advance
  cases stopped : walk.finished with
  | true =>
    have elsewhere : (walk.placed d).finished = true := stopped
    rw [advance_of_finished stopped, advance_of_finished elsewhere]
    exact ⟨rfl, rfl, d, same, rfl⟩
  | false =>
    have elsewhere : (walk.placed d).finished = false := stopped
    have read : walk.readBlock.Matches Cursor.Alike (walk.placed d).readBlock :=
      (Reader.Query.block walk.nextIndex walk.policy.boundary).respects walk.cursor d same
    rcases hv : walk.readBlock with ⟨result, c, events⟩
    rcases hw : (walk.placed d).readBlock with ⟨result', c', events'⟩
    rw [hv, hw] at read
    obtain ⟨rfl, rfl, alike⟩ := read
    match result with
    | .ok (some block) =>
      rw [advance_of_block stopped hv, advance_of_block elsewhere hw]
      exact ⟨rfl, rfl, c', alike, rfl⟩
    | .ok none =>
      rw [advance_of_end stopped hv, advance_of_end elsewhere hw]
      exact ⟨rfl, rfl, c', alike, rfl⟩
    | .error e =>
      rw [advance_of_error stopped hv, advance_of_error elsewhere hw]
      exact ⟨rfl, rfl, c', alike, rfl⟩

theorem collect_respects : Respects Alike collect := by
  refine .loop (fun seen => nextBlock_respects.bind fun found => ?_) []
  cases found with
  | some block => exact .pure _
  | none => exact .pure _

theorem start_alike (policy : Policy) {s t : Source}
    (alike : Cursor.Alike { source := s } { source := t }) :
    (∃ e c d events, start policy s = ⟨.error e, c, events⟩ ∧
      start policy t = ⟨.error e, d, events⟩ ∧ c.Alike d) ∨
    ∃ v w events, start policy s = ⟨.ok v, v.cursor, events⟩ ∧
      start policy t = ⟨.ok w, w.cursor, events⟩ ∧ v.Alike w := by
  have read := (acceptedHeader_plain policy).respects _ _ alike
  unfold start
  rcases hs : (acceptedHeader policy).run { source := s } with ⟨result, c, events⟩
  rcases ht : (acceptedHeader policy).run { source := t } with ⟨result', d, events'⟩
  rw [hs, ht] at read
  obtain ⟨rfl, rfl, same⟩ := read
  cases result with
  | error e => exact .inl ⟨e, c, d, events, rfl, rfl, same⟩
  | ok header => exact .inr ⟨_, _, events, rfl, rfl, d, same, rfl⟩

end Disassembly

-- ---------------------------------------------------------------------------
-- What is seen
-- ---------------------------------------------------------------------------

/-- What is seen of a call from outside: what it came to, where the reading has got to, and
the events on the way. -/
structure Sight (α : Type) where
  result : α
  position : Nat
  events : List Event

def Reply.sight (r : Reply) : (query : Reader.Query) × Sight (Except ReadError query.Answer) :=
  ⟨r.query, r.step.result, r.after.position, r.step.events⟩

def Exchange.sight (x : Exchange) : Sight Answer := ⟨x.answer, x.after.position, x.events⟩

def Disassembly.sights (policy : Policy) (source : Source) (calls : List Call) :
    Sight (Except ReadError Header) × List (Sight Answer) :=
  let opened := start policy source
  (⟨opened.result.map header, opened.state.position, opened.events⟩,
    match opened.result with
    | .ok walk => (walk.session calls).map Exchange.sight
    | .error _ => [])

def Report.sight (report : Report Summary) : Sight (Except ReadError Summary × Sink) :=
  ⟨(report.result, report.sink), report.cursor.position, report.events⟩

theorem Cursor.Alike.map_sight_replies {c d : Cursor} (alike : c.Alike d)
    (queries : List Reader.Query) :
    (c.replies queries).map Reply.sight = (d.replies queries).map Reply.sight := by
  induction queries generalizing c d with
  | nil => rfl
  | cons query queries ih =>
    have asked := query.respects c d alike
    have first : (c.ask query).sight = (d.ask query).sight := by
      simp only [Reply.sight, ask, Reply.after, asked.result, asked.events, asked.state.position]
    have later : (c.ask query).after.Alike (d.ask query).after := asked.state
    simp only [replies, List.map_cons, first, ih later]

namespace Disassembly

theorem Alike.sight_ask {v w : Disassembly} (alike : v.Alike w) (call : Call) :
    (v.ask call).sight = (w.ask call).sight ∧ (v.ask call).after.Alike (w.ask call).after := by
  cases call with
  | nextBlock =>
    obtain ⟨result, events, next⟩ := nextBlock_respects v w alike
    simp only [ask, Exchange.sight, result, events, next.position, next, and_self]
  | nextItem =>
    obtain ⟨result, events, next⟩ := nextBlock_respects v w alike
    simp only [ask, Exchange.sight, result, events, next.position, next, and_self]
  | collect =>
    obtain ⟨result, events, next⟩ := collect_respects v w alike
    simp only [ask, Exchange.sight, result, events, next.position, next, and_self]

theorem Alike.map_sight_session {v w : Disassembly} (alike : v.Alike w) (calls : List Call) :
    (v.session calls).map Exchange.sight = (w.session calls).map Exchange.sight := by
  induction calls generalizing v w with
  | nil => rfl
  | cons call calls ih =>
    obtain ⟨first, next⟩ := alike.sight_ask call
    simp only [session, List.map_cons, first, ih next]

theorem sights_eq_of_alike (policy : Policy) {s t : Source}
    (alike : Cursor.Alike { source := s } { source := t }) (calls : List Call) :
    sights policy s calls = sights policy t calls := by
  rcases start_alike policy alike with
    ⟨e, c, d, events, hs, ht, same⟩ | ⟨v, w, events, hs, ht, same⟩
  · simp [sights, hs, ht, same.position, Except.map]
  · have position : v.cursor.position = w.cursor.position := same.position
    simp [sights, hs, ht, same.header, position, same.map_sight_session, Except.map]

end Disassembly

-- ---------------------------------------------------------------------------
-- Listings
-- ---------------------------------------------------------------------------

namespace Run

open Latitude.Action (Respects)

structure Alike (x y : Run) : Prop where
  walk : x.walk.Alike y.walk
  sink : x.sink = y.sink

variable {α : Type}

theorem onWalk_respects {m : Action Disassembly α} (hm : Respects Disassembly.Alike m) :
    Respects Alike (onWalk m) := fun x y alike =>
  have read := hm x.walk y.walk alike.walk
  ⟨read.result, read.events, read.state, alike.sink⟩

theorem onSink_respects (m : Action Sink α) : Respects Alike (onSink m) := by
  rintro ⟨walk, sink⟩ ⟨other, _⟩ ⟨alike, rfl⟩
  exact ⟨rfl, rfl, alike, rfl⟩

theorem finish_respects (total : Summary) : Respects Alike (finish total) :=
  (onSink_respects Sink.flush).bind fun _ =>
    (Respects.view fun _ _ alike => alike.walk.position).bind fun _ => .pure _

theorem round_respects (total : Summary) : Respects Alike (round total) := by
  refine (onWalk_respects Disassembly.nextBlock_respects).bind fun found => ?_
  cases found with
  | some block => exact (onSink_respects _).bind fun _ => .pure _
  | none => exact (finish_respects total).bind fun _ => .pure _

theorem list_respects (file : String) : Respects Alike (list file) :=
  (Respects.view fun _ _ alike => alike.walk.header).bind fun header =>
    (onSink_respects (Sink.write (header.listing file))).bind fun _ => .loop round_respects {}

end Run

theorem sight_disassemble_of_alike {s t : Source}
    (alike : Cursor.Alike { source := s } { source := t }) (file : String) (policy : Policy)
    (sink : Sink) :
    (disassemble s file policy sink).sight = (disassemble t file policy sink).sight := by
  rcases Disassembly.start_alike policy alike with
    ⟨e, c, d, events, hs, ht, same⟩ | ⟨v, w, events, hs, ht, same⟩
  · simp [disassemble, hs, ht, Report.sight, same.position]
  · have listed := Run.list_respects file ⟨v, sink⟩ ⟨w, sink⟩ ⟨same, rfl⟩
    have position := listed.state.walk.position
    simp only [Disassembly.position] at position
    simp only [disassemble, hs, ht, Report.sight, listed.result, listed.events,
      listed.state.sink, position]

/-- Sources that are the same once empty segments and interruptions are left out, and bytes
side by side are joined, cannot be told apart: not by queries to a cursor, not by calls for
the blocks of a file, and not by its listing. -/
theorem sights_eq_of_condensed {s t : Source} (same : s.condensed = t.condensed) :
    (∀ queries, (Cursor.replies { source := s } queries).map Reply.sight =
      (Cursor.replies { source := t } queries).map Reply.sight) ∧
    (∀ policy calls, Disassembly.sights policy s calls = Disassembly.sights policy t calls) ∧
    ∀ file policy sink,
      (disassemble s file policy sink).sight = (disassemble t file policy sink).sight := by
  have alike := Cursor.alike_of_condensed same
  refine ⟨alike.map_sight_replies, ?_, ?_⟩
  · intro policy calls
    exact Disassembly.sights_eq_of_alike policy alike calls
  · intro file policy sink
    exact sight_disassemble_of_alike alike file policy sink

/-- Two files of one block that end in a failure. One of them comes in four pieces and is
interrupted within the version, within the length of the block, and ahead of the failure. -/
theorem sights_eq_of_condensed_interrupted :
    let again : Segment := .fault ⟨.interrupted, "again"⟩
    let gone : Segment := .fault ⟨.other, "gone"⟩
    let s : Source :=
      [.bytes [0, 0xE8], again, .bytes [], .bytes [0x03, 0, 0, 0x2E, 0, 2, 0], again,
        .bytes [0, 0, 0, 0, 0, 0, 0x04, 0x01], again, gone]
    let t : Source :=
      [.bytes [0, 0xE8, 0x03, 0, 0, 0x2E, 0, 2, 0, 0, 0, 0, 0, 0, 0, 0x04, 0x01], gone]
    let queries : List Reader.Query := [.header, .block 0 .strict, .isExhausted, .byte]
    s.condensed = t.condensed ∧ s ≠ t ∧
      (Cursor.replies { source := s } queries).map (·.sight.2.position) = [7, 17, 17, 17] ∧
      (disassemble s "f" {} {}).sight = (disassemble t "f" {} {}).sight := by
  intro again gone s t queries
  have same : s.condensed = t.condensed := by decide
  obtain ⟨replies, -, listings⟩ := sights_eq_of_condensed same
  refine ⟨same, by decide, ?_, listings "f" {} {}⟩
  have positions := congrArg (List.map (·.2.position)) (replies queries)
  simp only [List.map_map] at positions
  refine positions.trans ?_
  cbv

end Latitude
