import Latitude.Proofs.PlainReaders
import Latitude.Proofs.Tour

/-!
# Calls on a walk

A walk can be asked for its next block, for the next item of the sequence that its blocks
are, and for all the blocks that are left. However such calls are mixed, each of them comes
to a number of calls for the next block, so that what they give together is what calls for
the next block alone would have given.

The call that meets the end or an error is the last one with an effect.
-/

namespace Latitude

inductive Call
  | nextBlock
  | nextItem
  | collect

inductive Answer
  | block (found : Except ReadError (Option Block))
  | item (found : Option (Except ReadError Block))
  | blocks (found : Except ReadError (List Block))

def Call.nothing : Call → Answer
  | .nextBlock => .block (.ok none)
  | .nextItem => .item none
  | .collect => .blocks (.ok [])

namespace Answer

def error? : Answer → Option ReadError
  | .block (.error e) | .item (some (.error e)) | .blocks (.error e) => some e
  | _ => none

/-- Whether the answer tells of an error or of the end. A collection always comes to one. -/
def closes : Answer → Bool
  | .block (.ok (some _)) | .item (some (.ok _)) => false
  | _ => true

theorem closes_of_error? {answer : Answer} {e : ReadError} (h : answer.error? = some e) :
    answer.closes = true := by
  unfold error? at h
  split at h <;> first | rfl | cases h

end Answer

structure Exchange where
  call : Call
  before : Disassembly
  answer : Answer
  after : Disassembly
  events : List Event

namespace Exchange

/-- The blocks that the call has given. A collection that failed has read the blocks ahead of
the error. -/
def blocks (x : Exchange) : List Block :=
  match x.answer with
  | .block (.ok (some block)) | .item (some (.ok block)) => [block]
  | .blocks (.ok blocks) => blocks
  | .blocks (.error _) => x.before.tour.blocks
  | _ => []

/-- The call has found nothing and done nothing. -/
structure Idle (x : Exchange) : Prop where
  answer : x.answer = x.call.nothing
  walk : x.after = x.before
  events : x.events = []

theorem Idle.error? {x : Exchange} (h : x.Idle) : x.answer.error? = none := by
  rw [h.answer]
  cases x.call <;> rfl

end Exchange

-- ---------------------------------------------------------------------------
-- Sessions
-- ---------------------------------------------------------------------------

structure Yield where
  blocks : List Block
  errors : List ReadError
  last : Disassembly
  events : List Event

def Yield.followedBy (first second : Yield) : Yield where
  blocks := first.blocks ++ second.blocks
  errors := first.errors ++ second.errors
  last := second.last
  events := first.events ++ second.events

def Exchange.yield (x : Exchange) : Yield := ⟨x.blocks, x.answer.error?.toList, x.after, x.events⟩

def Tour.yield (tour : Tour) : Yield where
  blocks := tour.blocks
  errors := match tour.outcome with
    | .ok () => []
    | .error e => [e]
  last := tour.last
  events := tour.allEvents

namespace Disassembly

def ask (walk : Disassembly) (call : Call) : Exchange :=
  match call with
  | .nextBlock =>
    let step := nextBlock.run walk
    ⟨call, walk, .block step.result, step.state, step.events⟩
  | .nextItem =>
    let step := nextBlock.run walk
    ⟨call, walk, .item (item? step.result), step.state, step.events⟩
  | .collect =>
    let step := collect.run walk
    ⟨call, walk, .blocks step.result, step.state, step.events⟩

def session (walk : Disassembly) : List Call → List Exchange
  | [] => []
  | call :: calls => walk.ask call :: (walk.ask call).after.session calls

def leave (walk : Disassembly) : List Call → Disassembly
  | [] => walk
  | call :: calls => (walk.ask call).after.leave calls

def yield (walk : Disassembly) (calls : List Call) : Yield where
  blocks := (walk.session calls).flatMap Exchange.blocks
  errors := (walk.session calls).filterMap (·.answer.error?)
  last := walk.leave calls
  events := (walk.session calls).flatMap Exchange.events

variable {walk : Disassembly}

theorem yield_cons (walk : Disassembly) (call : Call) (calls : List Call) :
    walk.yield (call :: calls) =
      (walk.ask call).yield.followedBy ((walk.ask call).after.yield calls) := by
  cases failed : (walk.ask call).answer.error? <;>
    simp [yield, session, leave, Exchange.yield, Yield.followedBy, failed]

theorem yield_singleton (walk : Disassembly) (call : Call) :
    walk.yield [call] = (walk.ask call).yield := by
  rw [yield_cons]
  simp [yield, session, leave, Yield.followedBy, Exchange.yield]

theorem yield_append (walk : Disassembly) (calls more : List Call) :
    walk.yield (calls ++ more) =
      (walk.yield calls).followedBy ((walk.yield calls).last.yield more) := by
  induction calls generalizing walk with
  | nil => rfl
  | cons call calls ih =>
    rw [List.cons_append, yield_cons, yield_cons, ih]
    simp [Yield.followedBy]

-- ---------------------------------------------------------------------------
-- What one call does
-- ---------------------------------------------------------------------------

theorem index_of_readBlock {block : Block} (h : walk.readBlock.result = .ok (some block)) :
    block.index = walk.nextIndex := by
  obtain ⟨exhausted, -, h⟩ := Reader.result_bind_ok h
  cases exhausted with
  | true => cases h
  | false =>
    obtain ⟨found, present, same⟩ := Reader.result_bind_ok h
    cases same
    obtain ⟨offset, -, h⟩ := Reader.result_bind_ok present
    obtain ⟨length, -, h⟩ := Reader.result_bind_ok h
    obtain ⟨start, -, h⟩ := Reader.result_bind_ok h
    obtain ⟨_, -, h⟩ := Reader.result_bind_ok h
    obtain ⟨instructions, -, h⟩ := Reader.result_bind_ok h
    obtain ⟨stop, -, h⟩ := Reader.result_bind_ok h
    obtain ⟨_, -, same⟩ := Reader.result_bind_ok h
    cases same
    rfl

/-- A call for the next block gives the one with the next index, or is the last of the walk. -/
theorem advance_cases (walk : Disassembly) :
    (∃ block next events, walk.advance = ⟨.ok (some block), next, events⟩ ∧
      block.index = walk.nextIndex ∧ next.nextIndex = walk.nextIndex + 1) ∨
    ∃ result next events, walk.advance = ⟨result, next, events⟩ ∧
      (∀ block, result ≠ .ok (some block)) ∧ next.finished = true ∧
      next.nextIndex = walk.nextIndex := by
  cases stopped : walk.finished with
  | true => exact .inr ⟨_, _, _, advance_of_finished stopped, nofun, stopped, rfl⟩
  | false =>
    match read : walk.readBlock with
    | ⟨.ok (some block), c, events⟩ =>
      exact .inl ⟨block, _, _, advance_of_block stopped read, index_of_readBlock (by rw [read]), rfl⟩
    | ⟨.ok none, c, events⟩ =>
      exact .inr ⟨_, _, _, advance_of_end stopped read, nofun, rfl, rfl⟩
    | ⟨.error e, c, events⟩ =>
      exact .inr ⟨_, _, _, advance_of_error stopped read, nofun, rfl, rfl⟩

theorem ask_nextBlock {result : Except ReadError (Option Block)} {next : Disassembly}
    {events : List Event} (step : walk.advance = ⟨result, next, events⟩) :
    walk.ask .nextBlock = ⟨.nextBlock, walk, .block result, next, events⟩ := by
  simp [ask, nextBlock, step]

theorem yield_nextItem (walk : Disassembly) :
    (walk.ask .nextItem).yield = (walk.ask .nextBlock).yield := by
  simp only [ask, Exchange.yield, Exchange.blocks]
  match (nextBlock.run walk).result with
  | .ok (some block) => rfl
  | .ok none => rfl
  | .error e => rfl

theorem yield_collect (walk : Disassembly) : (walk.ask .collect).yield = walk.tour.yield := by
  simp only [ask, collect_run, Exchange.yield, Exchange.blocks, Tour.yield]
  match walk.tour.outcome with
  | .ok () => rfl
  | .error e => rfl

theorem ask_of_finished (stopped : walk.finished = true) (call : Call) :
    walk.ask call = ⟨call, walk, call.nothing, walk, []⟩ := by
  cases call with
  | nextBlock => simp [ask, nextBlock, advance_of_finished stopped, Call.nothing]
  | nextItem => simp [ask, nextBlock, advance_of_finished stopped, Call.nothing, item?]
  | collect =>
    simp [ask, collect_run, tour_of_finished stopped, Call.nothing, Except.map, Tour.blocks,
      Tour.allEvents]

theorem finished_of_closes {call : Call} (h : (walk.ask call).answer.closes = true) :
    (walk.ask call).after.finished = true := by
  cases call with
  | collect =>
    simp only [ask, collect_run]
    exact finished_tour_last walk
  | _ =>
    rcases advance_cases walk with ⟨block, next, events, step, -⟩ | ⟨_, _, _, step, -, stopped, -⟩
    · simp [ask, nextBlock, step, item?, Answer.closes] at h
    · simp [ask, nextBlock, step, stopped]

-- ---------------------------------------------------------------------------
-- What a session does
-- ---------------------------------------------------------------------------

theorem yield_tour (unfinished : walk.finished = false) :
    walk.yield (List.replicate (walk.tour.deliveries.length + 1) .nextBlock) =
      walk.tour.yield := by
  refine tour_induction (P := fun walk tour =>
    walk.yield (List.replicate (tour.deliveries.length + 1) .nextBlock) = tour.yield)
    ?_ ?_ ?_ walk unfinished
  · intro walk c events unfinished read
    refine (yield_singleton walk .nextBlock).trans ?_
    rw [ask_nextBlock (advance_of_end unfinished read)]
    rfl
  · intro walk c events e unfinished read
    refine (yield_singleton walk .nextBlock).trans ?_
    rw [ask_nextBlock (advance_of_error unfinished read)]
    rfl
  · intro walk c events block unfinished read ih
    rw [Tour.deliveries_cons, List.length_cons, List.replicate_succ, yield_cons,
      ask_nextBlock (advance_of_block unfinished read), ih]
    simp [Exchange.yield, Exchange.blocks, Answer.error?, Yield.followedBy, Tour.yield]

theorem exists_nextBlocks_of_call (walk : Disassembly) (call : Call) :
    ∃ n, (walk.ask call).yield = walk.yield (List.replicate n .nextBlock) := by
  cases call with
  | nextBlock => exact ⟨1, (yield_singleton walk .nextBlock).symm⟩
  | nextItem =>
    rw [yield_nextItem]
    exact ⟨1, (yield_singleton walk .nextBlock).symm⟩
  | collect =>
    rw [yield_collect]
    cases stopped : walk.finished with
    | false => exact ⟨_, (yield_tour stopped).symm⟩
    | true =>
      rw [tour_of_finished stopped]
      exact ⟨0, rfl⟩

/-- Any calls come to a number of calls for the next block. -/
theorem exists_nextBlocks (walk : Disassembly) (calls : List Call) :
    ∃ n, walk.yield calls = walk.yield (List.replicate n .nextBlock) := by
  induction calls generalizing walk with
  | nil => exact ⟨0, rfl⟩
  | cons call calls ih =>
    obtain ⟨n, first⟩ := exists_nextBlocks_of_call walk call
    obtain ⟨m, rest⟩ := ih (walk.ask call).after
    have behind : (walk.yield (List.replicate n .nextBlock)).last = (walk.ask call).after :=
      (congrArg Yield.last first).symm
    refine ⟨n + m, ?_⟩
    rw [yield_cons, ← List.replicate_append_replicate, yield_append, behind, ← first, ← rest]

theorem indices_nextBlocks (walk : Disassembly) (n : Nat) :
    (walk.yield (List.replicate n .nextBlock)).blocks.map Block.index =
      List.range' walk.nextIndex (walk.yield (List.replicate n .nextBlock)).blocks.length := by
  induction n generalizing walk with
  | zero => rfl
  | succ n ih =>
    rw [List.replicate_succ, yield_cons]
    rcases advance_cases walk with
      ⟨block, next, events, step, index, counted⟩ | ⟨result, next, events, step, none, -, same⟩
    · have later := ih next
      rw [counted] at later
      simp [ask_nextBlock step, Yield.followedBy, Exchange.yield, Exchange.blocks, index, later,
        List.range'_succ]
    · have later := ih next
      rw [same] at later
      have nothing : (walk.ask .nextBlock).blocks = [] := by
        rw [ask_nextBlock step, Exchange.blocks]
        split <;> simp_all
      have after : (walk.ask .nextBlock).after = next := by rw [ask_nextBlock step]
      simp [Yield.followedBy, Exchange.yield, nothing, after, later]

theorem idle_of_finished (stopped : walk.finished = true) (calls : List Call) :
    ∀ x ∈ walk.session calls, x.Idle := by
  induction calls with
  | nil => exact fun x hx => nomatch hx
  | cons call calls ih =>
    rw [session, ask_of_finished stopped]
    exact List.forall_mem_cons.2 ⟨⟨rfl, rfl, rfl⟩, ih⟩

theorem session_pairwise (walk : Disassembly) (calls : List Call) :
    (walk.session calls).Pairwise fun x y => x.answer.closes = true → y.Idle := by
  induction calls generalizing walk with
  | nil => exact .nil
  | cons call calls ih =>
    refine .cons (fun y later closed => ?_) (ih _)
    exact idle_of_finished (finished_of_closes closed) calls y later

theorem length_errors_le (walk : Disassembly) (calls : List Call) :
    (walk.yield calls).errors.length ≤ 1 := by
  have fused := session_pairwise walk calls
  rw [yield]
  generalize walk.session calls = exchanges at fused
  induction fused with
  | nil => simp
  | @cons x later idle _ ih =>
    cases failed : x.answer.error? with
    | none => simpa [failed] using ih
    | some e =>
      have silent : later.filterMap (·.answer.error?) = [] :=
        List.filterMap_eq_nil_iff.2 fun y hy => (idle y hy (Answer.closes_of_error? failed)).error?
      simp [failed, silent]

end Disassembly

/-- Whatever calls are made on a walk, and however its source goes on: the blocks, the error,
the events and the walk they come to are those of a number of calls for the next block. The
blocks are numbered from zero on. There is one error at most, and whatever follows an error or
an end finds nothing, reports nothing and leaves the walk as it was. -/
theorem session_gives_next_blocks {policy : Policy} {source : Source} {walk : Disassembly}
    (started : (Disassembly.start policy source).result = .ok walk) (calls : List Call) :
    let blocks := (walk.yield calls).blocks
    (∃ n, walk.yield calls = walk.yield (List.replicate n .nextBlock)) ∧
    blocks.map Block.index = List.range blocks.length ∧
    (walk.yield calls).errors.length ≤ 1 ∧
    (walk.session calls).Pairwise fun x y =>
      x.answer.closes = true →
        y.answer = y.call.nothing ∧ y.after = y.before ∧ y.events = [] := by
  intro blocks
  obtain ⟨n, same⟩ := walk.exists_nextBlocks calls
  refine ⟨⟨n, same⟩, ?_, walk.length_errors_le calls, ?_⟩
  · have first : walk.nextIndex = 0 := by
      obtain ⟨c, events, step⟩ : ∃ c events, Disassembly.start policy source = ⟨.ok walk, c, events⟩ :=
        ⟨_, _, by rw [← started]⟩
      rw [Disassembly.eq_of_start step]
    have indices := walk.indices_nextBlocks n
    rw [← same, first, ← List.range_eq_range'] at indices
    exact indices
  · exact (walk.session_pairwise calls).imp fun idle closed =>
      ⟨(idle closed).answer, (idle closed).walk, (idle closed).events⟩

/-- The source reports an end behind an empty block, and then has another one. -/
theorem session_gives_next_blocks_once :
    let more : Source := [.bytes [2, 0, 0, 0, 0, 0, 0, 0, 0x04, 0x01]]
    let source : Source :=
      [.bytes [0, 0xE8, 0x03, 0, 0, 0x2E, 0, 0, 0, 0, 0, 0, 0, 0, 0], .endOfFile]
    let block : Block := ⟨0, 7, 0, 0, []⟩
    ∃ walk, (Disassembly.start {} (source ++ more)).result = .ok walk ∧
      (walk.session [.nextBlock, .nextItem, .collect]).map Exchange.answer =
        [.block (.ok (some block)), .item none, .blocks (.ok [])] ∧
      (walk.leave [.nextBlock, .nextItem, .collect]).cursor = ⟨more, 15⟩ := by
  intro more source block
  let walk : Disassembly :=
    { policy := {}, header := { version := 1000 }
      cursor := ⟨.bytes [0, 0, 0, 0, 0, 0, 0, 0] :: .endOfFile :: more, 7⟩ }
  have started : (Disassembly.start {} (source ++ more)).result = .ok walk := by cbv
  obtain ⟨_, first⟩ : ∃ events, walk.readBlock =
      ⟨.ok (some block), ⟨.bytes [] :: .endOfFile :: more, 15⟩, events⟩ := ⟨_, by cbv⟩
  let next := walk.moved ⟨.bytes [] :: .endOfFile :: more, 15⟩
  have second : next.readBlock = ⟨.ok none, ⟨more, 15⟩, []⟩ := by cbv
  let third := (next.ended ⟨more, 15⟩).ask .collect
  obtain ⟨_, given⟩ : ∃ events, walk.ask .nextBlock =
      ⟨.nextBlock, walk, .block (.ok (some block)), next, events⟩ :=
    ⟨_, Disassembly.ask_nextBlock (Disassembly.advance_of_block rfl first)⟩
  have ended : next.ask .nextItem =
      ⟨.nextItem, next, .item none, next.ended ⟨more, 15⟩, []⟩ := by
    simp only [Disassembly.ask, Disassembly.nextBlock, Disassembly.advance_of_end rfl second]
    rfl
  have asked : walk.session [.nextBlock, .nextItem, .collect] =
      [walk.ask .nextBlock, next.ask .nextItem, third] := by
    simp only [Disassembly.session, given, ended, third]
  have left : walk.leave [.nextBlock, .nextItem, .collect] = third.after := by
    simp only [Disassembly.leave, given, ended, third]
  obtain ⟨-, -, -, fused⟩ :=
    session_gives_next_blocks started [.nextBlock, .nextItem, .collect]
  rw [asked, List.pairwise_cons, List.pairwise_cons] at fused
  obtain ⟨answer, same, -⟩ := fused.2.1 third (.head _) (by rw [ended]; rfl)
  refine ⟨walk, started, ?_, ?_⟩
  · rw [asked, given, ended]
    exact congrArg (fun last => [_, _, last]) answer
  · rw [left, same]
    rfl

end Latitude
