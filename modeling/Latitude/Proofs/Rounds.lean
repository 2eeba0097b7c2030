import Latitude.Proofs.Log
import Latitude.Run

/-!
# How many rounds loops take

`Rounds` follows a loop round by round and counts, without any measure; so a loop that has
rounds is through after that many. All loops of the reader have them, on every source: each
round that asks for another takes a least number of bytes, which bounds how many there are
(`loop_endsWithin`). What a block declares as its length has no part in that. Looking for the
end of a source takes no bytes, but every interruption that it waits for is used up.
-/

namespace Latitude

-- ---------------------------------------------------------------------------
-- Rounds
-- ---------------------------------------------------------------------------

namespace Action

variable {σ α β : Type}

/-- From `b` and the state `s` the loop with this body is through in exactly so many rounds, and
has come to `step`. -/
inductive Rounds (body : β → Action σ (Round β α)) : β → σ → Nat → Step σ α → Prop
  | done {b : β} {s s' : σ} {a : α} {events : List Event} :
      (body b).run s = ⟨.ok (.done a), s', events⟩ → Rounds body b s 1 ⟨.ok a, s', events⟩
  | failed {b : β} {s s' : σ} {e : ReadError} {events : List Event} :
      (body b).run s = ⟨.error e, s', events⟩ → Rounds body b s 1 ⟨.error e, s', events⟩
  | again {b next : β} {s s' : σ} {events : List Event} {n : Nat} {step : Step σ α} :
      (body b).run s = ⟨.ok (.again next), s', events⟩ → Rounds body next s' n step →
      Rounds body b s (n + 1) (step.after events)

/-- The loop comes to `step`, and for each round ahead of the last one at least `k` is gone from
the size of the state. -/
def EndsWithin (size : σ → Nat) (k : Nat) (body : β → Action σ (Round β α)) (b : β) (s : σ)
    (step : Step σ α) : Prop :=
  ∃ n, Rounds body b s (n + 1) step ∧ k * n + size step.state ≤ size s

def Spends (size : σ → Nat) (k : Nat) (m : Action σ (Round β α)) : Prop :=
  ∀ s b, (m.run s).result = .ok (.again b) → size (m.run s).state + k ≤ size s

variable {size : σ → Nat} {k : Nat} {body : β → Action σ (Round β α)} {b next : β} {s s' : σ}
  {events : List Event} {step : Step σ α}

theorem run_of_result {m : Action σ α} {result : Except ReadError α}
    (h : (m.run s).result = result) : m.run s = ⟨result, (m.run s).state, (m.run s).events⟩ := by
  rw [← h]

theorem Advances.spends {m : Action σ (Round β α)} (h : Advances size m) : Spends size 1 m := h

theorem EndsWithin.again (run : (body b).run s = ⟨.ok (.again next), s', events⟩)
    (spent : size s' + k ≤ size s) (h : EndsWithin size k body next s' step) :
    EndsWithin size k body b s (step.after events) := by
  obtain ⟨n, rounds, within⟩ := h
  refine ⟨n + 1, .again run rounds, ?_⟩
  rw [Nat.mul_succ, state_after]
  omega

theorem loop_endsWithin {advances : ∀ b, Advances size (body b)}
    (shrinks : ∀ b, NeverGrows size (body b)) (spends : ∀ b, Spends size k (body b))
    (b : β) (s : σ) :
    EndsWithin size k body b s ((loop size body advances b).run s) := by
  have kept := shrinks b s
  have spent := spends b s
  have less := advances b s
  rw [loop_eq, run_bind]
  match run : (body b).run s with
  | ⟨.error e, s', events⟩ =>
    rw [run] at kept
    exact ⟨0, .failed run, by simpa using kept⟩
  | ⟨.ok (.done a), s', events⟩ =>
    rw [run] at kept
    refine ⟨0, ?_, by simpa [run_pure] using kept⟩
    simpa [run_pure, Step.after] using Rounds.done run
  | ⟨.ok (.again next), s', events⟩ =>
    rw [run] at spent less
    have smaller : size s' < size s := less next rfl
    exact (loop_endsWithin shrinks spends next s').again run (spent next rfl)
termination_by size s

end Action

open Latitude.Action (EndsWithin Spends NeverGrows Advances)

-- ---------------------------------------------------------------------------
-- Interruptions
-- ---------------------------------------------------------------------------

namespace Source

/-- Asks for data once. An interruption is answered like any other failure. -/
def answer : Source → Supply × Source
  | [] => (.endOfFile, [])
  | .bytes [] :: rest => answer rest
  | .bytes (byte :: data) :: rest => (.byte byte, .bytes (byte :: data) :: rest)
  | .endOfFile :: rest => (.endOfFile, rest)
  | .fault fault :: rest => (.fault fault, rest)

theorem length_answer_le (source : Source) : source.answer.2.length ≤ source.length := by
  fun_induction answer source with
  | case2 rest ih => exact Nat.le_succ_of_le ih
  | _ => simp

theorem length_lt_of_answer {source rest : Source} {fault : Fault}
    (h : source.answer = (.fault fault, rest)) : rest.length < source.length := by
  fun_induction answer source with
  | case2 rest ih => exact Nat.lt_succ_of_lt (ih h)
  | _ => simp_all

end Source

namespace Cursor

def segments (c : Cursor) : Nat := c.source.length

def look (c : Cursor) : Step Cursor (Round Unit Bool) :=
  match c.source.answer with
  | (.byte _, source) => ⟨.ok (.done false), { c with source }, []⟩
  | (.endOfFile, source) => ⟨.ok (.done true), { c with source }, []⟩
  | (.fault fault, source) =>
    if fault.kind = .interrupted then ⟨.ok (.again ()), { c with source }, []⟩
    else ⟨.error (.io fault.reason), { c with source }, []⟩

end Cursor

namespace Reader

def looking (_ : Unit) : Reader (Round Unit Bool) := ⟨Cursor.look⟩

theorem looking_neverGrows (u : Unit) : NeverGrows Cursor.segments (looking u) := by
  intro c
  have le := c.source.length_answer_le
  simp only [looking, Cursor.look]
  split <;> rename_i answered <;> rw [answered] at le
  · exact le
  · exact le
  · split <;> exact le

theorem looking_advances (u : Unit) : Advances Cursor.segments (looking u) := by
  intro c next again
  simp only [looking, Cursor.look] at again ⊢
  split at again
  · cases again
  · cases again
  · rename_i answered
    split at again
    · rename_i interrupted
      simpa [answered, interrupted, Cursor.segments] using Source.length_lt_of_answer answered
    · cases again

/-- Telling whether a source is at an end is to look until there is no interruption. -/
theorem isExhausted_eq_loop :
    isExhausted = Action.loop Cursor.segments looking looking_advances () := by
  refine Action.ext (funext fun ⟨source, p⟩ => ?_)
  induction source with
  | nil =>
    rw [Action.loop_eq]
    rfl
  | cons segment rest ih =>
    rw [Action.loop_eq]
    match segment with
    | .bytes [] =>
      rw [Action.loop_eq] at ih
      exact ih
    | .bytes (b :: data) => rfl
    | .endOfFile => rfl
    | .fault fault =>
      by_cases interrupted : fault.kind = .interrupted
      · simpa [isExhausted, Cursor.atEnd, looking, Cursor.look, Source.answer, Source.request,
          Action.run_bind, interrupted] using ih
      · simp [isExhausted, Cursor.atEnd, looking, Cursor.look, Source.answer, Source.request,
          Action.run_bind, interrupted]

theorem isExhausted_endsWithin (c : Cursor) :
    EndsWithin Cursor.segments 1 looking () c (isExhausted.run c) := by
  rw [isExhausted_eq_loop]
  exact Action.loop_endsWithin looking_neverGrows (fun u => (looking_advances u).spends) () c

end Reader

-- ---------------------------------------------------------------------------
-- Least numbers of bytes
-- ---------------------------------------------------------------------------

open Reader (lengthWidth)

theorem SpelledText.two_le_length_bytes (s : SpelledText) : 2 ≤ s.bytes.length := by
  simp [bytes]

theorem SpelledField.four_le_length_bytes (f : SpelledField) : 4 ≤ f.bytes.length := by
  have name := f.name.two_le_length_bytes
  simp only [bytes, List.length_cons]
  omega

theorem SpelledHeader.seven_le_length_bytes (h : SpelledHeader) : 7 ≤ h.bytes.length := by
  simp only [bytes, SpelledInteger.bytes, List.length_append, List.length_cons, List.length_nil,
    h.version.width, Reader.integerWidth]
  omega

theorem SpelledInstruction.length_le_length_flatMap (is : List SpelledInstruction) :
    is.length ≤ (is.flatMap bytes).length := by
  induction is with
  | nil => exact Nat.le_refl 0
  | cons i is ih =>
    have nonempty : 0 < i.bytes.length := Nat.succ_pos _
    rw [List.flatMap_cons, List.length_cons, List.length_append]
    omega

theorem SpelledBlock.length_bytes_ge (b : SpelledBlock) :
    lengthWidth + b.instructions.length ≤ b.bytes.length := by
  rw [b.length_bytes]
  exact Nat.add_le_add_left (SpelledInstruction.length_le_length_flatMap _) _

namespace Cursor

def TookAtLeast (c : Cursor) (n : Nat) (c' : Cursor) : Prop := ∃ w, c.Took w c' ∧ n ≤ w.length

theorem Took.remaining {c c' : Cursor} {w : List UInt8} (took : c.Took w c') :
    c'.remaining + w.length = c.remaining := by
  simp only [Cursor.remaining, Source.remaining_eq_length, took.bytes, List.length_append]
  omega

theorem TookAtLeast.remaining {c c' : Cursor} {n : Nat} (took : c.TookAtLeast n c') :
    c'.remaining + n ≤ c.remaining := by
  obtain ⟨w, took, least⟩ := took
  have whole := took.remaining
  omega

end Cursor

namespace Reader

variable {c : Cursor}

theorem headerRound_tookAtLeast {header next : Header}
    (again : ((headerRound header).run c).result = .ok (.again next)) :
    c.TookAtLeast 4 ((headerRound header).run c).state := by
  obtain ⟨w, took, takes⟩ := (headerRound_plain header).accounts_ok (Action.run_of_result again)
  rcases spelled_headerRound (congrArg Step.result (takes [])) with
    ⟨last, rest, split⟩ | ⟨f, rest, split⟩
  · -- The tag that ends a header asks for no other round.
    have ends := takes []
    rw [split] at ends
    cases ends
  · rw [List.append_nil] at split
    obtain ⟨rfl, -, -⟩ := takes.eq_of_takes (takes_headerRound f header c.position) split
    exact ⟨f.bytes, took, f.four_le_length_bytes⟩

theorem header_tookAtLeast {h : Header} (read : (header.run c).result = .ok h) :
    c.TookAtLeast 7 (header.run c).state := by
  obtain ⟨s, took, -, -⟩ := header_accounts_ok (Action.run_of_result read)
  exact ⟨s.bytes, took, s.seven_le_length_bytes⟩

theorem instruction_tookAtLeast {i : Instruction} (read : (instruction.run c).result = .ok i) :
    c.TookAtLeast 1 (instruction.run c).state := by
  obtain ⟨s, took, -, -⟩ := instruction_accounts_ok (Action.run_of_result read)
  exact ⟨s.bytes, took, Nat.succ_pos _⟩

theorem block_tookAtLeast {index : Nat} {boundary : Boundary} {b : Block}
    (read : ((block index boundary).run c).result = .ok (some b)) :
    c.TookAtLeast (8 + b.instructions.length) ((block index boundary).run c).state := by
  obtain ⟨s, took, rfl, -, -⟩ := block_accounts_some (Action.run_of_result read)
  refine ⟨s.bytes, took, ?_⟩
  simpa [SpelledBlock.block, lengthWidth] using s.length_bytes_ge

-- ---------------------------------------------------------------------------
-- Loops
-- ---------------------------------------------------------------------------

theorem stringBytes_endsWithin (c : Cursor) :
    EndsWithin Cursor.remaining 1 stringRound [] c (stringBytes.run c) :=
  Action.loop_endsWithin (fun seen => (stringRound_consumes seen).neverGrows)
    (fun seen => (stringRound_consumes seen).advances.spends) [] c

theorem headerFields_endsWithin (header : Header) (c : Cursor) :
    EndsWithin Cursor.remaining 4 headerRound header c ((headerFields header).run c) :=
  Action.loop_endsWithin (fun header => (headerRound_consumes header).neverGrows)
    (fun _ _ _ again => (headerRound_tookAtLeast again).remaining) header c

theorem instructionsUpTo_endsWithin (stop : Nat) (c : Cursor) :
    EndsWithin Cursor.remaining 1 (blockRound stop) [] c ((instructionsUpTo stop).run c) := by
  refine Action.loop_endsWithin (fun seen => position_neverGrows.bind fun offset => ?_)
    (fun seen => (blockRound_advances stop seen).spends) [] c
  split
  · exact instruction_consumes.neverGrows.bind fun _ => .pure _
  · exact .pure _

theorem block_neverGrows (index : Nat) (boundary : Boundary) :
    NeverGrows Cursor.remaining (block index boundary) := by
  refine isExhausted_neverGrows.bind fun exhausted => ?_
  split
  · exact .pure _
  · exact (presentBlock_consumes index boundary).neverGrows.bind fun _ => .pure _

end Reader

namespace Disassembly

theorem nextBlock_neverGrows : NeverGrows remaining nextBlock := by
  intro walk
  have read := Reader.block_neverGrows walk.nextIndex walk.policy.boundary walk.cursor
  simp only [nextBlock, advance]
  split
  · exact Nat.le_refl _
  · split <;> exact read

theorem remaining_advance_le {walk : Disassembly} {b : Block}
    (h : walk.advance.result = .ok (some b)) :
    walk.advance.state.remaining + 8 ≤ walk.remaining := by
  unfold advance at h ⊢
  split at h
  · cases h
  · dsimp only at h ⊢
    split at h
    · rename_i unfinished found _ read
      rw [if_neg unfinished]
      have least := (Reader.block_tookAtLeast read).remaining
      simp only [remaining]
      omega
    · rename_i other
      exact absurd h (other b)

end Disassembly

namespace Run

theorem onWalk_nextBlock_neverGrows : NeverGrows remaining (onWalk Disassembly.nextBlock) :=
  fun run => Disassembly.nextBlock_neverGrows run.walk

theorem round_neverGrows (total : Summary) : NeverGrows remaining (round total) := by
  refine onWalk_nextBlock_neverGrows.bind fun found => ?_
  split
  · exact (onSink_neverGrows _).bind fun _ => .pure _
  · refine NeverGrows.bind ?_ fun _ => .pure _
    exact (onSink_neverGrows _).bind fun _ => (NeverGrows.view _).bind fun _ => .pure _

theorem round_spends (total : Summary) : Spends remaining 8 (round total) := by
  intro run next again
  unfold round at again ⊢
  cases read : ((onWalk Disassembly.nextBlock).run run).result with
  | error e =>
    rw [Action.run_bind_error read] at again
    cases again
  | ok found =>
    rw [Action.run_bind_ok read] at again ⊢
    cases found with
    | none => exact absurd again (Action.result_bind_done_ne_again _ _ _)
    | some b =>
      -- Writing the block leaves the walk where it is.
      have least : ((onWalk Disassembly.nextBlock).run run).state.remaining + 8 ≤ run.remaining :=
        Disassembly.remaining_advance_le read
      refine Nat.le_trans (Nat.add_le_add_right ?_ 8) least
      exact (onSink_neverGrows _).bind (fun _ => .pure _) _

theorem listBlocks_endsWithin (run : Run) :
    EndsWithin remaining 8 round {} run (listBlocks.run run) :=
  Action.loop_endsWithin round_neverGrows round_spends {} run

end Run

end Latitude
