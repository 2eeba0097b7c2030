import Latitude.Proofs.Accounting

/-!
# Queries to a cursor

A cursor can be asked for any of the things that the format has, time and again, also after
an error. `Query.law`: what holds of plain readers, and of asking whether the source is at an
end, holds of every query.

`Reads` says which bytes a reader takes, one by one, on the way to what it comes to.
`Reads.accounts`: these are gone from the source, the position has moved on by their number,
and nothing else has changed, whether the reader succeeds or fails.
-/

namespace Latitude

namespace Reader

inductive Query
  | byte
  | unsigned (width : Nat)
  | signed (width : Nat)
  | string
  | register
  | opcode
  | method
  | isExhausted
  | headerValue
  | header
  | arg (kind : ArgKind)
  | instruction
  | block (index : Nat) (boundary : Boundary)

namespace Query

def Answer : Query → Type
  | .byte => UInt8
  | .unsigned _ => UInt64
  | .signed _ => Int
  | .string => String
  | .register => Register
  | .opcode => Opcode
  | .method => MethodRef
  | .isExhausted => Bool
  | .headerValue => HeaderValue
  | .header => Header
  | .arg _ => Arg
  | .instruction => Instruction
  | .block .. => Option Block

def reader : (query : Query) → Reader query.Answer
  | .byte => Reader.byte
  | .unsigned width => Reader.unsigned width
  | .signed width => Reader.signed width
  | .string => Reader.string
  | .register => Reader.register
  | .opcode => Reader.opcode
  | .method => Reader.method
  | .isExhausted => Reader.isExhausted
  | .headerValue => Reader.headerValue
  | .header => Reader.header
  | .arg kind => Reader.arg kind
  | .instruction => Reader.instruction
  | .block index boundary => Reader.block index boundary

/-- A law of plain readers that holds of `isExhausted` too is a law of all queries. -/
theorem law {P : (α : Type) → Reader α → Cursor → Prop} (law : Law P)
    (looks : ∀ c, P Bool Reader.isExhausted c) (query : Query) (c : Cursor) :
    P query.Answer query.reader c := by
  cases query with
  | byte => exact law.byte c
  | unsigned width => exact (unsigned_plain width).law law c
  | signed width => exact (signed_plain width).law law c
  | string => exact string_plain.law law c
  | register => exact register_plain.law law c
  | opcode => exact opcode_plain.law law c
  | method => exact method_plain.law law c
  | isExhausted => exact looks c
  | headerValue => exact headerValue_plain.law law c
  | header => exact header_plain.law law c
  | arg kind => exact (arg_plain kind).law law c
  | instruction => exact instruction_plain.law law c
  | block index boundary =>
    refine law.bind (looks c) fun exhausted _ => ?_
    cases exhausted with
    | true => exact law.pure none _
    | false => exact (foundBlock_plain index boundary).law law _

end Query

-- ---------------------------------------------------------------------------
-- The bytes that are read
-- ---------------------------------------------------------------------------

/-- At `c` the reader takes these bytes, one by one and in this order, and then succeeds or
fails. -/
inductive Reads : {α : Type} → Reader α → Cursor → List UInt8 → Prop
  | pure {α : Type} (a : α) (c : Cursor) : Reads (Pure.pure a : Reader α) c []
  | fail {α : Type} (e : ReadError) (c : Cursor) : Reads (Action.fail e : Reader α) c []
  | emit (event : Event) (c : Cursor) : Reads (Action.emit event) c []
  | position (c : Cursor) : Reads Reader.position c []
  | isExhausted (c : Cursor) : Reads Reader.isExhausted c []
  | byte {c : Cursor} {b : UInt8} : (Reader.byte.run c).result = .ok b → Reads Reader.byte c [b]
  | noByte {c : Cursor} {e : ReadError} : (Reader.byte.run c).result = .error e →
      Reads Reader.byte c []
  | bind {α β : Type} {m : Reader α} {f : α → Reader β} {c : Cursor} {a : α} {v w : List UInt8} :
      Reads m c v → (m.run c).result = .ok a → Reads (f a) (m.run c).state w →
      Reads (m >>= f) c (v ++ w)
  | stop {α β : Type} {m : Reader α} {f : α → Reader β} {c : Cursor} {e : ReadError}
      {v : List UInt8} : Reads m c v → (m.run c).result = .error e → Reads (m >>= f) c v

theorem reads_law : Law fun _ m c => ∃ w, Reads m c w where
  pure a c := ⟨[], .pure a c⟩
  fail e c _ := ⟨[], .fail e c⟩
  emit event c := ⟨[], .emit event c⟩
  position c := ⟨[], .position c⟩
  byte c := by
    cases taken : (Reader.byte.run c).result with
    | ok b => exact ⟨[b], .byte taken⟩
    | error e => exact ⟨[], .noByte taken⟩
  bind := by
    intro α β m f c hm hf
    obtain ⟨v, first⟩ := hm
    cases given : (m.run c).result with
    | error e => exact ⟨v, first.stop given⟩
    | ok a =>
      obtain ⟨w, second⟩ := hf a given
      exact ⟨v ++ w, first.bind given second⟩

end Reader

-- ---------------------------------------------------------------------------
-- What is left of the source
-- ---------------------------------------------------------------------------

theorem Source.bytes_request (source : Source) : source.request.2.bytes = source.bytes := by
  fun_induction request source <;> simp_all [bytes]

theorem Source.bytes_dropByte {source rest : Source} {b : UInt8}
    (h : source.request = (.byte b, rest)) : source.bytes = b :: rest.dropByte.bytes := by
  have same := bytes_request source
  obtain ⟨data, tail, rfl⟩ := request_eq_byte h
  rw [h] at same
  exact same.symm

namespace Cursor

/-- Between the two cursors the bytes `w` have been taken, and no others. -/
structure Took (c : Cursor) (w : List UInt8) (c' : Cursor) : Prop where
  bytes : c.source.bytes = w ++ c'.source.bytes
  position : c'.position = c.position + w.length

theorem Took.refl (c : Cursor) : c.Took [] c := ⟨rfl, rfl⟩

theorem Took.trans {c c' c'' : Cursor} {v w : List UInt8} (first : c.Took v c')
    (second : c'.Took w c'') : c.Took (v ++ w) c'' where
  bytes := by rw [first.bytes, second.bytes, List.append_assoc]
  position := by rw [second.position, first.position, List.length_append, Nat.add_assoc]

theorem took_byte {c : Cursor} {b : UInt8} (h : c.takeByte.result = .ok b) :
    c.Took [b] c.takeByte.state := by
  unfold takeByte at h ⊢
  split at h
  · rename_i shown
    cases h
    exact ⟨Source.bytes_dropByte shown, rfl⟩
  · cases h
  · cases h

theorem took_nothing {c : Cursor} {e : ReadError} (h : c.takeByte.result = .error e) :
    c.Took [] c.takeByte.state := by
  have same := Source.bytes_request c.source
  unfold takeByte at h ⊢
  split at h
  · cases h
  all_goals
    rename_i shown
    rw [shown] at same
    exact ⟨same.symm, rfl⟩

theorem took_atEnd (c : Cursor) : c.Took [] c.atEnd.state := by
  have same := Source.bytes_request c.source
  unfold atEnd
  split <;> rename_i shown <;> rw [shown] at same <;> exact ⟨same.symm, rfl⟩

end Cursor

open Reader (Query Reads)

theorem Reader.Reads.accounts {α : Type} {m : Reader α} {c : Cursor} {w : List UInt8}
    (h : Reads m c w) : c.Took w (m.run c).state := by
  induction h with
  | pure | fail | emit | position => exact .refl _
  | isExhausted c => exact c.took_atEnd
  | byte taken => exact Cursor.took_byte taken
  | noByte taken => exact Cursor.took_nothing taken
  | bind _ given _ first second =>
    rw [Action.run_bind_ok given]
    exact first.trans second
  | stop _ given first =>
    rw [Action.run_bind_error given]
    exact first

-- ---------------------------------------------------------------------------
-- Queries one after another
-- ---------------------------------------------------------------------------

structure Reply where
  query : Query
  before : Cursor
  step : Step Cursor query.Answer

namespace Reply

def after (r : Reply) : Cursor := r.step.state

/-- The bytes that the source held before the query and holds no more. -/
def taken (r : Reply) : List UInt8 :=
  r.before.source.bytes.take (r.before.source.bytes.length - r.after.source.bytes.length)

theorem taken_eq {r : Reply} {w : List UInt8} (h : r.before.Took w r.after) : r.taken = w := by
  rw [taken, h.bytes, List.length_append, Nat.add_sub_cancel_right, List.take_left]

end Reply

namespace Cursor

def ask (c : Cursor) (query : Query) : Reply := ⟨query, c, query.reader.run c⟩

def replies (c : Cursor) : List Query → List Reply
  | [] => []
  | query :: queries => c.ask query :: (c.ask query).after.replies queries

theorem reads_ask (c : Cursor) (query : Query) : Reads query.reader c (c.ask query).taken := by
  obtain ⟨w, reads⟩ := Query.law Reader.reads_law (fun c => ⟨[], .isExhausted c⟩) query c
  have same : (c.ask query).taken = w := Reply.taken_eq reads.accounts
  rwa [same]

theorem took_ask (c : Cursor) (query : Query) : c.Took (c.ask query).taken (c.ask query).after :=
  (c.reads_ask query).accounts

theorem exists_ask_of_mem_replies {c : Cursor} {queries : List Query} {r : Reply}
    (h : r ∈ c.replies queries) : ∃ (before : Cursor) (query : Query), r = before.ask query := by
  induction queries generalizing c with
  | nil => cases h
  | cons query queries ih =>
    rcases List.mem_cons.1 h with rfl | later
    · exact ⟨c, query, rfl⟩
    · exact ih later

theorem took_replies {c : Cursor} {queries : List Query} {earlier later : List Reply} {r : Reply}
    (h : c.replies queries = earlier ++ r :: later) :
    c.Took ((earlier ++ [r]).flatMap Reply.taken) r.after := by
  induction queries generalizing c earlier with
  | nil => cases earlier <;> cases h
  | cons query queries ih =>
    have first := c.took_ask query
    cases earlier with
    | nil =>
      obtain ⟨rfl, -⟩ := List.cons.inj h
      simpa using first
    | cons x earlier =>
      obtain ⟨rfl, rest⟩ := List.cons.inj h
      exact first.trans (ih rest)

theorem position_le_of_mem_replies {c : Cursor} {queries : List Query} {r : Reply}
    (h : r ∈ c.replies queries) : c.position ≤ r.after.position := by
  obtain ⟨earlier, later, split⟩ := List.append_of_mem h
  rw [(took_replies split).position]
  exact Nat.le_add_right ..

theorem pairwise_position_replies (c : Cursor) (queries : List Query) :
    (c.replies queries).Pairwise fun r s => r.after.position ≤ s.after.position := by
  induction queries generalizing c with
  | nil => exact .nil
  | cons query queries ih => exact .cons (fun _ later => position_le_of_mem_replies later) (ih _)

end Cursor

/-- Whatever is asked of a cursor, and however often it fails: the position is the number of
bytes taken since the start, and what the source still holds are its bytes from there on. A
query takes the bytes that it reads, also if it fails behind them; asking for the end of the
source, or for a byte that is not there, takes none. -/
theorem position_counts_bytes_read (source : Source) (queries : List Query) :
    let replies := Cursor.replies { source } queries
    (∀ earlier r later, replies = earlier ++ r :: later →
      let taken := (earlier ++ [r]).flatMap Reply.taken
      r.after.position = taken.length ∧ source.bytes = taken ++ r.after.source.bytes) ∧
    (∀ r ∈ replies, r.after.source.bytes = source.bytes.drop r.after.position) ∧
    (replies.Pairwise fun r s => r.after.position ≤ s.after.position) ∧
    ∀ r ∈ replies,
      Reads r.query.reader r.before r.taken ∧
      r.before.source.bytes = r.taken ++ r.after.source.bytes ∧
      r.after.position = r.before.position + r.taken.length ∧
      (r.query = .isExhausted ∨ r.query = .byte ∧ (∃ e, r.step.result = .error e) →
        r.after.position = r.before.position ∧
          r.after.source.bytes = r.before.source.bytes) := by
  intro replies
  refine ⟨?_, ?_, Cursor.pairwise_position_replies _ queries, ?_⟩
  · intro earlier r later split taken
    have took : Cursor.Took { source } taken r.after := Cursor.took_replies split
    exact ⟨by simpa using took.position, took.bytes⟩
  · intro r mem
    obtain ⟨earlier, later, split⟩ := List.append_of_mem mem
    have took : Cursor.Took { source } _ r.after := Cursor.took_replies split
    rw [show source.bytes = _ from took.bytes, took.position, Nat.zero_add, List.drop_left]
  · intro r mem
    obtain ⟨before, query, rfl⟩ := Cursor.exists_ask_of_mem_replies mem
    have took := before.took_ask query
    refine ⟨before.reads_ask query, took.bytes, took.position, fun idle => ?_⟩
    have nothing : before.Took [] (before.ask query).after := by
      rcases idle with rfl | ⟨rfl, e, failed⟩
      · exact before.took_atEnd
      · exact Cursor.took_nothing failed
    exact ⟨nothing.position, nothing.bytes.symm⟩

end Latitude
