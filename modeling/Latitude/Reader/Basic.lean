import Latitude.Action
import Latitude.Source

/-!
# Readers

A reader is an action on a cursor: a source and the number of bytes taken from it so
far. Here are the readers that touch the source, `byte` and `isExhausted`; all others
are put together from them.
-/

namespace Latitude

structure Cursor where
  source : Source
  position : Nat := 0
  deriving DecidableEq

namespace Cursor

def remaining (c : Cursor) : Nat := c.source.remaining

/-- Takes the next byte. The end of the source, also one reported as a failure, is a
truncation; any other failure is passed on. Neither moves the position. -/
def takeByte (c : Cursor) : Step Cursor UInt8 :=
  match c.source.request with
  | (.byte b, source) => ⟨.ok b, ⟨source.dropByte, c.position + 1⟩, []⟩
  | (.endOfFile, source) => ⟨.error (.endOfStream c.position), { c with source }, []⟩
  | (.fault fault, source) =>
    let e := if fault.kind = .unexpectedEof then .endOfStream c.position else .io fault.reason
    ⟨.error e, { c with source }, []⟩

/-- Tells whether the source is at an end. Takes no byte. -/
def atEnd (c : Cursor) : Step Cursor Bool :=
  match c.source.request with
  | (.byte _, source) => ⟨.ok false, { c with source }, []⟩
  | (.endOfFile, source) => ⟨.ok true, { c with source }, []⟩
  | (.fault fault, source) => ⟨.error (.io fault.reason), { c with source }, []⟩

theorem remaining_takeByte {c : Cursor} {b : UInt8} (h : c.takeByte.result = .ok b) :
    c.takeByte.state.remaining + 1 = c.remaining := by
  unfold takeByte at h ⊢
  split at h
  · rename_i hr
    exact Source.remaining_dropByte hr
  · cases h
  · cases h

theorem remaining_takeByte_of_error {c : Cursor} {e : ReadError}
    (h : c.takeByte.result = .error e) : c.takeByte.state.remaining = c.remaining := by
  have same := Source.remaining_request c.source
  unfold takeByte at h ⊢
  split at h
  · cases h
  all_goals
    rename_i hr
    rw [hr] at same
    exact same

theorem remaining_takeByte_le (c : Cursor) : c.takeByte.state.remaining ≤ c.remaining := by
  cases h : c.takeByte.result with
  | ok b => exact Nat.le_of_succ_le (Nat.le_of_eq (remaining_takeByte h))
  | error e => exact Nat.le_of_eq (remaining_takeByte_of_error h)

theorem remaining_atEnd (c : Cursor) : c.atEnd.state.remaining = c.remaining := by
  have same := Source.remaining_request c.source
  unfold atEnd
  split <;> rename_i h <;> rw [h] at same <;> exact same

end Cursor

abbrev Reader (α : Type) := Action Cursor α

namespace Reader

def position : Reader Nat := Action.view Cursor.position

def byte : Reader UInt8 := ⟨Cursor.takeByte⟩

def isExhausted : Reader Bool := ⟨Cursor.atEnd⟩

theorem position_neverGrows : Action.NeverGrows Cursor.remaining position :=
  .view _

theorem byte_consumes : Action.Consumes Cursor.remaining byte where
  neverGrows := Cursor.remaining_takeByte_le
  lt _ _ h := Nat.le_of_eq (Cursor.remaining_takeByte h)

theorem byte_neverGrows : Action.NeverGrows Cursor.remaining byte :=
  byte_consumes.neverGrows

theorem isExhausted_neverGrows : Action.NeverGrows Cursor.remaining isExhausted :=
  fun c => Nat.le_of_eq (Cursor.remaining_atEnd c)

end Reader

end Latitude
