/-!
# Byte sources

A source gives its bytes in pieces. Between them it may report its end, after which
more can follow, or fail. An interruption is a failure that only asks to try again.
After the last segment the source is at its end for good.

Main statements: `request` neither adds nor loses bytes, and shows the next byte without
taking it (`remaining_request`, `remaining_dropByte`).
-/

namespace Latitude

inductive FaultKind
  | other | interrupted | unexpectedEof | wouldBlock | invalidData
  deriving DecidableEq

structure Fault where
  kind : FaultKind
  reason : String
  deriving DecidableEq

inductive Segment
  | bytes (data : List UInt8)
  /-- An end that is reported once. -/
  | endOfFile
  | fault (fault : Fault)
  deriving DecidableEq

abbrev Source := List Segment

inductive Supply
  | byte (byte : UInt8)
  | endOfFile
  | fault (fault : Fault)
  deriving DecidableEq

namespace Source

def ofBytes (data : List UInt8) : Source := [.bytes data]

def bytes : Source → List UInt8
  | [] => []
  | .bytes data :: rest => data ++ bytes rest
  | _ :: rest => bytes rest

def remaining : Source → Nat
  | [] => 0
  | .bytes data :: rest => data.length + remaining rest
  | _ :: rest => remaining rest

/-- The bytes up to the first end or failure of any kind. -/
def pending : Source → List UInt8
  | .bytes data :: rest => data ++ pending rest
  | _ => []

/-- Asks for data, and again after each interruption. The byte shown is not taken; an
end or a failure is used up. -/
def request : Source → Supply × Source
  | [] => (.endOfFile, [])
  | .bytes [] :: rest => request rest
  | .bytes (byte :: data) :: rest => (.byte byte, .bytes (byte :: data) :: rest)
  | .endOfFile :: rest => (.endOfFile, rest)
  | .fault fault :: rest =>
    if fault.kind = .interrupted then request rest else (.fault fault, rest)

/-- Drops the byte that `request` has shown. -/
def dropByte : Source → Source
  | .bytes (_ :: data) :: rest => .bytes data :: rest
  | source => source

theorem remaining_eq_length (source : Source) : source.remaining = source.bytes.length := by
  fun_induction bytes source <;> simp_all [remaining]

theorem remaining_request (source : Source) :
    source.request.2.remaining = source.remaining := by
  fun_induction request source <;> simp_all [remaining]

theorem request_eq_byte {source rest : Source} {byte : UInt8}
    (h : source.request = (.byte byte, rest)) :
    ∃ data tail, rest = .bytes (byte :: data) :: tail := by
  fun_induction request source with
  | case3 head data tail =>
    cases h
    exact ⟨data, tail, rfl⟩
  | _ => simp_all

theorem remaining_dropByte {source rest : Source} {byte : UInt8}
    (h : source.request = (.byte byte, rest)) :
    rest.dropByte.remaining + 1 = source.remaining := by
  have same := remaining_request source
  obtain ⟨data, tail, rfl⟩ := request_eq_byte h
  rw [h] at same
  simp [dropByte, remaining] at same ⊢
  omega

end Source

end Latitude
