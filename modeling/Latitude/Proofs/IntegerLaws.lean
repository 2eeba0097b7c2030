import Mathlib.Algebra.Ring.Nat
import Latitude.Encoding
import Latitude.Proofs.FrontLaws

/-!
# Integers are positional sums

The number that bytes spell, the least significant first, and the readers of integers in
terms of it. A word is put together by or and shift; no byte overlaps another or leaves
the word, so the word is the sum. Where bytes are missing the reader runs out of them.
-/

namespace Latitude

namespace Encoding

/-- The number that the bytes spell, the least significant first. -/
def ofLittleEndian : List UInt8 → Nat
  | [] => 0
  | b :: data => b.toNat + 256 * ofLittleEndian data

theorem ofLittleEndian_lt (data : List UInt8) : ofLittleEndian data < 256 ^ data.length := by
  induction data with
  | nil => decide
  | cons b data ih =>
    have hb := b.toNat_lt
    rw [ofLittleEndian, List.length_cons, Nat.pow_succ]
    omega

theorem ofLittleEndian_lt_of_le {data : List UInt8} {width : Nat} (h : data.length ≤ width) :
    ofLittleEndian data < 256 ^ width :=
  Nat.lt_of_lt_of_le (ofLittleEndian_lt data) (Nat.pow_le_pow_right (by decide) h)

theorem ofLittleEndian_littleEndian {width n : Nat} (h : n < 256 ^ width) :
    ofLittleEndian (littleEndian width n) = n := by
  induction width generalizing n with
  | zero => simp [littleEndian, ofLittleEndian] at h ⊢; omega
  | succ width ih =>
    have hn : n / 256 < 256 ^ width := by rw [Nat.pow_succ] at h; omega
    rw [littleEndian, ofLittleEndian, ih hn, UInt8.toNat_ofNat']
    omega

end Encoding

namespace Reader

open Encoding

variable {p : Nat} {data w : List UInt8}

theorem or_shiftLeft_eq_ofNat (low : UInt8) {n : Nat} (h : n < 256 ^ 7) :
    low.toUInt64 ||| (UInt64.ofNat n <<< 8) = UInt64.ofNat (low.toNat + 256 * n) := by
  have hlow := low.toNat_lt
  have hn : n < 2 ^ 64 := by omega
  have shifted : 2 ^ 8 * n < 2 ^ 64 := by omega
  have sum : low.toNat + 256 * n < 2 ^ 64 := by omega
  rw [← UInt64.toNat_inj, UInt64.toNat_or, UInt64.toNat_shiftLeft, UInt8.toNat_toUInt64,
    UInt64.toNat_ofNat_of_lt' hn, UInt64.toNat_ofNat_of_lt' sum]
  have shift : UInt64.toNat 8 % 64 = 8 := rfl
  rw [shift, Nat.shiftLeft_eq, Nat.mul_comm n, Nat.mod_eq_of_lt shifted, Nat.or_comm,
    ← Nat.two_pow_add_eq_or_of_lt hlow]
  omega

theorem takes_word (h : w.length ≤ 8) (p : Nat) :
    Takes (word w.length) p w (.ok (UInt64.ofNat (ofLittleEndian w))) [] := by
  induction w generalizing p with
  | nil => exact .pure _ p
  | cons b w ih =>
    have hw : w.length ≤ 7 := Nat.le_of_succ_le_succ h
    rw [ofLittleEndian, ← or_shiftLeft_eq_ofNat b (ofLittleEndian_lt_of_le hw)]
    exact .bind_byte ((ih (by omega) (p + 1)).bind_done (.pure _ _))

theorem word_runsOut {width : Nat} (h : data.length < width) (p : Nat) :
    RunsOut (word width) p data := by
  induction width generalizing data p with
  | zero => simp at h
  | succ width ih =>
    cases data with
    | nil => exact ⟨[], rfl⟩
    | cons b data =>
      exact (Takes.byte b p).bind_runsOut (ih (by simpa using h) (p + 1)).bind

theorem takes_unsigned (h : w.length ≤ 8) (p : Nat) :
    Takes (unsigned w.length) p w (.ok (UInt64.ofNat (ofLittleEndian w))) [] := by
  refine .bind_position ?_
  rw [if_neg (by omega)]
  exact takes_word h p

theorem unsigned_runsOut {width : Nat} (narrow : width ≤ 8) (h : data.length < width) (p : Nat) :
    RunsOut (unsigned width) p data := by
  refine (Takes.position p).bind_runsOut ?_
  rw [if_neg (by omega)]
  exact word_runsOut h p

def signedValue (sign : UInt8) (magnitude : Nat) : Int :=
  if sign = 0 then magnitude else -magnitude

theorem takes_signed (h : w.length ≤ 8) (small : ofLittleEndian w < magnitudeLimit)
    (sign : UInt8) (p : Nat) :
    Takes (signed w.length) p (sign :: w) (.ok (signedValue sign (ofLittleEndian w))) [] := by
  have value : (UInt64.ofNat (ofLittleEndian w)).toNat = ofLittleEndian w :=
    UInt64.toNat_ofNat_of_lt' (ofLittleEndian_lt_of_le h)
  refine .bind_position (.bind_byte (.bind_done (takes_unsigned h (p + 1)) ?_))
  rw [value, if_pos small]
  exact .pure _ _

theorem signed_runsOut {width : Nat} (narrow : width ≤ 8) (h : data.length < width + 1)
    (p : Nat) : RunsOut (signed width) p data := by
  refine (Takes.position p).bind_runsOut (v := []) ?_
  cases data with
  | nil => exact ⟨[], rfl⟩
  | cons b data =>
    exact (Takes.byte b p).bind_runsOut (unsigned_runsOut narrow (by simpa using h) (p + 1)).bind

end Reader

end Latitude
