import Mathlib.Algebra.BigOperators.Group.Finset.Basic
import Mathlib.Algebra.BigOperators.Ring.Finset
import Mathlib.Algebra.Ring.Nat
import Mathlib.Data.Set.Function
import Latitude.Proofs.IntegerLaws

/-!
# Integers of every width

A magnitude of up to eight bytes is read as the sum of its bytes, each times its power of
256, and reading tells any two strings of one width apart. A wider one is refused before any
of its bytes is taken. A signed integer can also be refused for its magnitude, at the sign and
with all its bytes taken; only eight bytes can spell one that is too large.
-/

namespace Latitude

namespace Encoding

/-- The sum of the first `width` bytes, each times the power of 256 that its index gives. -/
def positionalSum (width : Nat) (data : List UInt8) : Nat :=
  ∑ i ∈ Finset.range width, (data.getD i 0).toNat * 256 ^ i

theorem positionalSum_succ (width : Nat) (b : UInt8) (data : List UInt8) :
    positionalSum (width + 1) (b :: data) = b.toNat + 256 * positionalSum width data := by
  have shifted (n i : Nat) : n * 256 ^ (i + 1) = 256 * (n * 256 ^ i) := by
    rw [pow_succ', mul_left_comm]
  simp [positionalSum, Finset.sum_range_succ', Finset.mul_sum, shifted, add_comm]

theorem ofLittleEndian_take (width : Nat) (data : List UInt8) :
    ofLittleEndian (data.take width) = positionalSum width data := by
  induction width generalizing data with
  | zero => simp [positionalSum, ofLittleEndian]
  | succ width ih =>
    cases data with
    | nil => simp [positionalSum, ofLittleEndian]
    | cons b data => rw [List.take_succ_cons, ofLittleEndian, ih, positionalSum_succ]

theorem positionalSum_lt (width : Nat) (data : List UInt8) :
    positionalSum width data < 256 ^ width := by
  rw [← ofLittleEndian_take]
  exact ofLittleEndian_lt_of_le (List.length_take_le width data)

theorem littleEndian_ofLittleEndian (data : List UInt8) :
    littleEndian data.length (ofLittleEndian data) = data := by
  induction data with
  | nil => rfl
  | cons b data ih =>
    have hb := b.toNat_lt
    have low : UInt8.ofNat (b.toNat + 256 * ofLittleEndian data) = b := by
      apply UInt8.toNat_inj.1
      rw [UInt8.toNat_ofNat']
      omega
    have high : (b.toNat + 256 * ofLittleEndian data) / 256 = ofLittleEndian data := by omega
    rw [ofLittleEndian, List.length_cons, littleEndian, low, high, ih]

end Encoding

namespace Reader

open Encoding

variable {width : Nat} {data : List UInt8}

-- ---------------------------------------------------------------------------
-- Magnitudes
-- ---------------------------------------------------------------------------

theorem toNat_ofNat_ofLittleEndian (narrow : data.length ≤ 8) :
    (UInt64.ofNat (ofLittleEndian data)).toNat = ofLittleEndian data :=
  UInt64.toNat_ofNat_of_lt' (ofLittleEndian_lt_of_le narrow)

theorem takes_unsigned_of_wide (wide : 8 < width) (p : Nat) :
    Takes (unsigned width) p [] (.error (.integerOverflow width p)) [] := by
  refine .bind_position ?_
  rw [if_pos wide]
  exact .fail _ p

theorem split_at_width (long : width ≤ data.length) :
    (data.take width).length = width ∧ data = data.take width ++ data.drop width :=
  ⟨List.length_take_of_le long, (List.take_append_drop width data).symm⟩

theorem unsigned_over (narrow : width ≤ 8) (long : width ≤ data.length) (p : Nat) :
    ∃ n : UInt64, n.toNat = positionalSum width data ∧
      (unsigned width).run (.over data p) = ⟨.ok n, .over (data.drop width) (p + width), []⟩ := by
  obtain ⟨length, split⟩ := split_at_width long
  have run := takes_unsigned (w := data.take width) (by omega) p (data.drop width)
  rw [length, ← split] at run
  refine ⟨_, ?_, run⟩
  rw [toNat_ofNat_ofLittleEndian (by omega), ofLittleEndian_take]

theorem unsigned_bijOn (narrow : width ≤ 8) (p : Nat) :
    Set.BijOn (fun w => ((unsigned width).run (.over w p)).result) {w | w.length = width}
      {result | ∃ n : UInt64, n.toNat < 256 ^ width ∧ result = .ok n} := by
  have read {w : List UInt8} (length : w.length = width) :
      ((unsigned width).run (.over w p)).result = .ok (UInt64.ofNat (ofLittleEndian w)) := by
    have run := takes_unsigned (w := w) (by omega) p []
    rw [length, List.append_nil] at run
    rw [run]
  refine ⟨?_, ?_, ?_⟩
  · intro w length
    have bound := ofLittleEndian_lt w
    refine ⟨_, ?_, read length⟩
    rw [Set.mem_ofPred_eq] at length
    rwa [toNat_ofNat_ofLittleEndian (by omega), ← length]
  · intro v hv w hw same
    rw [Set.mem_ofPred_eq] at hv hw
    simp only [read hv, read hw, Except.ok.injEq] at same
    have value := congrArg UInt64.toNat same
    rw [toNat_ofNat_ofLittleEndian (by omega), toNat_ofNat_ofLittleEndian (by omega)] at value
    rw [← littleEndian_ofLittleEndian v, value, hv, ← hw, littleEndian_ofLittleEndian]
  · rintro _ ⟨n, bound, rfl⟩
    have length := length_littleEndian width n.toNat
    refine ⟨littleEndian width n.toNat, length, ?_⟩
    simp only [read length, ofLittleEndian_littleEndian bound, UInt64.ofNat_toNat]

-- ---------------------------------------------------------------------------
-- Signed integers
-- ---------------------------------------------------------------------------

theorem takes_signed_of_wide (wide : 8 < width) (sign : UInt8) (p : Nat) :
    Takes (signed width) p [sign] (.error (.integerOverflow width (p + 1))) [] :=
  .bind_position (.bind_byte (takes_unsigned_of_wide wide (p + 1)).bind_error)

theorem takes_signed_of_large {w : List UInt8} (h : w.length ≤ 8)
    (large : magnitudeLimit ≤ ofLittleEndian w) (sign : UInt8) (p : Nat) :
    Takes (signed w.length) p (sign :: w) (.error (.integerOverflow w.length p)) [] := by
  refine .bind_position (.bind_byte (.bind_done (takes_unsigned h (p + 1)) ?_))
  rw [toNat_ofNat_ofLittleEndian h, if_neg (Nat.not_lt.2 large)]
  exact .fail _ _

theorem eq_eight_of_large (narrow : width ≤ 8)
    (large : magnitudeLimit ≤ positionalSum width data) : width = 8 := by
  by_contra other
  have bound := Nat.lt_of_lt_of_le (positionalSum_lt width data)
    (Nat.pow_le_pow_right (by decide : 0 < 256) (by omega : width ≤ 7))
  have limit : 256 ^ 7 < magnitudeLimit := by decide
  omega

theorem signed_over (narrow : width ≤ 8) (long : width ≤ data.length) (sign : UInt8) (p : Nat) :
    (signed width).run (.over (sign :: data) p) =
      ⟨if positionalSum width data < magnitudeLimit then
          .ok (signedValue sign (positionalSum width data))
        else .error (.integerOverflow width p),
        .over (data.drop width) (p + (width + 1)), []⟩ := by
  obtain ⟨length, split⟩ := split_at_width long
  rw [← ofLittleEndian_take]
  split
  · rename_i small
    have run := takes_signed (w := data.take width) (by omega) small sign p (data.drop width)
    rwa [length, List.length_cons, length, List.cons_append, ← split] at run
  · rename_i large
    have run := takes_signed_of_large (w := data.take width) (by omega) (Nat.not_lt.1 large)
      sign p (data.drop width)
    rwa [length, List.length_cons, length, List.cons_append, ← split] at run

/-- Integers of any width, on any bytes. A width of more than eight is refused, with nothing
taken but the sign. Up to eight bytes are read if they are there: a magnitude as the exact sum,
one for every number below the power of 256; a signed integer as the sum with its sign, unless
the sum reaches the 63rd power of two, which takes eight bytes and is reported at the sign. If
they are not there, the reader takes what there is and reports the end behind it. -/
theorem integers_exact_at_every_width (width p : Nat) (data : List UInt8) :
    (8 < width →
      (unsigned width).run (.over data p) =
        ⟨.error (.integerOverflow width p), .over data p, []⟩ ∧
      ∀ sign, (signed width).run (.over (sign :: data) p) =
        ⟨.error (.integerOverflow width (p + 1)), .over data (p + 1), []⟩) ∧
    (width ≤ 8 → width ≤ data.length →
      (∃ n : UInt64, n.toNat = positionalSum width data ∧
        (unsigned width).run (.over data p) =
          ⟨.ok n, .over (data.drop width) (p + width), []⟩) ∧
      ∀ sign,
        let step := (signed width).run (.over (sign :: data) p)
        step.state = .over (data.drop width) (p + (width + 1)) ∧ step.events = [] ∧
        (positionalSum width data < 2 ^ 63 → step.result =
          .ok (if sign = 0 then positionalSum width data else -positionalSum width data)) ∧
        (step.result = .error (.integerOverflow width p) ↔ 2 ^ 63 ≤ positionalSum width data) ∧
        (2 ^ 63 ≤ positionalSum width data → width = 8)) ∧
    (width ≤ 8 → Set.BijOn (fun w => ((unsigned width).run (.over w p)).result)
      {w | w.length = width} {result | ∃ n : UInt64, n.toNat < 256 ^ width ∧ result = .ok n}) ∧
    (width ≤ 8 → data.length < width →
      RunsOut (unsigned width) p data ∧ ∀ sign, RunsOut (signed width) p (sign :: data)) ∧
    RunsOut (signed width) p [] := by
  have limit : magnitudeLimit = 2 ^ 63 := rfl
  refine ⟨fun wide => ⟨?_, fun sign => ?_⟩, fun narrow long => ⟨unsigned_over narrow long p, ?_⟩,
    fun narrow => unsigned_bijOn narrow p, fun narrow short => ⟨?_, fun sign => ?_⟩, ⟨[], rfl⟩⟩
  · exact takes_unsigned_of_wide wide p data
  · exact takes_signed_of_wide wide sign p data
  · intro sign step
    have run : step = _ := signed_over narrow long sign p
    rw [run, ← limit]
    refine ⟨rfl, rfl, fun small => if_pos small, ?_, eq_eight_of_large narrow⟩
    split
    · rename_i small
      exact ⟨nofun, fun large => absurd small (Nat.not_lt.2 large)⟩
    · rename_i large
      exact ⟨fun _ => Nat.not_lt.1 large, fun _ => rfl⟩
  · exact unsigned_runsOut narrow short p
  · exact signed_runsOut narrow (by simpa using short) p

/-- Eight bytes at the limit and one below it, nine bytes, two bytes of three, and a number of
two bytes. -/
theorem integers_exact_at_every_width_near_limit :
    let above : List UInt8 := [0, 0, 0, 0, 0, 0, 0, 0x80, 5]
    let below : List UInt8 := [0xFF, 0xFF, 0xFF, 0xFF, 0xFF, 0xFF, 0xFF, 0x7F, 5]
    ((signed 8).run (.over (7 :: above) 3)).result = .error (.integerOverflow 8 3) ∧
      ((signed 8).run (.over (7 :: above) 3)).state = .over [5] 12 ∧
      ((signed 8).run (.over (7 :: below) 3)).result = .ok (-0x7FFFFFFFFFFFFFFF) ∧
      (signed 9).run (.over (7 :: above) 3) =
        ⟨.error (.integerOverflow 9 4), .over above 4, []⟩ ∧
      RunsOut (signed 3) 3 [7, 1, 2] ∧
      ∃ w : List UInt8, w.length = 2 ∧ ((unsigned 2).run (.over w 3)).result = .ok 513 := by
  intro above below
  have large : 2 ^ 63 ≤ positionalSum 8 above := by decide
  have value : positionalSum 8 below = 0x7FFFFFFFFFFFFFFF := by decide
  obtain ⟨-, eight, -⟩ := integers_exact_at_every_width 8 3 above
  obtain ⟨-, eight', -⟩ := integers_exact_at_every_width 8 3 below
  obtain ⟨state, -, -, refused, -⟩ := (eight (by decide) (by decide)).2 7
  obtain ⟨-, -, read, -⟩ := (eight' (by decide) (by decide)).2 7
  rw [value] at read
  obtain ⟨-, wide⟩ := (integers_exact_at_every_width 9 3 above).1 (by decide)
  obtain ⟨-, -, -, short, -⟩ := integers_exact_at_every_width 3 3 [1, 2]
  obtain ⟨-, -, two, -⟩ := integers_exact_at_every_width 2 3 []
  obtain ⟨-, -, onto⟩ := two (by decide)
  obtain ⟨w, length, spelled⟩ := onto ⟨513, by decide, rfl⟩
  exact ⟨refused.2 large, state, read (by decide), wide 7, (short (by decide) (by decide)).2 7, w,
    length, spelled⟩

end Reader

end Latitude
