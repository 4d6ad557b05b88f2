/-
Rounding to nearest with 24 bits, ties to even.

The exponent is not bounded: it is the rounding of a 32-bit float for the values between its
smallest normal number and its largest one, and for zero.

* `roundEven` — the nearest integer;
* `binary32` — so many bits as a float has, as a `Rounding`.
-/
import Mathlib.Data.Int.Log
import AerialManipulator.Lib.Rounding

namespace Rounding

def roundEven (x : ℚ) : ℤ :=
  if x - ⌊x⌋ < 1 / 2 then ⌊x⌋
  else if 1 / 2 < x - ⌊x⌋ then ⌊x⌋ + 1
  else if ⌊x⌋ % 2 = 0 then ⌊x⌋
  else ⌊x⌋ + 1

theorem floor_le_roundEven (x : ℚ) : ⌊x⌋ ≤ roundEven x := by
  unfold roundEven
  split_ifs <;> omega

theorem roundEven_le (x : ℚ) : roundEven x ≤ ⌊x⌋ + 1 := by
  unfold roundEven
  split_ifs <;> omega

theorem roundEven_mono : Monotone roundEven := by
  intro x y hxy
  rcases (Int.floor_mono hxy).lt_or_eq with hlt | heq
  · exact (roundEven_le x).trans ((Int.add_one_le_of_lt hlt).trans (floor_le_roundEven y))
  · -- between the same two integers it is decided by the distance from the lower one
    unfold roundEven
    rw [← heq]
    split_ifs <;> first | omega | linarith

theorem roundEven_intCast (n : ℤ) : roundEven n = n := by
  unfold roundEven
  rw [Int.floor_intCast, sub_self, if_pos (by norm_num)]

/-- The distance of the values of 24 bits around `x`. -/
def ulp (x : ℚ) : ℚ := 2 ^ (Int.log 2 x - 23)

theorem ulp_pos (x : ℚ) : 0 < ulp x := zpow_pos (by norm_num) _

def roundPos (x : ℚ) : ℚ := roundEven (x / ulp x) * ulp x

theorem pow_mul_ulp (x : ℚ) : 2 ^ 23 * ulp x = 2 ^ Int.log 2 x := by
  rw [ulp, ← zpow_natCast, ← zpow_add₀ (by norm_num)]
  congr 1
  omega

theorem le_roundPos {x : ℚ} (hx : 0 < x) : 2 ^ Int.log 2 x ≤ roundPos x := by
  have hle : (2 : ℚ) ^ Int.log 2 x ≤ x := Int.zpow_log_le_self (by norm_num) hx
  have hdiv : ((2 ^ 23 : ℤ) : ℚ) ≤ x / ulp x := by
    rw [le_div_iff₀ (ulp_pos x), Int.cast_pow, Int.cast_ofNat, pow_mul_ulp]
    exact hle
  have hround := roundEven_mono hdiv
  rw [roundEven_intCast] at hround
  have hround' : ((2 ^ 23 : ℤ) : ℚ) ≤ roundEven (x / ulp x) := Int.cast_le.mpr hround
  rw [Int.cast_pow, Int.cast_ofNat] at hround'
  rw [← pow_mul_ulp]
  exact mul_le_mul_of_nonneg_right hround' (ulp_pos x).le

theorem roundPos_le {x : ℚ} : roundPos x ≤ 2 ^ (Int.log 2 x + 1) := by
  have hlt : x < (2 : ℚ) ^ (Int.log 2 x + 1) := Int.lt_zpow_succ_log_self (by norm_num) x
  have hpow : (2 : ℚ) ^ (Int.log 2 x + 1) = 2 ^ 24 * ulp x := by
    rw [zpow_add_one₀ (by norm_num), ← pow_mul_ulp]
    ring
  have hdiv : x / ulp x ≤ ((2 ^ 24 : ℤ) : ℚ) := by
    rw [div_le_iff₀ (ulp_pos x), Int.cast_pow, Int.cast_ofNat, ← hpow]
    exact hlt.le
  have hround := roundEven_mono hdiv
  rw [roundEven_intCast] at hround
  have hround' : (roundEven (x / ulp x) : ℚ) ≤ ((2 ^ 24 : ℤ) : ℚ) := Int.cast_le.mpr hround
  rw [Int.cast_pow, Int.cast_ofNat] at hround'
  rw [hpow]
  exact mul_le_mul_of_nonneg_right hround' (ulp_pos x).le

theorem roundPos_zero : roundPos 0 = 0 := by
  rw [roundPos, zero_div, ← Int.cast_zero, roundEven_intCast, Int.cast_zero, zero_mul]

theorem roundPos_nonneg {x : ℚ} (hx : 0 ≤ x) : 0 ≤ roundPos x := by
  rcases hx.eq_or_lt with rfl | hpos
  · rw [roundPos_zero]
  · exact (zpow_pos (by norm_num) _).le.trans (le_roundPos hpos)

theorem roundPos_mono {x y : ℚ} (hx : 0 ≤ x) (hxy : x ≤ y) : roundPos x ≤ roundPos y := by
  rcases hx.eq_or_lt with rfl | hpos
  · rw [roundPos_zero]
    exact roundPos_nonneg hxy
  · rcases (Int.log_mono_right (b := 2) hpos hxy).lt_or_eq with hlt | heq
    · -- a power of two lies between them
      exact roundPos_le.trans ((zpow_le_zpow_right₀ (by norm_num) (Int.add_one_le_of_lt hlt)).trans
        (le_roundPos (hpos.trans_le hxy)))
    · have hulp : ulp x = ulp y := by rw [ulp, ulp, heq]
      rw [roundPos, roundPos, hulp]
      have hdiv := (div_le_div_iff_of_pos_right (ulp_pos y)).mpr hxy
      exact mul_le_mul_of_nonneg_right (Int.cast_le.mpr (roundEven_mono hdiv)) (ulp_pos y).le

theorem roundPos_of_eq {x : ℚ} {m : ℤ} (h : x = m * ulp x) : roundPos x = x := by
  have hdiv : x / ulp x = m := (div_eq_iff (ulp_pos x).ne').mpr h
  rw [roundPos, hdiv, roundEven_intCast, ← h]

theorem roundPos_natCast {n : ℕ} (hn : n ≤ 2 ^ 24) : roundPos n = n := by
  rcases n.eq_zero_or_pos with rfl | hpos
  · exact roundPos_zero
  · have hlog : Int.log 2 (n : ℚ) = Nat.log 2 n := Int.log_natCast 2 n
    have hpow : 2 ^ Nat.log 2 n ≤ n := Nat.pow_log_le_self 2 hpos.ne'
    rcases Nat.lt_or_ge (Nat.log 2 n) 24 with hlt | hge
    · have hulp : ulp (n : ℚ) * 2 ^ (23 - Nat.log 2 n) = 1 := by
        rw [ulp, hlog, ← zpow_natCast, ← zpow_add₀ (by norm_num), Nat.cast_sub (by omega)]
        exact (congrArg ((2 : ℚ) ^ ·) (by push_cast; omega)).trans (zpow_zero 2)
      apply @roundPos_of_eq _ ((n * 2 ^ (23 - Nat.log 2 n) : ℕ) : ℤ)
      push_cast
      rw [mul_assoc, mul_comm _ (ulp _), hulp, mul_one]
    · have hmax : 2 ^ 24 ≤ n := (Nat.pow_le_pow_right (by norm_num) hge).trans hpow
      obtain rfl : n = 2 ^ 24 := le_antisymm hn hmax
      apply @roundPos_of_eq _ (2 ^ 23)
      rw [ulp, hlog, Nat.log_pow (by norm_num)]
      norm_num

def roundNearest (x : ℚ) : ℚ := if 0 ≤ x then roundPos x else -roundPos (-x)

theorem roundNearest_mono : Monotone roundNearest := by
  intro x y hxy
  unfold roundNearest
  split_ifs with hx hy hy
  · exact roundPos_mono hx hxy
  · exact absurd (hx.trans hxy) hy
  · exact (neg_nonpos.mpr (roundPos_nonneg (by linarith))).trans (roundPos_nonneg hy)
  · exact neg_le_neg (roundPos_mono (by linarith) (neg_le_neg hxy))

theorem roundNearest_intCast {n : ℤ} (hn : n.natAbs ≤ 2 ^ 24) : roundNearest n = n := by
  have habs := roundPos_natCast hn
  unfold roundNearest
  split_ifs with hsign
  · have hcast : ((n.natAbs : ℤ) : ℚ) = n := by
      rw [Int.natAbs_of_nonneg (by exact_mod_cast hsign)]
    rwa [← Int.cast_natCast, hcast] at habs
  · have hneg : n < 0 := by exact_mod_cast not_le.mp hsign
    have hcast : ((n.natAbs : ℤ) : ℚ) = -n := by
      rw [(by omega : (n.natAbs : ℤ) = -n), Int.cast_neg]
    rw [← Int.cast_natCast, hcast] at habs
    rw [habs, neg_neg]

def binary32 : Rounding where
  round := roundNearest
  mono := roundNearest_mono
  round_int := fun _ => roundNearest_intCast

theorem le_roundEven (x : ℚ) : x - 1 / 2 ≤ roundEven x := by
  have hfloor := Int.floor_le x
  have hlt := Int.lt_floor_add_one x
  unfold roundEven
  split_ifs <;> push_cast <;> linarith

theorem le_binary32 {x : ℚ} (hx : 0 ≤ x) : x * (1 - 1 / 2 ^ 24) ≤ binary32.round x := by
  have hround : binary32.round x = roundPos x := if_pos hx
  rw [hround]
  rcases hx.eq_or_lt with rfl | hpos
  · rw [zero_mul, roundPos_zero]
  · have hulp : 2 ^ 23 * ulp x ≤ x :=
      (pow_mul_ulp x).le.trans (Int.zpow_log_le_self (by norm_num) hpos)
    have hcancel : x / ulp x * ulp x = x := div_mul_cancel₀ x (ulp_pos x).ne'
    have hle := mul_le_mul_of_nonneg_right (le_roundEven (x / ulp x)) (ulp_pos x).le
    rw [sub_mul, hcancel] at hle
    unfold roundPos
    linarith

end Rounding
