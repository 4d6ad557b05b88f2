/-
Rounding of exact values to floats.

A rounding is monotone and keeps the integers that a float of 24 bits can hold.  That is enough
for bounds: a value between two such integers is rounded to one between them.

* `mem_round` — a rounded value stays between integers;
* `trunc_mem` — so does its conversion to an integer;
* `ratio_mem` — a ratio that is rounded, scaled and rounded again.
-/
import Mathlib.Data.Int.ConditionallyCompleteOrder
import Mathlib.Data.Rat.Floor

structure Rounding where
  round : ℚ → ℚ
  mono : Monotone round
  round_int : ∀ n : ℤ, n.natAbs ≤ 2 ^ 24 → round n = n

namespace Rounding

def exact : Rounding := ⟨id, monotone_id, fun _ _ => rfl⟩

variable (fl : Rounding) {x : ℚ} {a b : ℤ}

theorem mem_round (ha : a.natAbs ≤ 2 ^ 24) (hb : b.natAbs ≤ 2 ^ 24) (hx : ↑a ≤ x ∧ x ≤ ↑b) :
    ↑a ≤ fl.round x ∧ fl.round x ≤ ↑b := by
  rw [← fl.round_int a ha, ← fl.round_int b hb]
  exact ⟨fl.mono hx.1, fl.mono hx.2⟩

def trunc (x : ℚ) : ℤ := if 0 ≤ x then ⌊x⌋ else ⌈x⌉

theorem trunc_mem (hx : ↑a ≤ x ∧ x ≤ ↑b) : a ≤ trunc x ∧ trunc x ≤ b := by
  unfold trunc
  split_ifs
  · exact ⟨Int.le_floor.mpr hx.1, Int.floor_le_iff.mpr (hx.2.trans_lt (lt_add_one _))⟩
  · exact ⟨Int.le_ceil_iff.mpr ((sub_one_lt _).trans_le hx.1), Int.ceil_le.mpr hx.2⟩

def ratio (scale : ℤ) (a b : ℤ) : ℤ := trunc (fl.round (scale * fl.round (a / b)))

theorem ratio_mem {scale low high : ℤ} (hscale : scale.natAbs ≤ 2 ^ 24) (hpos : 0 ≤ scale)
    (hlow : low.natAbs ≤ 1) (hhigh : high.natAbs ≤ 1) (hb : 0 < b)
    (ha : low * b ≤ a ∧ a ≤ high * b) :
    scale * low ≤ fl.ratio scale a b ∧ fl.ratio scale a b ≤ scale * high := by
  have hb' : (0 : ℚ) < b := by exact_mod_cast hb
  have hratio : (low : ℚ) ≤ a / b ∧ (a / b : ℚ) ≤ high := by
    rw [le_div_iff₀ hb', div_le_iff₀ hb']
    exact_mod_cast ha
  have hround := fl.mem_round (by omega) (by omega) hratio
  have hpos' : (0 : ℚ) ≤ scale := by exact_mod_cast hpos
  have habs : ∀ n : ℤ, n.natAbs ≤ 1 → (scale * n).natAbs ≤ 2 ^ 24 := fun n hn =>
    (Int.natAbs_mul scale n).trans_le
      ((Nat.mul_le_mul_left _ hn).trans_eq (Nat.mul_one _) |>.trans hscale)
  apply trunc_mem
  apply fl.mem_round (habs low hlow) (habs high hhigh)
  push_cast
  exact ⟨mul_le_mul_of_nonneg_left hround.1 hpos', mul_le_mul_of_nonneg_left hround.2 hpos'⟩

end Rounding
