/-
Going from one vector along another, inside of a ball.

`weights x y R` are the weights with which `y` can be added to `x` such that the sum has norm `R` at
most.  Where `x` is inside of the ball and `x + y` is not, the greatest weight is that where the sum
is on the sphere.

* `isGreatest_of_norm_eq`, `exists_norm_eq` — the greatest weight;
* `norm_sub_lt_of_near`, `norm_sub_lt_of_small` — how far it is from there to a vector on the sphere
  that has the direction of `x` or `y`.
-/
import AerialManipulator.Lib.Literals

namespace Reach

variable {E : Type*} [NormedAddCommGroup E] [NormedSpace ℝ E] {x y : E} {R s : ℝ}

def weights (x y : E) (R : ℝ) : Set ℝ := {s | 0 ≤ s ∧ s ≤ 1 ∧ ‖x + s • y‖ ≤ R}

theorem isGreatest_one (h : ‖x + y‖ ≤ R) : IsGreatest (weights x y R) 1 :=
  ⟨⟨zero_le_one, le_refl _, by rwa [one_smul]⟩, fun _ hs => hs.2.1⟩

theorem norm_add_smul_lt {t : ℝ} (hx : ‖x‖ < R) (ht : ‖x + t • y‖ ≤ R) (hs : 0 ≤ s) (hst : s < t) :
    ‖x + s • y‖ < R := by
  have ht0 : 0 < t := hs.trans_lt hst
  have hk0 : 0 ≤ s / t := div_nonneg hs ht0.le
  have hk1 : s / t < 1 := (div_lt_one ht0).mpr hst
  have hcomb : x + s • y = (1 - s / t) • x + (s / t) • (x + t • y) := by
    rw [smul_add, smul_smul, div_mul_cancel₀ _ ht0.ne', ← add_assoc, ← add_smul, sub_add_cancel,
      one_smul]
  calc ‖x + s • y‖ ≤ ‖(1 - s / t) • x‖ + ‖(s / t) • (x + t • y)‖ := hcomb ▸ norm_add_le _ _
    _ = (1 - s / t) * ‖x‖ + s / t * ‖x + t • y‖ := by
      rw [norm_smul, norm_smul, Real.norm_of_nonneg (sub_nonneg.mpr hk1.le),
        Real.norm_of_nonneg hk0]
    _ < (1 - s / t) * R + s / t * R := by
      have hstrict := mul_lt_mul_of_pos_left hx (sub_pos.mpr hk1)
      have hle := mul_le_mul_of_nonneg_left ht hk0
      exact add_lt_add_of_lt_of_le hstrict hle
    _ = R := by ring

theorem le_one_of_norm_eq (hx : ‖x‖ < R) (hxy : R < ‖x + y‖) (hs : ‖x + s • y‖ = R) : s ≤ 1 := by
  by_contra hlt
  have hin := norm_add_smul_lt hx hs.le zero_le_one (not_le.mp hlt)
  rw [one_smul] at hin
  exact lt_asymm hin hxy

theorem isGreatest_of_norm_eq (hx : ‖x‖ < R) (hs0 : 0 ≤ s) (hs1 : s ≤ 1)
    (hs : ‖x + s • y‖ = R) : IsGreatest (weights x y R) s := by
  refine ⟨⟨hs0, hs1, hs.le⟩, fun t ht => ?_⟩
  by_contra hlt
  exact (norm_add_smul_lt hx ht.2.2 hs0 (not_le.mp hlt)).ne hs

theorem exists_norm_eq (hx : ‖x‖ < R) (hxy : R < ‖x + y‖) :
    ∃ s : ℝ, 0 ≤ s ∧ s ≤ 1 ∧ ‖x + s • y‖ = R := by
  have hcont : ContinuousOn (fun s : ℝ => ‖x + s • y‖) (Set.Icc 0 1) := by
    fun_prop
  have hmem : R ∈ Set.Icc ‖x + (0 : ℝ) • y‖ ‖x + (1 : ℝ) • y‖ := by
    rw [zero_smul, add_zero, one_smul]
    exact ⟨hx.le, hxy.le⟩
  obtain ⟨s, ⟨hs0, hs1⟩, hs⟩ := intermediate_value_Icc zero_le_one hcont hmem
  exact ⟨s, hs0, hs1, hs⟩

theorem norm_scaled_sub (hx : x ≠ 0) (k : ℝ) : ‖(R / ‖x‖) • x - k • x‖ = |R - k * ‖x‖| := by
  have hpos := norm_pos_iff.mpr hx
  rw [← sub_smul, norm_smul, Real.norm_eq_abs, ← abs_of_pos hpos, ← abs_mul, abs_of_pos hpos,
    sub_mul, div_mul_cancel₀ _ hpos.ne']

variable {ε : ℝ}

theorem norm_sub_lt_of_near (hx : x ≠ 0) (hnear : ‖y - x‖ < ε) (hs0 : 0 ≤ s) (hs1 : s ≤ 1)
    (hs : ‖x + s • y‖ = R) : ‖(R / ‖x‖) • x - (x + s • y)‖ < 2 * ε := by
  have hsplit : x + s • y = (1 + s) • x + s • (y - x) := by
    rw [smul_sub, add_smul, one_smul]
    abel
  have hsmall : ‖s • (y - x)‖ < ε := by
    rw [norm_smul, Real.norm_of_nonneg hs0]
    exact (mul_le_of_le_one_left (norm_nonneg _) hs1).trans_lt hnear
  have hlen : |R - (1 + s) * ‖x‖| ≤ ‖s • (y - x)‖ := by
    have hnorm : ‖(1 + s) • x‖ = (1 + s) * ‖x‖ := by
      rw [norm_smul, Real.norm_of_nonneg (by linarith)]
    rw [← hs, ← hnorm, hsplit]
    refine (abs_norm_sub_norm_le _ _).trans_eq ?_
    rw [add_sub_cancel_left]
  calc ‖(R / ‖x‖) • x - (x + s • y)‖
      = ‖((R / ‖x‖) • x - (1 + s) • x) - s • (y - x)‖ := by rw [hsplit, sub_sub]
    _ ≤ ‖(R / ‖x‖) • x - (1 + s) • x‖ + ‖s • (y - x)‖ := norm_sub_le _ _
    _ < ε + ε := by
      rw [norm_scaled_sub hx]
      exact add_lt_add (hlen.trans_lt hsmall) hsmall
    _ = 2 * ε := (two_mul ε).symm

theorem norm_sub_lt_of_small (hy : y ≠ 0) (hsmall : ‖x‖ < ε) (hs0 : 0 ≤ s)
    (hs : ‖x + s • y‖ = R) : ‖(R / ‖y‖) • y - (x + s • y)‖ < 2 * ε := by
  have hlen : |R - s * ‖y‖| ≤ ‖x‖ := by
    have hnorm : ‖s • y‖ = s * ‖y‖ := by rw [norm_smul, Real.norm_of_nonneg hs0]
    rw [← hs, ← hnorm]
    refine (abs_norm_sub_norm_le _ _).trans_eq ?_
    rw [add_sub_cancel_right]
  calc ‖(R / ‖y‖) • y - (x + s • y)‖ = ‖((R / ‖y‖) • y - s • y) - x‖ := by
        rw [sub_sub, add_comm x]
    _ ≤ ‖(R / ‖y‖) • y - s • y‖ + ‖x‖ := norm_sub_le _ _
    _ < ε + ε := by
      rw [norm_scaled_sub hy]
      exact add_lt_add (hlen.trans_lt hsmall) hsmall
    _ = 2 * ε := (two_mul ε).symm

end Reach
