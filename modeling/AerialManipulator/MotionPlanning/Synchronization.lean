/-
Synchronised trajectories.

`timeSynchronization` gives every trajectory the total time of the longest.  The first phase for a
given time is the smaller root of a quadratic equation; a double root is taken for none.

* `minTime_lt_minTime`, `four_mul_lt` — the shortest time, and when it gives a double root;
* `given_moving`, `given_still` — a trajectory with a given time;
* **`endsTogether_iff`** — when all trajectories end together.
-/
import AerialManipulator.MotionPlanning.JerkLimited

open WithNaN

namespace VelocitySmoothing

variable {J A D : ℝ}

/-! ### The shortest time -/

noncomputable def minTime (J A D : ℝ) : ℝ :=
  if √(J * D) ≤ A then 2 * √(J * D) / J else (J * D / A + A) / J

theorem minTime_nonneg (hJ : 0 < J) (hA : 0 < A) (hD : 0 ≤ D) : 0 ≤ minTime J A D := by
  have hJD := mul_nonneg hJ.le hD
  rw [minTime]
  split_ifs <;> positivity

theorem minTime_lt_minTime (hJ : 0 < J) (hA : 0 < A) (hD : 0 ≤ D) {D' : ℝ} (hlt : D < D') :
    minTime J A D < minTime J A D' := by
  have hJD := mul_nonneg hJ.le hD
  have hmul : J * D < J * D' := mul_lt_mul_of_pos_left hlt hJ
  have hroot : √(J * D) < √(J * D') := Real.sqrt_lt_sqrt hJD hmul
  have hsq := Real.sq_sqrt hJD
  have hsq' := Real.sq_sqrt (hJD.trans hmul.le)
  rw [minTime, minTime]
  split_ifs with hle hle' hle'
  · exact div_lt_div_of_pos_right (by linarith) hJ
  · -- only the larger one is limited
    have hgt := not_le.mp hle'
    have hdiv : A < J * D' / A := by
      rw [lt_div_iff₀ hA, ← hsq']
      nlinarith
    exact div_lt_div_of_pos_right (by linarith) hJ
  · exact absurd (hroot.le.trans hle') hle
  · have hdiv := div_lt_div_of_pos_right hmul hA
    exact div_lt_div_of_pos_right (by linarith) hJ

theorem minTime_le_minTime_iff (hJ : 0 < J) (hA : 0 < A) (hD : 0 ≤ D) {D' : ℝ} (hD' : 0 ≤ D') :
    minTime J A D ≤ minTime J A D' ↔ D ≤ D' := by
  constructor
  · intro hle
    by_contra hlt
    exact absurd (minTime_lt_minTime hJ hA hD' (not_le.mp hlt)) (not_lt.mpr hle)
  · intro hle
    rcases hle.eq_or_lt with rfl | hlt
    · exact le_rfl
    · exact (minTime_lt_minTime hJ hA hD hlt).le

theorem minTime_zero (hA : 0 < A) : minTime J A 0 = 0 := by
  rw [minTime, mul_zero, Real.sqrt_zero, if_pos hA.le, mul_zero, zero_div]

/-- The number under the root is not negative, and zero for the shortest time without a limit. -/
theorem four_mul_le (hJ : 0 < J) (hA : 0 < A) (hD : 0 ≤ D) {T : ℝ} (hT : minTime J A D ≤ T) :
    4 * D ≤ J * T ^ 2 ∧ (4 * D = J * T ^ 2 ↔ T = minTime J A D ∧ J * D ≤ A ^ 2) := by
  have hJD := mul_nonneg hJ.le hD
  have hmin := minTime_nonneg hJ hA hD
  have hroot := Real.sqrt_nonneg (J * D)
  have hsq := Real.sq_sqrt hJD
  have hle_iff : √(J * D) ≤ A ↔ J * D ≤ A ^ 2 := by
    rw [Real.sqrt_le_left hA.le]
  have hT2 : minTime J A D ^ 2 ≤ T ^ 2 := pow_le_pow_left₀ hmin hT 2
  have hstrict : minTime J A D < T → minTime J A D ^ 2 < T ^ 2 := fun hlt =>
    pow_lt_pow_left₀ hlt hmin two_ne_zero
  have hmul := mul_le_mul_of_nonneg_left hT2 hJ.le
  -- the shortest time itself
  have hshort : 4 * D ≤ J * minTime J A D ^ 2 ∧
      (4 * D = J * minTime J A D ^ 2 ↔ J * D ≤ A ^ 2) := by
    by_cases hle : √(J * D) ≤ A
    · have heq : J * minTime J A D ^ 2 = 4 * D := by
        rw [minTime, if_pos hle]
        field_simp
        rw [hsq]
        ring
      exact ⟨heq.ge, iff_of_true heq.symm (hle_iff.mp hle)⟩
    · have hgt : A ^ 2 < J * D := not_le.mp fun h => hle (hle_iff.mpr h)
      have hlt : 4 * D < J * minTime J A D ^ 2 := by
        have hexp : J * minTime J A D ^ 2 - 4 * D = (J * D - A ^ 2) ^ 2 / (J * A ^ 2) := by
          rw [minTime, if_neg hle]
          have hA' := hA.ne'
          have hJ' := hJ.ne'
          field_simp
          ring
        have hpos : 0 < (J * D - A ^ 2) ^ 2 / (J * A ^ 2) :=
          div_pos (pow_pos (sub_pos.mpr hgt) 2) (by positivity)
        linarith
      exact ⟨hlt.le, iff_of_false hlt.ne (not_le.mpr hgt)⟩
  refine ⟨hshort.1.trans hmul, ?_⟩
  constructor
  · intro heq
    have hsame : T = minTime J A D := by
      refine le_antisymm ?_ hT
      by_contra hlt
      have := mul_lt_mul_of_pos_left (hstrict (not_le.mp hlt)) hJ
      linarith [hshort.1]
    exact ⟨hsame, hshort.2.mp (hsame ▸ heq)⟩
  · rintro ⟨rfl, hle⟩
    exact hshort.2.mpr hle

theorem total_profileOf (hJ : 0 < J) (hA : 0 < A) (hD : 0 < D) :
    (profileOf J A 0 D).total = minTime J A D := by
  have hJD := mul_pos hJ hD
  have hroot : root J 0 D = √(J * D) := by
    rw [root, zero_pow two_ne_zero, zero_div, zero_add]
  have hpos : 0 < √(J * D) := Real.sqrt_pos.mpr hJD
  have hsq := Real.sq_sqrt hJD.le
  rw [JerkProfile.total, profileOf, peakOf, hroot, minTime]
  dsimp only
  rw [holdTime]
  split_ifs with hle
  · rw [min_eq_left hle]
    have hne := hpos.ne'
    have hJ' := hJ.ne'
    field_simp
    linear_combination -2 * hsq
  · rw [min_eq_right (not_le.mp hle).le]
    have hne := hA.ne'
    have hJ' := hJ.ne'
    field_simp
    ring

/-! ### A given time -/

section Given

variable {T q : ℝ} {d : ℤ}

noncomputable def firstPhase (J T q : ℝ) : ℝ := (T - q / J) / 2

theorem computeT1OfTotal_num (hd : d = 1 ∨ d = -1) (hJ : 0 < J) (hT : 0 ≤ T) (hq : 0 ≤ q)
    (hdelta : q ^ 2 = T ^ 2 * J ^ 2 - 4 * J * D) (hD : 0 ≤ D) (hpos : 0 < A)
    (hA : J * firstPhase J T q ≤ A) :
    computeT1OfTotal (num T) (num 0) (num (d * D)) (num (d * J)) (num A) =
      num (if 0 < q then firstPhase J T q else 0) := by
  have hne := hJ.ne'
  have hsq : (d : ℝ) * d = 1 := by rcases hd with rfl | rfl <;> norm_num
  have hJD := mul_nonneg hJ.le hD
  have hqT : q ≤ J * T := by
    refine abs_le_of_sq_le_sq' ?_ (mul_nonneg hJ.le hT) |>.2
    rw [hdelta]
    linarith [mul_pow J T 2]
  have hdJ : (d : ℝ) * J ≠ 0 := by
    rcases hd with rfl | rfl <;> push_cast <;> simp [hne]
  have hfirst : 0 ≤ firstPhase J T q := by
    rw [firstPhase]
    refine div_nonneg (sub_nonneg.mpr ?_) two_pos.le
    rw [div_le_iff₀ hJ]
    linarith
  have hsecond : 0 ≤ firstPhase J T (-q) := by
    rw [firstPhase, neg_div, sub_neg_eq_add]
    positivity
  have hnum : (num T : Flt ℝ) * num T * num (d * J) * num (d * J) +
      2.0 * num T * num 0 * num (d * J) - num 0 * num 0 - 4.0 * num (d * J) * num (d * D) =
      num (q ^ 2) := by
    have hexp : T * T * (d * J) * (d * J) + 2 * T * 0 * (d * J) - 0 * 0 - 4 * (d * J) * (d * D) =
        (d * d) * (T ^ 2 * J ^ 2 - 4 * J * D) := by ring
    simp only [two_def, four_def, num_mul, num_add, num_sub]
    rw [hexp, hsq, one_mul, hdelta]
  have hneg : ¬ (num (q ^ 2) : Flt ℝ) < 0 := not_lt.mpr (sq_nonneg q)
  have hsqrt : sqrtf (num (q ^ 2)) = num q := by rw [sqrtf_num (sq_nonneg _), Real.sqrt_sq hq]
  have hinv : (1.0 : Flt ℝ) / (2.0 * -num (d * J)) = num (-(d / (2 * J))) := by
    have hone : (1.0 : Flt ℝ) = num 1 := congrArg num (by norm_num)
    rw [hone, two_def, neg_num, num_mul, num_div_of_ne (by simp [hdJ])]
    refine congrArg num ?_
    rcases hd with rfl | rfl
    · push_cast
      field_simp
    · push_cast
      field_simp
  have hzero : (num 0 : Flt ℝ) / num (d * J) = num 0 := by rw [num_div_of_ne hdJ, zero_div]
  -- the two roots
  have hroot : ∀ x : ℝ, 0 ≤ firstPhase J T (d * x) →
      math.max ((-(num (d * J) * num T - num 0) + num x) * num (-(d / (2 * J)))) 0 =
        (num (firstPhase J T (d * x)) : Flt ℝ) := by
    intro x hx
    have heq : (-(d * J * T - 0) + x) * -(d / (2 * J)) = firstPhase J T (d * x) := by
      have hexp : (-(d * J * T - 0) + x) * -(d / (2 * J)) = ((d * d) * J * T - d * x) /
          (2 * J) := by
        ring
      rw [hexp, hsq, firstPhase]
      field_simp
    rw [num_mul, num_sub, neg_num, num_add, num_mul, heq, max_num_zero hx]
  have hsat : ∀ x : ℝ, 0 ≤ x → J * x ≤ A →
      saturateT1ForAccel (num 0) (num (d * J)) (num x) (num A) = num x := by
    intro x hx hxA
    have hsat := saturateT1ForAccel_num (α := 0) hd hJ (mul_nonneg hJ.le hx) hpos
    rwa [mul_zero, sub_zero, sub_zero, min_eq_left hxA, mul_div_cancel_left₀ x hne] at hsat
  have hsum : firstPhase J T q + firstPhase J T q = T - q / J := by
    rw [firstPhase]
    ring
  have hsum' : firstPhase J T (-q) + firstPhase J T (-q) = T + q / J := by
    rw [firstPhase]
    ring
  have hle : ¬ (num T : Flt ℝ) < num (T - q / J) :=
    not_lt.mpr (sub_le_self T (div_nonneg hq hJ.le))
  have hlt_iff : (num T : Flt ℝ) < num (T + q / J) ↔ 0 < q := by
    rw [num_lt_num, lt_add_iff_pos_right, div_pos_iff_of_pos_right hJ]
  have hminus : (-(num (d * J) * num T - num 0) - num q : Flt ℝ) =
      -(num (d * J) * num T - num 0) + num (-q) := by
    rw [num_mul, num_sub, neg_num, num_sub, num_add, sub_eq_add_neg]
  -- the larger root takes too long, unless there is only one
  have hchosen : (if (num T : Flt ℝ) <
        math.max ((-(num (d * J) * num T - num 0) + num q) * num (-(d / (2 * J)))) 0 +
          (num 0 + math.max ((-(num (d * J) * num T - num 0) + num q) * num (-(d / (2 * J)))) 0)
            then
        math.max ((-(num (d * J) * num T - num 0) + num (-q)) * num (-(d / (2 * J)))) 0
      else if (num T : Flt ℝ) <
        math.max ((-(num (d * J) * num T - num 0) + num (-q)) * num (-(d / (2 * J)))) 0 +
          (num 0 + math.max ((-(num (d * J) * num T - num 0) + num (-q)) * num (-(d / (2 * J)))) 0)
            then
        math.max ((-(num (d * J) * num T - num 0) + num q) * num (-(d / (2 * J)))) 0
      else 0) = num (if 0 < q then firstPhase J T q else 0) := by
    rcases hd with rfl | rfl
    · have hone : ∀ x : ℝ, ((1 : ℤ) : ℝ) * x = x := fun x => by rw [Int.cast_one, one_mul]
      have h1 := hroot q (by rwa [hone])
      have h2 := hroot (-q) (by rwa [hone])
      rw [hone q] at h1
      rw [hone (-q)] at h2
      rw [h1, h2, num_add, num_add, num_add, num_add, zero_add, zero_add, hsum, hsum', if_neg hle]
      by_cases hq' : 0 < q
      · rw [if_pos (hlt_iff.mpr hq'), if_pos hq']
      · rw [if_neg (fun h => hq' (hlt_iff.mp h)), if_neg hq', zero_def]
    · have hone : ∀ x : ℝ, ((-1 : ℤ) : ℝ) * x = -x := fun x => by
        rw [Int.cast_neg, Int.cast_one, neg_one_mul]
      have h1 := hroot q (by rwa [hone])
      have h2 := hroot (-q) (by rwa [hone, neg_neg])
      rw [hone q] at h1
      rw [hone (-q), neg_neg] at h2
      rw [h1, h2, num_add, num_add, num_add, num_add, zero_add, zero_add, hsum, hsum']
      by_cases hq' : 0 < q
      · rw [if_pos (hlt_iff.mpr hq'), if_pos hq']
      · rw [if_neg (fun h => hq' (hlt_iff.mp h)), if_neg hle, if_neg hq', zero_def]
  rw [computeT1OfTotal]
  simp only [hnum, if_neg hneg, hsqrt, hinv, hzero, hminus]
  rw [hchosen]
  split_ifs
  · exact hsat _ hfirst hA
  · exact hsat 0 le_rfl (by rw [mul_zero]; exact hpos.le)

theorem firstPhase_mul (hJ : 0 < J) (hdelta : q ^ 2 = T ^ 2 * J ^ 2 - 4 * J * D) :
    J * firstPhase J T q * (T - firstPhase J T q) = D := by
  have hne := hJ.ne'
  rw [firstPhase]
  field_simp
  linear_combination -hdelta

theorem mul_firstPhase_le (hJ : 0 < J) (hA : 0 < A) (hD : 0 ≤ D) (hq : 0 ≤ q)
    (hT : minTime J A D ≤ T) (hdelta : q ^ 2 = T ^ 2 * J ^ 2 - 4 * J * D) :
    J * firstPhase J T q ≤ A := by
  by_contra hlt
  have hx := not_le.mp hlt
  have hmul := firstPhase_mul hJ hdelta
  have hrest : firstPhase J T q ≤ T - firstPhase J T q := by
    have hqJ := div_nonneg hq hJ.le
    rw [firstPhase]
    linarith
  have hy : A < J * (T - firstPhase J T q) := hx.trans_le (mul_le_mul_of_nonneg_left hrest hJ.le)
  have hprod : J * D = J * firstPhase J T q * (J * (T - firstPhase J T q)) := by
    rw [← hmul]
    ring
  have hJD : A ^ 2 < J * D := by
    rw [hprod]
    nlinarith
  have hroot : ¬ √(J * D) ≤ A := by
    rw [Real.sqrt_le_left hA.le]
    exact not_le.mpr hJD
  -- the product of the two is `J * D`, and both are above `A`
  have hsum : A * (J * T) < J * D + A ^ 2 := by
    have hpos := mul_pos (sub_pos.mpr hx) (sub_pos.mpr hy)
    rw [hprod]
    nlinarith
  have htime : A * (J * minTime J A D) = J * D + A ^ 2 := by
    have hne := hJ.ne'
    have hA' := hA.ne'
    rw [minTime, if_neg hroot]
    field_simp
  have hle := mul_le_mul_of_nonneg_left (mul_le_mul_of_nonneg_left hT hJ.le) hA.le
  linarith

def givenProfile (J T τ : ℝ) : JerkProfile ℝ := ⟨J, 0, τ, T - τ - τ, τ⟩

theorem rests_givenProfile {τ : ℝ} (hJ : 0 < J) (hA : 0 < A) (hτ : 0 ≤ τ) (hτA : J * τ ≤ A)
    (hτT : 0 ≤ T - τ - τ) : (givenProfile J T τ).Rests A where
  jerk_pos := hJ
  T1_nonneg := hτ
  T2_nonneg := hτT
  T3_nonneg := hτ
  a0_le := abs_zero.trans_le hA.le
  peak_le := (zero_add _).trans_le hτA
  peak_eq := zero_add _

theorem total_givenProfile (τ : ℝ) : (givenProfile J T τ).total = T := by
  rw [JerkProfile.total, givenProfile]
  ring

theorem finalGain_givenProfile (hJ : 0 < J) (τ : ℝ) :
    (givenProfile J T τ).finalGain = J * τ * (T - τ) := by
  have hne := hJ.ne'
  rw [JerkProfile.finalGain, JerkProfile.peak, givenProfile]
  dsimp only
  field_simp
  ring

variable {c : VelocitySmoothing ℝ} {v₀ x₀ sp : ℝ}

/-- A trajectory that starts without an acceleration, before its durations are computed. -/
structure Starts (c : VelocitySmoothing ℝ) (d : ℤ) (J A v₀ x₀ sp : ℝ) : Prop where
  max_jerk : c.max_jerk = num J
  max_accel : c.max_accel = num A
  direction : c.direction = d
  state_a : c.state.a = num 0
  state_v : c.state.v = num v₀
  state_init_a : c.state_init.a = num 0
  state_init_v : c.state_init.v = num v₀
  state_init_x : c.state_init.x = num x₀
  vel_sp : c.vel_sp = num sp
  local_time : c.local_time = 0

theorem Starts.runs (h : Starts c d J A v₀ x₀ sp) (hd : d = 1 ∨ d = -1 ∨ d = 0) {τ : ℝ}
    (hrests : (givenProfile J T τ).Rests A) :
    Runs { c with T1 := num τ, T2 := num (T - τ - τ), T3 := num τ } (givenProfile J T τ) d J A 0 v₀
      x₀ where
  follows := ⟨h.max_jerk, h.direction, by rw [givenProfile, mul_zero]; exact h.state_init_a,
    h.state_init_v, h.state_init_x, rfl, rfl, rfl⟩
  rests := hrests
  jerk := rfl
  direction := hd
  starts := mul_zero _
  local_time := h.local_time

theorem Starts.given_moving (h : Starts c d J A v₀ x₀ sp) (hd : d = 1 ∨ d = -1) (hJ : 0 < J)
    (hA : 0 < A) (hD : 0 ≤ D) (hsp : sp - v₀ = d * D) (hT : minTime J A D ≤ T) (hq : 0 ≤ q)
    (hdelta : q ^ 2 = T ^ 2 * J ^ 2 - 4 * J * D) :
    ∃ τ, τ = (if 0 < q then firstPhase J T q else 0) ∧ (givenProfile J T τ).Rests A ∧
      c.updateDurationsGivenTotalTime (num T) =
        { c with T1 := num τ, T2 := num (T - τ - τ), T3 := num τ } := by
  have hT₀ : 0 ≤ T := (minTime_nonneg hJ hA hD).trans hT
  have hJD := mul_nonneg hJ.le hD
  have hA' := mul_firstPhase_le hJ hA hD hq hT hdelta
  have hT1 := computeT1OfTotal_num hd hJ hT₀ hq hdelta hD hA hA'
  have hqT : q / J ≤ T := by
    rw [div_le_iff₀ hJ]
    refine abs_le_of_sq_le_sq' ?_ (mul_nonneg hT₀ hJ.le) |>.2
    rw [hdelta, mul_pow]
    linarith
  have hqJ := div_nonneg hq hJ.le
  generalize hτ : (if 0 < q then firstPhase J T q else 0) = τ at hT1
  have hτ₀ : 0 ≤ τ ∧ J * τ ≤ A ∧ 0 ≤ T - τ - τ := by
    rw [← hτ]
    split_ifs
    · refine ⟨?_, hA', ?_⟩
      · rw [firstPhase]
        linarith
      · rw [firstPhase]
        linarith
    · exact ⟨le_rfl, by rw [mul_zero]; exact hA.le, by linarith⟩
  refine ⟨τ, rfl, rests_givenProfile hJ hA hτ₀.1 hτ₀.2.1 hτ₀.2.2, ?_⟩
  have hT3 : computeT3 (num τ) (num 0) (num (d * J)) = num τ := by
    have hT3 := computeT3_num (α := 0) hd hJ (mul_nonneg hJ.le hτ₀.1)
    rwa [mul_zero, sub_zero, mul_div_cancel_left₀ τ hJ.ne'] at hT3
  rw [updateDurationsGivenTotalTime, h.direction, h.max_jerk, h.max_accel, h.state_a, h.state_v,
    h.vel_sp, ofInt, num_mul, num_sub, hsp, hT1, hT3, computeT2OfTotal, num_sub, num_sub,
      max_num_zero hτ₀.2.2]

theorem Starts.given_still (h : Starts c 0 J A v₀ x₀ sp) (hA : 0 < A) (hsp : sp = v₀) (hT : 0 ≤ T) :
    c.updateDurationsGivenTotalTime (num T) =
      { c with T1 := num 0, T2 := num (T - 0 - 0), T3 := num 0 } := by
  have hjerk : (ofInt 0 * num J : Flt ℝ) = num 0 := by
    rw [ofInt, num_mul, Int.cast_zero, zero_mul]
  -- a jerk of zero leaves no root
  have hT1 : computeT1OfTotal (num T) (num 0) (num 0) (num 0) (num A) = num 0 := by
    have hdelta : (num T : Flt ℝ) * num T * num 0 * num 0 + 2.0 * num T * num 0 * num 0 -
        num 0 * num 0 - 4.0 * num 0 * num 0 = num 0 := by
      simp only [two_def, four_def, num_mul, num_add, num_sub]
      refine congrArg num ?_
      ring
    have hinv : (1.0 : Flt ℝ) / (2.0 * -num 0) = nan := by
      have hone : (1.0 : Flt ℝ) = num 1 := congrArg num (by norm_num)
      rw [hone, two_def, neg_num, num_mul, neg_zero, mul_zero, num_div_zero]
    have hneg : ¬ (num 0 : Flt ℝ) < 0 := lt_irrefl (0 : ℝ)
    rw [computeT1OfTotal]
    simp only [hdelta, if_neg hneg, hinv, mul_nan, math.max_nan_left, num_div_zero, nan_add,
      add_nan, not_lt_nan, if_false]
    have hhigh : ¬ (num A : Flt ℝ) < num 0 := not_lt.mpr hA.le
    have hlow : ¬ (num 0 : Flt ℝ) < num (-A) := not_lt.mpr (neg_nonpos.mpr hA.le)
    rw [zero_def, saturateT1ForAccel, num_mul, num_add, neg_num, mul_zero, add_zero, if_neg hhigh,
      if_neg hlow]
  have hT3 : computeT3 (num 0) (num 0) (num 0) = (num 0 : Flt ℝ) := by
    rw [computeT3, num_div_zero, nan_add, math.max_nan_left, zero_def]
  rw [updateDurationsGivenTotalTime, h.direction, h.max_jerk, h.max_accel, h.state_a, h.state_v,
    h.vel_sp, hjerk, num_sub, hsp, sub_self, hT1, hT3, computeT2OfTotal, num_sub, num_sub,
    max_num_zero (by linarith)]

end Given

/-! ### The longest trajectory -/

theorem foldl_longer (traj : List (VelocitySmoothing ℝ)) (times : List ℝ)
    (htimes : traj.map getTotalTime = times.map num) (n : ℕ) (T : ℝ) (k : ℕ) :
    ∃ T' k', (traj.zipIdx n).foldl longer (num T, k) = (num T', k') ∧ T ≤ T' ∧
      (∀ t ∈ times, t ≤ T') ∧
      (T' = T ∧ k' = k ∨ ∃ i, k' = n + i ∧ times[i]? = some T') := by
  induction traj generalizing times n T k with
  | nil =>
    have hnil : times = [] := List.map_eq_nil_iff.mp htimes.symm
    subst hnil
    exact ⟨T, k, rfl, le_rfl, fun t ht => absurd ht List.not_mem_nil, .inl ⟨rfl, rfl⟩⟩
  | cons c traj ih =>
    obtain ⟨t, times, rfl⟩ : ∃ t ts, times = t :: ts := by
      cases times with
      | nil => exact absurd htimes (List.cons_ne_nil _ _)
      | cons t ts => exact ⟨t, ts, rfl⟩
    rw [List.map_cons, List.map_cons, List.cons.injEq] at htimes
    obtain ⟨ht, htimes⟩ := htimes
    rw [List.zipIdx_cons, List.foldl_cons, longer, ht]
    by_cases hlt : T < t
    · have hlt' : (num T : Flt ℝ) < num t := hlt
      obtain ⟨T', k', heq, hle, hall, hcase⟩ := ih times htimes (n + 1) t n
      rw [if_pos hlt']
      refine ⟨T', k', heq, hlt.le.trans hle, List.forall_mem_cons.mpr ⟨hle, hall⟩, .inr ?_⟩
      rcases hcase with ⟨rfl, rfl⟩ | ⟨i, rfl, hi⟩
      · exact ⟨0, rfl, rfl⟩
      · exact ⟨i + 1, by omega, hi⟩
    · have hlt' : ¬ (num T : Flt ℝ) < num t := hlt
      obtain ⟨T', k', heq, hle, hall, hcase⟩ := ih times htimes (n + 1) T k
      rw [if_neg hlt']
      refine ⟨T', k', heq, hle, List.forall_mem_cons.mpr ⟨(not_lt.mp hlt).trans hle, hall⟩, ?_⟩
      rcases hcase with hsame | ⟨i, rfl, hi⟩
      · exact .inl hsame
      · exact .inr ⟨i + 1, by omega, hi⟩

theorem longest_spec (traj : List (VelocitySmoothing ℝ)) (times : List ℝ)
    (htimes : traj.map getTotalTime = times.map num) :
    ∃ T k, longest traj = (num T, k) ∧ (∀ t ∈ times, t ≤ T) ∧ 0 ≤ T ∧
      (0 < T → times[k]? = some T) := by
  obtain ⟨T, k, heq, hT, hall, hcase⟩ := foldl_longer traj times htimes 0 0 0
  refine ⟨T, k, heq, hall, hT, fun hlt => ?_⟩
  rcases hcase with ⟨rfl, -⟩ | ⟨i, rfl, hi⟩
  · exact absurd hlt (lt_irrefl _)
  · rwa [zero_add]

/-! ### Axes -/

/-- A trajectory within the limits, at a state without an acceleration, and its setpoint. -/
structure Axis (J A V : ℝ) where
  c : VelocitySmoothing ℝ
  v₀ : ℝ
  x₀ : ℝ
  vel_setpoint : ℝ
  ready : Ready c J A V 0 v₀ x₀

namespace Axis

variable {V T : ℝ} {sign : Flt ℝ → ℤ}

noncomputable def sp (ax : Axis J A V) : ℝ := limitedVelSp V ax.vel_setpoint

noncomputable def change (ax : Axis J A V) : ℝ := |ax.sp - ax.v₀|

noncomputable def updated (sign : Flt ℝ → ℤ) (ax : Axis J A V) : VelocitySmoothing ℝ :=
  ax.c.updateDurations sign (num ax.vel_setpoint)

theorem change_nonneg (ax : Axis J A V) : 0 ≤ ax.change := abs_nonneg _

/-- The trajectory follows the fastest profile, in one of the directions, or stays. -/
theorem updated_spec (hs : IsSign sign) (ax : Axis J A V) :
    (∃ d : ℤ, (d = 1 ∨ d = -1) ∧ ax.sp - ax.v₀ = d * ax.change ∧ 0 < ax.change ∧
      Starts (ax.updated sign) d J A ax.v₀ ax.x₀ ax.sp ∧
      Plans (ax.updated sign) (profileOf J A 0 ax.change) d J A 0 ax.v₀ ax.x₀ ax.sp) ∨
      ax.sp = ax.v₀ ∧ Starts (ax.updated sign) 0 J A ax.v₀ ax.x₀ ax.sp ∧
        Plans (ax.updated sign) ⟨J, 0, 0, 0, 0⟩ 0 J A 0 ax.v₀ ax.x₀ ax.sp := by
  have h := ax.ready
  rcases updateDurations_cases hs h rfl with ⟨d, hd, hahead, heq⟩ | ⟨-, hsp, heq⟩
  · left
    have hplans := plans_of_ahead h hd hahead
    have hpos : 0 < d * (ax.sp - ax.v₀) := by
      rcases hahead with hlt | ⟨hzero, -⟩
      · rwa [mul_zero, zero_mul, zero_div] at hlt
      · rw [mul_zero] at hzero
        exact absurd hzero (lt_irrefl _)
    have hchange : d * (ax.sp - ax.v₀) = ax.change := by
      rw [change]
      rcases hd with rfl | rfl
      · push_cast at hpos ⊢
        rw [one_mul] at hpos ⊢
        exact (abs_of_pos hpos).symm
      · push_cast at hpos ⊢
        rw [neg_one_mul] at hpos ⊢
        exact (abs_of_neg (neg_pos.mp hpos)).symm
    have hback : ax.sp - ax.v₀ = d * ax.change := by
      rw [← hchange, ← mul_assoc]
      rcases hd with rfl | rfl <;> norm_num
    rw [mul_zero] at hplans
    refine ⟨d, hd, hback, hchange ▸ hpos, ?_, ?_⟩
    · rw [updated, heq]
      exact ⟨h.max_jerk, h.max_accel, rfl, h.state_a, h.state_v, h.state_a, h.state_v, h.state_x,
        rfl, rfl⟩
    · rw [updated, heq, ← hchange]
      exact hplans
  · right
    refine ⟨hsp, ?_, ?_⟩
    · rw [updated, heq]
      exact ⟨h.max_jerk, h.max_accel, rfl, h.state_a, h.state_v, h.state_a, h.state_v, h.state_x,
        rfl, rfl⟩
    · rw [updated, heq]
      exact plans_of_reached h rfl hsp

theorem change_eq_zero {ax : Axis J A V} (hsp : ax.sp = ax.v₀) : ax.change = 0 := by
  rw [change, hsp, sub_self, abs_zero]

theorem exists_plans_updated (hs : IsSign sign) (ax : Axis J A V) :
    ∃ p d, Plans (ax.updated sign) p d J A 0 ax.v₀ ax.x₀ ax.sp ∧
      p.total = minTime J A ax.change := by
  have h := ax.ready
  rcases ax.updated_spec hs with ⟨d, -, -, hpos, -, hplans⟩ | ⟨hsp, -, hplans⟩
  · exact ⟨_, _, hplans, total_profileOf h.jerk_pos h.accel_pos hpos⟩
  · refine ⟨_, _, hplans, ?_⟩
    rw [change_eq_zero hsp, minTime_zero h.accel_pos, JerkProfile.total]
    norm_num

theorem getTotalTime_updated (hs : IsSign sign) (ax : Axis J A V) :
    (ax.updated sign).getTotalTime = num (minTime J A ax.change) := by
  obtain ⟨p, d, hplans, htotal⟩ := ax.exists_plans_updated hs
  rw [hplans.toRuns.getTotalTime, htotal]

theorem given_spec (hs : IsSign sign) (ax : Axis J A V) (hT : minTime J A ax.change ≤ T) :
    ∃ p d, Runs ((ax.updated sign).updateDurationsGivenTotalTime (num T)) p d J A 0 ax.v₀ ax.x₀ ∧
      p.total = T ∧ (ax.v₀ + d * p.finalGain = ax.sp ↔
        ¬ (0 < ax.change ∧ T = minTime J A ax.change ∧ J * ax.change ≤ A ^ 2)) := by
  have h := ax.ready
  have hJ := h.jerk_pos
  have hA := h.accel_pos
  rcases ax.updated_spec hs with ⟨d, hd, hback, hpos, hstarts, -⟩ | ⟨hsp, hstarts, -⟩
  · obtain ⟨hle, hiff⟩ := four_mul_le hJ hA hpos.le hT
    have hnonneg : 0 ≤ T ^ 2 * J ^ 2 - 4 * J * ax.change := by nlinarith
    have hdelta := Real.sq_sqrt hnonneg
    obtain ⟨τ, hτ, hrests, heq⟩ := hstarts.given_moving hd hJ hA hpos.le hback hT
      (Real.sqrt_nonneg _)
      hdelta
    have hd' : d = 1 ∨ d = -1 ∨ d = 0 := hd.imp_right .inl
    refine ⟨_, _, heq ▸ hstarts.runs hd' hrests, total_givenProfile τ, ?_⟩
    have hdne : (d : ℝ) ≠ 0 := by rcases hd with rfl | rfl <;> norm_num
    have hsame : ax.v₀ + d * (givenProfile J T τ).finalGain = ax.sp ↔
        (givenProfile J T τ).finalGain = ax.change := by
      rw [← sub_eq_iff_eq_add'.trans eq_comm, hback, mul_right_inj' hdne, eq_comm]
    rw [hsame, finalGain_givenProfile hJ, ← hiff, hτ]
    by_cases hq : 0 < √(T ^ 2 * J ^ 2 - 4 * J * ax.change)
    · rw [if_pos hq]
      refine iff_of_true (firstPhase_mul hJ hdelta) fun hbad => ?_
      have hzero : T ^ 2 * J ^ 2 - 4 * J * ax.change = 0 := by linear_combination -J * hbad.2
      rw [hzero, Real.sqrt_zero] at hq
      exact lt_irrefl _ hq
    · rw [if_neg hq, mul_zero, zero_mul]
      have hzero := Real.sqrt_eq_zero'.mp (le_antisymm (not_lt.mp hq) (Real.sqrt_nonneg _))
      refine iff_of_false hpos.ne fun hbad => hbad ⟨hpos, ?_⟩
      have heq' : T ^ 2 * J ^ 2 - 4 * J * ax.change = 0 := le_antisymm hzero hnonneg
      have hmul : J * (4 * ax.change) = J * (J * T ^ 2) := by linear_combination -heq'
      exact mul_left_cancel₀ hJ.ne' hmul
  · have hT₀ : 0 ≤ T := (minTime_nonneg hJ hA ax.change_nonneg).trans hT
    have hrests : (givenProfile J T 0).Rests A := rests_givenProfile hJ hA le_rfl
      (by rw [mul_zero]; exact hA.le) (by linarith)
    refine ⟨_, _, hstarts.given_still hA hsp hT₀ ▸ hstarts.runs (.inr (.inr rfl)) hrests,
      total_givenProfile 0, ?_⟩
    rw [Int.cast_zero, zero_mul, add_zero, hsp, change_eq_zero hsp]
    exact iff_of_true rfl fun hbad => lt_irrefl _ hbad.1

end Axis

/-! ### All axes -/

variable {V T : ℝ} {sign : Flt ℝ → ℤ} {axes : List (Axis J A V)}

noncomputable def synced (sign : Flt ℝ → ℤ) (axes : List (Axis J A V)) : List
    (VelocitySmoothing ℝ) :=
  timeSynchronization (axes.map (Axis.updated sign))

/-- The total time of the longest axis. -/
def IsLongest (sign : Flt ℝ → ℤ) (axes : List (Axis J A V)) (T : ℝ) : Prop :=
  (∀ ax ∈ axes, (ax.updated sign).getTotalTime ≤ num T) ∧
    ∃ ax ∈ axes, (ax.updated sign).getTotalTime = num T

/-- At the time `T` the velocity is the setpoint, without an acceleration. -/
def EndsAt (c : VelocitySmoothing ℝ) (T sp : ℝ) : Prop :=
  (c.updateTraj (num T) 1).state.a = 0 ∧ (c.updateTraj (num T) 1).state.v = num sp

/-- All axes end at the time of the longest, and keep the limit of the acceleration. -/
structure EndsTogether (sign : Flt ℝ → ℤ) (axes : List (Axis J A V)) : Prop where
  longest : axes ≠ [] → ∃ T, IsLongest sign axes T
  ends : ∀ T, IsLongest sign axes T → ∀ (i : ℕ) (ax : Axis J A V), axes[i]? = some ax →
    ∃ c : VelocitySmoothing ℝ, (synced sign axes)[i]? = some c ∧ EndsAt c T ax.sp
  bounded : ∀ (i : ℕ) (c : VelocitySmoothing ℝ), (synced sign axes)[i]? = some c → ∀ t, 0 ≤ t →
    ∃ a, (c.updateTraj (num t) 1).state.a = num a ∧ |a| ≤ A

/-- Two axes have the largest change of the velocity, and it is reached below the limit of the
acceleration. -/
def Shared (axes : List (Axis J A V)) : Prop :=
  ∃ (i j : ℕ) (ax ax' : Axis J A V), i ≠ j ∧ axes[i]? = some ax ∧ axes[j]? = some ax' ∧
    ax.change = ax'.change ∧
    (∀ b ∈ axes, b.change ≤ ax.change) ∧ 0 < ax.change ∧ J * ax.change ≤ A ^ 2

theorem Runs.endsAt_iff {c : VelocitySmoothing ℝ} {p : JerkProfile ℝ} {d : ℤ} {a₀ v₀ x₀ sp : ℝ}
    (h : Runs c p d J A a₀ v₀ x₀) (hT : p.total ≤ T) :
    EndsAt c T sp ↔ v₀ + d * p.finalGain = sp := by
  obtain ⟨j, x, hstate, -⟩ := h.state T
  rw [EndsAt, hstate, h.rests.acc_of_total_le hT, h.rests.gain_of_total_le hT, mul_zero]
  exact ⟨fun hend => num.inj hend.2, fun hend => ⟨rfl, congrArg num hend⟩⟩

theorem Runs.bounded {c : VelocitySmoothing ℝ} {p : JerkProfile ℝ} {d : ℤ} {a₀ v₀ x₀ t : ℝ}
    (h : Runs c p d J A a₀ v₀ x₀) (ht : 0 ≤ t) :
    ∃ a, (c.updateTraj (num t) 1).state.a = num a ∧ |a| ≤ A := by
  obtain ⟨j, x, hstate, -⟩ := h.state t
  exact ⟨_, by rw [hstate], h.abs_acc_le ht⟩

theorem synced_spec (hs : IsSign sign) (axes : List (Axis J A V)) :
    ∃ (T : ℝ) (k : ℕ), (∀ ax ∈ axes, minTime J A ax.change ≤ T) ∧ 0 ≤ T ∧
      (0 < T → ∃ ax : Axis J A V, axes[k]? = some ax ∧ minTime J A ax.change = T) ∧
      ∀ i : ℕ, (synced sign axes)[i]? = axes[i]?.map fun ax =>
        if 0 < T ∧ i ≠ k then (ax.updated sign).updateDurationsGivenTotalTime (num T)
        else ax.updated sign := by
  have htimes : (axes.map (Axis.updated sign)).map getTotalTime =
      (axes.map fun ax => minTime J A ax.change).map num := by
    rw [List.map_map, List.map_map]
    exact List.map_congr_left fun ax _ => ax.getTotalTime_updated hs
  obtain ⟨T, k, heq, hall, hT, hk⟩ := longest_spec _ _ htimes
  refine ⟨T, k, fun ax hax => hall _ (List.mem_map_of_mem hax), hT, fun hpos => ?_, fun i => ?_⟩
  · obtain ⟨ax, hax, htime⟩ := Option.map_eq_some_iff.mp (List.getElem?_map.symm.trans (hk hpos))
    exact ⟨ax, hax, htime⟩
  · rw [synced, timeSynchronization, heq]
    dsimp only
    by_cases hpos : 0 < T
    · have hpos' : (0 : Flt ℝ) < num T := hpos
      rw [if_pos hpos', List.getElem?_mapIdx, List.getElem?_map, Option.map_map]
      refine congrArg (fun f => axes[i]?.map f) (funext fun ax => ?_)
      dsimp only [Function.comp_apply]
      by_cases hik : i = k
      · rw [if_neg (not_not.mpr hik), if_neg fun h => h.2 hik]
      · rw [if_pos hik, if_pos ⟨hpos, hik⟩]
    · have hpos' : ¬ (0 : Flt ℝ) < num T := hpos
      rw [if_neg hpos', List.getElem?_map]
      refine congrArg (fun f => axes[i]?.map f) (funext fun ax => ?_)
      rw [if_neg fun h => hpos h.1]

theorem isLongest_iff (hs : IsSign sign) :
    IsLongest sign axes T ↔ (∀ ax ∈ axes, minTime J A ax.change ≤ T) ∧
      ∃ ax ∈ axes, minTime J A ax.change = T := by
  have htime : ∀ ax : Axis J A V, (ax.updated sign).getTotalTime = num (minTime J A ax.change) :=
    fun ax => ax.getTotalTime_updated hs
  rw [IsLongest]
  simp only [htime, num_le_num, num.injEq]

theorem eq_of_isLongest (hs : IsSign sign) {k : ℕ} (hall : ∀ ax ∈ axes, minTime J A ax.change ≤ T)
    (hT : 0 ≤ T) (hk : 0 < T → ∃ ax : Axis J A V, axes[k]? = some ax ∧ minTime J A ax.change = T)
    {T' : ℝ} (hT' : IsLongest sign axes T') : T' = T := by
  obtain ⟨hle, ax, hax, htime⟩ := (isLongest_iff hs).mp hT'
  refine le_antisymm (htime ▸ hall ax hax) ?_
  rcases hT.eq_or_lt with hzero | hpos
  · rw [← hzero, ← htime]
    exact minTime_nonneg ax.ready.jerk_pos ax.ready.accel_pos ax.change_nonneg
  · obtain ⟨ax', hax', htime'⟩ := hk hpos
    exact htime' ▸ hle ax' (List.mem_of_getElem? hax')

theorem Shared.not_endsTogether (hs : IsSign sign) (h : Shared axes) :
    ¬ EndsTogether sign axes := by
  obtain ⟨T, k, hall, hT, hk, hget⟩ := synced_spec hs axes
  obtain ⟨i, j, ax, ax', hij, hi, hj, hsame, hmax, hpos, hlim⟩ := h
  intro hends
  have hJ := ax.ready.jerk_pos
  have hA := ax.ready.accel_pos
  have hlongest : IsLongest sign axes (minTime J A ax.change) := (isLongest_iff hs).mpr
    ⟨fun b hb => (minTime_le_minTime_iff hJ hA b.change_nonneg ax.change_nonneg).mpr (hmax b hb),
      ax, List.mem_of_getElem? hi, rfl⟩
  have hTeq := eq_of_isLongest hs hall hT hk hlongest
  have hTpos : 0 < T := by
    rw [← hTeq, ← minTime_zero hA]
    exact minTime_lt_minTime hJ hA le_rfl hpos
  -- one of the two is not the first
  have hbad : ∀ m (b : Axis J A V), m ≠ k → axes[m]? = some b → b.change = ax.change → False := by
    intro m b hm hb hchange
    obtain ⟨c, hc, hend⟩ := hends.ends _ hlongest m b hb
    rw [hget m, hb, Option.map_some, if_pos ⟨hTpos, hm⟩, Option.some.injEq] at hc
    subst hc
    obtain ⟨p, d, hruns, htotal, hiff⟩ := b.given_spec hs (hall b (List.mem_of_getElem? hb))
    rw [hTeq, hruns.endsAt_iff htotal.le, hiff, hchange] at hend
    exact hend ⟨hpos, hTeq.symm, hlim⟩
  by_cases hik : i = k
  · exact hbad j ax' (fun hjk => hij (hik.trans hjk.symm)) hj hsame.symm
  · exact hbad i ax hik hi rfl

/-- **When all axes end together**: at most one of them needs the longest time, or the acceleration
reaches its limit. -/
theorem endsTogether_iff (hs : IsSign sign) (axes : List (Axis J A V)) :
    EndsTogether sign axes ↔ ¬ Shared axes := by
  obtain ⟨T, k, hall, hT, hk, hget⟩ := synced_spec hs axes
  refine ⟨fun hends hshared => hshared.not_endsTogether hs hends, ?_⟩
  intro hshared
  refine ⟨fun hne => ⟨T, (isLongest_iff hs).mpr ⟨hall, ?_⟩⟩, fun T' hT' i ax hax => ?_,
    fun i c hc t ht => ?_⟩
  · rcases hT.eq_or_lt with hzero | hpos
    · obtain ⟨ax, hax⟩ := List.exists_mem_of_ne_nil axes hne
      refine ⟨ax, hax, le_antisymm (hall ax hax) ?_⟩
      rw [← hzero]
      exact minTime_nonneg ax.ready.jerk_pos ax.ready.accel_pos ax.change_nonneg
    · obtain ⟨ax, hax, htime⟩ := hk hpos
      exact ⟨ax, List.mem_of_getElem? hax, htime⟩
  · rw [eq_of_isLongest hs hall hT hk hT', hget i, hax, Option.map_some]
    have hle := hall ax (List.mem_of_getElem? hax)
    refine ⟨_, rfl, ?_⟩
    by_cases hcase : 0 < T ∧ i ≠ k
    · rw [if_pos hcase]
      obtain ⟨p, d, hruns, htotal, hiff⟩ := ax.given_spec hs hle
      rw [hruns.endsAt_iff htotal.le, hiff]
      rintro ⟨hpos, hTeq, hlim⟩
      obtain ⟨ax', hax', htime⟩ := hk hcase.1
      have hJ := ax.ready.jerk_pos
      have hA := ax.ready.accel_pos
      have hmax : ∀ b ∈ axes, b.change ≤ ax.change := fun b hb =>
        (minTime_le_minTime_iff hJ hA b.change_nonneg ax.change_nonneg).mp (hTeq ▸ hall b hb)
      have hsame : ax.change = ax'.change :=
        le_antisymm ((minTime_le_minTime_iff hJ hA ax.change_nonneg ax'.change_nonneg).mp
          (htime ▸ hle)) (hmax ax' (List.mem_of_getElem? hax'))
      exact hshared ⟨i, k, ax, ax', hcase.2, hax, hax', hsame, hmax, hpos, hlim⟩
    · rw [if_neg hcase]
      obtain ⟨p, d, hplans, htotal⟩ := ax.exists_plans_updated hs
      exact (hplans.toRuns.endsAt_iff (htotal.trans_le hle)).mpr hplans.ends
  · rw [hget i] at hc
    obtain ⟨ax, hax, rfl⟩ := Option.map_eq_some_iff.mp hc
    have hle := hall ax (List.mem_of_getElem? hax)
    split_ifs
    · obtain ⟨p, d, hruns, -, -⟩ := ax.given_spec hs hle
      exact hruns.bounded ht
    · obtain ⟨p, d, hplans, -⟩ := ax.exists_plans_updated hs
      exact hplans.toRuns.bounded ht

/-! ### Two axes -/

noncomputable def axisAt (vel_setpoint : ℝ) : Axis 22 8 6 where
  c := init (num 0) (num 0) (num 0)
  v₀ := 0
  x₀ := 0
  vel_setpoint := vel_setpoint
  ready := ⟨congrArg num (by norm_num), congrArg num (by norm_num), congrArg num (by norm_num),
    by norm_num, by norm_num, by norm_num, rfl, rfl, rfl, by norm_num⟩

theorem change_axisAt {x : ℝ} (hx : 0 ≤ x) (hx' : x ≤ 6) : (axisAt x).change = x := by
  have hsp : (axisAt x).sp = x := by
    rw [Axis.sp, limitedVelSp, axisAt, min_eq_left hx', max_eq_right (by linarith)]
  rw [Axis.change, hsp, axisAt, sub_zero, abs_of_nonneg hx]

theorem endsTogether_axes : EndsTogether standardSign [axisAt 1, axisAt 2] := by
  refine (endsTogether_iff (fun _ => rfl) _).mpr ?_
  rintro ⟨i, j, ax, ax', hij, hi, hj, hsame, -⟩
  have hne : (axisAt 1).change ≠ (axisAt 2).change := by
    rw [change_axisAt (by norm_num) (by norm_num), change_axisAt (by norm_num) (by norm_num)]
    norm_num
  rcases i with _ | _ | i <;> rcases j with _ | _ | j <;> simp at hi hj hij
  · exact hne (by rw [hi, hj, hsame])
  · exact hne (by rw [hi, hj, hsame])

/-- Of two axes with the same setpoint, the second is not moved. -/
theorem not_endsTogether_axes : ¬ EndsTogether standardSign [axisAt 2, axisAt 2] := by
  refine Shared.not_endsTogether (fun _ => rfl)
    ⟨0, 1, axisAt 2, axisAt 2, by decide, rfl, rfl, rfl, ?_, ?_, ?_⟩
  · simp
  · rw [change_axisAt (by norm_num) (by norm_num)]
    norm_num
  · rw [change_axisAt (by norm_num) (by norm_num)]
    norm_num

end VelocitySmoothing
