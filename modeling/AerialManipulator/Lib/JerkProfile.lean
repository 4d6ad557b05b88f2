/-
Velocity profiles with a limited jerk.

A profile raises the acceleration from `a0` with a constant jerk for the time `T1`, holds it for
`T2` and lowers it for `T3`.  `acc` and `gain` are the acceleration and the change of the velocity
after a time; they are read off the time that has been spent in each phase.

`Rests` says that a profile keeps a bound of the acceleration and ends without any.  Then

* `abs_acc_le`, `acc_of_total_le`, `gain_of_total_le` — the acceleration is bounded and is zero in
  the end, and the velocity stays where it is from then on;
* `gain_mem` — the velocity stays between the start, the end and the velocity that is reached by
  removing the acceleration at the start;
* `motion`, `reserve` — where a profile is, and how far it leads from there.
-/
import AerialManipulator.Lib.Literals

structure JerkProfile (K : Type*) where
  jerk : K
  a0 : K
  T1 : K
  T2 : K
  T3 : K

namespace JerkProfile

variable {K : Type*} [Field K] [LinearOrder K]

section Definitions

variable (p : JerkProfile K) (t : K)

def total : K := p.T1 + p.T2 + p.T3

def peak : K := p.a0 + p.jerk * p.T1

/-! The time that has been spent in each phase. -/

def t1 : K := min t p.T1

def t2 : K := min (t - p.t1 t) p.T2

def t3 : K := min (t - p.t1 t - p.t2 t) p.T3

def acc : K := p.a0 + p.jerk * p.t1 t - p.jerk * p.t3 t

def gain : K :=
  p.a0 * p.t1 t + p.jerk * p.t1 t ^ 2 / 2 + (p.a0 + p.jerk * p.t1 t) * (p.t2 t + p.t3 t) -
    p.jerk * p.t3 t ^ 2 / 2

def finalGain : K := (p.peak ^ 2 - p.a0 ^ 2) / (2 * p.jerk) + p.peak * p.T2 + p.peak ^ 2 /
    (2 * p.jerk)

/-- The change of the velocity until the acceleration has been removed. -/
def zeroGain : K := p.a0 * |p.a0| / (2 * p.jerk)

end Definitions

variable [IsStrictOrderedRing K]

/-- The acceleration is bounded, and removed in the end. -/
structure Rests (p : JerkProfile K) (A : K) : Prop where
  jerk_pos : 0 < p.jerk
  T1_nonneg : 0 ≤ p.T1
  T2_nonneg : 0 ≤ p.T2
  T3_nonneg : 0 ≤ p.T3
  a0_le : |p.a0| ≤ A
  peak_le : p.peak ≤ A
  peak_eq : p.peak = p.jerk * p.T3

/-- The phase that a time is in, and the time spent in each. -/
inductive Phase (p : JerkProfile K) (t : K) : Prop
  | rise (ht : t ≤ p.T1) (h1 : p.t1 t = t) (h2 : p.t2 t = 0) (h3 : p.t3 t = 0)
  | hold (ht : p.T1 ≤ t) (ht' : t ≤ p.T1 + p.T2) (h1 : p.t1 t = p.T1) (h2 : p.t2 t = t - p.T1)
      (h3 : p.t3 t = 0)
  | fall (ht : p.T1 + p.T2 ≤ t) (ht' : t ≤ p.total) (h1 : p.t1 t = p.T1) (h2 : p.t2 t = p.T2)
      (h3 : p.t3 t = t - p.T1 - p.T2)
  | rest (ht : p.total ≤ t) (h1 : p.t1 t = p.T1) (h2 : p.t2 t = p.T2) (h3 : p.t3 t = p.T3)

namespace Rests

variable {p : JerkProfile K} {A t : K}

theorem peak_nonneg (h : p.Rests A) : 0 ≤ p.peak := by
  rw [h.peak_eq]
  exact mul_nonneg h.jerk_pos.le h.T3_nonneg

theorem phase (h : p.Rests A) (t : K) : p.Phase t := by
  have hT2 := h.T2_nonneg
  have hT3 := h.T3_nonneg
  rcases le_total t p.T1 with h1 | h1
  · have ht1 : p.t1 t = t := min_eq_left h1
    have ht2 : p.t2 t = 0 := by rw [t2, ht1, sub_self, min_eq_left hT2]
    exact .rise h1 ht1 ht2 (by rw [t3, ht1, ht2, sub_self, sub_self, min_eq_left hT3])
  have ht1 : p.t1 t = p.T1 := min_eq_right h1
  rcases le_total t (p.T1 + p.T2) with h2 | h2
  · have ht2 : p.t2 t = t - p.T1 := by rw [t2, ht1, min_eq_left (by linarith)]
    exact .hold h1 h2 ht1 ht2 (by rw [t3, ht1, ht2, sub_self, min_eq_left hT3])
  have ht2 : p.t2 t = p.T2 := by rw [t2, ht1, min_eq_right (by linarith)]
  rcases le_total t p.total with h3 | h3
  · refine .fall h2 h3 ht1 ht2 ?_
    rw [t3, ht1, ht2, min_eq_left (by rw [total] at h3; linarith)]
  · refine .rest h3 ht1 ht2 ?_
    rw [t3, ht1, ht2, min_eq_right (by rw [total] at h3; linarith)]

/-! ### The end -/

theorem times_of_total_le (h : p.Rests A) (ht : p.total ≤ t) :
    p.t1 t = p.T1 ∧ p.t2 t = p.T2 ∧ p.t3 t = p.T3 := by
  have hT2 := h.T2_nonneg
  have hT3 := h.T3_nonneg
  rw [total] at ht
  have ht1 : p.t1 t = p.T1 := min_eq_right (by linarith)
  have ht2 : p.t2 t = p.T2 := by rw [t2, ht1, min_eq_right (by linarith)]
  exact ⟨ht1, ht2, by rw [t3, ht1, ht2, min_eq_right (by linarith)]⟩

theorem acc_of_total_le (h : p.Rests A) (ht : p.total ≤ t) : p.acc t = 0 := by
  have hpeak := h.peak_eq
  obtain ⟨ht1, -, ht3⟩ := h.times_of_total_le ht
  rw [peak] at hpeak
  rw [acc, ht1, ht3, hpeak, sub_self]

theorem rise_eq (h : p.Rests A) (q : K) :
    p.a0 * ((q - p.a0) / p.jerk) + p.jerk * ((q - p.a0) / p.jerk) ^ 2 / 2 =
      (q ^ 2 - p.a0 ^ 2) / (2 * p.jerk) := by
  have hj := h.jerk_pos.ne'
  field_simp
  ring

theorem fall_eq (h : p.Rests A) (u : K) :
    p.peak * u - p.jerk * u ^ 2 / 2 = (p.peak ^ 2 - (p.peak - p.jerk * u) ^ 2) / (2 * p.jerk) := by
  have hj := h.jerk_pos.ne'
  field_simp
  ring

omit [IsStrictOrderedRing K] in
theorem T1_eq (h : p.Rests A) : p.T1 = (p.peak - p.a0) / p.jerk := by
  rw [peak, add_sub_cancel_left, mul_div_cancel_left₀ _ h.jerk_pos.ne']

theorem gain_of_t1 (h : p.Rests A) (h1 : p.t1 t = p.T1) :
    p.gain t = (p.peak ^ 2 - p.a0 ^ 2) / (2 * p.jerk) + p.peak * p.t2 t +
      (p.peak ^ 2 - (p.peak - p.jerk * p.t3 t) ^ 2) / (2 * p.jerk) := by
  rw [← h.rise_eq p.peak, ← h.T1_eq, ← h.fall_eq, gain, h1, ← peak]
  ring

theorem gain_of_total_le (h : p.Rests A) (ht : p.total ≤ t) : p.gain t = p.finalGain := by
  obtain ⟨ht1, ht2, ht3⟩ := h.times_of_total_le ht
  rw [h.gain_of_t1 ht1, ht2, ht3, ← h.peak_eq, sub_self, zero_pow two_ne_zero, sub_zero, finalGain]

/-! ### Bounds -/

theorem abs_acc_le (h : p.Rests A) (ht : 0 ≤ t) : |p.acc t| ≤ A := by
  have hj := h.jerk_pos.le
  have hpeak := h.peak_eq
  have hpos := h.peak_nonneg
  have hle := h.peak_le
  obtain ⟨hlow, hhigh⟩ := abs_le.mp h.a0_le
  have hA : 0 ≤ A := hpos.trans hle
  rw [peak] at hpeak hpos hle
  rw [acc, abs_le]
  cases h.phase t with
  | rise ht' h1 h2 h3 =>
    rw [h1, h3]
    have hjt := mul_nonneg hj ht
    have hjT := mul_le_mul_of_nonneg_left ht' hj
    constructor <;> linarith
  | hold _ _ h1 h2 h3 =>
    rw [h1, h3]
    constructor <;> linarith
  | fall ht₀ ht₁ h1 h2 h3 =>
    rw [h1, h3]
    rw [total] at ht₁
    have hjt := mul_nonneg hj (by linarith : 0 ≤ t - p.T1 - p.T2)
    have hjT := mul_le_mul_of_nonneg_left (by linarith : t - p.T1 - p.T2 ≤ p.T3) hj
    constructor <;> linarith
  | rest _ h1 h2 h3 =>
    rw [h1, h3]
    constructor <;> linarith

/-- The velocity does not fall below the start or the velocity without the acceleration. -/
theorem min_le_rise (h : p.Rests A) {q : K} (hq : p.a0 ≤ q) :
    min 0 p.zeroGain ≤ (q ^ 2 - p.a0 ^ 2) / (2 * p.jerk) := by
  have hj : 0 < 2 * p.jerk := mul_pos two_pos h.jerk_pos
  rcases le_total 0 p.a0 with ha | ha
  · have hsq : p.a0 ^ 2 ≤ q ^ 2 := pow_le_pow_left₀ ha hq 2
    exact (min_le_left _ _).trans (div_nonneg (sub_nonneg.mpr hsq) hj.le)
  · refine (min_le_right _ _).trans ?_
    rw [zeroGain, abs_of_nonpos ha]
    exact div_le_div_of_nonneg_right (by nlinarith [sq_nonneg q]) hj.le

theorem rise_le_max (h : p.Rests A) {q : K} (hq : p.a0 ≤ q) (hq' : q ≤ p.peak) :
    (q ^ 2 - p.a0 ^ 2) / (2 * p.jerk) ≤ max 0 ((p.peak ^ 2 - p.a0 ^ 2) / (2 * p.jerk)) := by
  have hj : 0 < 2 * p.jerk := mul_pos two_pos h.jerk_pos
  rcases le_total 0 q with hpos | hneg
  · have hsq : q ^ 2 ≤ p.peak ^ 2 := pow_le_pow_left₀ hpos hq' 2
    exact le_max_of_le_right (div_le_div_of_nonneg_right (sub_le_sub_right hsq _) hj.le)
  · exact le_max_of_le_left (div_nonpos_of_nonpos_of_nonneg (by nlinarith) hj.le)

theorem gain_mem (h : p.Rests A) (ht : 0 ≤ t) :
    min 0 p.zeroGain ≤ p.gain t ∧ p.gain t ≤ max 0 p.finalGain := by
  have hj := h.jerk_pos
  have hj2 : 0 < 2 * p.jerk := mul_pos two_pos hj
  have hpos := h.peak_nonneg
  have hle : p.a0 ≤ p.peak := le_add_of_nonneg_right (mul_nonneg hj.le h.T1_nonneg)
  have hlow := h.min_le_rise hle
  have hhold := mul_nonneg hpos h.T2_nonneg
  have hfall : 0 ≤ p.peak ^ 2 / (2 * p.jerk) := div_nonneg (sq_nonneg _) hj2.le
  have hrise : (p.peak ^ 2 - p.a0 ^ 2) / (2 * p.jerk) ≤ p.finalGain := by
    rw [finalGain]
    linarith
  cases h.phase t with
  | rise ht' h1 h2 h3 =>
    have hq : p.a0 ≤ p.a0 + p.jerk * t := le_add_of_nonneg_right (mul_nonneg hj.le ht)
    have hq' : p.a0 + p.jerk * t ≤ p.peak :=
      (add_le_add_iff_left p.a0).mpr (mul_le_mul_of_nonneg_left ht' hj.le)
    have hgain : p.gain t = ((p.a0 + p.jerk * t) ^ 2 - p.a0 ^ 2) / (2 * p.jerk) := by
      rw [← h.rise_eq, add_sub_cancel_left, mul_div_cancel_left₀ _ hj.ne', gain, h1, h2, h3]
      ring
    rw [hgain]
    exact ⟨h.min_le_rise hq, (h.rise_le_max hq hq').trans (max_le_max le_rfl hrise)⟩
  | hold ht₀ ht₁ h1 h2 h3 =>
    have hgain : p.gain t = (p.peak ^ 2 - p.a0 ^ 2) / (2 * p.jerk) + p.peak * (t - p.T1) := by
      rw [h.gain_of_t1 h1, h2, h3, mul_zero, sub_zero, sub_self, zero_div, add_zero]
    have hmul := mul_nonneg hpos (sub_nonneg.mpr ht₀)
    have hmul' := mul_le_mul_of_nonneg_left (by linarith : t - p.T1 ≤ p.T2) hpos
    rw [hgain]
    refine ⟨by linarith, le_max_of_le_right ?_⟩
    rw [finalGain]
    linarith
  | fall ht₀ ht₁ h1 h2 h3 =>
    have hu : 0 ≤ p.t3 t := by rw [h3]; linarith
    have hu' : p.jerk * p.t3 t ≤ p.peak := by
      rw [h.peak_eq]
      rw [total] at ht₁
      exact mul_le_mul_of_nonneg_left (by rw [h3]; linarith) hj.le
    have hsq : (p.peak - p.jerk * p.t3 t) ^ 2 ≤ p.peak ^ 2 :=
      pow_le_pow_left₀ (sub_nonneg.mpr hu') (sub_le_self _ (mul_nonneg hj.le hu)) 2
    have hlast : 0 ≤ (p.peak ^ 2 - (p.peak - p.jerk * p.t3 t) ^ 2) / (2 * p.jerk) :=
      div_nonneg (sub_nonneg.mpr hsq) hj2.le
    have hlast' : (p.peak ^ 2 - (p.peak - p.jerk * p.t3 t) ^ 2) / (2 * p.jerk) ≤
        p.peak ^ 2 / (2 * p.jerk) :=
      div_le_div_of_nonneg_right (sub_le_self _ (sq_nonneg _)) hj2.le
    rw [h.gain_of_t1 h1, h2]
    refine ⟨by linarith, le_max_of_le_right ?_⟩
    rw [finalGain]
    linarith
  | rest ht₀ h1 h2 h3 =>
    rw [h.gain_of_total_le ht₀]
    exact ⟨hlow.trans hrise, le_max_right _ _⟩

/-- How far a profile has come: the acceleration is still raised, or what is missing is the time `u`
at the peak and what lowering the acceleration gives. -/
theorem motion (h : p.Rests A) (ht : 0 ≤ t) :
    (p.a0 ≤ p.acc t ∧ p.acc t ≤ p.peak ∧ p.acc t = p.a0 + p.jerk * t ∧
      p.gain t = (p.acc t ^ 2 - p.a0 ^ 2) / (2 * p.jerk)) ∨
    ∃ u, 0 ≤ u ∧ u ≤ p.T2 ∧ (u = 0 ∨ p.acc t = p.peak) ∧ 0 ≤ p.acc t ∧ p.acc t ≤ p.peak ∧
      max (p.total - t) 0 = u + p.acc t / p.jerk ∧
      p.gain t = p.finalGain - p.acc t ^ 2 / (2 * p.jerk) - p.peak * u := by
  have hj := h.jerk_pos
  have hT2 := h.T2_nonneg
  have hT3 := h.T3_nonneg
  have hpos := h.peak_nonneg
  have hT3_eq : p.T3 = p.peak / p.jerk := by rw [h.peak_eq, mul_div_cancel_left₀ _ hj.ne']
  cases h.phase t with
  | rise ht' h1 h2 h3 =>
    left
    have hacc : p.acc t = p.a0 + p.jerk * t := by rw [acc, h1, h3, mul_zero, sub_zero]
    refine ⟨?_, ?_, hacc, ?_⟩
    · rw [hacc]
      exact le_add_of_nonneg_right (mul_nonneg hj.le ht)
    · rw [hacc]
      exact (add_le_add_iff_left p.a0).mpr (mul_le_mul_of_nonneg_left ht' hj.le)
    · rw [hacc, ← h.rise_eq, add_sub_cancel_left, mul_div_cancel_left₀ _ hj.ne', gain, h1, h2, h3]
      ring
  | hold ht₀ ht₁ h1 h2 h3 =>
    right
    have hacc : p.acc t = p.peak := by rw [acc, h1, h3, mul_zero, sub_zero, peak]
    refine ⟨p.T1 + p.T2 - t, by linarith, by linarith, .inr hacc, hacc ▸ hpos, hacc.le, ?_, ?_⟩
    · rw [hacc, ← hT3_eq, total, max_eq_left (by linarith)]
      ring
    · rw [hacc, h.gain_of_t1 h1, h2, h3, finalGain]
      ring
  | fall ht₀ ht₁ h1 h2 h3 =>
    right
    have hacc : p.acc t = p.peak - p.jerk * p.t3 t := by rw [acc, h1, peak]
    rw [total] at ht₁
    have hle : p.jerk * p.t3 t ≤ p.peak := by
      rw [h.peak_eq]
      exact mul_le_mul_of_nonneg_left (by rw [h3]; linarith) hj.le
    have hnonneg : 0 ≤ p.jerk * p.t3 t := mul_nonneg hj.le (by rw [h3]; linarith)
    refine ⟨0, le_rfl, hT2, .inl rfl, ?_, ?_, ?_, ?_⟩
    · rw [hacc]
      exact sub_nonneg.mpr hle
    · rw [hacc]
      exact sub_le_self _ hnonneg
    · rw [hacc, sub_div, ← hT3_eq, mul_div_cancel_left₀ _ hj.ne', h3, total,
        max_eq_left (by linarith)]
      ring
    · rw [hacc, h.gain_of_t1 h1, h2, finalGain]
      ring
  | rest ht₀ _ _ _ =>
    right
    have hacc := h.acc_of_total_le ht₀
    refine ⟨0, le_rfl, hT2, .inl rfl, hacc.ge, hacc ▸ hpos, ?_, ?_⟩
    · rw [hacc, zero_div, add_zero, max_eq_right (sub_nonpos.mpr ht₀)]
    · rw [hacc, h.gain_of_total_le ht₀, zero_pow two_ne_zero, zero_div, mul_zero, sub_zero,
        sub_zero]

/-- Removing the acceleration at any time leads no further than removing it at the start, or the
end. -/
theorem reserve (h : p.Rests A) (ht : 0 ≤ t) :
    p.gain t + p.acc t ^ 2 / (2 * p.jerk) ≤ max (p.a0 ^ 2 / (2 * p.jerk)) p.finalGain ∧
      p.acc t ^ 2 / (2 * p.jerk) - p.gain t ≤ p.a0 ^ 2 / (2 * p.jerk) := by
  have hr : 0 ≤ 1 / (2 * p.jerk) := one_div_nonneg.mpr (mul_pos two_pos h.jerk_pos).le
  have hpos := h.peak_nonneg
  have hfinal : p.finalGain = (2 * p.peak ^ 2 - p.a0 ^ 2) / (2 * p.jerk) + p.peak * p.T2 := by
    rw [finalGain]
    ring
  have hhold := mul_nonneg hpos h.T2_nonneg
  rcases h.motion ht with ⟨hq, hq', -, hgain⟩ | ⟨u, hu, hu', -, hq, hq', -, hgain⟩
  · refine ⟨?_, by rw [hgain, sub_div, sub_sub_cancel]⟩
    rw [hgain]
    rcases le_total 0 (p.acc t) with hacc | hacc
    · have hsq := mul_le_mul_of_nonneg_right (pow_le_pow_left₀ hacc hq' 2) hr
      refine le_max_of_le_right ?_
      rw [hfinal]
      linear_combination 2 * hsq + hhold
    · have hsq : p.acc t ^ 2 ≤ p.a0 ^ 2 := by nlinarith
      refine le_max_of_le_left ?_
      linear_combination 2 * mul_le_mul_of_nonneg_right hsq hr
  · have hsq := mul_le_mul_of_nonneg_right (pow_le_pow_left₀ hq hq' 2) hr
    have hleft := mul_le_mul_of_nonneg_left hu' hpos
    have hdone := mul_nonneg hpos hu
    rw [hgain]
    refine ⟨le_max_of_le_right (by linarith), ?_⟩
    rw [hfinal]
    linear_combination 2 * hsq + hleft

end Rests

end JerkProfile
