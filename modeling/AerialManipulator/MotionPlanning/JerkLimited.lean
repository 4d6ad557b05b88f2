/-
The trajectories of `VelocitySmoothing`.

* `trajAt_num` — a trajectory is a velocity profile, in one of the two directions;
* `updateDurations_follows` — the durations make it one that reaches the setpoint;
* **`jerkLimited`** — the limits, the end, and independence of the steps.
-/
import AerialManipulator.Lib.JerkProfile
import AerialManipulator.MotionPlanning.VelocitySmoothing

open WithNaN

namespace VelocitySmoothing

variable {c : VelocitySmoothing ℝ} {p : JerkProfile ℝ} {A : ℝ}

/-! ### Profiles -/

/-- The durations and the initial state are those of a profile, in the direction `d`. -/
structure Follows (c : VelocitySmoothing ℝ) (p : JerkProfile ℝ) (d : ℤ) (v₀ x₀ : ℝ) : Prop where
  max_jerk : c.max_jerk = num p.jerk
  direction : c.direction = d
  state_init_a : c.state_init.a = num (d * p.a0)
  state_init_v : c.state_init.v = num v₀
  state_init_x : c.state_init.x = num x₀
  T1 : c.T1 = num p.T1
  T2 : c.T2 = num p.T2
  T3 : c.T3 = num p.T3

theorem half_def : (0.5 : Flt ℝ) = num (1 / 2) := congrArg num (by norm_num)

theorem one_sixth_def : (1.0 / 6.0 : Flt ℝ) = num (1 / 6) := by
  have hdiv : (1.0 / 6.0 : Flt ℝ) = num (1.0 / 6.0) := num_div_of_ne (by norm_num)
  rw [hdiv]
  norm_num

theorem two_def : (2.0 : Flt ℝ) = num 2 := congrArg num (by norm_num)

theorem four_def : (4.0 : Flt ℝ) = num 4 := congrArg num (by norm_num)

theorem evaluatePoly_num (J a v x t : ℝ) (d : ℤ) : ∃ x',
    evaluatePoly (num J) (num a) (num v) (num x) (num t) d =
      ⟨num (d * J), num (a + d * J * t), num (v + a * t + d * J * t ^ 2 / 2), num x'⟩ := by
  refine ⟨x + v * t + 1 / 2 * a * (t * t) + 1 / 6 * (d * J) * (t * t * t), ?_⟩
  have hv : v + a * t + 1 / 2 * (d * J) * (t * t) = v + a * t + d * J * t ^ 2 / 2 := by ring
  rw [← hv]
  simp only [evaluatePoly, ofInt, one_sixth_def, half_def, num_mul, num_add]

theorem nextPhase_num {r T : ℝ} (hr : 0 ≤ r) (hT : 0 ≤ T) (J j a v x : ℝ) (d : ℤ) : ∃ j' x',
    nextPhase (num J) (num T) d (⟨num j, num a, num v, num x⟩, num r) =
      (⟨num j', num (a + d * J * min r T), num (v + a * min r T + d * J * min r T ^ 2 / 2), num x'⟩,
        num (r - min r T)) ∧ (j' = j ∨ j' = d * J) := by
  rcases hr.eq_or_lt with rfl | hpos
  · refine ⟨j, x, ?_, .inl rfl⟩
    rw [min_eq_left hT]
    have hlt : ¬ (0 : Flt ℝ) < num 0 := lt_irrefl (0 : ℝ)
    rw [nextPhase, if_neg hlt]
    simp
  · obtain ⟨x', hx'⟩ := evaluatePoly_num J a v x (min r T) d
    refine ⟨d * J, x', ?_, .inr rfl⟩
    have hlt : (0 : Flt ℝ) < num r := hpos
    rw [nextPhase, if_pos hlt]
    dsimp only
    rw [math.min_num, hx', num_sub]

theorem trajAt_num {d : ℤ} {v₀ x₀ : ℝ} (h : Follows c p d v₀ x₀) (hp : p.Rests A) (t : ℝ) :
    ∃ j x, c.trajAt (num t) = ⟨num j, num (d * p.acc t), num (v₀ + d * p.gain t), num x⟩ ∧
      (j = d * p.jerk ∨ j = 0 ∨ j = -(d * p.jerk)) := by
  have hr : 0 ≤ t - p.t1 t := sub_nonneg.mpr (min_le_left _ _)
  have hr' : 0 ≤ t - p.t1 t - p.t2 t := sub_nonneg.mpr (min_le_left _ _)
  -- the three phases
  obtain ⟨x₁, h1⟩ := evaluatePoly_num p.jerk (d * p.a0) v₀ x₀ (p.t1 t) d
  obtain ⟨j₂, x₂, h2, hj₂⟩ := nextPhase_num hr hp.T2_nonneg 0 (d * p.jerk)
    (d * p.a0 + d * p.jerk * p.t1 t) (v₀ + d * p.a0 * p.t1 t + d * p.jerk * p.t1 t ^ 2 / 2) x₁ 0
  obtain ⟨j₃, x₃, h3, hj₃⟩ := nextPhase_num hr' hp.T3_nonneg p.jerk j₂
    (d * p.a0 + d * p.jerk * p.t1 t + (0 : ℤ) * 0 * p.t2 t)
    (v₀ + d * p.a0 * p.t1 t + d * p.jerk * p.t1 t ^ 2 / 2 +
      (d * p.a0 + d * p.jerk * p.t1 t) * p.t2 t + (0 : ℤ) * 0 * p.t2 t ^ 2 / 2) x₂ (-d)
  have hacc : d * p.a0 + d * p.jerk * p.t1 t + (0 : ℤ) * 0 * p.t2 t +
      (-d : ℤ) * p.jerk * p.t3 t = d * p.acc t := by
    rw [JerkProfile.acc]
    push_cast
    ring
  have hgain : v₀ + d * p.a0 * p.t1 t + d * p.jerk * p.t1 t ^ 2 / 2 +
      (d * p.a0 + d * p.jerk * p.t1 t) * p.t2 t + (0 : ℤ) * 0 * p.t2 t ^ 2 / 2 +
      (d * p.a0 + d * p.jerk * p.t1 t + (0 : ℤ) * 0 * p.t2 t) * p.t3 t +
      (-d : ℤ) * p.jerk * p.t3 t ^ 2 / 2 = v₀ + d * p.gain t := by
    rw [JerkProfile.gain]
    push_cast
    ring
  have hlowered : nextPhase c.max_jerk c.T3 (-c.direction) (nextPhase 0 c.T2 0
      (evaluatePoly c.max_jerk c.state_init.a c.state_init.v c.state_init.x
        (math.min (num t) c.T1) c.direction, num t - math.min (num t) c.T1)) =
      (⟨num j₃, num (d * p.acc t), num (v₀ + d * p.gain t), num x₃⟩,
        num (t - p.t1 t - p.t2 t - p.t3 t)) := by
    rw [h.max_jerk, h.T1, h.T2, h.T3, h.direction, h.state_init_a, h.state_init_v, h.state_init_x,
      math.min_num, num_sub, ← JerkProfile.t1, h1, zero_def, h2, ← JerkProfile.t2, h3,
      ← JerkProfile.t3, hacc, hgain]
  have hjerk : j₃ = d * p.jerk ∨ j₃ = 0 ∨ j₃ = -(d * p.jerk) := by
    rcases hj₃ with rfl | rfl
    · rcases hj₂ with rfl | rfl
      · exact .inl rfl
      · exact .inr (.inl (mul_zero _))
    · exact .inr (.inr (by push_cast; ring))
  rw [trajAt]
  simp only [hlowered]
  by_cases hrest : 0 < t - p.t1 t - p.t2 t - p.t3 t
  · -- all phases are over
    have htotal : p.total ≤ t := by
      cases hp.phase t with
      | rise _ h1 h2 h3 =>
        rw [h1, h2, h3] at hrest
        linarith
      | hold _ _ h1 h2 h3 =>
        rw [h1, h2, h3] at hrest
        linarith
      | fall _ _ h1 h2 h3 =>
        rw [h1, h2, h3] at hrest
        linarith
      | rest ht₀ _ _ _ => exact ht₀
    have hlt : (0 : Flt ℝ) < num (t - p.t1 t - p.t2 t - p.t3 t) := hrest
    obtain ⟨x₄, h4⟩ := evaluatePoly_num 0 0 (v₀ + d * p.gain t) x₃ (t - p.t1 t - p.t2 t - p.t3 t) 0
    refine ⟨0, x₄, ?_, .inr (.inl rfl)⟩
    rw [if_pos hlt, zero_def, h4, hp.acc_of_total_le htotal]
    simp
  · have hlt : ¬ (0 : Flt ℝ) < num (t - p.t1 t - p.t2 t - p.t3 t) := hrest
    exact ⟨j₃, x₃, if_neg hlt, hjerk⟩

/-! ### Durations -/

section Durations

variable {d : ℤ} {J α δ s P : ℝ}

theorem max_num_zero {x : ℝ} (hx : 0 ≤ x) : math.max (num x) 0 = num x := by
  rw [zero_def, math.max_num, max_eq_left hx]

theorem saturateT1ForAccel_num (hd : d = 1 ∨ d = -1) (hJ : 0 < J) (hs : 0 ≤ s) (hA : 0 < A) :
    saturateT1ForAccel (num (d * α)) (num (d * J)) (num ((s - α) / J)) (num A) =
      num ((min s A - α) / J) := by
  have hne := hJ.ne'
  have hlt : ∀ x y : ℝ, (num x : Flt ℝ) < num y ↔ x < y := num_lt_num
  have hmul : J * ((s - α) / J) = s - α := mul_div_cancel₀ _ hne
  rcases hd with rfl | rfl
  · have hacc : ((1 : ℤ) : ℝ) * α + (1 : ℤ) * J * ((s - α) / J) = s := by
      push_cast
      rw [one_mul, one_mul, hmul]
      ring
    simp only [saturateT1ForAccel, num_mul, num_add, neg_num, num_sub, hacc, hlt]
    push_cast
    rcases le_or_gt s A with hle | hgt
    · rw [if_neg (not_lt.mpr hle), if_neg (by linarith), min_eq_left hle]
    · rw [if_pos hgt, min_eq_right hgt.le, one_mul, one_mul, num_div_of_ne hne]
  · have hacc : ((-1 : ℤ) : ℝ) * α + (-1 : ℤ) * J * ((s - α) / J) = -s := by
      push_cast
      rw [neg_one_mul, neg_one_mul, neg_mul, hmul]
      ring
    simp only [saturateT1ForAccel, num_mul, num_add, neg_num, num_sub, hacc, hlt]
    push_cast
    rcases le_or_gt s A with hle | hgt
    · rw [if_neg (by linarith), if_neg (by linarith), min_eq_left hle]
    · rw [if_neg (by linarith), if_pos (by linarith), min_eq_right hgt.le,
        num_div_of_ne (by linarith), neg_one_mul, neg_one_mul, sub_neg_eq_add, div_neg]
      congr 1
      ring

/-- The first phase is the one to the acceleration `s`, before the limit is looked at. -/
theorem computeT1_eq (hd : d = 1 ∨ d = -1) (hJ : 0 < J) (hs : 0 ≤ s) (hαs : α ≤ s)
    (hroot : s ^ 2 = α ^ 2 / 2 + J * δ) (a_max : Flt ℝ) :
    computeT1 (num (d * α)) (num (d * δ)) (num (d * J)) a_max =
      math.max (saturateT1ForAccel (num (d * α)) (num (d * J)) (num ((s - α) / J)) a_max) 0 := by
  have hne := hJ.ne'
  have hsq : (d : ℝ) * d = 1 := by rcases hd with rfl | rfl <;> norm_num
  have hdelta : (2.0 : Flt ℝ) * num (d * α) * num (d * α) + 4.0 * num (d * J) * num (d * δ) =
      num ((2 * s) ^ 2) := by
    have hexp : 2 * (d * α) * (d * α) + 4 * (d * J) * (d * δ) =
        (d * d) * (2 * α ^ 2 + 4 * (J * δ)) := by ring
    rw [two_def, four_def, num_mul, num_mul, num_mul, num_mul, num_add, hexp, hsq]
    refine congrArg num ?_
    linarith
  have hneg : ¬ (num ((2 * s) ^ 2) : Flt ℝ) < 0 := not_lt.mpr (sq_nonneg (2 * s))
  have hsqrt : sqrtf (num ((2 * s) ^ 2)) = num (2 * s) := by
    rw [sqrtf_num (sq_nonneg _), Real.sqrt_sq (mul_nonneg two_pos.le hs)]
  have hhalf : (0.5 : Flt ℝ) * num (2 * s) = num s := by
    rw [half_def, num_mul]
    refine congrArg num ?_
    ring
  have hT1 : 0 ≤ (s - α) / J := div_nonneg (sub_nonneg.mpr hαs) hJ.le
  have hle : ∀ x : ℝ, (0 : Flt ℝ) ≤ num x ↔ 0 ≤ x := fun x => num_le_num 0 x
  suffices hsat : (if (0 : Flt ℝ) ≤ (-num (d * α) + num s) / num (d * J) ∧
        0 ≤ num (d * α) / num (d * J) + (-num (d * α) + num s) / num (d * J) then
        (-num (d * α) + num s) / num (d * J)
      else if (0 : Flt ℝ) ≤ (-num (d * α) - num s) / num (d * J) ∧
        0 ≤ num (d * α) / num (d * J) + (-num (d * α) - num s) / num (d * J) then
        (-num (d * α) - num s) / num (d * J)
      else 0) = num ((s - α) / J) by
    rw [computeT1]
    simp only [hdelta, if_neg hneg, hsqrt, hhalf]
    rw [hsat]
  rcases hd with rfl | rfl
  · have h1 : (-num (((1 : ℤ) : ℝ) * α) + num s) / num ((1 : ℤ) * J) = num ((s - α) / J) := by
      push_cast
      rw [one_mul, one_mul, neg_num, num_add, num_div_of_ne hne, neg_add_eq_sub]
    have h3 : num (((1 : ℤ) : ℝ) * α) / num ((1 : ℤ) * J) = num (α / J) := by
      push_cast
      rw [one_mul, one_mul, num_div_of_ne hne]
    have hT3 : 0 ≤ α / J + (s - α) / J := by
      rw [← add_div, add_sub_cancel]
      exact div_nonneg hs hJ.le
    rw [h1, h3, num_add, if_pos ⟨(hle _).mpr hT1, (hle _).mpr hT3⟩]
  · have hne' : ((-1 : ℤ) : ℝ) * J ≠ 0 := by
      push_cast
      linarith
    have h1 : (-num (((-1 : ℤ) : ℝ) * α) + num s) / num ((-1 : ℤ) * J) = num (-(α + s) / J) := by
      rw [neg_num, num_add, num_div_of_ne hne']
      congr 1
      push_cast
      field_simp
    have h2 : (-num (((-1 : ℤ) : ℝ) * α) - num s) / num ((-1 : ℤ) * J) = num ((s - α) / J) := by
      rw [neg_num, num_sub, num_div_of_ne hne']
      congr 1
      push_cast
      field_simp
      ring
    have h3 : num (((-1 : ℤ) : ℝ) * α) / num ((-1 : ℤ) * J) = num (α / J) := by
      rw [num_div_of_ne hne']
      congr 1
      push_cast
      field_simp
    have hT3 : 0 ≤ α / J + (s - α) / J := by
      rw [← add_div, add_sub_cancel]
      exact div_nonneg hs hJ.le
    rw [h1, h2, h3, num_add, num_add]
    by_cases hpos : (0 : Flt ℝ) ≤ num (-(α + s) / J) ∧ 0 ≤ num (α / J + -(α + s) / J)
    · -- the larger root only fits if both are the same
      have hzero : s = 0 := by
        have hsum : α / J + -(α + s) / J = -(s / J) := by ring
        have hdiv := (hle _).mp hpos.2
        rw [hsum, neg_nonneg] at hdiv
        exact le_antisymm (by simpa using (div_le_iff₀ hJ).mp hdiv) hs
      rw [if_pos hpos, hzero, add_zero, zero_sub]
    · rw [if_neg hpos, if_pos ⟨(hle _).mpr hT1, (hle _).mpr hT3⟩]

theorem computeT1_num (hd : d = 1 ∨ d = -1) (hJ : 0 < J) (hA : 0 < A) (hs : 0 ≤ s) (hαs : α ≤ s)
    (hαA : α ≤ A) (hroot : s ^ 2 = α ^ 2 / 2 + J * δ) :
    computeT1 (num (d * α)) (num (d * δ)) (num (d * J)) (num A) = num ((min s A - α) / J) := by
  have hmax : 0 ≤ (min s A - α) / J := div_nonneg (sub_nonneg.mpr (le_min hαs hαA)) hJ.le
  rw [computeT1_eq hd hJ hs hαs hroot, saturateT1ForAccel_num hd hJ hs hA, max_num_zero hmax]

theorem computeT3_num (hd : d = 1 ∨ d = -1) (hJ : 0 < J) (hP : 0 ≤ P) :
    computeT3 (num ((P - α) / J)) (num (d * α)) (num (d * J)) = num (P / J) := by
  have hne : (d : ℝ) * J ≠ 0 := by
    rcases hd with rfl | rfl <;> push_cast <;> simp [hJ.ne']
  have hd' : (d : ℝ) ≠ 0 := left_ne_zero_of_mul hne
  have hsum : d * α / (d * J) + (P - α) / J = P / J := by
    rw [mul_div_mul_left _ _ hd', ← add_div, add_sub_cancel]
  rw [computeT3, num_div_of_ne hne, num_add, hsum, max_num_zero (div_nonneg hP hJ.le)]

noncomputable def holdTime (J α δ P : ℝ) : ℝ := (δ - (2 * P ^ 2 - α ^ 2) / (2 * J)) / P

theorem computeT2_num (hd : d = 1 ∨ d = -1) (hJ : 0 < J) (hP : 0 < P) (hT2 : 0 ≤ holdTime J α δ P) :
    computeT2 (num ((P - α) / J)) (num (P / J)) (num (d * α)) (num (d * δ)) (num (d * J)) =
      num (holdTime J α δ P) := by
  have hne := hJ.ne'
  have hden : (num (d * α) : Flt ℝ) + num (d * J) * num ((P - α) / J) = num (d * P) := by
    rw [num_mul, num_add, mul_assoc, mul_div_cancel₀ _ hne]
    refine congrArg num ?_
    ring
  have hdP : (d : ℝ) * P ≠ 0 := by
    rcases hd with rfl | rfl <;> push_cast <;> simp [hP.ne']
  have hpos : (0 : Flt ℝ) < fabsf (num (d * P)) := abs_pos.mpr hdP
  have hnum : -0.5 * num ((P - α) / J) * num ((P - α) / J) * num (d * J) -
      num ((P - α) / J) * num (P / J) * num (d * J) - num ((P - α) / J) * num (d * α) +
      0.5 * num (P / J) * num (P / J) * num (d * J) - num (P / J) * num (d * α) + num (d * δ) =
      (num (d * (δ - (2 * P ^ 2 - α ^ 2) / (2 * J))) : Flt ℝ) := by
    simp only [half_def, neg_num, num_mul, num_sub, num_add]
    refine congrArg num ?_
    field_simp
    ring
  rw [computeT2]
  simp only [hden, if_pos hpos, hnum]
  rw [num_div_of_ne hdP, mul_div_mul_left _ _ (left_ne_zero_of_mul hdP), ← holdTime,
    max_num_zero hT2]

end Durations

/-! ### The fastest profile -/

section Fastest

variable {J α δ : ℝ}

/-- The change of the velocity is more than removing the acceleration gives, or is just that. -/
def Ahead (J α δ : ℝ) : Prop := α * |α| / (2 * J) < δ ∨ 0 < α ∧ δ = α * |α| / (2 * J)

noncomputable def root (J α δ : ℝ) : ℝ := √(α ^ 2 / 2 + J * δ)

theorem Ahead.root_spec (h : Ahead J α δ) (hJ : 0 < J) :
    0 < root J α δ ∧ α ≤ root J α δ ∧ root J α δ ^ 2 = α ^ 2 / 2 + J * δ := by
  have hmul : J * (α * |α| / (2 * J)) = α * |α| / 2 := by
    have hne := hJ.ne'
    field_simp
  -- the number under the root, and when it is above the square of the acceleration
  have hcases : (0 < α ^ 2 / 2 + J * δ) ∧ (0 ≤ α → α ^ 2 ≤ α ^ 2 / 2 + J * δ) := by
    rcases h with hlt | ⟨hα, rfl⟩
    · have hJδ := mul_lt_mul_of_pos_left hlt hJ
      rw [hmul] at hJδ
      rcases le_total 0 α with hα | hα
      · rw [abs_of_nonneg hα] at hJδ
        exact ⟨by nlinarith [sq_nonneg α], fun _ => by nlinarith⟩
      · rw [abs_of_nonpos hα] at hJδ
        refine ⟨by nlinarith, fun hα' => ?_⟩
        rw [le_antisymm hα hα'] at hJδ ⊢
        linarith
    · rw [hmul, abs_of_pos hα]
      exact ⟨by positivity, fun _ => by nlinarith⟩
  have hsq : root J α δ ^ 2 = α ^ 2 / 2 + J * δ := Real.sq_sqrt hcases.1.le
  refine ⟨Real.sqrt_pos.mpr hcases.1, ?_, hsq⟩
  rcases le_total 0 α with hα | hα
  · exact Real.le_sqrt_of_sq_le (hcases.2 hα)
  · exact hα.trans (Real.sqrt_nonneg _)

noncomputable def peakOf (J A α δ : ℝ) : ℝ := min (root J α δ) A

noncomputable def profileOf (J A α δ : ℝ) : JerkProfile ℝ where
  jerk := J
  a0 := α
  T1 := (peakOf J A α δ - α) / J
  T2 := holdTime J α δ (peakOf J A α δ)
  T3 := peakOf J A α δ / J

theorem Ahead.peakOf_pos (h : Ahead J α δ) (hJ : 0 < J) (hA : 0 < A) : 0 < peakOf J A α δ :=
  lt_min (h.root_spec hJ).1 hA

theorem Ahead.holdTime_nonneg (h : Ahead J α δ) (hJ : 0 < J) (hA : 0 < A) :
    0 ≤ holdTime J α δ (peakOf J A α δ) := by
  obtain ⟨hroot, -, hsq⟩ := h.root_spec hJ
  have hP := h.peakOf_pos hJ hA
  have hle : peakOf J A α δ ^ 2 ≤ root J α δ ^ 2 := pow_le_pow_left₀ hP.le (min_le_left _ _) 2
  refine div_nonneg (sub_nonneg.mpr ?_) hP.le
  rw [div_le_iff₀ (mul_pos two_pos hJ)]
  linarith

theorem peak_profileOf (hJ : 0 < J) : (profileOf J A α δ).peak = peakOf J A α δ := by
  rw [JerkProfile.peak, profileOf]
  dsimp only
  rw [mul_div_cancel₀ _ hJ.ne', add_sub_cancel]

theorem Ahead.rests (h : Ahead J α δ) (hJ : 0 < J) (hA : 0 < A) (hα : |α| ≤ A) :
    (profileOf J A α δ).Rests A where
  jerk_pos := hJ
  T1_nonneg := div_nonneg (sub_nonneg.mpr
    (le_min (h.root_spec hJ).2.1 ((le_abs_self α).trans hα))) hJ.le
  T2_nonneg := h.holdTime_nonneg hJ hA
  T3_nonneg := div_nonneg (h.peakOf_pos hJ hA).le hJ.le
  a0_le := hα
  peak_le := (peak_profileOf hJ).trans_le (min_le_right _ _)
  peak_eq := (peak_profileOf hJ).trans (mul_div_cancel₀ _ hJ.ne').symm

theorem Ahead.finalGain (h : Ahead J α δ) (hJ : 0 < J) (hA : 0 < A) :
    (profileOf J A α δ).finalGain = δ := by
  have hP := (h.peakOf_pos hJ hA).ne'
  have hne := hJ.ne'
  rw [JerkProfile.finalGain, peak_profileOf hJ, profileOf]
  dsimp only
  rw [holdTime, mul_div_cancel₀ _ hP]
  field_simp
  ring

/-- The durations that are computed for a change of the velocity are those of the fastest profile.
-/
theorem updateDurationsMinimizeTotalTime_num {d : ℤ} (hd : d = 1 ∨ d = -1) (h : Ahead J α δ)
    (hJ : 0 < J) (hA : 0 < A) (hα : |α| ≤ A) {c : VelocitySmoothing ℝ} {sp v : ℝ}
    (hdir : c.direction = d) (hjerk : c.max_jerk = num J) (haccel : c.max_accel = num A)
    (ha : c.state.a = num (d * α)) (hv : c.state.v = num v) (hsp : c.vel_sp = num sp)
    (hδ : sp - v = d * δ) :
    c.updateDurationsMinimizeTotalTime =
      { c with
        T1 := num (profileOf J A α δ).T1
        T2 := num (profileOf J A α δ).T2
        T3 := num (profileOf J A α δ).T3 } := by
  obtain ⟨hroot, hαs, hsq⟩ := h.root_spec hJ
  have hP := h.peakOf_pos hJ hA
  have hT1 := computeT1_num hd hJ hA hroot.le hαs ((le_abs_self α).trans hα) hsq
  have hT3 : computeT3 (num ((peakOf J A α δ - α) / J)) (num (d * α)) (num (d * J)) =
      num (peakOf J A α δ / J) := computeT3_num hd hJ hP.le
  have hT2 := computeT2_num hd hJ hP (h.holdTime_nonneg hJ hA)
  rw [updateDurationsMinimizeTotalTime, hdir, hjerk, haccel, ha, hv, hsp, ofInt, num_mul, num_sub,
    hδ, hT1, ← peakOf, hT3, hT2]
  rfl

end Fastest

/-! ### Reaching the setpoint -/

noncomputable def velAtZero (v₀ a₀ J : ℝ) : ℝ := v₀ + a₀ * |a₀| / (2 * J)

/-- The sign of a number. -/
def IsSign (sign : Flt ℝ → ℤ) : Prop := ∀ x : ℝ, sign (num x) = (SignType.sign x : ℤ)

/-- A state within limits. -/
structure Ready (c : VelocitySmoothing ℝ) (J A V a₀ v₀ x₀ : ℝ) : Prop where
  max_jerk : c.max_jerk = num J
  max_accel : c.max_accel = num A
  max_vel : c.max_vel = num V
  jerk_pos : 0 < J
  accel_pos : 0 < A
  vel_pos : 0 < V
  state_a : c.state.a = num a₀
  state_v : c.state.v = num v₀
  state_x : c.state.x = num x₀
  a_le : |a₀| ≤ A

variable {sign : Flt ℝ → ℤ} {J V a₀ v₀ x₀ : ℝ}

theorem computeVelAtZeroAcc_num (hs : IsSign sign) (h : Ready c J A V a₀ v₀ x₀) :
    c.computeVelAtZeroAcc sign = num (velAtZero v₀ a₀ J) := by
  have hJ := h.jerk_pos.ne'
  rw [computeVelAtZeroAcc, h.state_a, h.state_v, h.max_jerk, hs, velAtZero]
  rcases lt_trichotomy a₀ 0 with ha | ha | ha
  · have hpos : (0 : Flt ℝ) < fabsf (num a₀) := abs_pos.mpr ha.ne
    have hj : (-ofInt (SignType.sign a₀ : ℤ) * num J : Flt ℝ) = num J := by
      rw [sign_neg ha, ofInt, neg_num, num_mul]
      norm_num
    rw [if_pos hpos]
    simp only [hj]
    rw [neg_num, num_div_of_ne hJ, half_def]
    simp only [num_mul, num_add]
    refine congrArg num ?_
    rw [abs_of_neg ha]
    field_simp
    ring
  · have hzero : ¬ (0 : Flt ℝ) < fabsf (num a₀) := by
      rw [ha, fabsf_num, abs_zero]
      exact lt_irrefl (0 : ℝ)
    rw [if_neg hzero, ha, zero_mul, zero_div, add_zero]
  · have hpos : (0 : Flt ℝ) < fabsf (num a₀) := abs_pos.mpr ha.ne'
    have hj : (-ofInt (SignType.sign a₀ : ℤ) * num J : Flt ℝ) = num (-J) := by
      rw [sign_pos ha, ofInt, neg_num, num_mul]
      norm_num
    rw [if_pos hpos]
    simp only [hj]
    rw [neg_num, num_div_of_ne (neg_ne_zero.mpr hJ), half_def]
    simp only [num_mul, num_add]
    refine congrArg num ?_
    rw [abs_of_pos ha]
    field_simp
    ring

noncomputable def limitedVelSp (V vel_setpoint : ℝ) : ℝ := max (-V) (min vel_setpoint V)

/-- The durations follow a profile from the state on. -/
structure Runs (c : VelocitySmoothing ℝ) (p : JerkProfile ℝ) (d : ℤ) (J A a₀ v₀ x₀ : ℝ) : Prop where
  follows : Follows c p d v₀ x₀
  rests : p.Rests A
  jerk : p.jerk = J
  direction : d = 1 ∨ d = -1 ∨ d = 0
  starts : d * p.a0 = a₀
  local_time : c.local_time = 0

/-- The profile ends at the setpoint. -/
structure Plans (c : VelocitySmoothing ℝ) (p : JerkProfile ℝ) (d : ℤ) (J A a₀ v₀ x₀ sp : ℝ) : Prop
    extends Runs c p d J A a₀ v₀ x₀ where
  ends : v₀ + d * p.finalGain = sp
  vel_sp : c.vel_sp = num sp

/-- What `updateDurations` starts from. -/
def restarted (c : VelocitySmoothing ℝ) (sp : ℝ) (d : ℤ) : VelocitySmoothing ℝ :=
  { c with vel_sp := num sp, local_time := 0, state_init := c.state, direction := d }

/-- The direction towards the setpoint, or against the acceleration. -/
noncomputable def directionOf (sp vz a₀ : ℝ) : ℤ :=
  if (SignType.sign (sp - vz) : ℤ) = 0 then (SignType.sign a₀ : ℤ)
    else (SignType.sign (sp - vz) : ℤ)

theorem computeDirection_num (hs : IsSign sign) (h : Ready c J A V a₀ v₀ x₀) {sp : ℝ}
    (hsp : c.vel_sp = num sp) : c.computeDirection sign = directionOf sp
      (velAtZero v₀ a₀ J) a₀ := by
  rw [computeDirection, computeVelAtZeroAcc_num hs h, hsp, num_sub, hs, h.state_a, hs]
  rfl

theorem updateDurations_eq (hs : IsSign sign) (h : Ready c J A V a₀ v₀ x₀) {vel_setpoint sp : ℝ}
    (hsp : limitedVelSp V vel_setpoint = sp) {d : ℤ}
    (hd : directionOf sp (velAtZero v₀ a₀ J) a₀ = d) :
    c.updateDurations sign (num vel_setpoint) =
      if d ≠ 0 then (c.restarted sp d).updateDurationsMinimizeTotalTime
      else { c.restarted sp d with T1 := 0, T2 := 0, T3 := 0 } := by
  have hconstrain : math.constrain (num vel_setpoint) (-c.max_vel) c.max_vel = num sp := by
    rw [h.max_vel, neg_num, math.constrain_num_of_le (neg_le_self h.vel_pos.le), ← hsp,
      limitedVelSp]
  have hready : Ready { c with vel_sp := num sp, local_time := 0, state_init := c.state }
      J A V a₀ v₀ x₀ :=
    ⟨h.max_jerk, h.max_accel, h.max_vel, h.jerk_pos, h.accel_pos, h.vel_pos, h.state_a, h.state_v,
      h.state_x, h.a_le⟩
  have hdir := (computeDirection_num hs hready rfl).trans hd
  rw [updateDurations, hconstrain]
  simp only [hdir]
  rfl

theorem plans_of_ahead (h : Ready c J A V a₀ v₀ x₀) {d : ℤ} (hd : d = 1 ∨ d = -1) {sp : ℝ}
    (hahead : Ahead J (d * a₀) (d * (sp - v₀))) :
    Plans (c.restarted sp d).updateDurationsMinimizeTotalTime
      (profileOf J A (d * a₀) (d * (sp - v₀)))
      d J A a₀ v₀ x₀ sp := by
  have hsq : (d : ℝ) * d = 1 := by rcases hd with rfl | rfl <;> norm_num
  have hback : ∀ x : ℝ, d * (d * x) = x := fun x => by rw [← mul_assoc, hsq, one_mul]
  have habs : |(d : ℝ) * a₀| ≤ A := by
    rcases hd with rfl | rfl
    · simpa using h.a_le
    · simpa using h.a_le
  have ha : (c.restarted sp d).state.a = num (d * (d * a₀)) := by rw [hback]; exact h.state_a
  have hdurations := updateDurationsMinimizeTotalTime_num hd hahead h.jerk_pos h.accel_pos habs
    (c := c.restarted sp d) rfl h.max_jerk h.max_accel ha h.state_v rfl (hback _).symm
  rw [hdurations]
  exact
    { follows := ⟨h.max_jerk, rfl, ha, h.state_v, h.state_x, rfl, rfl, rfl⟩
      rests := hahead.rests h.jerk_pos h.accel_pos habs
      jerk := rfl
      direction := hd.imp_right .inl
      starts := hback a₀
      ends := by rw [hahead.finalGain h.jerk_pos h.accel_pos, hback, add_sub_cancel]
      vel_sp := rfl
      local_time := rfl }

theorem plans_of_reached (h : Ready c J A V a₀ v₀ x₀) (ha : a₀ = 0) {sp : ℝ} (hsp : sp = v₀) :
    Plans { c.restarted sp 0 with T1 := 0, T2 := 0, T3 := 0 }
      ⟨J, 0, 0, 0, 0⟩ 0 J A a₀ v₀ x₀ sp where
  follows := ⟨h.max_jerk, rfl, by rw [Int.cast_zero, zero_mul]; exact ha ▸ h.state_a, h.state_v,
    h.state_x, rfl, rfl, rfl⟩
  rests := ⟨h.jerk_pos, le_rfl, le_rfl, le_rfl, by rw [abs_zero]; exact h.accel_pos.le, by
    rw [JerkProfile.peak, mul_zero, add_zero]; exact h.accel_pos.le, by
    rw [JerkProfile.peak, mul_zero, add_zero]⟩
  jerk := rfl
  direction := .inr (.inr rfl)
  starts := by rw [Int.cast_zero, zero_mul, ha]
  ends := by rw [Int.cast_zero, zero_mul, add_zero, hsp]
  vel_sp := rfl
  local_time := rfl

/-- The durations are computed in one of the directions, unless there is nothing to do. -/
theorem updateDurations_cases (hs : IsSign sign) (h : Ready c J A V a₀ v₀ x₀) {vel_setpoint sp : ℝ}
    (hsp : limitedVelSp V vel_setpoint = sp) :
    (∃ d : ℤ, (d = 1 ∨ d = -1) ∧ Ahead J (d * a₀) (d * (sp - v₀)) ∧
      c.updateDurations sign (num vel_setpoint) =
        (c.restarted sp d).updateDurationsMinimizeTotalTime) ∨
      a₀ = 0 ∧ sp = v₀ ∧ c.updateDurations sign (num vel_setpoint) =
        { c.restarted sp 0 with T1 := 0, T2 := 0, T3 := 0 } := by
  have hahead : ∀ d : ℤ, (d = 1 ∨ d = -1) →
      (0 < d * (sp - velAtZero v₀ a₀ J) ∨ 0 < d * a₀ ∧ sp = velAtZero v₀ a₀ J) →
      Ahead J (d * a₀) (d * (sp - v₀)) := by
    intro d hd hcase
    have hzero : d * a₀ * |d * a₀| / (2 * J) = d * (velAtZero v₀ a₀ J - v₀) := by
      rw [velAtZero, abs_mul, add_sub_cancel_left]
      rcases hd with rfl | rfl
      · push_cast
        rw [abs_one]
        ring
      · push_cast
        rw [abs_neg, abs_one]
        ring
    rcases hcase with hlt | ⟨hα, hsp⟩
    · left
      rw [hzero]
      linarith
    · right
      rw [hzero, hsp]
      exact ⟨hα, rfl⟩
  rcases lt_trichotomy (sp - velAtZero v₀ a₀ J) 0 with hlt | heq | hgt
  · have hd : directionOf sp (velAtZero v₀ a₀ J) a₀ = -1 := by
      rw [directionOf, sign_neg hlt]
      rfl
    rw [updateDurations_eq hs h hsp hd, if_pos (by decide)]
    exact .inl ⟨-1, .inr rfl, hahead (-1) (.inr rfl) (.inl (by push_cast; linarith)), rfl⟩
  · have hd : directionOf sp (velAtZero v₀ a₀ J) a₀ = SignType.sign a₀ := by
      rw [directionOf, heq, sign_zero]
      rfl
    have hvel := sub_eq_zero.mp heq
    rcases lt_trichotomy a₀ 0 with ha | ha | ha
    · rw [sign_neg ha] at hd
      rw [updateDurations_eq hs h hsp hd, if_pos (by decide)]
      exact .inl ⟨-1, .inr rfl, hahead (-1) (.inr rfl) (.inr ⟨by push_cast; linarith, hvel⟩), rfl⟩
    · rw [ha, sign_zero] at hd
      rw [updateDurations_eq hs h hsp (ha ▸ hd), if_neg (by decide)]
      refine .inr ⟨ha, ?_, rfl⟩
      rw [hvel, velAtZero, ha, zero_mul, zero_div, add_zero]
    · rw [sign_pos ha] at hd
      rw [updateDurations_eq hs h hsp hd, if_pos (by decide)]
      exact .inl ⟨1, .inl rfl, hahead 1 (.inl rfl) (.inr ⟨by push_cast; linarith, hvel⟩), rfl⟩
  · have hd : directionOf sp (velAtZero v₀ a₀ J) a₀ = 1 := by
      rw [directionOf, sign_pos hgt]
      rfl
    rw [updateDurations_eq hs h hsp hd, if_pos (by decide)]
    exact .inl ⟨1, .inl rfl, hahead 1 (.inl rfl) (.inl (by push_cast; linarith)), rfl⟩

theorem exists_plans (hs : IsSign sign) (h : Ready c J A V a₀ v₀ x₀) (vel_setpoint : ℝ) :
    ∃ p d, Plans (c.updateDurations sign (num vel_setpoint)) p d J A a₀ v₀ x₀
      (limitedVelSp V vel_setpoint) := by
  rcases updateDurations_cases hs h rfl with ⟨d, hd, hahead, heq⟩ | ⟨ha, hsp, heq⟩
  · exact ⟨_, _, heq ▸ plans_of_ahead h hd hahead⟩
  · exact ⟨_, _, heq ▸ plans_of_reached h ha hsp⟩

/-! ### The trajectory -/

section Plans

variable {d : ℤ} {sp : ℝ}

theorem Runs.zero (h : Runs c p d J A a₀ v₀ x₀) : v₀ + d * p.zeroGain = velAtZero v₀ a₀ J := by
  rw [velAtZero, ← h.starts, JerkProfile.zeroGain, h.jerk, abs_mul]
  rcases h.direction with rfl | rfl | rfl
  · push_cast
    rw [abs_one, one_mul, one_mul, one_mul]
  · push_cast
    rw [abs_neg, abs_one]
    ring
  · push_cast
    rw [zero_mul, zero_mul, zero_mul, zero_div]

theorem Runs.abs_direction_le (h : Runs c p d J A a₀ v₀ x₀) : |(d : ℝ)| ≤ 1 := by
  rcases h.direction with rfl | rfl | rfl <;> norm_num

theorem Runs.state (h : Runs c p d J A a₀ v₀ x₀) (t : ℝ) :
    ∃ j x, (c.updateTraj (num t) 1).state =
      ⟨num j, num (d * p.acc t), num (v₀ + d * p.gain t), num x⟩ ∧ |j| ≤ J := by
  obtain ⟨j, x, hstate, hj⟩ := trajAt_num h.follows h.rests t
  have htime : c.local_time + num t * 1 = num t := by
    rw [h.local_time, one_def, num_mul, mul_one, zero_add]
  refine ⟨j, x, ?_, ?_⟩
  · rw [updateTraj, htime]
    exact hstate
  · have hbound : |d * p.jerk| ≤ J := by
      rw [abs_mul, abs_of_pos h.rests.jerk_pos, h.jerk]
      exact mul_le_of_le_one_left (h.jerk ▸ h.rests.jerk_pos.le) h.abs_direction_le
    rcases hj with rfl | rfl | rfl
    · exact hbound
    · rw [abs_zero, ← h.jerk]
      exact h.rests.jerk_pos.le
    · rwa [abs_neg]

theorem Runs.abs_acc_le (h : Runs c p d J A a₀ v₀ x₀) {t : ℝ} (ht : 0 ≤ t) :
    |d * p.acc t| ≤ A := by
  rw [abs_mul]
  exact (mul_le_of_le_one_left (abs_nonneg _) h.abs_direction_le).trans (h.rests.abs_acc_le ht)

theorem Runs.getTotalTime (h : Runs c p d J A a₀ v₀ x₀) : c.getTotalTime = num p.total := by
  rw [VelocitySmoothing.getTotalTime, h.follows.T1, h.follows.T2, h.follows.T3, num_add, num_add,
    JerkProfile.total]

/-- The velocity stays between the start, the velocity without the acceleration and the end. -/
theorem Plans.vel_mem (h : Plans c p d J A a₀ v₀ x₀ sp) {t : ℝ} (ht : 0 ≤ t) :
    min (min v₀ (velAtZero v₀ a₀ J)) sp ≤ v₀ + d * p.gain t ∧
      v₀ + d * p.gain t ≤ max (max v₀ (velAtZero v₀ a₀ J)) sp := by
  obtain ⟨hlow, hhigh⟩ := h.rests.gain_mem ht
  rw [← h.toRuns.zero, ← h.ends]
  rcases h.direction with rfl | rfl | rfl
  · push_cast
    rw [one_mul, one_mul, one_mul]
    constructor
    · refine (min_le_left _ _).trans ?_
      rcases min_le_iff.mp hlow with h0 | hz
      · exact (min_le_left _ _).trans (le_add_of_nonneg_right h0)
      · exact (min_le_right _ _).trans ((add_le_add_iff_left _).mpr hz)
    · rcases le_max_iff.mp hhigh with h0 | hf
      · exact le_max_of_le_left (le_max_of_le_left (add_le_of_nonpos_right h0))
      · exact le_max_of_le_right ((add_le_add_iff_left _).mpr hf)
  · push_cast
    rw [neg_one_mul, neg_one_mul, neg_one_mul]
    constructor
    · rcases le_max_iff.mp hhigh with h0 | hf
      · exact (min_le_left _ _).trans ((min_le_left _ _).trans (by linarith))
      · exact (min_le_right _ _).trans (by linarith)
    · refine le_trans ?_ (le_max_left _ _)
      rcases min_le_iff.mp hlow with h0 | hz
      · exact le_max_of_le_left (by linarith)
      · exact le_max_of_le_right (by linarith)
  · push_cast
    rw [zero_mul, zero_mul, zero_mul, add_zero]
    simp

end Plans

noncomputable def steps (c : VelocitySmoothing ℝ) (dts : List (ℝ × ℝ)) : VelocitySmoothing ℝ :=
  dts.foldl (fun c dt => c.updateTraj (num dt.1) (num dt.2)) c

def elapsed (dts : List (ℝ × ℝ)) : ℝ := (dts.map fun dt => dt.1 * dt.2).sum

theorem steps_cons {l : ℝ} (hl : c.local_time = num l) (dt : ℝ × ℝ) (dts : List (ℝ × ℝ)) :
    c.steps (dt :: dts) = c.updateTraj (num (elapsed (dt :: dts))) 1 := by
  induction dts generalizing c l dt with
  | nil =>
    rw [steps, List.foldl_cons, List.foldl_nil, elapsed, List.map_cons, List.map_nil, List.sum_cons,
      List.sum_nil, add_zero, updateTraj, updateTraj, one_def, num_mul, num_mul, mul_one]
  | cons dt' dts ih =>
    have hlocal : (c.updateTraj (num dt.1) (num dt.2)).local_time = num (l + dt.1 * dt.2) := by
      rw [updateTraj, hl, num_mul, num_add]
    have hstep : c.steps (dt :: dt' :: dts) =
        (c.updateTraj (num dt.1) (num dt.2)).steps (dt' :: dts) := rfl
    have hsum : elapsed (dt :: dt' :: dts) = dt.1 * dt.2 + elapsed (dt' :: dts) := by
      rw [elapsed, List.map_cons, List.sum_cons, elapsed]
    rw [hstep, ih hlocal dt', hsum, updateTraj, updateTraj, updateTraj, hl, one_def]
    simp only [num_mul, num_add, mul_one, add_assoc]
    rfl

/-- What a trajectory to a velocity setpoint guarantees. -/
structure JerkLimited (sign : Flt ℝ → ℤ) (c : VelocitySmoothing ℝ) (J A V a₀ v₀ vel_setpoint : ℝ) :
    Prop where
  durations : ∃ T1 T2 T3 : ℝ, 0 ≤ T1 ∧ 0 ≤ T2 ∧ 0 ≤ T3 ∧
    (c.updateDurations sign (num vel_setpoint)).T1 = num T1 ∧
    (c.updateDurations sign (num vel_setpoint)).T2 = num T2 ∧
    (c.updateDurations sign (num vel_setpoint)).T3 = num T3
  partition : ∀ dts, dts ≠ [] → (c.updateDurations sign (num vel_setpoint)).steps dts =
    (c.updateDurations sign (num vel_setpoint)).updateTraj (num (elapsed dts)) 1
  vel_sp : (c.updateDurations sign (num vel_setpoint)).vel_sp = num (limitedVelSp V vel_setpoint)
  vel_zero : c.computeVelAtZeroAcc sign = num (velAtZero v₀ a₀ J)
  limits : ∀ t, 0 ≤ t → ∃ j a v x,
    ((c.updateDurations sign (num vel_setpoint)).updateTraj (num t) 1).state =
      ⟨num j, num a, num v, num x⟩ ∧ |j| ≤ J ∧ |a| ≤ A ∧
    min (min v₀ (velAtZero v₀ a₀ J)) (limitedVelSp V vel_setpoint) ≤ v ∧
    v ≤ max (max v₀ (velAtZero v₀ a₀ J)) (limitedVelSp V vel_setpoint)
  final : ∀ t : ℝ, (c.updateDurations sign (num vel_setpoint)).getTotalTime ≤ num t →
    ((c.updateDurations sign (num vel_setpoint)).updateTraj (num t) 1).state.a = 0 ∧
    ((c.updateDurations sign (num vel_setpoint)).updateTraj (num t) 1).state.v =
      num (limitedVelSp V vel_setpoint)

/-- **A trajectory with a limited jerk**, from any state within the limits to any setpoint. -/
theorem jerkLimited (hs : IsSign sign) (h : Ready c J A V a₀ v₀ x₀) (vel_setpoint : ℝ) :
    JerkLimited sign c J A V a₀ v₀ vel_setpoint := by
  obtain ⟨p, d, hplans⟩ := exists_plans hs h vel_setpoint
  have hrests := hplans.rests
  refine
    { durations := ⟨p.T1, p.T2, p.T3, hrests.T1_nonneg, hrests.T2_nonneg, hrests.T3_nonneg,
        hplans.follows.T1, hplans.follows.T2, hplans.follows.T3⟩
      partition := fun dts hdts => ?_
      vel_sp := hplans.vel_sp
      vel_zero := computeVelAtZeroAcc_num hs h
      limits := fun t ht => ?_
      final := fun t ht => ?_ }
  · obtain ⟨dt, dts, rfl⟩ := List.exists_cons_of_ne_nil hdts
    exact steps_cons hplans.local_time dt dts
  · obtain ⟨j, x, hstate, hj⟩ := hplans.toRuns.state t
    exact ⟨j, _, _, x, hstate, hj, hplans.toRuns.abs_acc_le ht, hplans.vel_mem ht⟩
  · obtain ⟨j, x, hstate, -⟩ := hplans.toRuns.state t
    rw [hplans.toRuns.getTotalTime] at ht
    rw [hstate, hrests.acc_of_total_le ht, hrests.gain_of_total_le ht, hplans.ends, mul_zero]
    exact ⟨rfl, rfl⟩

noncomputable def standardSign : Flt ℝ → ℤ
  | num x => SignType.sign x
  | nan => 0

theorem jerkLimited_standard :
    JerkLimited standardSign (init (num 1) (num (-2)) (num 0)) 22 8 6 1 (-2) 5 :=
  jerkLimited (fun _ => rfl)
    ⟨congrArg num (by norm_num), congrArg num (by norm_num),
      congrArg num (by norm_num), by norm_num,
      by norm_num, by norm_num, rfl, rfl, rfl, by norm_num⟩ 5

end VelocitySmoothing
