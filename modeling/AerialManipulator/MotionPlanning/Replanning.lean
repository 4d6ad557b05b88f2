/-
Replanning a trajectory while it is followed.

A plan is dropped for a new one before it has ended, and the limits may be lower than they were, so
that the acceleration is above the limit of the moment.

* `replans_cases` — the durations are still those of a profile that reaches the setpoint;
* `Runs.inside` — a state that keeps enough velocity in reserve for its acceleration is followed by
  such states only;
* **`Replans.remaining`** — a new plan to the same setpoint takes what the last one has left.
-/
import AerialManipulator.MotionPlanning.JerkLimited

open WithNaN

namespace VelocitySmoothing

variable {c : VelocitySmoothing ℝ} {p : JerkProfile ℝ} {d : ℤ} {J A B V a₀ v₀ x₀ : ℝ}

/-! ### Any acceleration at the start -/

section Above

variable {α δ s : ℝ}

theorem computeT1_above (hd : d = 1 ∨ d = -1) (hJ : 0 < J) (hB : 0 < B) (hs : 0 ≤ s) (hαs : α ≤ s)
    (hroot : s ^ 2 = α ^ 2 / 2 + J * δ) :
    computeT1 (num (d * α)) (num (d * δ)) (num (d * J)) (num B) =
      num ((min s (max α B) - α) / J) := by
  rw [computeT1_eq hd hJ hs hαs hroot, saturateT1ForAccel_num hd hJ hs hB, zero_def, math.max_num]
  refine congrArg num ?_
  rcases le_total α B with hle | hle
  · rw [max_eq_right hle]
    exact max_eq_left (div_nonneg (sub_nonneg.mpr (le_min hαs hle)) hJ.le)
  · have hneg : min s B - α ≤ 0 := sub_nonpos.mpr ((min_le_right _ _).trans hle)
    rw [max_eq_left hle, min_eq_right hαs, sub_self, zero_div]
    exact max_eq_right (div_nonpos_of_nonpos_of_nonneg hneg hJ.le)

theorem Ahead.rests_above (h : Ahead J α δ) (hJ : 0 < J) (hB : 0 < B) (hBA : B ≤ A) (hα : |α| ≤ A) :
    (profileOf J (max α B) α δ).Rests A := by
  have hpos : 0 < max α B := lt_max_of_lt_right hB
  have hle : max α B ≤ A := max_le ((le_abs_self α).trans hα) hBA
  exact
    { jerk_pos := hJ
      T1_nonneg := div_nonneg (sub_nonneg.mpr (le_min (h.root_spec hJ).2.1 (le_max_left _ _))) hJ.le
      T2_nonneg := h.holdTime_nonneg hJ hpos
      T3_nonneg := div_nonneg (h.peakOf_pos hJ hpos).le hJ.le
      a0_le := hα
      peak_le := (peak_profileOf hJ).trans_le ((min_le_right _ _).trans hle)
      peak_eq := (peak_profileOf hJ).trans (mul_div_cancel₀ _ hJ.ne').symm }

end Above

/-! ### The durations -/

section Durations

variable {sign : Flt ℝ → ℤ} {sp vel_setpoint : ℝ}

theorem direction_updateDurations (sign : Flt ℝ → ℤ) (c : VelocitySmoothing ℝ)
    (a vel_setpoint : Flt ℝ) :
    ({ c with max_accel := a }.updateDurations sign vel_setpoint).direction =
      (c.updateDurations sign vel_setpoint).direction := by
  have hany : ∀ c : VelocitySmoothing ℝ, (c.updateDurations sign vel_setpoint).direction =
      computeDirection sign { c with
        vel_sp := math.constrain vel_setpoint (-c.max_vel) c.max_vel
        local_time := 0
        state_init := c.state } := fun c => by
    rw [updateDurations]
    dsimp only
    split <;> rfl
  rw [hany, hany]
  rfl

theorem updateDurations_of_direction (hV : 0 < V) (hvel : c.max_vel = num V)
    (hsp : limitedVelSp V vel_setpoint = sp)
    (hd : (c.updateDurations sign (num vel_setpoint)).direction = d) :
    c.updateDurations sign (num vel_setpoint) =
      if d ≠ 0 then (c.restarted sp d).updateDurationsMinimizeTotalTime
      else { c.restarted sp 0 with T1 := 0, T2 := 0, T3 := 0 } := by
  have hconstrain : math.constrain (num vel_setpoint) (-c.max_vel) c.max_vel = num sp := by
    rw [hvel, neg_num, math.constrain_num_of_le (neg_le_self hV.le), ← hsp, limitedVelSp]
  rw [updateDurations, hconstrain] at hd ⊢
  dsimp only at hd ⊢
  split_ifs at hd with hdir
  · rw [if_pos hdir, if_pos (hd ▸ hdir), ← hd]
    rfl
  · have hdir' : computeDirection sign _ = d := hd
    rw [if_neg hdir, if_neg (hdir' ▸ hdir), restarted, not_not.mp hdir]

/-- A plan with the fastest profile under a limit of the acceleration, or with nothing left to do.
-/
inductive Replans (c : VelocitySmoothing ℝ) (J A B a₀ v₀ x₀ sp : ℝ) : JerkProfile ℝ → ℤ → Prop
  | moves (d : ℤ) (hd : d = 1 ∨ d = -1) (hahead : Ahead J (d * a₀) (d * (sp - v₀)))
      (hplans : Plans c (profileOf J (max (d * a₀) B) (d * a₀) (d * (sp - v₀))) d J A a₀ v₀ x₀ sp) :
      Replans c J A B a₀ v₀ x₀ sp (profileOf J (max (d * a₀) B) (d * a₀) (d * (sp - v₀))) d
  | rests (ha : a₀ = 0) (hsp : sp = v₀) (hplans : Plans c ⟨J, 0, 0, 0, 0⟩ 0 J A a₀ v₀ x₀ sp) :
      Replans c J A B a₀ v₀ x₀ sp ⟨J, 0, 0, 0, 0⟩ 0

theorem Replans.plans {sp : ℝ} (h : Replans c J A B a₀ v₀ x₀ sp p d) :
    Plans c p d J A a₀ v₀ x₀ sp := by
  cases h with
  | moves _ _ _ hplans => exact hplans
  | rests _ _ hplans => exact hplans

/-- From any acceleration that some limit `A` allows, whatever the limit `B` of the moment is. -/
theorem exists_replans (hs : IsSign sign) (c : VelocitySmoothing ℝ)
    (h : Ready { c with max_accel := num A } J A V a₀ v₀ x₀) (haccel : c.max_accel = num B)
    (hB : 0 < B) (hBA : B ≤ A) (vel_setpoint : ℝ) :
    ∃ p d, Replans (c.updateDurations sign (num vel_setpoint)) J A B a₀ v₀ x₀
      (limitedVelSp V vel_setpoint) p d := by
  have hJ := h.jerk_pos
  have hvel : c.max_vel = num V := h.max_vel
  have hsame := direction_updateDurations sign c (num A) (num vel_setpoint)
  rcases updateDurations_cases hs h rfl with ⟨d, hd, hahead, heq⟩ | ⟨ha, hsp, heq⟩
  · have hdir : (c.updateDurations sign (num vel_setpoint)).direction = d := by
      rw [← hsame, heq]
      rfl
    have hne : d ≠ 0 := by rintro rfl; omega
    have hsq : (d : ℝ) * d = 1 := by rcases hd with rfl | rfl <;> norm_num
    have hback : ∀ x : ℝ, d * (d * x) = x := fun x => by rw [← mul_assoc, hsq, one_mul]
    have habs : |(d : ℝ) * a₀| ≤ A := by
      rcases hd with rfl | rfl
      · simpa using h.a_le
      · simpa using h.a_le
    have hupdate := updateDurations_of_direction h.vel_pos hvel rfl hdir
    rw [if_pos hne] at hupdate
    refine ⟨_, d, .moves d hd hahead ?_⟩
    generalize limitedVelSp V vel_setpoint = sp at hahead hupdate ⊢
    -- the three durations
    obtain ⟨hroot, hαs, hsqrt⟩ := hahead.root_spec hJ
    have hpos : 0 < max (d * a₀) B := lt_max_of_lt_right hB
    have hP := hahead.peakOf_pos hJ hpos
    have hT1 := computeT1_above hd hJ hB hroot.le hαs hsqrt
    have hT3 := computeT3_num (α := d * a₀) hd hJ hP.le
    have hT2 := computeT2_num hd hJ hP (hahead.holdTime_nonneg hJ hpos)
    have ha : c.state.a = num (d * (d * a₀)) := by rw [hback]; exact h.state_a
    have hv : c.state.v = num v₀ := h.state_v
    have hδ : sp - v₀ = d * (d * (sp - v₀)) := (hback _).symm
    have hjerk : c.max_jerk = num J := h.max_jerk
    have hdurations : (c.restarted sp d).updateDurationsMinimizeTotalTime =
        { c.restarted sp d with
          T1 := num (profileOf J (max (d * a₀) B) (d * a₀) (d * (sp - v₀))).T1
          T2 := num (profileOf J (max (d * a₀) B) (d * a₀) (d * (sp - v₀))).T2
          T3 := num (profileOf J (max (d * a₀) B) (d * a₀) (d * (sp - v₀))).T3 } := by
      rw [updateDurationsMinimizeTotalTime, restarted]
      dsimp only
      rw [hjerk, haccel, ha, hv, ofInt, num_mul, num_sub, hδ, hT1, ← peakOf, hT3, hT2, ← hδ]
      rfl
    rw [hupdate, hdurations]
    exact
      { follows := ⟨hjerk, rfl, ha, hv, h.state_x, rfl, rfl, rfl⟩
        rests := hahead.rests_above hJ hB hBA habs
        jerk := rfl
        direction := hd.imp_right .inl
        starts := hback a₀
        ends := by rw [hahead.finalGain hJ hpos, hback, add_sub_cancel]
        vel_sp := rfl
        local_time := rfl }
  · have hdir : (c.updateDurations sign (num vel_setpoint)).direction = 0 := by
      rw [← hsame, heq]
      rfl
    have hplans := plans_of_reached h ha hsp
    rw [updateDurations_of_direction h.vel_pos hvel rfl hdir, if_neg (not_not.mpr rfl)]
    refine ⟨_, 0, .rests ha hsp { hplans with follows := ?_, vel_sp := rfl, local_time := rfl }⟩
    exact ⟨h.max_jerk, rfl, hplans.follows.state_init_a, h.state_v, h.state_x, rfl, rfl, rfl⟩

end Durations

/-! ### The time that is left -/

section Remaining

variable {α δ q P sp u : ℝ} {d' : ℤ} {c' : VelocitySmoothing ℝ} {p' : JerkProfile ℝ} {x t : ℝ}

theorem ahead_of_le (hJ : 0 < J) (hP : 0 < P) (hq : q ≤ P)
    (hδ : (2 * P ^ 2 - q ^ 2) / (2 * J) ≤ δ) :
    Ahead J q δ := by
  have h2J : 0 < 2 * J := mul_pos two_pos hJ
  rcases le_or_gt q 0 with hneg | hpos
  · refine .inl (lt_of_lt_of_le (div_lt_div_of_pos_right ?_ h2J) hδ)
    rw [abs_of_nonpos hneg]
    nlinarith
  · have hle : q * |q| / (2 * J) ≤ δ := by
      refine le_trans (div_le_div_of_nonneg_right ?_ h2J.le) hδ
      rw [abs_of_pos hpos]
      nlinarith
    exact hle.lt_or_eq.imp_right fun heq => ⟨hpos, heq.symm⟩

theorem Ahead.not_neg (h : Ahead J α δ) : ¬ Ahead J (-α) (-δ) := by
  have hneg : -α * |(-α)| / (2 * J) = -(α * |α| / (2 * J)) := by
    rw [abs_neg]
    ring
  rw [Ahead, hneg]
  rcases h with h | ⟨h, h'⟩
  · rintro (h2 | ⟨-, h2⟩) <;> linarith
  · rintro (h2 | ⟨h2, -⟩) <;> linarith

theorem not_ahead_zero : ¬ Ahead J 0 0 := by
  rintro (h | ⟨h, -⟩)
  · rw [zero_mul, zero_div] at h
    exact lt_irrefl _ h
  · exact lt_irrefl _ h

theorem Replans.eq_of_ahead (h : Replans c J A B a₀ v₀ x₀ sp p d') (hd : d = 1 ∨ d = -1)
    (hα : a₀ = d * α) (hδ : sp - v₀ = d * δ) (hahead : Ahead J α δ) :
    p = profileOf J (max α B) α δ := by
  have hback : ∀ y : ℝ, d * (d * y) = y := fun y => by
    rcases hd with rfl | rfl
    · norm_num
    · norm_num
  cases h with
  | moves _ hd' hahead' _ =>
    rw [hα, hδ] at hahead' ⊢
    obtain rfl | rfl : d' = d ∨ d' = -d := by omega
    · rw [hback, hback]
    · rw [Int.cast_neg, neg_mul, neg_mul, hback, hback] at hahead'
      exact absurd hahead' hahead.not_neg
  | rests ha hsp _ =>
    rw [← hback α, ← hα, ha, ← hback δ, ← hδ, hsp, sub_self, mul_zero] at hahead
    exact absurd hahead not_ahead_zero

theorem profileOf_total (J B α δ : ℝ) : (profileOf J B α δ).total =
    (peakOf J B α δ - α) / J + holdTime J α δ (peakOf J B α δ) + peakOf J B α δ / J := rfl

theorem mul_holdTime (hP : 0 < P) : P * holdTime J α δ P = δ - (2 * P ^ 2 - α ^ 2) / (2 * J) :=
  mul_div_cancel₀ _ hP.ne'

theorem Ahead.rising (h : Ahead J α δ) (hJ : 0 < J) (hB : 0 < B) (hαq : α ≤ q)
    (hqP : q ≤ peakOf J (max α B) α δ) :
    Ahead J q (δ - (q ^ 2 - α ^ 2) / (2 * J)) ∧
      (profileOf J (max q B) q (δ - (q ^ 2 - α ^ 2) / (2 * J))).total =
        (profileOf J (max α B) α δ).total - (q - α) / J := by
  have hmax : 0 < max α B := lt_max_of_lt_right hB
  have hP := h.peakOf_pos hJ hmax
  have hhold := mul_nonneg hP.le (h.holdTime_nonneg hJ hmax)
  have hlimit : max q B = max α B :=
    le_antisymm (max_le (hqP.trans (min_le_right _ _)) (le_max_right _ _)) (max_le_max_right B hαq)
  have hsame : peakOf J (max q B) q (δ - (q ^ 2 - α ^ 2) / (2 * J)) = peakOf J (max α B) α δ := by
    rw [peakOf, peakOf, hlimit, root, root]
    congr 2
    field_simp
    ring
  constructor
  · refine ahead_of_le hJ hP hqP ?_
    rw [mul_holdTime hP, sub_div] at hhold
    rw [sub_div, sub_div]
    linarith
  · rw [profileOf_total, profileOf_total, hsame, holdTime, holdTime]
    ring

theorem lowering (hJ : 0 < J) (hq : 0 < q) (hu : 0 ≤ u) (hpeak : u = 0 ∨ B ≤ q) :
    Ahead J q (q ^ 2 / (2 * J) + q * u) ∧
      (profileOf J (max q B) q (q ^ 2 / (2 * J) + q * u)).total = u + q / J := by
  have hahead : Ahead J q (q ^ 2 / (2 * J) + q * u) := by
    refine ahead_of_le hJ hq le_rfl ?_
    rw [two_mul, add_sub_cancel_right]
    exact le_add_of_nonneg_right (mul_nonneg hq.le hu)
  obtain ⟨-, hle, hroot⟩ := hahead.root_spec hJ
  have hsame : peakOf J (max q B) q (q ^ 2 / (2 * J) + q * u) = q := by
    rcases hpeak with rfl | hlimit
    · have hsq : root J q (q ^ 2 / (2 * J) + q * 0) ^ 2 = q ^ 2 := by
        rw [hroot]
        field_simp
        ring
      rw [peakOf, (pow_left_inj₀ (hq.le.trans hle) hq.le two_ne_zero).mp hsq]
      exact min_eq_left (le_max_left _ _)
    · rw [peakOf, max_eq_left hlimit, min_eq_right hle]
  have hhold : holdTime J q (q ^ 2 / (2 * J) + q * u) q = u := by
    rw [holdTime, div_eq_iff hq.ne']
    ring
  refine ⟨hahead, ?_⟩
  rw [profileOf_total, hsame, hhold, sub_self, zero_div, zero_add]

theorem Ahead.le_peak_of_hold (h : Ahead J α δ) (hJ : 0 < J) (hB : 0 < B)
    (hhold : 0 < holdTime J α δ (peakOf J (max α B) α δ)) : B ≤ peakOf J (max α B) α δ := by
  have hP := h.peakOf_pos hJ (lt_max_of_lt_right hB : 0 < max α B)
  have hlt : peakOf J (max α B) α δ < root J α δ := by
    refine lt_of_pow_lt_pow_left₀ 2 (Real.sqrt_nonneg _) ?_
    have hmore := mul_pos hP hhold
    rw [mul_holdTime hP, sub_pos, div_lt_iff₀ (mul_pos two_pos hJ)] at hmore
    linarith [(h.root_spec hJ).2.2]
  rw [peakOf, min_eq_right ((min_lt_iff.mp hlt).resolve_left (lt_irrefl _)).le]
  exact le_max_right _ _

/-- **Replanning loses no time**: a new plan from a state on the way takes what is left. -/
theorem Replans.remaining (h : Replans c J A B a₀ v₀ x₀ sp p d) (hJ : 0 < J) (hB : 0 < B)
    (ht : 0 ≤ t) (h' : Replans c' J A B (d * p.acc t) (v₀ + d * p.gain t) x sp p' d') :
    p'.total = max (p.total - t) 0 := by
  have hrests := h.plans.rests
  have hrests' := h'.plans.rests
  have hzero : (⟨J, 0, 0, 0, 0⟩ : JerkProfile ℝ).total = 0 := by
    rw [JerkProfile.total, add_zero, add_zero]
  cases h with
  | rests ha hsp _ =>
    rw [hzero, zero_sub, max_eq_right (neg_nonpos.mpr ht)]
    cases h' with
    | moves _ _ hahead _ =>
      rw [hsp, Int.cast_zero, zero_mul, zero_mul, add_zero, sub_self, mul_zero] at hahead
      exact absurd hahead not_ahead_zero
    | rests _ _ _ => exact hzero
  | moves _ hd hahead _ =>
    have hmax : 0 < max (d * a₀) B := lt_max_of_lt_right hB
    have hP := hahead.peakOf_pos hJ hmax
    have hmissing : sp - (v₀ + d * (profileOf J (max (d * a₀) B) (d * a₀) (d * (sp - v₀))).gain t) =
        d * (d * (sp - v₀) - (profileOf J (max (d * a₀) B) (d * a₀) (d * (sp - v₀))).gain t) := by
      rcases hd with rfl | rfl <;> push_cast <;> ring
    have hmotion := hrests.motion ht
    rw [peak_profileOf hJ, hahead.finalGain hJ hmax] at hmotion
    generalize d * a₀ = α at *
    generalize d * (sp - v₀) = δ at *
    generalize (profileOf J (max α B) α δ).acc t = q at *
    generalize (profileOf J (max α B) α δ).gain t = g at *
    rcases hmotion with ⟨hαq, hqP, hacc, hgain⟩ | ⟨u, hu, huT, hpeak, hq, hqP, hleft, hgain⟩
    · -- the acceleration is still raised
      obtain rfl : g = (q ^ 2 - α ^ 2) / (2 * J) := hgain
      obtain rfl : q = α + J * t := hacc
      obtain ⟨hahead', htotal⟩ := hahead.rising hJ hB hαq hqP
      rw [← h'.eq_of_ahead hd rfl hmissing hahead', add_sub_cancel_left,
        mul_div_cancel_left₀ _ hJ.ne'] at htotal
      have hnonneg : 0 ≤ p'.total :=
        add_nonneg (add_nonneg hrests'.T1_nonneg hrests'.T2_nonneg) hrests'.T3_nonneg
      rw [← htotal, max_eq_left hnonneg]
    · have hgain : g = δ - q ^ 2 / (2 * J) - peakOf J (max α B) α δ * u := hgain
      have hleft : max ((profileOf J (max α B) α δ).total - t) 0 = u + q / J := hleft
      have hrem : δ - g = q ^ 2 / (2 * J) + q * u := by
        rw [hgain]
        rcases hpeak with rfl | rfl <;> ring
      rw [hrem] at hmissing
      rw [hleft]
      rcases hq.eq_or_lt with rfl | hq
      · -- the setpoint has been reached
        obtain rfl : u = 0 := hpeak.resolve_right hP.ne
        have hsp : sp - (v₀ + d * g) = 0 := hmissing.trans (by ring)
        cases h' with
        | moves _ _ hahead' _ =>
          rw [hsp, mul_zero, mul_zero] at hahead'
          exact absurd hahead' not_ahead_zero
        | rests _ _ _ => rw [hzero, zero_div, add_zero]
      · have hlimit : u = 0 ∨ B ≤ q := by
          refine hu.eq_or_lt.imp Eq.symm fun hu => ?_
          rw [hpeak.resolve_left hu.ne']
          exact hahead.le_peak_of_hold hJ hB (hu.trans_le huT)
        obtain ⟨hahead', htotal⟩ := lowering hJ hq hu hlimit
        rw [h'.eq_of_ahead hd rfl hmissing hahead', htotal]

end Remaining

/-! ### The velocity in reserve -/

/-- The velocity is within the limit, even where the acceleration leads it to or comes from. -/
def Inside (J V a v : ℝ) : Prop := |v| + a ^ 2 / (2 * J) ≤ V

theorem inside_iff {a v : ℝ} :
    Inside J V a v ↔ v + a ^ 2 / (2 * J) ≤ V ∧ a ^ 2 / (2 * J) - v ≤ V := by
  rw [Inside, ← le_sub_iff_add_le, abs_le]
  constructor
  · rintro ⟨h1, h2⟩
    constructor <;> linarith
  · rintro ⟨h1, h2⟩
    constructor <;> linarith

theorem Inside.abs_le {a v : ℝ} (hJ : 0 < J) (h : Inside J V a v) : |v| ≤ V := by
  have hsq : 0 ≤ a ^ 2 / (2 * J) := by positivity
  rw [Inside] at h
  linarith

theorem inside_of_reserve {a v : ℝ} (hJ : 0 < J) (ha : |a| ≤ A) (hv : |v| + A ^ 2 / (2 * J) ≤ V) :
    Inside J V a v := by
  have hsq : a ^ 2 / (2 * J) ≤ A ^ 2 / (2 * J) :=
    div_le_div_of_nonneg_right (sq_le_sq' (abs_le.mp ha).1 (abs_le.mp ha).2) (mul_pos two_pos hJ).le
  rw [Inside]
  linarith

theorem Runs.with_max_jerk (h : Runs c p d J A a₀ v₀ x₀) : { c with max_jerk := num J } = c := by
  rw [← h.jerk, ← h.follows.max_jerk]

theorem Runs.inside (h : Runs c p d J A a₀ v₀ x₀) (h0 : Inside J V a₀ v₀)
    (hend : |v₀ + d * p.finalGain| ≤ V) {t : ℝ} (ht : 0 ≤ t) :
    Inside J V (d * p.acc t) (v₀ + d * p.gain t) := by
  obtain ⟨hhigh, hlow⟩ := h.rests.reserve ht
  obtain ⟨hend1, hend2⟩ := abs_le.mp hend
  rw [inside_iff] at h0 ⊢
  rw [← h.starts] at h0
  rw [h.jerk] at hhigh hlow
  rcases h.direction with rfl | rfl | rfl
  · push_cast at h0 hend1 hend2 ⊢
    simp only [one_mul] at h0 hend1 hend2 ⊢
    refine ⟨?_, by linarith [h0.2]⟩
    rcases le_max_iff.mp hhigh with hle | hle
    · linarith [h0.1]
    · linarith
  · push_cast at h0 hend1 hend2 ⊢
    simp only [neg_one_mul, neg_sq] at h0 hend1 hend2 ⊢
    refine ⟨by linarith [h0.1], ?_⟩
    rcases le_max_iff.mp hhigh with hle | hle
    · linarith [h0.2]
    · linarith
  · push_cast at h0 ⊢
    simpa using h0

end VelocitySmoothing
