/-
The controller on a setpoint that holds the position.

* `control_acc_sp_of_hold` — the commanded acceleration when the position
  setpoint is the current position and the upward velocity limit is negative;
* `update_idle` — with a strong downward acceleration on top the thrust is a
  unit vector times the minimum;
* `thrustFor_z_le` — with less than gravity it is not.
-/
import AerialManipulator.PosControl.UpdateRun

open WithNaN ControlMath

namespace ESOPositionControl

variable {dcm : Quatf ℝ → Matrix3f ℝ} {c : ESOPositionControl ℝ}

/-! ### The controller on an idle setpoint -/

/-- Hold the current position, no velocity, and accelerate by `a`. -/
structure HoldInput (a : Fin 3 → ℝ) (c : ESOPositionControl ℝ) : Prop where
  pos_sp : c.pos_sp = c.pos
  vel_sp : c.vel_sp = numVec 0
  acc_sp : c.acc_sp = numVec a

/-- The limits that are set below `rampup`: a negative upward velocity limit
and the smallest minimum thrust. -/
structure IdleLimits (c : ESOPositionControl ℝ) : Prop where
  gain_pos_p : FiniteVec c.gain_pos_p
  gain_pos_i : FiniteVec c.gain_pos_i
  gain_vel_p : ∃ k, c.gain_vel_p = numVec k ∧ 0 ≤ k 2
  vel_horizontal : ∃ v, c.lim_vel_horizontal = num v ∧ 0 ≤ v
  vel_up : ∃ v, c.lim_vel_up = num v ∧ v ≤ 0
  vel_down : ∃ v, c.lim_vel_down = num v ∧ 0 ≤ v
  thr_min : c.lim_thr_min = num 0.001
  thr_max : ∃ v, c.lim_thr_max = num v ∧ 0.001 ≤ v
  thr_xy_margin : ∃ v, c.lim_thr_xy_margin = num v ∧ 0 ≤ v
  tilt : ∃ t, c.lim_tilt = num t ∧ 0 ≤ t ∧ t < Real.pi / 2
  hover_thrust : ∃ h, c.hover_thrust = num h ∧ 0 ≤ h

/-- The estimates are numbers, and so are the internal terms of the cycle, the
vertical ones within 20 m/s². -/
structure Bounded (dcm : Quatf ℝ → Matrix3f ℝ) (c : ESOPositionControl ℝ) (dt : Flt ℝ) : Prop where
  pos : FiniteVec c.pos
  vel : FiniteVec c.vel
  vel_dot : FiniteVec c.vel_dot
  pos_int : FiniteVec c.pos_int
  disturbance : ∃ d, (c.observe dt).eso_disturbance = numVec d ∧ |d 2| ≤ 20
  centrifugal : ∃ f, c.centrifugal dcm = numVec f ∧ |f 2| ≤ 20
  velocity : ∀ k v, c.gain_vel_p 2 = num k → c.vel 2 = num v → |k * v| ≤ 20

theorem inputValid_of_hold {a : Fin 3 → ℝ} (hi : HoldInput a c) {dt : Flt ℝ}
    (hb : Bounded dcm c dt) : c.inputValid = true := by
  refine Known.inputValid ⟨hb.pos, hb.vel, hb.vel_dot, ?_, ?_, ?_⟩
  · rw [hi.pos_sp]; exact hb.pos
  · rw [hi.vel_sp]; exact finiteVec_numVec _
  · rw [hi.acc_sp]; exact finiteVec_numVec _

theorem velSpUnc_of_hold {a : Fin 3 → ℝ} (hi : HoldInput a c) (hl : IdleLimits c) {dt : Flt ℝ}
    (hb : Bounded dcm c dt) :
    ∃ x : Fin 3 → ℝ, c.velSpP = numVec 0 ∧ c.velSpI = numVec x ∧ c.velSpUnc = numVec x := by
  obtain ⟨q, hq⟩ := exists_numVec hb.pos
  obtain ⟨p, hp⟩ := exists_numVec hl.gain_pos_p
  obtain ⟨k, hk⟩ := exists_numVec hl.gain_pos_i
  obtain ⟨y, hy⟩ := exists_numVec hb.pos_int
  have hP : c.velSpP = numVec 0 := by
    rw [velSpP, hi.pos_sp, hq, hp, numVec_sub, sub_self, emult_numVec, zero_mul]
  have hI : c.velSpI = numVec (y * k) := by
    rw [velSpI, hy, hk, emult_numVec]
  refine ⟨y * k, hP, hI, ?_⟩
  rw [velSpUnc, hP, hI, hi.vel_sp]
  funext i
  simp [addIfNotNanVector3f]

/-- `w` is `x` between the two vertical limits. -/
def Clamped (c : ESOPositionControl ℝ) (x w : ℝ) : Prop :=
  ∀ up down, c.lim_vel_up = num up → c.lim_vel_down = num down →
    w = if x < -up then -up else if down < x then down else x

theorem velSpLimited_of_hold {a : Fin 3 → ℝ} (hi : HoldInput a c) (hl : IdleLimits c)
    {dt : Flt ℝ} (hb : Bounded dcm c dt) :
    ∃ x w : Fin 3 → ℝ, c.velSpI = numVec x ∧ c.velSpLimited = numVec w ∧ Clamped c (x 2) (w 2) := by
  obtain ⟨x, hP, hI, hunc⟩ := velSpUnc_of_hold hi hl hb
  obtain ⟨m, hm, hm0⟩ := hl.vel_horizontal
  obtain ⟨up, hup, -⟩ := hl.vel_up
  obtain ⟨down, hdown, -⟩ := hl.vel_down
  have hset : setZeroIfNanVector3f c.velSpUnc = numVec x := by
    rw [hunc]
    funext i
    exact setZeroIfNan_num _ i _ rfl
  have hff : setZeroIfNanVector3f c.velSpUnc - c.velSpP - c.velSpI = numVec 0 := by
    rw [hset, hP, hI, numVec_sub, numVec_sub, sub_zero, sub_self]
  have hdeg : ¬ Degenerate ![x 0, x 1] 0 m := by
    rintro ⟨-, h, -⟩
    rw [len_zero] at h
    exact absurd h (not_lt.mpr hm0)
  obtain ⟨w, hw⟩ := constrainXY_numVec hdeg
  have hxy : xy c.velSpLimited = numVec w := by
    rw [xy_velSpLimited, hff, hset, hm, ← hw]
    congr 1 <;> funext i <;> fin_cases i <;> rfl
  have hz : c.velSpLimited 2
      = num (if x 2 < -up then -up else if down < x 2 then down else x 2) := by
    rw [← math.constrain_num, ← neg_num, ← hup, ← hdown]
    show math.constrain (setZeroIfNanVector3f c.velSpUnc 2) _ _ = _
    rw [hset]
    rfl
  refine ⟨x, ![w 0, w 1, if x 2 < -up then -up else if down < x 2 then down else x 2], hI, ?_, ?_⟩
  · have h0 := congrFun hxy 0
    have h1 := congrFun hxy 1
    rw [xy_zero] at h0
    rw [xy_one] at h1
    exact vec_eq_three h0 h1 hz
  · intro up' down' hup' hdown'
    obtain rfl : up' = up := WithNaN.num.inj (hup'.symm.trans hup)
    obtain rfl : down' = down := WithNaN.num.inj (hdown'.symm.trans hdown)
    rfl

theorem Clamped.nonneg (hl : IdleLimits c) {x w : ℝ} (h : Clamped c x w) : 0 ≤ w := by
  obtain ⟨up, hup, hup0⟩ := hl.vel_up
  obtain ⟨down, hdown, hdown0⟩ := hl.vel_down
  rw [h up down hup hdown]
  split_ifs <;> linarith

theorem control_acc_sp_of_hold {a : Fin 3 → ℝ} (hi : HoldInput a c) (hl : IdleLimits c)
    {dt : Flt ℝ} (hb : Bounded dcm c dt) :
    ∃ x w k v d f : Fin 3 → ℝ, c.velSpI = numVec x ∧ Clamped c (x 2) (w 2) ∧
      c.gain_vel_p = numVec k ∧ c.vel = numVec v ∧ (c.observe dt).eso_disturbance = numVec d ∧
      c.centrifugal dcm = numVec f ∧
      (c.control dcm dt).acc_sp = numVec fun i => a i + (w i - v i) * k i - d i - f i := by
  obtain ⟨x, w, hx, hw, hclamp⟩ := velSpLimited_of_hold hi hl hb
  obtain ⟨k, hk, -⟩ := hl.gain_vel_p
  obtain ⟨v, hv⟩ := exists_numVec hb.vel
  obtain ⟨d, hd, -⟩ := hb.disturbance
  obtain ⟨f, hf, -⟩ := hb.centrifugal
  refine ⟨x, w, k, v, d, f, hx, hclamp, hk, hv, hd, hf, ?_⟩
  have hset : setZeroIfNanVector3f c.acc_sp = numVec a := by
    rw [hi.acc_sp]
    funext i
    exact setZeroIfNan_num _ i _ rfl
  show setZeroIfNanVector3f c.acc_sp + emult (c.velSpLimited - c.vel) c.gain_vel_p
    - (c.observe dt).eso_disturbance - c.centrifugal dcm = _
  rw [hset, hw, hv, hk, hd, hf, numVec_sub, emult_numVec, numVec_add, numVec_sub, numVec_sub]
  rfl

/-- The input of the idle setpoint. -/
def IdleInput (c : ESOPositionControl ℝ) : Prop := HoldInput ![0, 0, 100] c

theorem control_acc_sp_of_idle (hi : IdleInput c) (hl : IdleLimits c) {dt : Flt ℝ}
    (hb : Bounded dcm c dt) :
    ∃ a : Fin 3 → ℝ, (c.control dcm dt).acc_sp = numVec a ∧ 40 ≤ a 2 := by
  obtain ⟨x, w, k, v, d, f, -, hclamp, hk, hv, hd, hf, hacc⟩ := control_acc_sp_of_hold hi hl hb
  refine ⟨_, hacc, ?_⟩
  obtain ⟨k', hk', hk0⟩ := hl.gain_vel_p
  obtain ⟨d', hd', hd20⟩ := hb.disturbance
  obtain ⟨f', hf', hf20⟩ := hb.centrifugal
  obtain rfl := numVec_injective (hk.symm.trans hk')
  obtain rfl := numVec_injective (hd.symm.trans hd')
  obtain rfl := numVec_injective (hf.symm.trans hf')
  have hkv := hb.velocity (k 2) (v 2) (by rw [hk]; rfl) (by rw [hv]; rfl)
  show (40 : ℝ) ≤ 100 + (w 2 - v 2) * k 2 - d 2 - f 2
  rw [abs_le] at hd20 hf20 hkv
  nlinarith [mul_nonneg (hclamp.nonneg hl) hk0]

theorem collective_of_idle {h a z : ℝ} (hh : 0 ≤ h) (ha : 40 ≤ a) (hz : 0 < z) :
    collective h a z 0.001 = -0.001 := by
  refine min_eq_right ?_
  have hg : CONSTANTS_ONE_G ℝ ≤ a := by
    refine le_trans ?_ ha
    norm_num [CONSTANTS_ONE_G]
  have hlift : h ≤ a * (h / CONSTANTS_ONE_G ℝ) := by
    calc h = CONSTANTS_ONE_G ℝ * (h / CONSTANTS_ONE_G ℝ) := by
          rw [mul_div_cancel₀ _ CONSTANTS_ONE_G_pos.ne']
      _ ≤ a * (h / CONSTANTS_ONE_G ℝ) :=
          mul_le_mul_of_nonneg_right hg (div_nonneg hh CONSTANTS_ONE_G_pos.le)
  have : 0 ≤ (a * (h / CONSTANTS_ONE_G ℝ) - h) / z := div_nonneg (by linarith) hz.le
  norm_num
  linarith

theorem thrustFor_of_idle (hl : IdleLimits c) {a : Fin 3 → ℝ} (ha : 40 ≤ a 2) :
    ∃ b : Fin 3 → ℝ, ∑ i, b i * b i = 1 ∧
      c.thrustFor (numVec a) = numVec fun i => b i * (-0.001) := by
  obtain ⟨t, ht, ht0, ht1⟩ := hl.tilt
  obtain ⟨h, hh, hh0⟩ := hl.hover_thrust
  obtain ⟨M, hM, hM0⟩ := hl.thr_max
  obtain ⟨margin, hmargin, hmargin0⟩ := hl.thr_xy_margin
  obtain ⟨b, k, hunit, hz, hthr, -, hk⟩ :=
    accelerationThrust_spec (numVec a) h 0.001 rfl rfl ht0 ht1
  have hk' : k = -0.001 := (hk (a 2) rfl).trans (collective_of_idle hh0 ha hz)
  subst hk'
  refine ⟨b, hunit, ?_⟩
  have hsum : ∑ i, b i * (-0.001) * (b i * (-0.001)) ≤ M * M := by
    rw [sum_mul_mul_self, hunit, one_mul, neg_mul_neg]
    exact mul_self_le_mul_self (by norm_num) hM0
  rw [thrustFor, hh, hl.thr_min, ht, hmargin, hM, hthr,
    prioritizeThrust_of_le hmargin0 (by linarith) hsum]

theorem update_of_numVec {a t : Fin 3 → ℝ} {dt : Flt ℝ} (hv : c.inputValid = true)
    (hacc : (c.control dcm dt).acc_sp = numVec a) (hthr : (c.control dcm dt).thr_sp = numVec t) :
    (c.update dcm dt).2 = true ∧ length (c.update dcm dt).1.thr_sp = num (len t) := by
  refine ⟨(update_snd dt).mpr ⟨hv, ?_, ?_⟩, ?_⟩
  · rw [hacc]; exact finiteVec_numVec _
  · rw [hthr]; exact finiteVec_numVec _
  · rw [update_fst_of_valid hv, hthr, length_numVec]

theorem update_idle (hi : IdleInput c) (hl : IdleLimits c) {dt : Flt ℝ} (hb : Bounded dcm c dt) :
    (c.update dcm dt).2 = true ∧ length (c.update dcm dt).1.thr_sp = num 0.001 := by
  obtain ⟨a, hacc, ha⟩ := control_acc_sp_of_idle hi hl hb
  obtain ⟨b, hunit, hthr⟩ := thrustFor_of_idle hl ha
  have hthr' : (c.control dcm dt).thr_sp = numVec fun i => b i * (-0.001) := by
    rw [control_thr_sp, hacc, hthr]
  have hlen : len (fun i => b i * (-0.001)) = 0.001 := by
    rw [len, sum_mul_mul_self, hunit, one_mul, neg_mul_neg, Real.sqrt_mul_self (by norm_num)]
  rw [← hlen]
  exact update_of_numVec (inputValid_of_hold hi hb) hacc hthr'

theorem limitedZ_le {n margin max z : ℝ} (hn : 0 ≤ n) (h0 : 0 ≤ margin) :
    limitedZ n margin max z ≤ Max.max z (-Real.sqrt (max * max - margin * margin)) := by
  refine max_le_max le_rfl (neg_le_neg (Real.sqrt_le_sqrt (sub_le_sub_left ?_ _)))
  exact mul_self_le_mul_self (le_min hn h0) (min_le_right _ _)

theorem mul_collective_le {h a z thr_min : ℝ} (hz : 0 < z) :
    z * collective h a z thr_min ≤ a * (h / CONSTANTS_ONE_G ℝ) - h :=
  calc z * collective h a z thr_min
      ≤ z * ((a * (h / CONSTANTS_ONE_G ℝ) - h) / z) :=
        mul_le_mul_of_nonneg_left (min_le_left _ _) hz.le
    _ = a * (h / CONSTANTS_ONE_G ℝ) - h := mul_div_cancel₀ _ hz.ne'

/-- The upward thrust is at least what the acceleration asks for, or the
maximum that leaves the horizontal margin. -/
theorem thrustFor_z_le (hl : IdleLimits c) (a : Fin 3 → ℝ) {h M margin : ℝ}
    (hh : c.hover_thrust = num h) (hM : c.lim_thr_max = num M)
    (hmargin : c.lim_thr_xy_margin = num margin) (h0 : 0 ≤ margin) (hle : margin ≤ M) :
    ∃ t : Fin 3 → ℝ, c.thrustFor (numVec a) = numVec t ∧
      t 2 ≤ max (a 2 * (h / CONSTANTS_ONE_G ℝ) - h) (-Real.sqrt (M * M - margin * margin)) := by
  obtain ⟨tilt, htilt, ht0, ht1⟩ := hl.tilt
  obtain ⟨b, k, -, hz, hthr, -, hk⟩ :=
    accelerationThrust_spec (numVec a) h 0.001 rfl rfl ht0 ht1
  rw [thrustFor, hh, hl.thr_min, htilt, hmargin, hM, hthr,
    prioritizeThrust_numVec rfl h0 ((min_le_right _ _).trans hle)]
  have hbk : b 2 * k ≤ a 2 * (h / CONSTANTS_ONE_G ℝ) - h := by
    rw [hk (a 2) rfl]
    exact mul_collective_le hz
  have hbound : limitedZ (len ![b 0 * k, b 1 * k]) margin M (b 2 * k)
      ≤ max (a 2 * (h / CONSTANTS_ONE_G ℝ) - h) (-Real.sqrt (M * M - margin * margin)) :=
    (limitedZ_le (len_nonneg _) h0).trans (max_le_max hbk le_rfl)
  dsimp only
  split_ifs
  · exact ⟨_, rfl, hbound⟩
  · exact ⟨_, rfl, hbound⟩

end ESOPositionControl
