/-
The weight of the yaw axis.

`setProportionalGain` divides the gain by the weight, `update` multiplies the error with it, each
only for weights above `1e-4`; below, the error of the yaw axis is as large as without a weight.

* `updateWith_beta`, `updateWith_rate` — the error and the yaw rate with a weight;
* **`yawPriority_iff`** — when a smaller weight does not raise the error.
-/
import AerialManipulator.AttControl.AttitudeLaw

open WithNaN UnitQuaternion

namespace ESOAttitudeControl

/-- The attitude that is used; there is none in a quaternion of zeros. -/
noncomputable def attitude (q : Fin 4 → ℝ) : Fin 4 → ℝ := if q = 0 then ![1, 0, 0, 0] else unit q

theorem normSq_attitude (q : Fin 4 → ℝ) : normSq (attitude q) = 1 := by
  rw [attitude]
  split_ifs with hq
  · rw [normSq_eq]
    simp
  · exact normSq_unit hq

theorem qCurr_numVec (q : Fin 4 → ℝ) : qCurr (numVec q) = numVec (attitude q) := by
  rw [attitude]
  split_ifs with hq
  · have hzero : ¬ (0 : Flt ℝ) < num (normSq q) := by
      rw [hq, normSq_eq_zero.mpr rfl]
      exact lt_irrefl (0 : ℝ)
    rw [qCurr, normalizedOr, dot_self, if_neg hzero]
    funext i
    fin_cases i <;> rfl
  · exact normalizedOr_numVec hq _

variable {dcm : Quatf ℝ → Matrix3f ℝ} {quat : Matrix3f ℝ → Quatf ℝ} {c : ESOAttitudeControl ℝ}
  {d : Fin 4 → ℝ}

/-- The error of the attitude and the rate of one `update`, after the weight has been set. -/
noncomputable def updateWith (dcm : Quatf ℝ → Matrix3f ℝ) (quat : Matrix3f ℝ → Quatf ℝ)
    (c : ESOAttitudeControl ℝ) (P : Vector3f ℝ) (q : Quatf ℝ) (dt yaw_weight : Flt ℝ) :
    Vector3f ℝ × Vector3f ℝ :=
  let u := (c.setProportionalGain P yaw_weight).update dcm quat q dt
  (u.1.beta_v, u.2)

theorem constrain_weight {w : ℝ} (hw : 0 ≤ w) (hw' : w ≤ 1) :
    math.constrain (num w) 0 1 = (num w : Flt ℝ) := by
  have hconstrain : math.constrain (num w) 0 1 = (num (max 0 (min w 1)) : Flt ℝ) :=
    math.constrain_num_of_le zero_le_one w
  rw [hconstrain, min_eq_left hw', max_eq_right hw]

theorem updateWith_beta (h : Conversions dcm quat) (hd : c.HasSetpoint d) (P : Vector3f ℝ)
    (q : Fin 4 → ℝ) (dt : Flt ℝ) :
    ∃ e, (e = errorQuat d (attitude q) ∨ e = -errorQuat d (attitude q)) ∧
      ∀ w, 0 ≤ w → w ≤ 1 →
        (updateWith dcm quat c P (numVec q) dt (num w)).1 = numVec ![e 1, e 2, e 3 * weight w] := by
  have hp := normSq_attitude q
  obtain ⟨e, he, hsign, -⟩ := qTilde_spec h hd hp
  refine ⟨e, hsign, fun w hw hw' => ?_⟩
  have hR : dcm (qCurr (numVec q)) = numMat (rotation (attitude q)) := by
    rw [qCurr_numVec, h.dcm _ hp]
  have hstate : (updateWith dcm quat c P (numVec q) dt (num w)).1 =
      (c.setProportionalGain P (num w)).betaV dcm quat (dcm (qCurr (numVec q))) :=
    (updateDerivative_setpoint _ c.attitude_setpoint_q _ dt).2.2
  have hqTilde : (c.setProportionalGain P (num w)).qTilde dcm quat
      (numMat (rotation (attitude q))) = numVec e := (qTilde_congr rfl _).trans he
  rw [hstate, hR]
  exact betaV_of_qTilde hqTilde (constrain_weight hw hw')

theorem gain_mul_error (P : Vector3f ℝ) {w : ℝ} (hw : 0 ≤ w) (hw' : w ≤ 1) (x : ℝ) :
    (c.setProportionalGain P (num w)).proportional_gain 2 * num (x * weight w) = P 2 * num x := by
  have hlt : (1e-4 : Flt ℝ) < num w ↔ (1e-4 : ℝ) < w := num_lt_num _ _
  rw [setProportionalGain, constrain_weight hw hw', weight]
  dsimp only
  by_cases hc : (1e-4 : ℝ) < w
  · have hne : w ≠ 0 := (lt_trans (by norm_num) hc).ne'
    rw [if_pos (hlt.mpr hc), if_pos hc]
    show P 2 / num w * num (x * w) = P 2 * num x
    cases P 2 with
    | nan => rfl
    | num p =>
      rw [num_div_of_ne hne, num_mul, num_mul, mul_comm x w, ← mul_assoc, div_mul_cancel₀ p hne]
  · rw [if_neg (fun h => hc (hlt.mp h)), if_neg hc, mul_one]

/-- The yaw component of the rate, in which only the product of gain and error counts. -/
theorem omegaR_yaw {c' : ESOAttitudeControl ℝ} (R : Matrix3f ℝ) {b b' : Vector3f ℝ}
    (hyaw : c'.yawspeed_setpoint = c.yawspeed_setpoint) (hlim : c'.rate_limit = c.rate_limit)
    (hprod : c'.proportional_gain 2 * b' 2 = c.proportional_gain 2 * b 2) :
    c'.omegaR R b' 2 = c.omegaR R b 2 := by
  have htarget : c'.targetOmegaWorld = c.targetOmegaWorld := by
    rw [targetOmegaWorld, hyaw, targetOmegaWorld]
  have hrate : (mulVec (transpose R) c'.targetOmegaWorld -
      scale (emult c'.proportional_gain b') (1 + 1)) 2 =
      (mulVec (transpose R) c.targetOmegaWorld - scale (emult c.proportional_gain b)
        (1 + 1)) 2 := by
    rw [Pi.sub_apply, Pi.sub_apply, scale, scale, emult, emult, hprod, htarget]
  rw [omegaR, hlim]
  exact congrArg (fun x : Flt ℝ => if x.isFinite then
    math.constrain x (-c.rate_limit 2) (c.rate_limit 2) else 0) hrate

theorem updateWith_rate (h : Conversions dcm quat) (hd : c.HasSetpoint d) (P : Vector3f ℝ)
    (q : Fin 4 → ℝ) (dt : Flt ℝ) {w w' : ℝ} (hw : 0 ≤ w) (hw₁ : w ≤ 1) (hw' : 0 ≤ w')
    (hw₁' : w' ≤ 1) :
    (updateWith dcm quat c P (numVec q) dt (num w)).2 2 =
      (updateWith dcm quat c P (numVec q) dt (num w')).2 2 := by
  obtain ⟨e, -, hbeta⟩ := updateWith_beta h hd P q dt
  have hrate : ∀ x, (updateWith dcm quat c P (numVec q) dt x).2 =
      (c.setProportionalGain P x).omegaR (dcm (qCurr (numVec q)))
        ((c.setProportionalGain P x).betaV dcm quat (dcm (qCurr (numVec q)))) := fun _ => rfl
  have hstate : ∀ x, (updateWith dcm quat c P (numVec q) dt x).1 =
      (c.setProportionalGain P x).betaV dcm quat (dcm (qCurr (numVec q))) := fun _ =>
    (updateDerivative_setpoint _ c.attitude_setpoint_q _ dt).2.2
  rw [hrate, hrate, ← hstate, ← hstate, hbeta w hw hw₁, hbeta w' hw' hw₁']
  refine omegaR_yaw _ rfl rfl ?_
  exact (gain_mul_error P hw hw₁ (e 3)).trans (gain_mul_error P hw' hw₁' (e 3)).symm

/-- A smaller weight does not raise the error of the yaw axis, and changes neither the other axes
nor the rate of the yaw axis. -/
structure YawPriority (dcm : Quatf ℝ → Matrix3f ℝ) (quat : Matrix3f ℝ → Quatf ℝ)
    (c : ESOAttitudeControl ℝ) (P : Vector3f ℝ) (q : Quatf ℝ) (dt w₁ w₂ : Flt ℝ) : Prop where
  yaw : fabsf ((updateWith dcm quat c P q dt w₁).1 2) ≤
    fabsf ((updateWith dcm quat c P q dt w₂).1 2)
  roll : (updateWith dcm quat c P q dt w₁).1 0 = (updateWith dcm quat c P q dt w₂).1 0
  pitch : (updateWith dcm quat c P q dt w₁).1 1 = (updateWith dcm quat c P q dt w₂).1 1
  rate : 0 < w₁ → 0 < w₂ →
    (updateWith dcm quat c P q dt w₁).2 2 = (updateWith dcm quat c P q dt w₂).2 2

/-- The weights are on the same side of the limit, or there is nothing to be scaled. -/
def SameSide (d q : Fin 4 → ℝ) (w₁ w₂ : ℝ) : Prop :=
  1e-4 < w₁ ∨ w₂ ≤ 1e-4 ∨ w₂ = 1 ∨ errorQuat d (attitude q) 3 = 0

theorem mul_weight_le_iff {x w₁ w₂ : ℝ} (hle : w₁ ≤ w₂) (hw₂ : w₂ ≤ 1) :
    |x * weight w₁| ≤ |x * weight w₂| ↔ 1e-4 < w₁ ∨ w₂ ≤ 1e-4 ∨ w₂ = 1 ∨ x = 0 := by
  have hpos := abs_of_pos (weight_pos w₁)
  have hpos' := abs_of_pos (weight_pos w₂)
  rw [abs_mul, abs_mul, hpos, hpos', weight, weight]
  by_cases hc : 1e-4 < w₁
  · rw [if_pos hc, if_pos (hc.trans_le hle)]
    exact iff_of_true (mul_le_mul_of_nonneg_left hle (abs_nonneg x)) (.inl hc)
  rw [if_neg hc]
  by_cases hc' : 1e-4 < w₂
  · rw [if_pos hc', mul_one]
    constructor
    · intro h
      by_cases hx : x = 0
      · exact .inr (.inr (.inr hx))
      · have hxpos := abs_pos.mpr hx
        have hone : 1 ≤ w₂ := by
          by_contra hlt
          nlinarith [not_le.mp hlt]
        exact .inr (.inr (.inl (le_antisymm hw₂ hone)))
    · rintro (h | h | h | h)
      · exact absurd h hc
      · exact absurd hc' (not_lt.mpr h)
      · rw [h, mul_one]
      · rw [h, abs_zero, zero_mul]
  · rw [if_neg hc']
    exact iff_of_true le_rfl (.inr (.inl (not_lt.mp hc')))

/-- **When the weight of the yaw axis works**: if not just one of the weights is cut off. -/
theorem yawPriority_iff (h : Conversions dcm quat) (hd : c.HasSetpoint d) (P : Vector3f ℝ)
    (q : Fin 4 → ℝ) (dt : Flt ℝ) {w₁ w₂ : ℝ} (hw₁ : 0 ≤ w₁) (hle : w₁ ≤ w₂) (hw₂ : w₂ ≤ 1) :
    YawPriority dcm quat c P (numVec q) dt (num w₁) (num w₂) ↔ SameSide d q w₁ w₂ := by
  obtain ⟨e, hsign, hbeta⟩ := updateWith_beta h hd P q dt
  have hzero : e 3 = 0 ↔ errorQuat d (attitude q) 3 = 0 := by
    rcases hsign with rfl | rfl
    · rfl
    · rw [Pi.neg_apply, neg_eq_zero]
  rw [SameSide, ← hzero, ← mul_weight_le_iff hle hw₂]
  have hbeta₁ := hbeta w₁ hw₁ (hle.trans hw₂)
  have hbeta₂ := hbeta w₂ (hw₁.trans hle) hw₂
  constructor
  · intro hpriority
    have hyaw := hpriority.yaw
    rw [hbeta₁, hbeta₂] at hyaw
    exact hyaw
  · intro hyaw
    refine ⟨?_, ?_, ?_, fun _ _ => updateWith_rate h hd P q dt hw₁ (hle.trans hw₂)
      (hw₁.trans hle) hw₂⟩
    · rw [hbeta₁, hbeta₂]
      exact hyaw
    · rw [hbeta₁, hbeta₂]
      rfl
    · rw [hbeta₁, hbeta₂]
      rfl

/-- A controller whose setpoint is turned by half a turn about the vertical. -/
noncomputable def halfTurned : ESOAttitudeControl ℝ :=
  (init ℝ).setAttitudeSetpoint (numVec ![0, 0, 0, 1]) 0

theorem hasSetpoint_halfTurned : halfTurned.HasSetpoint ![0, 0, 0, 1] := by
  have hone : normSq ![0, 0, 0, (1 : ℝ)] = 1 := by
    rw [normSq_eq]
    simp
  have hset := hasSetpoint_setAttitudeSetpoint (c := init ℝ) (ne_zero_of_normSq_eq_one hone) 0
  rw [unit_of_normSq_eq_one hone] at hset
  exact hset

theorem yawPriority_halfTurned : YawPriority standardDcm standardQuat halfTurned (numVec ![6, 6, 3])
    (numVec ![1, 0, 0, 0]) 0.01 (num 0.2) (num 0.5) :=
  (yawPriority_iff conversions_standard hasSetpoint_halfTurned _ _ _ (by norm_num) (by norm_num)
    (by norm_num)).mpr (.inl (by norm_num))

/-- With a weight of zero the error of the yaw axis is larger than with a weight of a half. -/
theorem not_yawPriority_zero : ¬ YawPriority standardDcm standardQuat halfTurned (numVec ![6, 6, 3])
    (numVec ![1, 0, 0, 0]) 0.01 (num 0) (num 0.5) := by
  intro hpriority
  obtain ⟨e, hsign, hbeta⟩ := updateWith_beta conversions_standard hasSetpoint_halfTurned
    (numVec ![6, 6, 3]) ![1, 0, 0, 0] 0.01
  have hatt : attitude ![1, 0, 0, 0] = ![1, 0, 0, 0] := by
    have hone : normSq ![(1 : ℝ), 0, 0, 0] = 1 := by
      rw [normSq_eq]
      simp
    rw [attitude, if_neg (ne_zero_of_normSq_eq_one hone), unit_of_normSq_eq_one hone]
  have hthree : errorQuat ![0, 0, 0, 1] (attitude ![1, 0, 0, 0]) 3 = (-1 : ℝ) := by
    rw [hatt]
    simp [errorQuat, mul, conj]
  have hne : e 3 ≠ 0 := by
    rcases hsign with rfl | rfl
    · rw [hthree]
      norm_num
    · rw [Pi.neg_apply, hthree]
      norm_num
  have hyaw := hpriority.yaw
  rw [hbeta 0 le_rfl zero_le_one, hbeta 0.5 (by norm_num) (by norm_num)] at hyaw
  rcases (mul_weight_le_iff (by norm_num) (by norm_num)).mp hyaw with h | h | h | h
  · norm_num at h
  · norm_num at h
  · norm_num at h
  · exact hne h

end ESOAttitudeControl
