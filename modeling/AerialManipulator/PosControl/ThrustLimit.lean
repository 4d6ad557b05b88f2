/-
The thrust limits of the velocity controller.

The acceleration asks for a thrust, the unlimited one.  `_velocityControl` then cuts the vertical
part to what the maximum leaves beside the horizontal part, up to a margin, and the horizontal part
to what is left after that.

* `prioritizeThrust_spec` — the two cuts;
* **`velocityControl_law`** — the thrust, and the input of the observer for the next cycle.
-/
import AerialManipulator.PosControl.UpdateSpec

open WithNaN ControlMath

namespace ESOPositionControl

variable {dcm : Quatf ℝ → Matrix3f ℝ} {c : ESOPositionControl ℝ}

/-! ### The two cuts -/

section Cuts

variable {n margin max z : ℝ}

theorem limitedZ_of_abs_le
    (h : |z| ≤ Real.sqrt (max * max - Min.min n margin * Min.min n margin)) :
    limitedZ n margin max z = z :=
  max_eq_left (neg_le.mp ((neg_le_abs z).trans h))

theorem limitedZ_nonpos (hz : z ≤ 0) : limitedZ n margin max z ≤ 0 :=
  max_le hz (neg_nonpos.mpr (Real.sqrt_nonneg _))

theorem limitedZ_mul_self_le (hn : 0 ≤ n) (h0 : 0 ≤ margin) (h1 : margin ≤ max) (hz : z ≤ 0) :
    limitedZ n margin max z * limitedZ n margin max z
      ≤ max * max - Min.min n margin * Min.min n margin := by
  have hmin := mul_self_le_mul_self (le_min hn h0) ((min_le_right n margin).trans h1)
  have hsqrt := Real.mul_self_sqrt (sub_nonneg.mpr hmin)
  have habs : -limitedZ n margin max z
      ≤ Real.sqrt (max * max - Min.min n margin * Min.min n margin) :=
    neg_le.mp (le_max_right _ _)
  have hneg : limitedZ n margin max z ≤ 0 := limitedZ_nonpos hz
  nlinarith

theorem limitedZ_neg (hn : 0 ≤ n) (h0 : 0 ≤ margin) (hz : z < 0) (h : Min.min n margin < max) :
    limitedZ n margin max z < 0 := by
  have hpos : 0 < max * max - Min.min n margin * Min.min n margin :=
    sub_pos.mpr (mul_self_lt_mul_self (le_min hn h0) h)
  exact max_lt hz (neg_neg_iff_pos.mpr (Real.sqrt_pos.mpr hpos))

theorem limitedZ_eq_zero (hz : z ≤ 0) (h : Min.min n margin = max) :
    limitedZ n margin max z = 0 := by
  unfold limitedZ
  rw [h, sub_self, Real.sqrt_zero, neg_zero, max_eq_right hz]

/-- The limited thrust is in the limit, and keeps the direction of the horizontal part. -/
theorem prioritizeThrust_spec {t : Fin 3 → ℝ} (hn : n = len ![t 0, t 1]) (h0 : 0 ≤ margin)
    (h1 : margin ≤ max) (ht : t 2 ≤ 0) :
    ∃ w : Fin 3 → ℝ, prioritizeThrust (num max) (num margin) (numVec t) = numVec w ∧
      len w ≤ max ∧ w 2 = limitedZ n margin max (t 2) ∧
      ∃ k, 0 ≤ k ∧ k ≤ 1 ∧ w 0 = k * t 0 ∧ w 1 = k * t 1 := by
  have hn0 : 0 ≤ n := hn ▸ len_nonneg _
  have hmax : 0 ≤ max := h0.trans h1
  have hsq : t 0 * t 0 + t 1 * t 1 = n * n := by
    rw [hn, len_mul_self, Fin.sum_univ_two]
    rfl
  have hz := limitedZ_mul_self_le hn0 h0 h1 ht
  have hleft : 0 ≤ max * max - limitedZ n margin max (t 2) * limitedZ n margin max (t 2) := by
    nlinarith [mul_self_nonneg (Min.min n margin)]
  have hlen : ∀ w : Fin 3 → ℝ, w 0 * w 0 + w 1 * w 1 + w 2 * w 2 ≤ max * max → len w ≤ max := by
    intro w hw
    rw [len, Fin.sum_univ_three]
    exact Real.sqrt_le_iff.mpr ⟨hmax, by rwa [sq]⟩
  rw [prioritizeThrust_numVec hn h0 ((min_le_right _ _).trans h1)]
  dsimp only
  set s := Real.sqrt (max * max - limitedZ n margin max (t 2) * limitedZ n margin max (t 2)) with hs
  have hs0 : 0 ≤ s := Real.sqrt_nonneg _
  have hss : s * s = max * max - limitedZ n margin max (t 2) * limitedZ n margin max (t 2) :=
    Real.mul_self_sqrt hleft
  by_cases hlt : s < n
  · have hpos : 0 < n := hs0.trans_lt hlt
    rw [if_pos hlt]
    refine ⟨_, rfl, hlen _ ?_, rfl, s / n, div_nonneg hs0 hn0, (div_le_one hpos).mpr hlt.le, ?_, ?_⟩
    · have hscaled : t 0 / n * s * (t 0 / n * s) + t 1 / n * s * (t 1 / n * s) = s * s := by
        field_simp
        linear_combination s ^ 2 * hsq
      show t 0 / n * s * (t 0 / n * s) + t 1 / n * s * (t 1 / n * s) + _ ≤ max * max
      rw [hscaled, hss]
      exact (sub_add_cancel _ _).le
    · exact div_mul_comm _ _ _
    · exact div_mul_comm _ _ _
  · rw [if_neg hlt]
    refine ⟨_, rfl, hlen _ ?_, rfl, 1, zero_le_one, le_refl 1, (one_mul _).symm, (one_mul _).symm⟩
    show t 0 * t 0 + t 1 * t 1 + limitedZ n margin max (t 2) * limitedZ n margin max (t 2)
      ≤ max * max
    have hle := mul_self_le_mul_self hn0 (not_lt.mp hlt)
    rw [hsq]
    linarith

end Cuts

/-! ### The velocity controller -/

/-- The thrust limits, the hover thrust and the tilt limit. -/
structure Limits (c : ESOPositionControl ℝ) (min max margin hover tilt : ℝ) : Prop where
  thr_min : c.lim_thr_min = num min
  thr_max : c.lim_thr_max = num max
  thr_xy_margin : c.lim_thr_xy_margin = num margin
  hover_thrust : c.hover_thrust = num hover
  lim_tilt : c.lim_tilt = num tilt
  min_pos : 0 < min
  min_le : min ≤ max
  margin_nonneg : 0 ≤ margin
  margin_le : margin ≤ max
  hover_pos : 0 < hover
  tilt_pos : 0 < tilt
  tilt_lt : tilt < Real.pi / 2

/-- What `_velocityControl` reads, but for the acceleration setpoint: all of it is numbers. -/
structure Measured (c : ESOPositionControl ℝ) : Prop where
  vel_sp : FiniteVec c.vel_sp
  vel : FiniteVec c.vel
  gain_vel_p : FiniteVec c.gain_vel_p
  eso_disturbance : FiniteVec c.eso_disturbance
  body : Body c

theorem Measured.accCmd (hm : Measured c) (hd : DcmFinite dcm) : FiniteVec (c.accCmd dcm) := by
  intro i
  rw [isFinite_accCmd hm.gain_vel_p (finiteVec_centrifugal hd hm.body), hm.vel_sp i, hm.vel i,
    hm.eso_disturbance i]
  rfl

noncomputable def unlimitedThrust (dcm : Quatf ℝ → Matrix3f ℝ) (c : ESOPositionControl ℝ) :
    Vector3f ℝ :=
  accelerationThrust c.hover_thrust c.lim_thr_min c.lim_tilt (c.accCmd dcm)

theorem velocityControl_thr_sp : (c.velocityControl dcm).thr_sp =
    prioritizeThrust c.lim_thr_max c.lim_thr_xy_margin (unlimitedThrust dcm c) := rfl

theorem velocityControl_eso_input : (c.velocityControl dcm).eso_input =
    feasibleAcc c.hover_thrust (c.velocityControl dcm).thr_sp
      + ![0, 0, num (CONSTANTS_ONE_G ℝ)] + c.centrifugal dcm := rfl

variable {min max margin hover tilt : ℝ}

theorem unlimitedThrust_num (hd : DcmFinite dcm) (hm : Measured c)
    (hl : Limits c min max margin hover tilt) :
    ∃ t : Fin 3 → ℝ, unlimitedThrust dcm c = numVec t ∧ t 2 < 0 := by
  have hacc := hm.accCmd hd
  obtain ⟨a0, h0⟩ := isFinite_iff.mp (hacc 0)
  obtain ⟨a1, h1⟩ := isFinite_iff.mp (hacc 1)
  obtain ⟨a2, h2⟩ := isFinite_iff.mp (hacc 2)
  obtain ⟨b, k, -, hz, hthr, -, hk⟩ :=
    accelerationThrust_spec (c.accCmd dcm) hover min h0 h1 hl.tilt_pos.le hl.tilt_lt
  refine ⟨fun i => b i * k, ?_, ?_⟩
  · unfold unlimitedThrust
    rw [hl.hover_thrust, hl.thr_min, hl.lim_tilt, hthr]
  · have hle : k ≤ -min := (hk a2 h2).trans_le (min_le_right _ _)
    exact mul_neg_of_pos_of_neg hz (hle.trans_lt (neg_neg_iff_pos.mpr hl.min_pos))

theorem feasibleAcc_num (w : Fin 3 → ℝ) (hover : ℝ) (hpos : 0 < hover) :
    feasibleAcc (num hover) (numVec w) =
      if FLT_EPSILON ℝ < hover then numVec fun i => w i * (CONSTANTS_ONE_G ℝ / hover)
      else numVec fun i => w i * CONSTANTS_ONE_G ℝ := by
  unfold feasibleAcc
  by_cases h : FLT_EPSILON ℝ < hover
  · rw [if_pos h, if_pos ((num_lt_num _ _).mpr h), num_div_of_ne hpos.ne', scale_numVec]
  · rw [if_neg h, if_neg fun hc => h ((num_lt_num _ _).mp hc), scale_numVec]

theorem velocityControl_thrust (hd : DcmFinite dcm) (hm : Measured c)
    (hl : Limits c min max margin hover tilt) :
    ∃ t w : Fin 3 → ℝ, unlimitedThrust dcm c = numVec t ∧ t 2 < 0 ∧
      (c.velocityControl dcm).thr_sp = numVec w ∧ len w ≤ max ∧
      w 2 = limitedZ (len ![t 0, t 1]) margin max (t 2) ∧
      ∃ k, 0 ≤ k ∧ k ≤ 1 ∧ w 0 = k * t 0 ∧ w 1 = k * t 1 := by
  obtain ⟨t, ht, hneg⟩ := unlimitedThrust_num hd hm hl
  obtain ⟨w, hw, hlen, hz, hk⟩ := prioritizeThrust_spec rfl hl.margin_nonneg hl.margin_le hneg.le
  refine ⟨t, w, ht, hneg, ?_, hlen, hz, hk⟩
  rw [velocityControl_thr_sp, ht, hl.thr_max, hl.thr_xy_margin, hw]

/-- **The thrust and its limits.**  The thrust is in the limit and points up, unless the margin is
all of the maximum and the horizontal part takes it.  The horizontal part keeps its direction, and
the vertical part its value where the horizontal one leaves room for it. -/
theorem velocityControl_law (hd : DcmFinite dcm) (hm : Measured c)
    (hl : Limits c min max margin hover tilt) :
    ∃ t w : Fin 3 → ℝ, unlimitedThrust dcm c = numVec t ∧
      (c.velocityControl dcm).thr_sp = numVec w ∧ len w ≤ max ∧
      (margin < max ∨ len ![t 0, t 1] < max → w 2 < 0) ∧
      (margin = max → max ≤ len ![t 0, t 1] → w 2 = 0) ∧
      (∃ k, 0 ≤ k ∧ k ≤ 1 ∧ w 0 = k * t 0 ∧ w 1 = k * t 1) ∧
      (|t 2| ≤ Real.sqrt (max * max
        - Min.min (len ![t 0, t 1]) margin * Min.min (len ![t 0, t 1]) margin) → w 2 = t 2) ∧
      (c.velocityControl dcm).eso_input =
        (if FLT_EPSILON ℝ < hover then numVec fun i => w i * (CONSTANTS_ONE_G ℝ / hover)
          else numVec fun i => w i * CONSTANTS_ONE_G ℝ)
        + ![0, 0, num (CONSTANTS_ONE_G ℝ)] + c.centrifugal dcm := by
  obtain ⟨t, w, ht, hneg, hw, hlen, hz, hk⟩ := velocityControl_thrust hd hm hl
  refine ⟨t, w, ht, hw, hlen, fun h => ?_, fun h h' => ?_, hk, fun h => ?_, ?_⟩
  · rw [hz]
    exact limitedZ_neg (len_nonneg _) hl.margin_nonneg hneg (min_lt_iff.mpr h.symm)
  · rw [hz]
    exact limitedZ_eq_zero hneg.le ((min_eq_right (h.trans_le h')).trans h)
  · rw [hz]
    exact limitedZ_of_abs_le h
  · rw [velocityControl_eso_input, hw, hl.hover_thrust, feasibleAcc_num w hover hl.hover_pos]

theorem limits_tuned : Limits tuned 0.1 1 0.3 0.5 0.5 where
  thr_min := by
    show math.max (num 0.1) (10e-4 : Flt ℝ) = num 0.1
    rw [ofScientific_def, math.max_num, max_eq_left (by norm_num)]
  thr_max := rfl
  thr_xy_margin := rfl
  hover_thrust := by
    show math.constrain (num 0.5) (num 0.1) (num 0.9) = num (0.5 : ℝ)
    rw [math.constrain_num]
    norm_num
  lim_tilt := rfl
  min_pos := by norm_num
  min_le := by norm_num
  margin_nonneg := by norm_num
  margin_le := by norm_num
  hover_pos := by norm_num
  tilt_pos := by norm_num
  tilt_lt := by linarith [Real.one_le_pi_div_two]

theorem measured_tuned : Measured tuned where
  vel_sp _ := rfl
  vel _ := rfl
  gain_vel_p _ := rfl
  eso_disturbance _ := rfl
  body := body_tuned

/-- The margin is all of the maximum, and the acceleration asks for much horizontal thrust. -/
noncomputable def sideways : ESOPositionControl ℝ :=
  { tuned with
    lim_thr_xy_margin := num 1
    lim_tilt := num 1
    acc_sp := numVec ![-(3 / 4) * CONSTANTS_ONE_G ℝ, 0, -2 * CONSTANTS_ONE_G ℝ] }

theorem limits_sideways : Limits sideways 0.1 1 1 0.5 1 :=
  { limits_tuned with
    thr_xy_margin := rfl
    lim_tilt := rfl
    margin_nonneg := zero_le_one
    margin_le := le_refl 1
    tilt_pos := one_pos
    tilt_lt := by linarith [Real.pi_gt_three] }

theorem measured_sideways : Measured sideways := { measured_tuned with body := { body_tuned with } }

theorem accCmd_sideways : sideways.accCmd rotationMatrix =
    numVec ![-(3 / 4) * CONSTANTS_ONE_G ℝ, 0, -2 * CONSTANTS_ONE_G ℝ] := by
  have hacc : setZeroIfNanVector3f sideways.acc_sp =
      numVec ![-(3 / 4) * CONSTANTS_ONE_G ℝ, 0, -2 * CONSTANTS_ONE_G ℝ] :=
    funext fun i => setZeroIfNan_num _ i _ rfl
  have hvel : emult (sideways.vel_sp - sideways.vel) sideways.gain_vel_p = numVec 0 := by
    refine funext fun i => ?_
    show num ((0 - 0) * 1) = num 0
    rw [sub_self, zero_mul]
  have hdist : sideways.eso_disturbance = numVec 0 := rfl
  have hcentrifugal : sideways.centrifugal rotationMatrix = numVec 0 := rfl
  unfold accCmd
  rw [hacc, hvel, hdist, hcentrifugal, numVec_add, numVec_sub, numVec_sub, add_zero, sub_zero,
    sub_zero]

theorem unlimitedThrust_sideways :
    unlimitedThrust rotationMatrix sideways = numVec ![-(9 / 8), 0, -(3 / 2)] := by
  have hg := CONSTANTS_ONE_G_pos
  have hne : ![3 / 4 * CONSTANTS_ONE_G ℝ, 0, CONSTANTS_ONE_G ℝ] ≠ 0 :=
    fun hzero => hg.ne' (congrFun hzero 2)
  have hlen : len ![3 / 4 * CONSTANTS_ONE_G ℝ, 0, CONSTANTS_ONE_G ℝ]
      = 5 / 4 * CONSTANTS_ONE_G ℝ := by
    rw [len, Fin.sum_univ_three, Real.sqrt_eq_iff_mul_self_eq_of_pos (by positivity)]
    simp only [Matrix.cons_val_zero, Matrix.cons_val_one, Matrix.cons_val]
    ring
  have hdir : normalized ![-numVec ![-(3 / 4) * CONSTANTS_ONE_G ℝ, 0, -2 * CONSTANTS_ONE_G ℝ] 0,
      -numVec ![-(3 / 4) * CONSTANTS_ONE_G ℝ, 0, -2 * CONSTANTS_ONE_G ℝ] 1,
      num (CONSTANTS_ONE_G ℝ)] = numVec ![3 / 5, 0, 4 / 5] := by
    have hvec : ![-numVec ![-(3 / 4) * CONSTANTS_ONE_G ℝ, 0, -2 * CONSTANTS_ONE_G ℝ] 0,
        -numVec ![-(3 / 4) * CONSTANTS_ONE_G ℝ, 0, -2 * CONSTANTS_ONE_G ℝ] 1,
        num (CONSTANTS_ONE_G ℝ)] = numVec ![3 / 4 * CONSTANTS_ONE_G ℝ, 0, CONSTANTS_ONE_G ℝ] := by
      funext i
      fin_cases i <;> simp
    rw [hvec, normalized_numVec hne, hlen]
    funext i
    fin_cases i <;> simp <;> field_simp
  have htilt : limitTilt (numVec ![(3 / 5 : ℝ), 0, 4 / 5]) ![0, 0, 1] (num 1)
      = numVec ![3 / 5, 0, 4 / 5] := by
    refine limitTilt_of_le ?_ ?_ ?_
    · rw [Fin.sum_univ_three]
      simp only [Matrix.cons_val_zero, Matrix.cons_val_one, Matrix.cons_val]
      norm_num
    · simp only [Matrix.cons_val_zero, Matrix.cons_val_one, FLT_EPSILON]
      norm_num
    · have hle : Real.arccos (4 / 5) ≤ Real.pi / 4 := by
        have hsqrt : Real.sqrt 2 ≤ 8 / 5 := Real.sqrt_le_iff.mpr ⟨by norm_num, by norm_num⟩
        rw [Real.arccos_le_pi_div_four]
        linarith
      exact hle.trans (by linarith [Real.pi_le_four])
  have hdot : dot ![0, 0, 1] (numVec ![(3 / 5 : ℝ), 0, 4 / 5]) = num (4 / 5 : ℝ) := by
    rw [dot, Fin.sum_univ_three]
    simp [zero_def, one_def]
  unfold unlimitedThrust accelerationThrust
  rw [accCmd_sideways, limits_sideways.hover_thrust, limits_sideways.thr_min,
    limits_sideways.lim_tilt]
  dsimp only
  rw [hdir, htilt, hdot, num_div_of_ne hg.ne']
  have hcollective : (-2 * CONSTANTS_ONE_G ℝ * (0.5 / CONSTANTS_ONE_G ℝ) - 0.5) / (4 / 5)
      = -(15 / 8) := by
    field_simp
    norm_num
  have hnum : numVec ![-(3 / 4) * CONSTANTS_ONE_G ℝ, 0, -2 * CONSTANTS_ONE_G ℝ] 2
      = num (-2 * CONSTANTS_ONE_G ℝ) := rfl
  rw [hnum, num_mul, num_sub, num_div_of_ne (by norm_num), hcollective, neg_num, math.min_num,
    min_eq_left (by norm_num), scale_numVec]
  funext i
  fin_cases i <;> simp <;> norm_num

noncomputable def slanted : ESOPositionControl ℝ := { sideways with lim_thr_xy_margin := num 0.3 }

/-- The limits cut a thrust of 9/8 to the side and 3/2 up. -/
theorem velocityControl_law_slanted :
    unlimitedThrust rotationMatrix slanted = numVec ![-(9 / 8), 0, -(3 / 2)] ∧
      ∃ w : Fin 3 → ℝ, (slanted.velocityControl rotationMatrix).thr_sp = numVec w ∧
        len w ≤ 1 ∧ w 2 < 0 := by
  have hlimits : Limits slanted 0.1 1 0.3 0.5 1 :=
    { limits_sideways with
      thr_xy_margin := rfl
      margin_nonneg := by norm_num
      margin_le := by norm_num }
  have hmeasured : Measured slanted := { measured_sideways with body := { body_tuned with } }
  obtain ⟨_, w, -, hw, hlen, hneg, -⟩ :=
    velocityControl_law dcmFinite_rotationMatrix hmeasured hlimits
  exact ⟨unlimitedThrust_sideways, w, hw, hlen, hneg (.inl (by norm_num))⟩

/-- The hover thrust is as small as the code tells from zero. -/
noncomputable def smallHover : ESOPositionControl ℝ :=
  { tuned with hover_thrust := num (FLT_EPSILON ℝ) }

theorem limits_smallHover : Limits smallHover 0.1 1 0.3 (FLT_EPSILON ℝ) 0.5 :=
  { limits_tuned with
    hover_thrust := rfl
    hover_pos := FLT_EPSILON_pos }

theorem measured_smallHover : Measured smallHover :=
  { measured_tuned with body := { body_tuned with } }

/-- All of the thrust goes sideways; and a small hover thrust is left out of the observer input. -/
theorem sideways_thrust :
    (∃ w : Fin 3 → ℝ, (sideways.velocityControl rotationMatrix).thr_sp = numVec w ∧ ¬ w 2 < 0) ∧
    ∃ w : Fin 3 → ℝ, (smallHover.velocityControl rotationMatrix).thr_sp = numVec w ∧
      (smallHover.velocityControl rotationMatrix).eso_input ≠
        (numVec fun i => w i * (CONSTANTS_ONE_G ℝ / FLT_EPSILON ℝ))
          + ![0, 0, num (CONSTANTS_ONE_G ℝ)] + smallHover.centrifugal rotationMatrix := by
  constructor
  · obtain ⟨t, w, ht, hneg, hw, -, hz, -⟩ :=
      velocityControl_thrust dcmFinite_rotationMatrix measured_sideways limits_sideways
    refine ⟨w, hw, ?_⟩
    obtain rfl : t = ![-(9 / 8), 0, -(3 / 2)] :=
      numVec_injective (ht.symm.trans unlimitedThrust_sideways)
    have hlen : (1 : ℝ) ≤ len ![(-(9 / 8) : ℝ), 0] := by
      rw [len, Fin.sum_univ_two, Real.one_le_sqrt]
      simp only [Matrix.cons_val_zero, Matrix.cons_val_one]
      norm_num
    exact (hz.trans (limitedZ_eq_zero hneg.le (min_eq_right hlen))).not_lt
  · obtain ⟨t, w, -, hneg, hw, -, hz, -⟩ :=
      velocityControl_thrust dcmFinite_rotationMatrix measured_smallHover limits_smallHover
    have hw2 : w 2 < 0 := by
      rw [hz]
      exact limitedZ_neg (len_nonneg _) (by norm_num) hneg (min_lt_of_right_lt (by norm_num))
    refine ⟨w, hw, fun heq => ?_⟩
    have hcentrifugal : smallHover.centrifugal rotationMatrix = numVec 0 := rfl
    rw [velocityControl_eso_input, hw, limits_smallHover.hover_thrust,
      feasibleAcc_num w _ FLT_EPSILON_pos, if_neg (lt_irrefl _), hcentrifugal] at heq
    have h2 : w 2 * CONSTANTS_ONE_G ℝ + CONSTANTS_ONE_G ℝ + 0
        = w 2 * (CONSTANTS_ONE_G ℝ / FLT_EPSILON ℝ) + CONSTANTS_ONE_G ℝ + 0 :=
      num.inj (congrFun heq 2)
    rw [add_zero, add_zero, add_left_inj, mul_right_inj' hw2.ne, eq_div_iff FLT_EPSILON_pos.ne',
      mul_eq_left₀ CONSTANTS_ONE_G_pos.ne', FLT_EPSILON] at h2
    norm_num at h2

end ESOPositionControl
