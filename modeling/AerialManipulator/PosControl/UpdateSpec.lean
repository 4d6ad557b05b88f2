/-
When does one controller cycle produce numbers?

`nan` enters a cycle through the setpoints and the estimates.  This file
follows it through the four stages of `ESOPositionControl.update`, for a
controller whose configuration and internal state are numbers:

* the observer stage needs the position estimate while it is enabled;
* the horizontal limiter needs a commanded position or a feed-forward that
  reaches the limit (`HorizontalDefined`);
* the velocity loop needs every velocity estimate.

`update_snd_iff` assembles these into the exact condition under which `update`
returns `true`.
-/
import AerialManipulator.PosControl.PositionControl

open WithNaN ControlMath

namespace ESOPositionControl

variable {dcm : Quatf ℝ → Matrix3f ℝ} {c : ESOPositionControl ℝ}

/-- The configured gains and limits. -/
structure Configured (c : ESOPositionControl ℝ) : Prop where
  gain_pos_p : FiniteVec c.gain_pos_p
  gain_pos_i : FiniteVec c.gain_pos_i
  gain_vel_p : FiniteVec c.gain_vel_p
  beta1 : FiniteVec c.eso.beta1
  beta2 : FiniteVec c.eso.beta2
  beta3 : FiniteVec c.eso.beta3
  lim_pos_int : c.lim_pos_int.isFinite = true
  lim_vel_horizontal : c.lim_vel_horizontal.isFinite = true
  lim_vel_up : c.lim_vel_up.isFinite = true
  lim_vel_down : c.lim_vel_down.isFinite = true
  lim_thr_min : c.lim_thr_min.isFinite = true
  hover_thrust : c.hover_thrust.isFinite = true
  thrust : ∃ margin max, c.lim_thr_xy_margin = num margin ∧ c.lim_thr_max = num max ∧
    0 ≤ margin ∧ margin ≤ max
  tilt : ∃ t, c.lim_tilt = num t ∧ 0 ≤ t ∧ t < Real.pi / 2

/-- What one cycle hands to the next: the observer states, the position
integral and the cached observer input are numbers. -/
structure Loop (c : ESOPositionControl ℝ) : Prop where
  z1 : FiniteVec c.eso.z1
  z2 : FiniteVec c.eso.z2
  z3 : FiniteVec c.eso.z3
  pos_int : FiniteVec c.pos_int
  eso_input : FiniteVec c.eso_input

/-- The inputs of the centrifugal compensation are numbers. -/
structure Body (c : ESOPositionControl ℝ) : Prop where
  body_rate : FiniteVec c.body_rate
  sys_com_pos : FiniteVec c.sys_com_pos
  attitude : FiniteVec c.attitude

/-- The matrix library converts a quaternion of numbers to a matrix of numbers. -/
def DcmFinite (dcm : Quatf ℝ → Matrix3f ℝ) : Prop := ∀ q, FiniteVec q → ∀ i, FiniteVec (dcm q i)

/-! ### Inputs leave the configuration and the loop states alone -/

theorem Configured.setState (hc : Configured c) (states : PositionControlStates ℝ) :
    Configured (c.setState states) := { hc with }

theorem Configured.setInputSetpoint (hc : Configured c) (setpoint : LocalPositionSetpoint ℝ) :
    Configured (c.setInputSetpoint setpoint) := { hc with }

theorem Loop.setState (hl : Loop c) (states : PositionControlStates ℝ) :
    Loop (c.setState states) := { hl with }

theorem Loop.setInputSetpoint (hl : Loop c) (setpoint : LocalPositionSetpoint ℝ) :
    Loop (c.setInputSetpoint setpoint) := { hl with }

theorem Body.setState (hb : Body c) (states : PositionControlStates ℝ) :
    Body (c.setState states) := { hb with }

theorem Body.setInputSetpoint (hb : Body c) (setpoint : LocalPositionSetpoint ℝ) :
    Body (c.setInputSetpoint setpoint) := { hb with }

/-! ### Accepted inputs -/

/-- What `_inputValid` accepts: every axis is commanded, horizontal setpoints
come in pairs, and every commanded state has an estimate. -/
structure Accepted (c : ESOPositionControl ℝ) : Prop where
  commanded : ∀ i, (c.pos_sp i).isFinite ∨ (c.vel_sp i).isFinite ∨ (c.acc_sp i).isFinite
  pos_pair : (c.pos_sp 0).isFinite = (c.pos_sp 1).isFinite
  vel_pair : (c.vel_sp 0).isFinite = (c.vel_sp 1).isFinite
  acc_pair : (c.acc_sp 0).isFinite = (c.acc_sp 1).isFinite
  pos_known : ∀ i, (c.pos_sp i).isFinite → (c.pos i).isFinite
  vel_known : ∀ i, (c.vel_sp i).isFinite → (c.vel i).isFinite ∧ (c.vel_dot i).isFinite

theorem inputValid_iff : c.inputValid = true ↔ Accepted c := by
  simp only [inputValid, Bool.and_eq_true, List.all_eq_true, List.mem_finRange, forall_const,
    Bool.or_eq_true, Bool.not_eq_true', beq_iff_eq, or_assoc]
  constructor
  · rintro ⟨⟨⟨⟨hany, hpos⟩, hvel⟩, hacc⟩, hest⟩
    refine ⟨hany, hpos, hvel, hacc, fun i hi => ?_, fun i hi => ?_⟩
    · exact (hest i).1.resolve_left (by rw [hi]; exact Bool.noConfusion)
    · exact (hest i).2.resolve_left (by rw [hi]; exact Bool.noConfusion)
  · intro h
    refine ⟨⟨⟨⟨h.commanded, h.pos_pair⟩, h.vel_pair⟩, h.acc_pair⟩, fun i => ⟨?_, ?_⟩⟩
    · cases hi : (c.pos_sp i).isFinite
      · exact .inl rfl
      · exact .inr (h.pos_known i hi)
    · cases hi : (c.vel_sp i).isFinite
      · exact .inl rfl
      · exact .inr (h.vel_known i hi)

theorem allFinite_iff (v : Vector3f ℝ) : allFinite v = true ↔ FiniteVec v := by
  rw [allFinite, Bool.and_eq_true, Bool.and_eq_true]
  exact ⟨fun ⟨⟨h0, h1⟩, h2⟩ => finiteVec_three h0 h1 h2, fun h => ⟨⟨h 0, h 1⟩, h 2⟩⟩

/-! ### The observer stage -/

theorem isFinite_disturbance (hc : Configured c) (hl : Loop c) (dt : ℝ) (i : Fin 3) :
    ((c.observe (num dt)).eso_disturbance i).isFinite
      = (!c.eso_update_enabled || (c.pos i).isFinite) := by
  simp only [observe, observedESO]
  cases c.eso_update_enabled with
  | false => rfl
  | true =>
    cases c.eso_update_enabled_prev <;>
      simp [PositionESO.update, PositionESO.resetTo, emult, scale, isFinite_add, isFinite_mul,
        isFinite_sub, hl.z1 i, hl.z3 i, hc.beta3 i]

/-! ### The position loop -/

/-- The horizontal velocity demand is a number after limiting.  With a
commanded position only the zero-over-zero corner of `constrainXY` is excluded;
without one, the feed-forward alone has to reach the limit. -/
def HorizontalDefined (c : ESOPositionControl ℝ) : Prop :=
  ∀ m f, c.lim_vel_horizontal = num m → xy (setZeroIfNanVector3f c.vel_sp) = numVec f →
    if (c.pos_sp 0).isFinite then
      ∀ p, xy (c.velSpP + c.velSpI) = numVec p → ¬ Degenerate (p + f) f m
    else f ≠ 0 ∧ m ≤ len f

theorem not_degenerate_of_le {a b : Fin 2 → ℝ} {m : ℝ} (hm : 0.001 ≤ m) : ¬ Degenerate a b m := by
  rintro ⟨-, h1, h2⟩
  rcases h2 with h2 | h2
  · norm_num at hm
    linarith
  · linarith

theorem horizontalDefined_of_position {m : ℝ} (hm : c.lim_vel_horizontal = num m)
    (hm0 : 0.001 ≤ m) (hsp : (c.pos_sp 0).isFinite) : HorizontalDefined c := by
  intro m' f hm' _
  obtain rfl : m' = m := WithNaN.num.inj (hm'.symm.trans hm)
  rw [if_pos hsp]
  exact fun p _ => not_degenerate_of_le hm0

theorem horizontalDefined_iff {m : ℝ} {f : Fin 2 → ℝ} (hm : c.lim_vel_horizontal = num m)
    (hf : xy (setZeroIfNanVector3f c.vel_sp) = numVec f) :
    HorizontalDefined c ↔ if (c.pos_sp 0).isFinite then
      ∀ p, xy (c.velSpP + c.velSpI) = numVec p → ¬ Degenerate (p + f) f m
    else f ≠ 0 ∧ m ≤ len f := by
  refine ⟨fun h => h m f hm hf, fun h m' f' hm' hf' => ?_⟩
  obtain rfl : m' = m := WithNaN.num.inj (hm'.symm.trans hm)
  obtain rfl : f' = f := numVec_injective (hf'.symm.trans hf)
  exact h

theorem isFinite_velSpLimited_z (hc : Configured c) : (c.velSpLimited 2).isFinite = true := by
  obtain ⟨up, hup⟩ := isFinite_iff.mp hc.lim_vel_up
  obtain ⟨down, hdown⟩ := isFinite_iff.mp hc.lim_vel_down
  simp only [velSpLimited, setZ, setXY, Matrix.cons_val, hup, hdown, neg_num]
  rw [math.isFinite_constrain]
  exact finiteVec_setZeroIfNan _ 2

theorem xy_velSpLimited :
    xy c.velSpLimited = constrainXY (xy (setZeroIfNanVector3f c.velSpUnc))
      (xy (setZeroIfNanVector3f c.velSpUnc - c.velSpP - c.velSpI)) c.lim_vel_horizontal := by
  funext i
  fin_cases i <;> rfl

theorem finiteVec_velSpI (hc : Configured c) (hl : Loop c) : FiniteVec c.velSpI := by
  intro i
  rw [velSpI, emult, isFinite_mul, hl.pos_int i, hc.gain_pos_i i]
  rfl

/-- With a position on axis `i`, the demand before limiting is the P and I
terms plus the feed-forward, a missing feed-forward counting as zero. -/
theorem velSpUnc_of_position (hc : Configured c) (hl : Loop c) {i : Fin 3}
    (hsp : (c.pos_sp i).isFinite) (hpos : (c.pos i).isFinite) :
    ∃ p f x, c.velSpP i = num p ∧ c.velSpI i = num x ∧ setZeroIfNanVector3f c.vel_sp i = num f ∧
      c.velSpUnc i = num (p + x + f) := by
  have hP : (c.velSpP i).isFinite = true := by
    rw [velSpP, emult, isFinite_mul, Pi.sub_apply, isFinite_sub, hsp, hpos, hc.gain_pos_p i]
    rfl
  obtain ⟨p, hp⟩ := isFinite_iff.mp hP
  obtain ⟨x, hx⟩ := isFinite_iff.mp (finiteVec_velSpI hc hl i)
  rw [velSpUnc, addIfNotNanVector3f, Pi.add_apply, hp, hx, num_add]
  cases hv : c.vel_sp i with
  | num v => exact ⟨p, v, x, rfl, rfl, setZeroIfNan_num _ _ _ hv, rfl⟩
  | nan => exact ⟨p, 0, x, rfl, rfl, setZeroIfNan_nan _ _ hv, by simp⟩

theorem velSpUnc_of_no_position {i : Fin 3} (hsp : c.pos_sp i = nan) :
    c.velSpP i = nan ∧ c.velSpUnc i = c.vel_sp i := by
  have hP : c.velSpP i = nan := by
    rw [velSpP, emult, Pi.sub_apply, hsp, nan_sub, nan_mul]
  refine ⟨hP, ?_⟩
  rw [velSpUnc, addIfNotNanVector3f, Pi.add_apply, hP, nan_add, addIfNotNan_nan_left]

/-- On two commanded axes the limiter gets the P and I terms plus the
feed-forward, and the feed-forward. -/
theorem xy_velSpLimited_of_position (hc : Configured c) (hl : Loop c) (ha : Accepted c)
    (hsp : (c.pos_sp 0).isFinite) {f : Fin 2 → ℝ}
    (hf : xy (setZeroIfNanVector3f c.vel_sp) = numVec f) :
    ∃ p, xy (c.velSpP + c.velSpI) = numVec p ∧
      xy c.velSpLimited = constrainXY (numVec (p + f)) (numVec f) c.lim_vel_horizontal := by
  have hsp1 : (c.pos_sp 1).isFinite := ha.pos_pair ▸ hsp
  obtain ⟨p0, f0, x0, hp0, hx0, hf0, hu0⟩ :=
    velSpUnc_of_position hc hl hsp (ha.pos_known 0 hsp)
  obtain ⟨p1, f1, x1, hp1, hx1, hf1, hu1⟩ :=
    velSpUnc_of_position hc hl hsp1 (ha.pos_known 1 hsp1)
  have hz0 := setZeroIfNan_num _ _ _ hu0
  have hz1 := setZeroIfNan_num _ _ _ hu1
  obtain rfl : f0 = f 0 := WithNaN.num.inj (hf0.symm.trans (congrFun hf 0))
  obtain rfl : f1 = f 1 := WithNaN.num.inj (hf1.symm.trans (congrFun hf 1))
  refine ⟨![p0 + x0, p1 + x1], ?_, ?_⟩
  · funext i
    fin_cases i
    · exact congrArg₂ (· + ·) hp0 hx0
    · exact congrArg₂ (· + ·) hp1 hx1
  · have hv0 : xy (setZeroIfNanVector3f c.velSpUnc) = numVec (![p0 + x0, p1 + x1] + f) := by
      funext i
      fin_cases i
      exacts [hz0, hz1]
    have hv1 : xy (setZeroIfNanVector3f c.velSpUnc - c.velSpP - c.velSpI) = numVec f := by
      funext i
      fin_cases i <;> simp [xy, hz0, hz1, hp0, hp1, hx0, hx1, sub_sub]
    rw [xy_velSpLimited, hv0, hv1]

/-- Without a horizontal position the limiter gets the feed-forward, and `nan`
in place of it. -/
theorem xy_velSpLimited_of_no_position (h0 : c.pos_sp 0 = nan) (h1 : c.pos_sp 1 = nan) :
    xy c.velSpLimited = constrainXY (xy (setZeroIfNanVector3f c.vel_sp)) (fun _ => nan)
      c.lim_vel_horizontal := by
  obtain ⟨hp0, hu0⟩ := velSpUnc_of_no_position h0
  obtain ⟨hp1, hu1⟩ := velSpUnc_of_no_position h1
  rw [xy_velSpLimited]
  congr 1 <;> funext i <;> fin_cases i <;>
    simp [xy, setZeroIfNanVector3f, addIfNotNanVector3f, hp0, hp1, hu0, hu1]

theorem velSpLimited_horizontal (hc : Configured c) (hl : Loop c) (ha : Accepted c) :
    (HorizontalDefined c → FiniteVec (xy c.velSpLimited)) ∧
    (¬ HorizontalDefined c → ∀ i, xy c.velSpLimited i = nan) := by
  obtain ⟨m, hm⟩ := isFinite_iff.mp hc.lim_vel_horizontal
  obtain ⟨f, hf⟩ := exists_numVec (finiteVec_xy (finiteVec_setZeroIfNan c.vel_sp))
  by_cases hsp : (c.pos_sp 0).isFinite
  · obtain ⟨p, hp, hlim⟩ := xy_velSpLimited_of_position hc hl ha hsp hf
    have hdef : HorizontalDefined c ↔ ¬ Degenerate (p + f) f m := by
      rw [horizontalDefined_iff hm hf, if_pos hsp]
      refine ⟨fun h => h p hp, fun h p' hp' => ?_⟩
      rwa [numVec_injective (hp'.symm.trans hp)]
    rw [hdef, hlim, hm]
    refine ⟨fun h => ?_, fun h i => constrainXY_degenerate (not_not.mp h) i⟩
    obtain ⟨w, hw⟩ := constrainXY_numVec h
    rw [hw]
    exact finiteVec_numVec w
  · have hdef : HorizontalDefined c ↔ f ≠ 0 ∧ m ≤ len f := by
      rw [horizontalDefined_iff hm hf, if_neg hsp]
    have h0 : c.pos_sp 0 = nan := not_isFinite_iff.mp (Bool.not_eq_true _ ▸ hsp)
    have h1 : c.pos_sp 1 = nan := not_isFinite_iff.mp (Bool.not_eq_true _ ▸ ha.pos_pair ▸ hsp)
    have hlim := xy_velSpLimited_of_no_position h0 h1
    rw [hdef, hlim, hm, hf]
    refine ⟨fun h => ?_, (constrainXY_of_nan fun _ => rfl).2⟩
    obtain ⟨w, hw⟩ := (constrainXY_of_nan fun _ => rfl).1 h
    rw [hw]
    exact finiteVec_numVec w

theorem finiteVec_velSpLimited (hc : Configured c) (hl : Loop c) (ha : Accepted c)
    (h : HorizontalDefined c) : FiniteVec c.velSpLimited := by
  have hxy := (velSpLimited_horizontal hc hl ha).1 h
  have h0 := hxy 0
  have h1 := hxy 1
  rw [xy_zero] at h0
  rw [xy_one] at h1
  exact finiteVec_three h0 h1 (isFinite_velSpLimited_z hc)

theorem velSpLimited_nan (hc : Configured c) (hl : Loop c) (ha : Accepted c)
    (h : ¬ HorizontalDefined c) : c.velSpLimited 0 = nan := by
  have hxy := (velSpLimited_horizontal hc hl ha).2 h 0
  rwa [xy_zero] at hxy

/-! ### The velocity loop -/

theorem finiteVec_centrifugal (hd : DcmFinite dcm) (hb : Body c) :
    FiniteVec (c.centrifugal dcm) := by
  intro i
  rw [centrifugal]
  split_ifs
  · have hcross := finiteVec_cross hb.body_rate (finiteVec_cross hb.body_rate hb.sys_com_pos)
    rw [scale, isFinite_mul, finiteVec_mulVec (hd _ hb.attitude) hcross i]
    rfl
  · rfl

theorem isFinite_accCmd (hg : FiniteVec c.gain_vel_p) (hf : FiniteVec (c.centrifugal dcm))
    (i : Fin 3) :
    (c.accCmd dcm i).isFinite
      = ((c.vel_sp i).isFinite && (c.vel i).isFinite && (c.eso_disturbance i).isFinite) := by
  simp only [accCmd, Pi.sub_apply, Pi.add_apply, emult, isFinite_sub, isFinite_add, isFinite_mul,
    finiteVec_setZeroIfNan c.acc_sp i, hg i, hf i, Bool.true_and, Bool.and_true]

theorem isFinite_control_acc_sp (hd : DcmFinite dcm) (hc : Configured c) (hl : Loop c)
    (hb : Body c) (dt : ℝ) (i : Fin 3) :
    ((c.control dcm (num dt)).acc_sp i).isFinite
      = ((c.velSpLimited i).isFinite && (c.vel i).isFinite
        && (!c.eso_update_enabled || (c.pos i).isFinite)) := by
  rw [← isFinite_disturbance hc hl dt i]
  exact isFinite_accCmd (c := (c.observe (num dt)).positionControl (num dt)) hc.gain_vel_p
    (finiteVec_centrifugal (c := c) hd hb) i

/-! ### From acceleration to thrust -/

theorem normalized_body_z (a0 a1 : ℝ) :
    ∃ b : Fin 3 → ℝ, normalized ![-num a0, -num a1, num (CONSTANTS_ONE_G ℝ)] = numVec b ∧
      ∑ i, b i * b i = 1 := by
  set v : Fin 3 → ℝ := ![-a0, -a1, CONSTANTS_ONE_G ℝ] with hv
  have hv0 : v ≠ 0 := fun h => CONSTANTS_ONE_G_pos.ne' (congrFun h 2)
  have hlen := len_pos hv0
  refine ⟨fun i => v i / len v, ?_, ?_⟩
  · rw [← normalized_numVec hv0]
    congr 1
    funext i
    fin_cases i <;> rfl
  · exact sum_div_len_mul_self hv0

/-- The collective thrust (negative: thrust points up) for the vertical
acceleration `a` along a body axis with vertical component `z`. -/
noncomputable def collective (h a z thr_min : ℝ) : ℝ :=
  min ((a * (h / CONSTANTS_ONE_G ℝ) - h) / z) (-thr_min)

/-- With a horizontal acceleration of numbers the thrust is a multiple of a unit vector that points
up and depends on the horizontal acceleration alone. -/
theorem accelerationThrust_direction (a0 a1 : ℝ) {t : ℝ} (ht0 : 0 ≤ t) (ht1 : t < Real.pi / 2) :
    ∃ b : Fin 3 → ℝ, ∑ i, b i * b i = 1 ∧ 0 < b 2 ∧
      ∀ (acc : Vector3f ℝ) (h m : ℝ), acc 0 = num a0 → acc 1 = num a1 →
        accelerationThrust (num h) (num m) (num t) acc = scale (numVec b)
          (math.min ((acc 2 * (num h / num (CONSTANTS_ONE_G ℝ)) - num h) / num (b 2))
            (-num m)) := by
  obtain ⟨b, hb, hunit⟩ := normalized_body_z a0 a1
  obtain ⟨d, hd, hdunit, hdz⟩ := limitTilt_spec hunit ht0 ht1
  have hdot : dot ![0, 0, 1] (numVec d) = num (d 2) := by
    rw [dot, Fin.sum_univ_three]
    simp [zero_def, one_def]
  refine ⟨d, hdunit, hdz, fun acc h m h0 h1 => ?_⟩
  simp only [accelerationThrust]
  rw [h0, h1, hb, hd, hdot]

/-- The multiple is the collective thrust; a missing vertical acceleration gives the minimum
thrust. -/
theorem accelerationThrust_spec (acc : Vector3f ℝ) {a0 a1 t : ℝ} (h m : ℝ) (h0 : acc 0 = num a0)
    (h1 : acc 1 = num a1) (ht0 : 0 ≤ t) (ht1 : t < Real.pi / 2) :
    ∃ (b : Fin 3 → ℝ) (k : ℝ), ∑ i, b i * b i = 1 ∧ 0 < b 2 ∧
      accelerationThrust (num h) (num m) (num t) acc = numVec (fun i => b i * k) ∧
      (acc 2 = nan → k = -m) ∧ (∀ a, acc 2 = num a → k = collective h a (b 2) m) := by
  obtain ⟨d, hdunit, hdz, hthr⟩ := accelerationThrust_direction a0 a1 ht0 ht1
  have hthr := hthr acc h m h0 h1
  rw [hthr, num_div_of_ne CONSTANTS_ONE_G_pos.ne']
  cases h2 : acc 2 with
  | num a =>
    refine ⟨d, collective h a (d 2) m, hdunit, hdz, ?_, fun hn => absurd hn (by simp),
      fun a' ha' => ?_⟩
    · rw [num_mul, num_sub, num_div_of_ne hdz.ne', neg_num, math.min_num, scale_numVec, collective]
    · rw [WithNaN.num.inj ha']
  | nan =>
    refine ⟨d, -m, hdunit, hdz, ?_, fun _ => rfl, fun a ha => absurd ha (by simp)⟩
    rw [nan_mul, nan_sub, nan_div, math.min_nan_left, neg_num, scale_numVec]

theorem accelerationThrust_nan {acc : Vector3f ℝ} (h : acc 0 = nan ∨ acc 1 = nan)
    (hover thr_min tilt : Flt ℝ) (i : Fin 3) :
    accelerationThrust hover thr_min tilt acc i = nan := by
  have hn : ∀ j, normalized ![-acc 0, -acc 1, num (CONSTANTS_ONE_G ℝ)] j = nan := by
    rcases h with h | h
    · exact normalized_eq_nan 0 (by simp [h])
    · exact normalized_eq_nan 1 (by simp [h])
  simp only [accelerationThrust, scale, limitTilt_nan hn, nan_mul]

theorem sqrtf_or_zero (x : ℝ) :
    (if (0 : Flt ℝ) < num x then sqrtf (num x) else 0) = num (Real.sqrt x) := by
  simp only [zero_def, num_lt_num]
  split_ifs with h
  · exact sqrtf_num h.le
  · rw [Real.sqrt_eq_zero_of_nonpos (not_lt.mp h)]

/-- The vertical thrust `z` limited to what the horizontal thrust `n`, up to
its margin, leaves of the total. -/
noncomputable def limitedZ (n margin max z : ℝ) : ℝ :=
  Max.max z (-Real.sqrt (max * max - Min.min n margin * Min.min n margin))

theorem prioritizeThrust_numVec {t : Fin 3 → ℝ} {n margin max : ℝ} (hn : n = len ![t 0, t 1])
    (h0 : 0 ≤ margin) (h1 : Min.min n margin ≤ max) :
    prioritizeThrust (num max) (num margin) (numVec t) =
      let z := limitedZ n margin max (t 2)
      let xyMax := Real.sqrt (max * max - z * z)
      if xyMax < n then numVec ![t 0 / n * xyMax, t 1 / n * xyMax, z]
      else numVec ![t 0, t 1, z] := by
  have hxy : xy (numVec t) = numVec ![t 0, t 1] := by
    funext i
    fin_cases i <;> rfl
  have hzmax : 0 ≤ max * max - Min.min n margin * Min.min n margin := by
    have hn0 : 0 ≤ n := hn ▸ len_nonneg _
    linarith [mul_self_le_mul_self (le_min hn0 h0) h1]
  have hsel : ∀ x : Flt ℝ, setZ (numVec t) x 2 = x := fun _ => rfl
  have hz : Max.max (t 2) (-Real.sqrt (max * max - Min.min n margin * Min.min n margin))
      = limitedZ n margin max (t 2) := rfl
  simp only [prioritizeThrust, hxy, length_numVec, ← hn, num_mul,
    math.min_num, num_sub, sqrtf_num hzmax, neg_num, numVec_apply, math.max_num, hsel, hz,
    sqrtf_or_zero, num_lt_num]
  by_cases h : Real.sqrt (max * max - limitedZ n margin max (t 2) * limitedZ n margin max (t 2)) < n
  · have hne : n ≠ 0 := ((Real.sqrt_nonneg _).trans_lt h).ne'
    rw [if_pos h, if_pos h]
    funext i
    fin_cases i <;> simp [setXY, setZ, scale, num_div_of_ne hne]
  · rw [if_neg h, if_neg h]
    funext i
    fin_cases i <;> simp [setZ]

theorem prioritizeThrust_of_le {t : Fin 3 → ℝ} {margin max : ℝ} (h0 : 0 ≤ margin) (hmax : 0 ≤ max)
    (h : ∑ i, t i * t i ≤ max * max) :
    prioritizeThrust (num max) (num margin) (numVec t) = numVec t := by
  set n := len ![t 0, t 1] with hn
  have hn0 : 0 ≤ n := len_nonneg _
  have hsum : n * n + t 2 * t 2 ≤ max * max := by
    rw [hn, len_mul_self, Fin.sum_univ_two]
    rwa [Fin.sum_univ_three] at h
  have hle : n ≤ max := abs_le_of_sq_le_sq' (by nlinarith [mul_self_nonneg (t 2)]) hmax |>.2
  have hmin0 : 0 ≤ Min.min n margin := le_min hn0 h0
  have hmin : Min.min n margin * Min.min n margin ≤ n * n :=
    mul_self_le_mul_self hmin0 (min_le_left _ _)
  have hz : limitedZ n margin max (t 2) = t 2 := by
    refine max_eq_left ?_
    have : |t 2| ≤ Real.sqrt (max * max - Min.min n margin * Min.min n margin) :=
      Real.abs_le_sqrt (by nlinarith)
    linarith [neg_abs_le (t 2)]
  have hxy : n ≤ Real.sqrt (max * max - t 2 * t 2) := by
    rw [← Real.sqrt_mul_self hn0]
    exact Real.sqrt_le_sqrt (by linarith)
  rw [prioritizeThrust_numVec hn h0 ((min_le_left _ _).trans hle)]
  dsimp only
  rw [hz, if_neg (not_lt.mpr hxy)]
  funext i
  fin_cases i <;> rfl

/-- A thrust vector of `nan`s keeps its horizontal `nan`s, while the vertical
limit, which ignores `nan`, makes its third component a number. -/
theorem prioritizeThrust_nan {thr : Vector3f ℝ} {margin max : ℝ} (h0 : 0 ≤ margin)
    (h1 : margin ≤ max) (ht : ∀ i, thr i = nan) :
    ∃ z, prioritizeThrust (num max) (num margin) thr = ![nan, nan, num z] := by
  have hnorm : length (xy thr) = nan := length_eq_nan 0 (ht 0)
  have hzmax : 0 ≤ max * max - margin * margin := by
    linarith [mul_self_le_mul_self h0 h1]
  simp only [prioritizeThrust, hnorm, not_lt_nan, if_false, math.min_nan_left, num_mul, num_sub,
    sqrtf_num hzmax, ht, math.max_nan_left, neg_num, setZ]
  exact ⟨_, rfl⟩

/-! ### The whole cycle -/

/-- The thrust for the acceleration `acc`. -/
noncomputable def thrustFor (c : ESOPositionControl ℝ) (acc : Vector3f ℝ) : Vector3f ℝ :=
  prioritizeThrust c.lim_thr_max c.lim_thr_xy_margin
    (accelerationThrust c.hover_thrust c.lim_thr_min c.lim_tilt acc)

theorem finiteVec_thrustFor (hc : Configured c) {acc : Vector3f ℝ} (h0 : (acc 0).isFinite)
    (h1 : (acc 1).isFinite) : FiniteVec (c.thrustFor acc) := by
  obtain ⟨a0, ha0⟩ := isFinite_iff.mp h0
  obtain ⟨a1, ha1⟩ := isFinite_iff.mp h1
  obtain ⟨t, ht, ht0, ht1⟩ := hc.tilt
  obtain ⟨h, hh⟩ := isFinite_iff.mp hc.hover_thrust
  obtain ⟨m, hm⟩ := isFinite_iff.mp hc.lim_thr_min
  obtain ⟨margin, max, hmargin, hmax, hle0, hle1⟩ := hc.thrust
  obtain ⟨b, k, -, -, hthr, -⟩ := accelerationThrust_spec acc h m ha0 ha1 ht0 ht1
  rw [thrustFor, hh, hm, ht, hmargin, hmax, hthr,
    prioritizeThrust_numVec rfl hle0 ((min_le_right _ _).trans hle1)]
  dsimp only
  split_ifs
  · exact finiteVec_numVec _
  · exact finiteVec_numVec _

theorem thrustFor_nan (hc : Configured c) {acc : Vector3f ℝ} (h : acc 0 = nan ∨ acc 1 = nan) :
    ∃ z, c.thrustFor acc = ![nan, nan, num z] := by
  obtain ⟨margin, max, hmargin, hmax, hle0, hle1⟩ := hc.thrust
  rw [thrustFor, hmargin, hmax]
  exact prioritizeThrust_nan hle0 hle1 (accelerationThrust_nan h _ _ _)

theorem control_thr_sp (dt : Flt ℝ) :
    (c.control dcm dt).thr_sp = c.thrustFor (c.control dcm dt).acc_sp := by
  simp only [thrustFor, control, velocityControl, accelerationControl]
  rfl

theorem update_snd (dt : Flt ℝ) :
    (c.update dcm dt).2 = true ↔ c.inputValid = true ∧
      FiniteVec (c.control dcm dt).acc_sp ∧ FiniteVec (c.control dcm dt).thr_sp := by
  rw [← allFinite_iff, ← allFinite_iff, update]
  cases c.inputValid with
  | false => exact ⟨nofun, fun h => nomatch h.1⟩
  | true => simp only [if_true, Bool.true_and, Bool.and_eq_true, true_and]

theorem update_refused_of_invalid {dt : Flt ℝ} (h : ¬ Accepted c) :
    (c.update dcm dt).2 = false := by
  by_contra hu
  exact h (inputValid_iff.mp ((update_snd dt).mp (Bool.not_eq_false _ ▸ hu)).1)

theorem update_refused_of_acc_sp {dt : Flt ℝ} (h : (c.control dcm dt).acc_sp 0 = nan) :
    (c.update dcm dt).2 = false := by
  by_contra hu
  have h0 := ((update_snd dt).mp (Bool.not_eq_false _ ▸ hu)).2.1 0
  rw [h] at h0
  exact nomatch h0

/-- The commanded acceleration is a vector of numbers exactly when every loop
has the estimates it uses and the horizontal demand is defined. -/
theorem finiteVec_control_acc_sp_iff (hd : DcmFinite dcm) (hc : Configured c) (hl : Loop c)
    (hb : Body c) (ha : Accepted c) (dt : ℝ) :
    FiniteVec (c.control dcm (num dt)).acc_sp ↔
      FiniteVec c.vel ∧ (c.eso_update_enabled = true → FiniteVec c.pos) ∧ HorizontalDefined c := by
  have hacc := isFinite_control_acc_sp hd hc hl hb dt
  constructor
  · intro h
    have hi : ∀ i, (c.velSpLimited i).isFinite = true ∧ (c.vel i).isFinite = true ∧
        (c.eso_update_enabled = true → (c.pos i).isFinite = true) := by
      intro i
      have := (hacc i).symm.trans (h i)
      rw [Bool.and_eq_true, Bool.and_eq_true, Bool.or_eq_true, Bool.not_eq_true'] at this
      refine ⟨this.1.1, this.1.2, fun hen => this.2.resolve_left ?_⟩
      rw [hen]
      exact Bool.noConfusion
    refine ⟨fun i => (hi i).2.1, fun hen i => (hi i).2.2 hen, ?_⟩
    by_contra hn
    have h0 := (hi 0).1
    rw [velSpLimited_nan hc hl ha hn] at h0
    exact nomatch h0
  · rintro ⟨hvel, hpos, hhor⟩ i
    have hest : (!c.eso_update_enabled || (c.pos i).isFinite) = true := by
      cases hen : c.eso_update_enabled
      · rfl
      · exact hpos hen i
    rw [hacc i, finiteVec_velSpLimited hc hl ha hhor i, hvel i, hest]
    rfl

theorem update_snd_iff (hd : DcmFinite dcm) (hc : Configured c) (hl : Loop c) (hb : Body c)
    (dt : ℝ) :
    (c.update dcm (num dt)).2 = true ↔ c.inputValid = true ∧ FiniteVec c.vel ∧
      (c.eso_update_enabled = true → FiniteVec c.pos) ∧ HorizontalDefined c := by
  rw [update_snd]
  constructor
  · rintro ⟨hv, hacc, -⟩
    exact ⟨hv, (finiteVec_control_acc_sp_iff hd hc hl hb (inputValid_iff.mp hv) dt).mp hacc⟩
  · rintro ⟨hv, h⟩
    have hacc := (finiteVec_control_acc_sp_iff hd hc hl hb (inputValid_iff.mp hv) dt).mpr h
    refine ⟨hv, hacc, ?_⟩
    rw [control_thr_sp]
    exact finiteVec_thrustFor hc (hacc 0) (hacc 1)

/-- `update` accepts exactly the inputs that `_inputValid` accepts if and only
if an accepted input always comes with a velocity estimate, with a position
estimate while the observer runs, and with a defined horizontal demand. -/
theorem update_accepts_iff (hd : DcmFinite dcm) (hc : Configured c) (hl : Loop c) (hb : Body c)
    (dt : ℝ) :
    ((c.update dcm (num dt)).2 = true ∧ FiniteVec (c.update dcm (num dt)).1.acc_sp ∧
        FiniteVec (c.update dcm (num dt)).1.thr_sp ↔ c.inputValid = true) ↔
      (c.inputValid = true → FiniteVec c.vel ∧ (c.eso_update_enabled = true → FiniteVec c.pos) ∧
        HorizontalDefined c) := by
  have hout : (c.update dcm (num dt)).2 = true → FiniteVec (c.update dcm (num dt)).1.acc_sp ∧
      FiniteVec (c.update dcm (num dt)).1.thr_sp := by
    intro h
    obtain ⟨hv, hacc, hthr⟩ := (update_snd _).mp h
    simp only [update, hv, if_true]
    exact ⟨hacc, hthr⟩
  have hiff := update_snd_iff hd hc hl hb dt
  constructor
  · intro h hv
    exact (hiff.mp (h.mpr hv).1).2
  · intro h
    refine ⟨fun hu => (hiff.mp hu.1).1, fun hv => ?_⟩
    have hu := hiff.mpr ⟨hv, h hv⟩
    exact ⟨hu, hout hu⟩

/-! ### A configured controller -/

noncomputable def rotationMatrix (q : Quatf ℝ) : Matrix3f ℝ :=
  ![![q 0 * q 0 + q 1 * q 1 - q 2 * q 2 - q 3 * q 3, num 2 * (q 1 * q 2 - q 0 * q 3),
      num 2 * (q 0 * q 2 + q 1 * q 3)],
    ![num 2 * (q 1 * q 2 + q 0 * q 3), q 0 * q 0 - q 1 * q 1 + q 2 * q 2 - q 3 * q 3,
      num 2 * (q 2 * q 3 - q 0 * q 1)],
    ![num 2 * (q 1 * q 3 - q 0 * q 2), num 2 * (q 0 * q 1 + q 2 * q 3),
      q 0 * q 0 - q 1 * q 1 - q 2 * q 2 + q 3 * q 3]]

theorem dcmFinite_rotationMatrix : DcmFinite rotationMatrix := by
  intro q hq i
  refine finiteVec_three ?_ ?_ ?_ <;> fin_cases i <;>
    simp [rotationMatrix, isFinite_add, isFinite_sub, isFinite_mul, hq _]

/-- A controller with unit gains, a horizontal velocity limit of 10 m/s and a
thrust range of 0.1 to 1. -/
noncomputable def tuned : ESOPositionControl ℝ :=
  (init ℝ).setPositionGains (fun _ => 1) (fun _ => 0)
    |>.setVelocityGains (fun _ => 1)
    |>.setVelocityLimits (num 10) 1 1
    |>.setThrustLimits (num 0.1) 1
    |>.setHorizontalThrustMargin (num 0.3)
    |>.setTiltLimit (num 0.5)
    |>.setHoverThrust (num 0.5)

theorem configured_tuned : Configured tuned where
  gain_pos_p _ := rfl
  gain_pos_i _ := rfl
  gain_vel_p _ := rfl
  beta1 := finiteVec_three rfl rfl rfl
  beta2 := finiteVec_three rfl rfl rfl
  beta3 := finiteVec_three rfl rfl rfl
  lim_pos_int := rfl
  lim_vel_horizontal := rfl
  lim_vel_up := rfl
  lim_vel_down := rfl
  lim_thr_min := by
    show (math.max (num 0.1) (10e-4 : Flt ℝ)).isFinite = true
    rw [ofScientific_def, math.max_num]
    rfl
  hover_thrust := math.isFinite_constrain _ _ _
  thrust := ⟨0.3, 1, rfl, rfl, by norm_num, by norm_num⟩
  tilt := ⟨0.5, rfl, by norm_num, by
    linarith [Real.one_le_pi_div_two]⟩

theorem loop_tuned : Loop tuned where
  z1 _ := rfl
  z2 _ := rfl
  z3 _ := rfl
  pos_int _ := rfl
  eso_input _ := rfl

theorem body_tuned : Body tuned where
  body_rate _ := rfl
  sys_com_pos _ := rfl
  attitude i := by fin_cases i <;> rfl

noncomputable def atRest : PositionControlStates ℝ := ⟨fun _ => 0, fun _ => 0, fun _ => 0, 0⟩

/-- A setpoint that commands the velocity `vel` and nothing else. -/
noncomputable def velocitySetpoint (vel : Vector3f ℝ) : LocalPositionSetpoint ℝ :=
  ⟨0, nan, nan, nan, nan, nan, vel 0, vel 1, vel 2, fun _ => nan, fun _ => nan⟩

/-- A setpoint that commands the position `pos` and nothing else. -/
noncomputable def positionSetpoint (pos : Vector3f ℝ) : LocalPositionSetpoint ℝ :=
  ⟨0, pos 0, pos 1, pos 2, nan, nan, nan, nan, nan, fun _ => nan, fun _ => nan⟩

theorem update_accepts_iff_position :
    let c := (tuned.setState atRest).setInputSetpoint (positionSetpoint fun _ => 0)
    (c.update rotationMatrix (num 0.01)).2 = true ∧
        FiniteVec (c.update rotationMatrix (num 0.01)).1.acc_sp ∧
        FiniteVec (c.update rotationMatrix (num 0.01)).1.thr_sp ↔ c.inputValid = true := by
  refine (update_accepts_iff dcmFinite_rotationMatrix
    ((configured_tuned.setState _).setInputSetpoint _) ((loop_tuned.setState _).setInputSetpoint _)
    ((body_tuned.setState _).setInputSetpoint _) _).mpr fun _ => ⟨fun _ => rfl, fun _ _ => rfl, ?_⟩
  exact horizontalDefined_of_position (m := 10) rfl (by norm_num) rfl

/-- A velocity of 1 m/s commanded to a vehicle at rest, with every estimate
known, is accepted by `_inputValid` and refused by `update`. -/
theorem velocity_setpoint_refused :
    let c := (tuned.setState atRest).setInputSetpoint (velocitySetpoint ![1, 0, 0])
    DcmFinite rotationMatrix ∧ Configured c ∧ Loop c ∧ Body c ∧
      ¬ ((c.update rotationMatrix (num 0.01)).2 = true ∧
        FiniteVec (c.update rotationMatrix (num 0.01)).1.acc_sp ∧
        FiniteVec (c.update rotationMatrix (num 0.01)).1.thr_sp ↔ c.inputValid = true) := by
  intro c
  have hc : Configured c := (configured_tuned.setState _).setInputSetpoint _
  have hl : Loop c := (loop_tuned.setState _).setInputSetpoint _
  have hb : Body c := (body_tuned.setState _).setInputSetpoint _
  refine ⟨dcmFinite_rotationMatrix, hc, hl, hb, fun h => ?_⟩
  have hu := (update_snd_iff dcmFinite_rotationMatrix hc hl hb 0.01).mp (h.mpr rfl).1
  have hf : xy (setZeroIfNanVector3f c.vel_sp) = numVec ![1, 0] := by
    funext i
    fin_cases i
    · exact setZeroIfNan_num c.vel_sp 0 1 rfl
    · exact setZeroIfNan_num c.vel_sp 1 0 rfl
  have hlen : len ![(1 : ℝ), 0] = 1 := by simp [len]
  obtain ⟨-, hle⟩ := (horizontalDefined_iff (m := 10) rfl hf).mp hu.2.2.2
  rw [hlen] at hle
  norm_num at hle

end ESOPositionControl
