/-
A change of the hover thrust.

`updateHoverThrust` adds to the velocity integral what keeps the thrust the same under the new hover
thrust.  The velocity controller has no integral term and does not read it.  So the acceleration
stays the same and the thrust is scaled.

* `update_thrust_z` — the vertical thrust as a function of the hover thrust;
* **`updateHoverThrust_iff`** — where it does not change.
-/
import AerialManipulator.PosControl.FeedForward
import AerialManipulator.PosControl.ThrustLimit
import AerialManipulator.PosControl.UpdateRun

open WithNaN ControlMath

namespace ESOPositionControl

variable {dcm : Quatf ℝ → Matrix3f ℝ} {c : ESOPositionControl ℝ}
  {s : PositionControlStates ℝ} {sp : LocalPositionSetpoint ℝ} {a : Fin 3 → ℝ} {dt : Flt ℝ}
  {min max margin hover tilt : ℝ}

def fed (c : ESOPositionControl ℝ) (s : PositionControlStates ℝ) (sp : LocalPositionSetpoint ℝ) :
    ESOPositionControl ℝ :=
  (c.setState s).setInputSetpoint sp

/-! ### The vertical thrust -/

theorem accelerationThrust_along (a : Fin 3 → ℝ) {t : ℝ} (ht0 : 0 ≤ t) (ht1 : t < Real.pi / 2) :
    ∃ b : Fin 3 → ℝ, ∑ i, b i * b i = 1 ∧ 0 < b 2 ∧
      ∀ h m : ℝ, accelerationThrust (num h) (num m) (num t) (numVec a)
        = numVec fun i => b i * collective h (a 2) (b 2) m := by
  obtain ⟨b, hunit, hz, hthr⟩ := accelerationThrust_direction (a 0) (a 1) ht0 ht1
  refine ⟨b, hunit, hz, fun h m => ?_⟩
  rw [hthr (numVec a) h m rfl rfl, num_div_of_ne CONSTANTS_ONE_G_pos.ne', numVec_apply, num_mul,
    num_sub, num_div_of_ne hz.ne', neg_num, math.min_num, scale_numVec, collective]

theorem update_thrust_z (hl : Limits c min max margin hover tilt) (hv : c.inputValid = true)
    (hacc : (c.control dcm dt).acc_sp = numVec a) {t : Fin 3 → ℝ}
    (ht : accelerationThrust (num hover) (num min) (num tilt) (numVec a) = numVec t) :
    (c.update dcm dt).1.thr_sp 2 = num (limitedZ (len ![t 0, t 1]) margin max (t 2)) := by
  rw [update_fst_of_valid hv, control_thr_sp, hacc, thrustFor, hl.hover_thrust, hl.thr_min,
    hl.lim_tilt, hl.thr_xy_margin, hl.thr_max, ht,
    prioritizeThrust_numVec rfl hl.margin_nonneg ((min_le_right _ _).trans hl.margin_le)]
  dsimp only
  split_ifs <;> rfl

/-! ### The new hover thrust -/

/-- The hover thrust that `setHoverThrust` stores. -/
noncomputable def limitedHover (x : ℝ) : ℝ := Max.max 0.1 (Min.min x 0.9)

theorem limitedHover_pos (x : ℝ) : 0 < limitedHover x := lt_max_of_lt_left (by norm_num)

section Update

variable {x : ℝ} (hx : FLT_EPSILON ℝ < x)

include hx

theorem updateHoverThrust_hover : (c.updateHoverThrust (num x)).hover_thrust = num
    (limitedHover x) := by
  unfold updateHoverThrust
  rw [if_pos ((num_lt_num _ _).mpr hx)]
  exact math.constrain_num_of_le (by norm_num) x

theorem Limits.updateHoverThrust (hl : Limits c min max margin hover tilt)
    (s : PositionControlStates ℝ) (sp : LocalPositionSetpoint ℝ) :
    Limits (fed (c.updateHoverThrust (num x)) s sp) min max margin (limitedHover x) tilt := by
  have hhover := updateHoverThrust_hover (c := c) hx
  unfold ESOPositionControl.updateHoverThrust at hhover ⊢
  rw [if_pos ((num_lt_num _ _).mpr hx)] at hhover ⊢
  exact { hl with
    hover_thrust := hhover
    hover_pos := limitedHover_pos x }

theorem control_acc_sp_updateHoverThrust (dcm : Quatf ℝ → Matrix3f ℝ) (c : ESOPositionControl ℝ)
    (s : PositionControlStates ℝ) (sp : LocalPositionSetpoint ℝ) (dt : Flt ℝ) :
    ((fed (c.updateHoverThrust (num x)) s sp).control dcm dt).acc_sp
      = ((fed c s sp).control dcm dt).acc_sp ∧
    (fed (c.updateHoverThrust (num x)) s sp).inputValid = (fed c s sp).inputValid := by
  unfold ESOPositionControl.updateHoverThrust
  rw [if_pos ((num_lt_num _ _).mpr hx)]
  exact ⟨rfl, rfl⟩

end Update

/-- The thrust of the cycle is over the minimum, and its vertical part below what the maximum leaves
for it. -/
structure Unsaturated (dcm : Quatf ℝ → Matrix3f ℝ) (c : ESOPositionControl ℝ) (dt : Flt ℝ)
    (min max margin : ℝ) (t : Fin 3 → ℝ) : Prop where
  valid : c.inputValid = true
  acc : FiniteVec (c.control dcm dt).acc_sp
  thrust : accelerationThrust c.hover_thrust c.lim_thr_min c.lim_tilt (c.control dcm dt).acc_sp
    = numVec t
  above : min < len t
  below : -t 2 < Real.sqrt
    (max * max - Min.min (len ![t 0, t 1]) margin * Min.min (len ![t 0, t 1]) margin)

theorem collective_eq_mul {a z m h : ℝ} (hh : h ≠ 0) (hover : collective h a z m < -m) (h' : ℝ) :
    collective h' a z m = Min.min (collective h a z m * (h' / h)) (-m) := by
  have hmin : collective h a z m = (a * (h / CONSTANTS_ONE_G ℝ) - h) / z :=
    min_eq_left ((min_lt_iff.mp hover).resolve_right (lt_irrefl _)).le
  have hscale : (a * (h' / CONSTANTS_ONE_G ℝ) - h') / z = collective h a z m * (h' / h) := by
    rw [hmin]
    field_simp
  rw [← hscale, collective]

theorem len_unit_mul {b : Fin 3 → ℝ} (hunit : ∑ i, b i * b i = 1) {k : ℝ} (hk : k ≤ 0) :
    len (fun i => b i * k) = -k := by
  rw [len, sum_mul_mul_self, hunit, one_mul, Real.sqrt_mul_self_eq_abs, abs_of_nonpos hk]

theorem limitedZ_eq_iff_of_lt {n z z' : ℝ} (h : z' < z) : limitedZ n margin max z' = z ↔
    -z = Real.sqrt (max * max - Min.min n margin * Min.min n margin) := by
  rw [limitedZ, max_eq_iff, neg_eq_iff_eq_neg]
  constructor
  · rintro (⟨heq, -⟩ | ⟨heq, -⟩)
    · exact absurd heq h.ne
    · exact heq.symm
  · intro heq
    rw [← heq, neg_neg]
    exact .inr ⟨rfl, h.le⟩

/-- **The vertical thrust stays where the hover thrust does.**  Under a greater one it can also meet
the maximum where it was. -/
theorem updateHoverThrust_iff (hl : Limits c min max margin hover tilt) {t : Fin 3 → ℝ}
    (hu : Unsaturated dcm (fed c s sp) dt min max margin t) {x : ℝ} (hx : FLT_EPSILON ℝ < x) :
    ((fed (c.updateHoverThrust (num x)) s sp).update dcm dt).1.thr_sp 2
        = ((fed c s sp).update dcm dt).1.thr_sp 2 ↔
      limitedHover x = hover ∨
      hover < limitedHover x ∧ -t 2 = Real.sqrt (max * max
        - Min.min (len ![t 0, t 1] * (limitedHover x / hover)) margin
          * Min.min (len ![t 0, t 1] * (limitedHover x / hover)) margin) := by
  have hlc : Limits (fed c s sp) min max margin hover tilt := { hl with }
  obtain ⟨a, ha⟩ := exists_numVec hu.acc
  obtain ⟨hacc', hvalid'⟩ := control_acc_sp_updateHoverThrust hx dcm c s sp dt
  rw [ha] at hacc'
  obtain ⟨b, hunit, hbz, hthr⟩ := accelerationThrust_along a hl.tilt_pos.le hl.tilt_lt
  have hle : ∀ h, collective h (a 2) (b 2) min ≤ -min := fun h => min_le_right _ _
  have hneg : collective hover (a 2) (b 2) min ≤ 0 :=
    (hle hover).trans (neg_nonpos.mpr hl.min_pos.le)
  have ht : t = fun i => b i * collective hover (a 2) (b 2) min := by
    refine numVec_injective (hu.thrust.symm.trans ?_)
    rw [hlc.hover_thrust, hlc.thr_min, hlc.lim_tilt, ha, hthr]
  have hover' : collective hover (a 2) (b 2) min < -min := by
    have hlen := hu.above
    rw [ht, len_unit_mul hunit hneg] at hlen
    exact lt_neg.mp hlen
  rw [update_thrust_z hlc hu.valid ha (ht ▸ hthr hover min),
    update_thrust_z (hl.updateHoverThrust hx s sp) (hvalid'.trans hu.valid) hacc' (hthr _ min)]
  have hz : limitedZ (len ![t 0, t 1]) margin max (t 2) = t 2 :=
    max_eq_left (neg_lt.mp hu.below).le
  rw [num.injEq, hz]
  subst ht
  have hpos := limitedHover_pos x
  have hscale := collective_eq_mul hl.hover_pos.ne' hover' (limitedHover x)
  set k := collective hover (a 2) (b 2) min with hk
  have hkneg : k < 0 := hover'.trans (neg_neg_of_pos hl.min_pos)
  rcases lt_trichotomy (limitedHover x) hover with hlt | heq | hgt
  · -- less thrust, which no limit makes more
    have hless : k < k * (limitedHover x / hover) :=
      (mul_one k).symm.trans_lt (mul_lt_mul_of_neg_left ((div_lt_one hl.hover_pos).mpr hlt) hkneg)
    have hk' : k < collective (limitedHover x) (a 2) (b 2) min := by
      rw [hscale]
      exact lt_min hless hover'
    refine iff_of_false (fun h => ?_) ?_
    · have hle' : b 2 * collective (limitedHover x) (a 2) (b 2) min ≤ b 2 * k :=
        (le_max_left _ _).trans_eq h
      exact absurd hle' (not_le.mpr (mul_lt_mul_of_pos_left hk' hbz))
    · rintro (heq | ⟨hgt, -⟩)
      · exact hlt.ne heq
      · exact lt_asymm hlt hgt
  · rw [heq, ← hk]
    exact iff_of_true hz (.inl rfl)
  · have hmore : k * (limitedHover x / hover) < k :=
      (mul_lt_mul_of_neg_left ((one_lt_div hl.hover_pos).mpr hgt) hkneg).trans_eq (mul_one k)
    have hk' : collective (limitedHover x) (a 2) (b 2) min = k * (limitedHover x / hover) := by
      rw [hscale]
      exact min_eq_left (hmore.trans hover').le
    have hr : 0 ≤ limitedHover x / hover := (div_pos hpos hl.hover_pos).le
    have hn : len ![b 0 * (k * (limitedHover x / hover)), b 1 * (k * (limitedHover x / hover))]
        = len ![b 0 * k, b 1 * k] * (limitedHover x / hover) := by
      have hvec : ![b 0 * (k * (limitedHover x / hover)), b 1 * (k * (limitedHover x / hover))]
          = (limitedHover x / hover) • ![b 0 * k, b 1 * k] := by
        funext i
        fin_cases i <;> simp <;> ring
      rw [hvec, len_smul, abs_of_nonneg hr, mul_comm]
    rw [hk', hn, limitedZ_eq_iff_of_lt (mul_lt_mul_of_pos_left hmore hbz)]
    exact ⟨fun h => .inr ⟨hgt, h⟩, fun h => (h.resolve_left hgt.ne').2⟩

/-! ### A vehicle that holds its position -/

noncomputable def holdSetpoint : LocalPositionSetpoint ℝ :=
  ⟨0, 0, 0, 0, nan, nan, 0, 0, 0, fun _ => 0, fun _ => nan⟩

noncomputable def calm : ESOPositionControl ℝ := { tuned with eso_update_enabled := false }

/-- The controller of this vehicle, with any integral. -/
structure Holding (c : ESOPositionControl ℝ) : Prop where
  limits : Limits c 0.1 1 0.3 0.5 0.5
  gain_pos_p : c.gain_pos_p = numVec 1
  gain_pos_i : c.gain_pos_i = numVec 0
  gain_vel_p : c.gain_vel_p = numVec 1
  lim_horizontal : c.lim_vel_horizontal = num 10
  lim_up : c.lim_vel_up = num 1
  lim_down : c.lim_vel_down = num 1
  lim_int : c.lim_pos_int = num 0
  pos_int : FiniteVec c.pos_int
  eso : c.eso_update_enabled = false
  dyn_ff : c.dyn_ff_enabled = false

theorem holding_calm : Holding calm where
  limits := { limits_tuned with }
  gain_pos_p := rfl
  gain_pos_i := rfl
  gain_vel_p := rfl
  lim_horizontal := rfl
  lim_up := rfl
  lim_down := rfl
  lim_int := rfl
  pos_int _ := rfl
  eso := rfl
  dyn_ff := rfl

theorem Holding.loaded (h : Holding c) : ∃ y, Loaded { cruise 0 with integral := y }
    (fed c atRest holdSetpoint) := by
  obtain ⟨y, hy⟩ := exists_numVec h.pos_int
  exact ⟨y, {
    pos_sp := funext fun i => by fin_cases i <;> rfl
    pos := rfl
    gain_p := h.gain_pos_p
    gain_i := h.gain_pos_i
    integral := hy
    feedforward := funext fun i => by fin_cases i <;> rfl
    lim_horizontal := h.lim_horizontal
    lim_up := h.lim_up
    lim_down := h.lim_down
    lim_int := h.lim_int }⟩

theorem unc_hold (y : Fin 3 → ℝ) : PosLoop.unc { cruise 0 with integral := y } = 0 := by
  simp [PosLoop.unc, PosLoop.feedback, PosLoop.error, cruise]

theorem Holding.velSpLimited (h : Holding c) :
    (fed c atRest holdSetpoint).velSpLimited = numVec 0 ∧
    (fed c atRest holdSetpoint).velSpUnc = numVec 0 := by
  obtain ⟨y, hy⟩ := h.loaded
  have hunc := hy.velSpUnc
  rw [unc_hold] at hunc
  refine ⟨hy.limited_of_in (w := 0) ?_ ?_ (by rw [unc_hold]), hunc⟩
  · have hsum : PosLoop.hor (PosLoop.unc { cruise 0 with integral := y })
        + PosLoop.hor (PosLoop.feedforward { cruise 0 with integral := y }) = PosLoop.hor 0 := by
      rw [unc_hold]
      funext i
      fin_cases i <;> simp [PosLoop.hor, cruise]
    rw [hy.limited_inside, hsum]
    have hzero : PosLoop.hor 0 = 0 := funext fun i => by fin_cases i <;> rfl
    rw [hsum, hzero, len_zero]
    norm_num [cruise]
  · rw [PosLoop.VerticalIn, unc_hold]
    norm_num [cruise]

theorem Holding.acc (h : Holding c) (dt : Flt ℝ) :
    ((fed c atRest holdSetpoint).control dcm dt).acc_sp = numVec 0 := by
  have hset : setZeroIfNanVector3f (fed c atRest holdSetpoint).acc_sp = numVec 0 :=
    funext fun i => setZeroIfNan_num _ i _ rfl
  have hdist : ((fed c atRest holdSetpoint).observe dt).eso_disturbance = numVec 0 := by
    have heso : (fed c atRest holdSetpoint).eso_update_enabled = false := h.eso
    simp only [observe, heso]
    rfl
  have hcentrifugal : (fed c atRest holdSetpoint).centrifugal dcm = numVec 0 := by
    have hdyn : (fed c atRest holdSetpoint).dyn_ff_enabled = false := h.dyn_ff
    simp only [centrifugal, hdyn]
    rfl
  have hvel : (fed c atRest holdSetpoint).vel = numVec 0 := rfl
  have hgain : (fed c atRest holdSetpoint).gain_vel_p = numVec 1 := h.gain_vel_p
  show setZeroIfNanVector3f (fed c atRest holdSetpoint).acc_sp
    + emult ((fed c atRest holdSetpoint).velSpLimited - (fed c atRest holdSetpoint).vel)
      (fed c atRest holdSetpoint).gain_vel_p
    - ((fed c atRest holdSetpoint).observe dt).eso_disturbance
    - (fed c atRest holdSetpoint).centrifugal dcm = _
  rw [hset, h.velSpLimited.1, hdist, hcentrifugal, hvel, hgain, numVec_sub, emult_numVec,
    numVec_add, numVec_sub, numVec_sub]
  simp

theorem inputValid_hold (c : ESOPositionControl ℝ) :
    (fed c atRest holdSetpoint).inputValid = true := rfl

theorem Holding.positionControl (h : Holding c) (hint : FiniteVec (c.posIntegral dt)) :
    Holding (c.positionControl dt) :=
  { h with
    limits := { h.limits with }
    pos_int := hint }

theorem Holding.velocityControl (h : Holding c) : Holding (c.velocityControl dcm) :=
  { h with limits := { h.limits with } }

theorem Holding.update (h : Holding c) (dt : ℝ) :
    Holding ((fed c atRest holdSetpoint).update dcm (num dt)).1 := by
  rw [update_fst_of_valid (inputValid_hold c)]
  obtain ⟨y, hy⟩ := h.loaded
  obtain ⟨hlim, hunc⟩ := h.velSpLimited
  have hint := hy.posIntegral dt (by rw [hlim, hunc, numVec_sub, sub_zero])
  have hfin : FiniteVec ((fed c atRest holdSetpoint).posIntegral (num dt)) := by
    rw [hint, neg_num]
    exact fun i => math.isFinite_constrain _ _ _
  have hobs : Holding ((fed c atRest holdSetpoint).observe (num dt)) :=
    { h with limits := { h.limits with } }
  have hvel : Holding ((((fed c atRest holdSetpoint).observe (num dt)).positionControl
      (num dt)).velocityControl dcm) := (hobs.positionControl hfin).velocityControl
  exact { hvel with limits := { hvel.limits with } }

theorem hover_thrust_z {b : Fin 3 → ℝ} (hunit : ∑ i, b i * b i = 1) (hz : 0 < b 2) {h : ℝ}
    (h0 : 0.1 < h) : collective h 0 (b 2) 0.1 = -h / b 2 ∧ b 2 * collective h 0 (b 2) 0.1 = -h ∧
      0.1 < len fun i => b i * collective h 0 (b 2) 0.1 := by
  have hle : b 2 ≤ 1 := (abs_le_one_of_unit hunit).2
  have hlt : -h / b 2 < -0.1 := by
    rw [div_lt_iff₀ hz]
    nlinarith
  have hcol : collective h 0 (b 2) 0.1 = -h / b 2 := by
    rw [collective, zero_mul, zero_sub]
    exact min_eq_left hlt.le
  refine ⟨hcol, ?_, ?_⟩
  · rw [hcol, mul_div_cancel₀ _ hz.ne']
  · rw [hcol, len_unit_mul hunit (hlt.le.trans (by norm_num))]
    exact lt_neg.mp hlt

theorem hover_room {n h : ℝ} (hn : 0 ≤ n) (h0 : 0 ≤ h) (h1 : h ≤ 0.9) :
    h < Real.sqrt (1 * 1 - Min.min n 0.3 * Min.min n 0.3) := by
  have hmin : Min.min n 0.3 * Min.min n 0.3 ≤ 0.3 * 0.3 :=
    mul_self_le_mul_self (le_min hn (by norm_num)) (min_le_right _ _)
  rw [Real.lt_sqrt h0]
  nlinarith

theorem Holding.unsaturated (h : Holding c) (dcm : Quatf ℝ → Matrix3f ℝ) (dt : Flt ℝ) :
    ∃ t, Unsaturated dcm (fed c atRest holdSetpoint) dt 0.1 1 0.3 t := by
  obtain ⟨b, hunit, hz, hthr⟩ := accelerationThrust_along 0 h.limits.tilt_pos.le h.limits.tilt_lt
  obtain ⟨-, hvert, hlen⟩ := hover_thrust_z hunit hz (h := 0.5) (by norm_num)
  refine ⟨_, rfl, ?_, ?_, hlen, ?_⟩
  · rw [h.acc]
    exact finiteVec_numVec _
  · have hhover : (fed c atRest holdSetpoint).hover_thrust = num 0.5 := h.limits.hover_thrust
    have hmin : (fed c atRest holdSetpoint).lim_thr_min = num 0.1 := h.limits.thr_min
    have htilt : (fed c atRest holdSetpoint).lim_tilt = num 0.5 := h.limits.lim_tilt
    rw [h.acc, hhover, hmin, htilt, hthr]
    rfl
  · have hroom := hover_room (n := len ![b 0 * collective 0.5 0 (b 2) 0.1,
      b 1 * collective 0.5 0 (b 2) 0.1]) (h := 0.5) (len_nonneg _) (by norm_num) (by norm_num)
    show -(b 2 * collective 0.5 0 (b 2) 0.1) < _
    rw [hvert, neg_neg]
    exact hroom

theorem thrust_of_hold {c' : ESOPositionControl ℝ} {h : ℝ} (hl : Limits c' 0.1 1 0.3 h 0.5)
    (hv : c'.inputValid = true) (hacc : (c'.control dcm dt).acc_sp = numVec 0) (h0 : 0.1 < h)
    (h1 : h ≤ 0.9) : (c'.update dcm dt).1.thr_sp 2 = num (-h) := by
  obtain ⟨b, hunit, hz, hthr⟩ := accelerationThrust_along 0 hl.tilt_pos.le hl.tilt_lt
  obtain ⟨-, hvert, -⟩ := hover_thrust_z hunit hz h0
  rw [update_thrust_z hl hv hacc (hthr h 0.1)]
  refine congrArg num ?_
  have hroom := hover_room (n := len ![b 0 * collective h 0 (b 2) 0.1,
    b 1 * collective h 0 (b 2) 0.1]) (len_nonneg _) (by linarith) h1
  show limitedZ _ 0.3 1 (b 2 * collective h 0 (b 2) 0.1) = -h
  rw [hvert]
  exact max_eq_left (neg_le_neg hroom.le)

noncomputable def heldOnce : ESOPositionControl ℝ :=
  ((fed calm atRest holdSetpoint).update rotationMatrix (num 0.01)).1

theorem holding_heldOnce : Holding heldOnce := holding_calm.update 0.01

/-- The same hover thrust again. -/
theorem updateHoverThrust_iff_same :
    ((fed (heldOnce.updateHoverThrust (num 0.5)) atRest holdSetpoint).update rotationMatrix
        (num 0.01)).1.thr_sp 2
      = ((fed heldOnce atRest holdSetpoint).update rotationMatrix (num 0.01)).1.thr_sp 2 := by
  obtain ⟨t, ht⟩ := holding_heldOnce.unsaturated rotationMatrix (num 0.01)
  have hsmall : FLT_EPSILON ℝ < 0.5 := by norm_num [FLT_EPSILON]
  refine (updateHoverThrust_iff holding_heldOnce.limits ht hsmall).mpr (.inl ?_)
  norm_num [limitedHover]

/-- A new hover thrust of 0.6 instead of 0.5: the thrust jumps from 0.5 to 0.6. -/
theorem hover_thrust_bump :
    (∃ t, Unsaturated rotationMatrix (fed heldOnce atRest holdSetpoint) (num 0.01) 0.1 1 0.3 t) ∧
    ((fed heldOnce atRest holdSetpoint).update rotationMatrix (num 0.01)).1.thr_sp 2 = num (-0.5) ∧
    ((fed (heldOnce.updateHoverThrust (num 0.6)) atRest holdSetpoint).update rotationMatrix
      (num 0.01)).1.thr_sp 2 = num (-0.6) := by
  have hsmall : FLT_EPSILON ℝ < 0.6 := by norm_num [FLT_EPSILON]
  have hhold := holding_heldOnce
  refine ⟨hhold.unsaturated _ _, thrust_of_hold { hhold.limits with } (inputValid_hold _)
    (hhold.acc _) (by norm_num) (by norm_num), ?_⟩
  obtain ⟨hacc, hvalid⟩ := control_acc_sp_updateHoverThrust hsmall rotationMatrix heldOnce
    atRest holdSetpoint (num 0.01)
  have hlimits := hhold.limits.updateHoverThrust hsmall atRest holdSetpoint
  have hnew : limitedHover 0.6 = 0.6 := by norm_num [limitedHover]
  rw [hnew] at hlimits
  exact thrust_of_hold hlimits (hvalid.trans (inputValid_hold _)) (hacc.trans (hhold.acc _))
    (by norm_num) (by norm_num)

end ESOPositionControl
