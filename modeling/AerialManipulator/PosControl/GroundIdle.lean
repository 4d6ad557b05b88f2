/-
Idle thrust on the ground.

Below `rampup` the module overwrites the stored setpoint with a strong downward
acceleration, from which the controller computes its minimum thrust.  The
overwriting happens only in cycles that received a trajectory setpoint.

* `Sane` — the invariant of the module: gains, hover thrust, ramp and tilt limit
  stay those of the parameters;
* `always_idle` — in every run in which each position-controlled cycle below
  `rampup` has a fresh trajectory setpoint or the idle one stored, the published
  thrust of these cycles is the minimum.
-/
import AerialManipulator.PosControl.Failsafe
import AerialManipulator.PosControl.IdleControl

open WithNaN ControlMath Trace

namespace ESOPositionControl

open ESOMulticopterPositionControl (Params)

variable {dcm : Quatf ℝ → Matrix3f ℝ} {c : ESOPositionControl ℝ}

/-! ### What the calls of the module leave alone -/

theorem update_lim_thr_min (dt : Flt ℝ) : (c.update dcm dt).1.lim_thr_min = c.lim_thr_min := by
  cases hv : c.inputValid with
  | false => rw [update_fst_of_invalid hv]
  | true =>
    rw [update_fst_of_valid hv]
    simp only [control, velocityControl, accelerationControl, positionControl, observe]

/-- The controller has the gains of `p` and a hover thrust in its range. -/
structure Tuned (p : Params ℝ) (c : ESOPositionControl ℝ) : Prop where
  gain_pos_p : c.gain_pos_p = p.pos_p
  gain_pos_i : c.gain_pos_i = p.pos_i
  gain_vel_p : c.gain_vel_p = p.vel_p_acc
  thr_xy_margin : c.lim_thr_xy_margin = p.thr_xy_marg
  dyn_ff_enabled : c.dyn_ff_enabled = p.dyn_ff_en
  hover_thrust : ∃ h, c.hover_thrust = num h ∧ 0.1 ≤ h

variable {p : Params ℝ}

theorem Tuned.setESOUpdateEnabled (h : Tuned p c) (b : Bool) :
    Tuned p (c.setESOUpdateEnabled b) := { h with }

theorem Tuned.setInputSetpoint (h : Tuned p c) (sp : LocalPositionSetpoint ℝ) :
    Tuned p (c.setInputSetpoint sp) := { h with }

theorem Tuned.setVelocityLimits (h : Tuned p c) (v up down : Flt ℝ) :
    Tuned p (c.setVelocityLimits v up down) := { h with }

theorem Tuned.control (h : Tuned p c) (dt : Flt ℝ) : Tuned p (c.control dcm dt) := by
  have hobs : Tuned p (c.observe dt) := { h with }
  have hpos : Tuned p ((c.observe dt).positionControl dt) := { hobs with }
  have hvel : Tuned p (((c.observe dt).positionControl dt).velocityControl dcm) := { hpos with }
  exact { hvel with }

theorem Tuned.update (h : Tuned p c) (dt : Flt ℝ) : Tuned p (c.update dcm dt).1 := by
  cases hv : c.inputValid with
  | false => rw [update_fst_of_invalid hv]; exact { h with }
  | true =>
    have hctl : Tuned p (c.control dcm dt) := h.control dt
    rw [update_fst_of_valid hv]
    exact { hctl with }

theorem le_setHoverThrust (c : ESOPositionControl ℝ) {x : Flt ℝ} (hx : x.isFinite = true) :
    ∃ h, (c.setHoverThrust x).hover_thrust = num h ∧ 0.1 ≤ h := by
  obtain ⟨y, rfl⟩ := isFinite_iff.mp hx
  refine ⟨_, math.constrain_num y 0.1 0.9, ?_⟩
  split_ifs with h1
  · exact le_rfl
  · norm_num
  · exact not_lt.mp h1

theorem Tuned.setHoverThrust (h : Tuned p c) {x : Flt ℝ} (hx : x.isFinite = true) :
    Tuned p (c.setHoverThrust x) :=
  { h with hover_thrust := le_setHoverThrust c hx }

theorem Tuned.updateHoverThrust (h : Tuned p c) (x : Flt ℝ) : Tuned p (c.updateHoverThrust x) := by
  rw [ESOPositionControl.updateHoverThrust]
  split_ifs with hx
  · cases x with
    | num x =>
      dsimp only
      refine Tuned.setHoverThrust ?_ (isFinite_num x)
      exact ⟨h.1, h.2, h.3, h.4, h.5, h.6⟩
    | nan => exact absurd hx (not_lt_nan _)
  · exact h

end ESOPositionControl

namespace ESOMulticopterPositionControl

open ESOPositionControl

variable {dcm : Quatf ℝ → Matrix3f ℝ} {m : ESOMulticopterPositionControl ℝ} {p : Params ℝ}

/-! ### The invariant of the module -/

/-- Parameters in their documented ranges, with a maximum thrust of at least
the smallest minimum thrust. -/
structure Ranges (p : Params ℝ) : Prop where
  pos_p : FiniteVec p.pos_p
  pos_i : FiniteVec p.pos_i
  vel_p_acc : ∃ k, p.vel_p_acc = numVec k ∧ 0 ≤ k 2
  xy_vel_max : ∃ v, p.xy_vel_max = num v ∧ 0 ≤ v
  z_vel_max_up : p.z_vel_max_up.isFinite = true
  thr_hover : p.thr_hover.isFinite = true
  thr_max : ∃ v, p.thr_max = num v ∧ 0.001 ≤ v
  thr_xy_marg : ∃ v, p.thr_xy_marg = num v ∧ 0 ≤ v
  tiltmax_air : ∃ t, p.tiltmax_air = num t ∧ 0 ≤ t ∧ t ≤ 89
  tiltmax_lnd : ∃ t, p.tiltmax_lnd = num t ∧ 0 ≤ t ∧ t ≤ 89

/-- A tilt limit between level and 89 degrees. -/
def TiltInRange (s : SlewRate ℝ) : Prop :=
  s.slew_rate = num 0.2 ∧ ∃ t, s.value = num t ∧ 0 ≤ t ∧ t ≤ 89 * (Real.pi / 180)

/-- The module runs with the parameters `p`. -/
structure Sane (p : Params ℝ) (m : ESOMulticopterPositionControl ℝ) : Prop where
  param : m.param = p
  control : Tuned p m.control
  vz_init : m.takeoff.takeoff_ramp_vz_init
    = -num (CONSTANTS_ONE_G ℝ) / math.max (p.vel_p_acc 2) 0.01
  tilt : TiltInRange m.tilt_limit_slew_rate

theorem tiltInRange_update {s : SlewRate ℝ} (h : TiltInRange s) {deg dt : ℝ} (h0 : 0 ≤ deg)
    (h1 : deg ≤ 89) (hdt : 0 ≤ dt) :
    TiltInRange (s.update (math.radians (num deg)) (num dt)) := by
  obtain ⟨hr, t, ht, ht0, ht1⟩ := h
  have hpi := Real.pi_pos
  refine ⟨hr, ?_⟩
  simp only [SlewRate.update, hr, ht, math.radians_num, num_sub, num_mul, neg_num]
  rw [math.constrain_num, num_add]
  have hx0 : 0 ≤ deg * (Real.pi / 180) := by positivity
  have hx1 : deg * (Real.pi / 180) ≤ 89 * (Real.pi / 180) :=
    mul_le_mul_of_nonneg_right h1 (by positivity)
  have hδ : 0 ≤ 0.2 * dt := by positivity
  refine ⟨_, rfl, ?_, ?_⟩ <;> split_ifs <;> linarith

theorem tilt_lt_of_inRange {s : SlewRate ℝ} (h : TiltInRange s) :
    ∃ t, s.value = num t ∧ 0 ≤ t ∧ t < Real.pi / 2 := by
  obtain ⟨-, t, ht, ht0, ht1⟩ := h
  exact ⟨t, ht, ht0, by linarith [Real.pi_pos]⟩

theorem loopTime_pos (now : UInt64) : ∃ dt, m.loopTime now = num dt ∧ 0 ≤ dt := by
  rw [loopTime, ofScientific_def, ofScientific_def, ofScientific_def, num_mul, math.constrain_num]
  refine ⟨_, rfl, ?_⟩
  split_ifs with h1
  · norm_num
  · norm_num
  · exact le_trans (by norm_num) (not_lt.mp h1)

theorem Sane.parametersUpdate (h : Sane p m) (com : Vector3f ℝ) :
    Sane p (m.parametersUpdate none com) :=
  ⟨h.param, { h.control with }, h.vz_init, h.tilt⟩

theorem Tuned.updateSubscriptions (h : Tuned p m.control) (i : Inputs ℝ) :
    Tuned p (m.updateSubscriptions i).control := by
  have hatt : Tuned p (i.attitude.elim m.control m.control.setAttitude) := by
    cases i.attitude with
    | some q => exact { h with }
    | none => exact h
  have hrate : Tuned p (i.angular_velocity.elim (i.attitude.elim m.control m.control.setAttitude)
      (i.attitude.elim m.control m.control.setAttitude).setBodyRate) := by
    cases i.angular_velocity with
    | some w => exact { hatt with }
    | none => exact hatt
  simp only [ESOMulticopterPositionControl.updateSubscriptions]
  cases i.hover_thrust_estimate with
  | some hte =>
    dsimp only [Option.elim]
    split_ifs
    · exact hrate.updateHoverThrust _
    · exact hrate
  | none => exact hrate

theorem Sane.beginCycle (h : Sane p m) (i : Inputs ℝ) (lp : LocalPosition ℝ) :
    Sane p (m.beginCycle i lp).1 :=
  ⟨h.param, Tuned.updateSubscriptions (m := { m with time_stamp_last_loop := _, in_failsafe := _ })
    h.control i, h.vz_init, h.tilt⟩

theorem Sane.compensateResets (h : Sane p m) (lp : LocalPosition ℝ) :
    Sane p (m.compensateResets lp) := by
  rw [compensateResets_eq]
  exact ⟨h.param, h.control, h.vz_init, h.tilt⟩

theorem Sane.handleTakeoff (h : Sane p m) (hp : Ranges p) (b : Bool) :
    Sane p (m.handleTakeoff b) := by
  have hhover : Tuned p ((m.control.setESOUpdateEnabled
      (!m.param.pos_esogate || m.flying)).setHoverThrust m.param.thr_hover) :=
    (h.control.setESOUpdateEnabled _).setHoverThrust (by rw [h.param]; exact hp.thr_hover)
  simp only [ESOMulticopterPositionControl.handleTakeoff]
  split_ifs
  · exact ⟨h.param, { hhover with }, h.vz_init, h.tilt⟩
  · exact ⟨h.param, hhover, h.vz_init, h.tilt⟩
  · exact ⟨h.param, { h.control with }, h.vz_init, h.tilt⟩
  · exact ⟨h.param, { h.control with }, h.vz_init, h.tilt⟩
  · exact ⟨h.param, { h.control with }, h.vz_init, h.tilt⟩

theorem Sane.setLimits (h : Sane p m) (hp : Ranges p) {dt : ℝ} (hdt : 0 ≤ dt) :
    Sane p (m.setLimits (num dt)) := by
  refine ⟨h.param, { h.control with }, ?_, ?_⟩
  · exact (ESOTakeoff.updateRamp_ramp_vz_init _ _).trans h.vz_init
  · simp only [ESOMulticopterPositionControl.setLimits, h.param]
    obtain ⟨a, ha, ha0, ha1⟩ := hp.tiltmax_air
    obtain ⟨l, hl, hl0, hl1⟩ := hp.tiltmax_lnd
    rw [ha, hl]
    split_ifs
    · exact tiltInRange_update h.tilt hl0 hl1 hdt
    · exact tiltInRange_update h.tilt ha0 ha1 hdt

theorem Sane.updateSetpoint (h : Sane p m) (hp : Ranges p) (i : Inputs ℝ) (lp : LocalPosition ℝ)
    (states : PositionControlStates ℝ) : Sane p (m.updateSetpoint i lp states) := by
  refine Sane.handleTakeoff ?_ hp _
  have hsp : Sane p { m with setpoint := i.trajectory_setpoint.getD m.setpoint } :=
    ⟨h.param, h.control, h.vz_init, h.tilt⟩
  have hres := hsp.compensateResets lp
  exact ⟨hres.param, hres.control,
    ESOTakeoff.updateTakeoffState_ramp_vz_init.trans hres.vz_init, hres.tilt⟩

theorem Sane.prepare (h : Sane p m) (hp : Ranges p) (i : Inputs ℝ) (lp : LocalPosition ℝ)
    (states : PositionControlStates ℝ) {dt : ℝ} (hdt : 0 ≤ dt) :
    Sane p (m.prepare i lp states (num dt)).1 := by
  have hlim := (h.updateSetpoint hp i lp states).setLimits hp hdt
  exact ⟨hlim.param, { hlim.control with }, hlim.vz_init, hlim.tilt⟩

theorem Sane.firstCall (h : Sane p m) (hp : Ranges p) {i : Inputs ℝ} (hi : i.parameters = none)
    (lp : LocalPosition ℝ) : Sane p (m.firstCall i lp).1 := by
  obtain ⟨dt, hdt, hdt0⟩ := loopTime_pos (m := m) lp.timestamp_sample
  simp only [ESOMulticopterPositionControl.firstCall, parametersUpdate_loopTime, hdt, hi]
  exact ((h.parametersUpdate i.system_com).beginCycle i lp).prepare hp i lp _ hdt0

theorem Sane.actuate (h : Sane p m) (states : PositionControlStates ℝ) (now : UInt64)
    (dt : Flt ℝ) : Sane p (m.actuate dcm states now dt) := by
  have hup : Tuned p (m.control.update dcm dt).1 := h.control.update dt
  cases hok : (m.control.update dcm dt).2 with
  | true =>
    simp only [ESOMulticopterPositionControl.actuate, hok, if_true]
    exact ⟨h.param, hup, h.vz_init, h.tilt⟩
  | false =>
    have hcontrol : Tuned p (m.actuate dcm states now dt).control := by
      rw [actuate_control_of_fails hok, retry_control]
      exact ((hup.setInputSetpoint _).setVelocityLimits _ _ _).update dt
    refine ⟨?_, hcontrol, ?_, ?_⟩ <;>
      simp only [ESOMulticopterPositionControl.actuate, hok, Bool.false_eq_true, if_false, retry,
        failsafe] <;>
      split_ifs
    exacts [h.param, h.param, h.vz_init, h.vz_init, h.tilt, h.tilt]

theorem Sane.run (h : Sane p m) (hp : Ranges p) {i : Inputs ℝ} (hi : i.parameters = none) :
    Sane p (m.run dcm i).1 := by
  have hpar := h.parametersUpdate i.system_com
  cases hlp : i.local_pos with
  | none =>
    simp only [ESOMulticopterPositionControl.run, hlp, hi]
    exact hpar
  | some lp =>
    cases hmode :
      (m.firstCall i lp).1.vehicle_control_mode.flag_multicopter_position_control_enabled with
    | true =>
      rw [run_of_position hlp hmode]
      have hact : Sane p ((m.firstCall i lp).1.actuate dcm (m.firstCall i lp).2
          lp.timestamp_sample (m.loopTime lp.timestamp_sample)) :=
        (h.firstCall hp hi lp).actuate _ _ _
      exact ⟨hact.param, hact.control, hact.vz_init, hact.tilt⟩
    | false =>
      have hbegin := hpar.beginCycle i lp
      rw [ESOMulticopterPositionControl.firstCall, prepare_vehicle_control_mode, hi] at hmode
      simp only [ESOMulticopterPositionControl.run, hlp, hi, hmode, Bool.false_eq_true, if_false]
      exact ⟨hbegin.param, hbegin.control,
        ESOTakeoff.updateTakeoffState_ramp_vz_init.trans hbegin.vz_init, hbegin.tilt⟩

/-! ### The limits below `rampup` -/

theorem max_zero (a : Flt ℝ) : ∃ v, math.max a 0 = num v ∧ 0 ≤ v := by
  cases a with
  | num x => exact ⟨_, math.max_num x 0, le_max_right x 0⟩
  | nan => exact ⟨0, math.max_nan_left 0, le_rfl⟩

theorem flying_of_lt (h : m.takeoff.takeoff_state < .rampup) : m.flying = false := by
  rw [flying, decide_eq_false_iff_not]
  intro hf
  have hlt : ESOTakeoffState.flight.toNat < ESOTakeoffState.rampup.toNat := lt_of_le_of_lt hf h
  exact nomatch hlt

theorem Sane.vz_init_nonpos (h : Sane p m) (hp : Ranges p) :
    ∃ v, m.takeoff.takeoff_ramp_vz_init = num v ∧ v ≤ 0 := by
  obtain ⟨k, hk, -⟩ := hp.vel_p_acc
  have hpos : (0 : ℝ) < max (k 2) 0.01 := lt_max_of_lt_right (by norm_num)
  rw [h.vz_init, hk, numVec_apply, ofScientific_def, math.max_num, neg_num, num_div_of_ne hpos.ne']
  exact ⟨_, rfl, div_nonpos_of_nonpos_of_nonneg (by linarith [CONSTANTS_ONE_G_pos]) hpos.le⟩

theorem idleLimits_setLimits (h : Sane p m) (hp : Ranges p) {dt : ℝ} (hdt : 0 ≤ dt)
    (hlow : m.takeoff.takeoff_state < .rampup) : IdleLimits (m.setLimits (num dt)).control := by
  have hlim := h.setLimits hp hdt
  obtain ⟨init, hinit, hinit0⟩ := h.vz_init_nonpos hp
  obtain ⟨up, hup⟩ := isFinite_iff.mp hp.z_vel_max_up
  refine ⟨?_, ?_, ?_, ?_, ?_, max_zero _, ?_, ?_, ?_, tilt_lt_of_inRange hlim.tilt, ?_⟩
  · rw [hlim.control.gain_pos_p]; exact hp.pos_p
  · rw [hlim.control.gain_pos_i]; exact hp.pos_i
  · rw [hlim.control.gain_vel_p]; exact hp.vel_p_acc
  · show ∃ v, m.param.xy_vel_max = num v ∧ 0 ≤ v
    rw [h.param]
    exact hp.xy_vel_max
  · show ∃ v, math.min (m.takeoff.updateRamp _ _).2 m.param.z_vel_max_up = num v ∧ v ≤ 0
    rw [ESOTakeoff.updateRamp_snd_of_lt hlow, h.param, hinit, hup, math.min_num]
    exact ⟨_, rfl, (min_le_left _ _).trans hinit0⟩
  · show math.max (if m.flying then m.param.thr_min else 0) 10e-4 = num 0.001
    rw [flying_of_lt hlow, if_neg Bool.false_ne_true, zero_def, ofScientific_def, math.max_num]
    norm_num
  · show ∃ v, m.param.thr_max = num v ∧ 0.001 ≤ v
    rw [h.param]
    exact hp.thr_max
  · rw [hlim.control.thr_xy_margin]; exact hp.thr_xy_marg
  · obtain ⟨hover, hhover, hle⟩ := hlim.control.hover_thrust
    exact ⟨hover, hhover, le_trans (by norm_num) hle⟩

/-! ### The stored setpoint -/

/-- Nothing is commanded but an acceleration. -/
structure HoldSetpoint (acc : Vector3f ℝ) (sp : LocalPositionSetpoint ℝ) : Prop where
  x : sp.x = nan
  y : sp.y = nan
  z : sp.z = nan
  vx : sp.vx = nan
  vy : sp.vy = nan
  vz : sp.vz = nan
  acceleration : sp.acceleration = acc

/-- The downward acceleration of `idleSetpoint`. -/
def IdleSetpoint (sp : LocalPositionSetpoint ℝ) : Prop := HoldSetpoint ![0, 0, num 100] sp

theorem idleSetpoint_idle (sp : LocalPositionSetpoint ℝ) : IdleSetpoint (idleSetpoint sp) :=
  ⟨rfl, rfl, rfl, rfl, rfl, rfl, rfl⟩

theorem HoldSetpoint.compensateResets {acc : Vector3f ℝ} (h : HoldSetpoint acc m.setpoint)
    (lp : LocalPosition ℝ) : HoldSetpoint acc (m.compensateResets lp).setpoint := by
  simp only [ESOMulticopterPositionControl.compensateResets]
  split_ifs <;> constructor <;>
    simp only [h.x, h.y, h.z, h.vx, h.vy, h.vz, h.acceleration, nan_add]

theorem handleTakeoff_takeoff (b : Bool) : (m.handleTakeoff b).takeoff = m.takeoff := by
  rw [handleTakeoff_eq]

theorem handleTakeoff_idle (hlow : m.takeoff.takeoff_state < .rampup) :
    IdleSetpoint (m.handleTakeoff true).setpoint := by
  have hnot : ∀ n : ESOMulticopterPositionControl ℝ, n.takeoff = m.takeoff →
      (n.notTakenOff || (m.flying && n.vehicle_land_detected.ground_contact)) = true := by
    intro n hn
    rw [notTakenOff, hn, decide_eq_true hlow, Bool.true_or]
  simp only [handleTakeoff, if_true]
  rw [if_pos]
  · exact idleSetpoint_idle _
  · refine hnot _ ?_
    split_ifs <;> rfl

theorem HoldSetpoint.updateSetpoint {acc : Vector3f ℝ} (h : HoldSetpoint acc m.setpoint)
    {i : Inputs ℝ} (hi : i.trajectory_setpoint = none) (lp : LocalPosition ℝ)
    (states : PositionControlStates ℝ) :
    HoldSetpoint acc (m.updateSetpoint i lp states).setpoint := by
  simp only [ESOMulticopterPositionControl.updateSetpoint, hi, handleTakeoff, Option.isSome_none,
    Bool.false_eq_true, if_false]
  exact h.compensateResets lp

/-- The stored setpoint is idle after step 18 if it was, or if a trajectory
setpoint arrived. -/
theorem updateSetpoint_idle {i : Inputs ℝ} {lp : LocalPosition ℝ}
    {states : PositionControlStates ℝ}
    (hlow : (m.updateSetpoint i lp states).takeoff.takeoff_state < .rampup)
    (h : i.trajectory_setpoint.isSome = true ∨ IdleSetpoint m.setpoint) :
    IdleSetpoint (m.updateSetpoint i lp states).setpoint := by
  cases htraj : i.trajectory_setpoint with
  | some sp =>
    rw [updateSetpoint, htraj, handleTakeoff_takeoff] at hlow
    rw [updateSetpoint, htraj]
    exact handleTakeoff_idle hlow
  | none =>
    rw [htraj] at h
    exact HoldSetpoint.updateSetpoint (h.resolve_left Bool.false_ne_true) htraj lp states

section Prepare

variable {i : Inputs ℝ} {lp : LocalPosition ℝ} {states : PositionControlStates ℝ} {dt : Flt ℝ}
  {acc : Vector3f ℝ}

theorem setState_prepare (h : HoldSetpoint acc (m.prepare i lp states dt).1.setpoint) :
    (m.prepare i lp states dt).1.control.pos = states.position ∧
    (m.prepare i lp states dt).1.control.vel = states.velocity ∧
    (m.prepare i lp states dt).1.control.vel_dot = states.acceleration := by
  have hblend : ((m.updateSetpoint i lp states).setLimits dt).blendVelocityZ lp states
      = states := by
    rw [blendVelocityZ, if_neg]
    rintro ⟨-, hvz, -⟩
    have hvz' : (m.prepare i lp states dt).1.setpoint.vz.isFinite = true := hvz
    rw [h.vz] at hvz'
    exact Bool.noConfusion hvz'
  simp only [prepare, hblend]
  exact ⟨rfl, rfl, rfl⟩

theorem holdInput_prepare {a : Fin 3 → ℝ}
    (h : HoldSetpoint acc (m.prepare i lp states dt).1.setpoint)
    (ha : (fun j => orElse (acc j) 0) = numVec a) :
    HoldInput a (m.prepare i lp states dt).1.control := by
  refine ⟨?_, ?_, ?_⟩
  · rw [(setState_prepare h).1]
    show ![orElse (m.prepare i lp states dt).1.setpoint.x _,
      orElse (m.prepare i lp states dt).1.setpoint.y _,
      orElse (m.prepare i lp states dt).1.setpoint.z _] = states.position
    rw [h.x, h.y, h.z]
    funext j
    fin_cases j <;> rfl
  · show ![orElse (m.prepare i lp states dt).1.setpoint.vx 0,
      orElse (m.prepare i lp states dt).1.setpoint.vy 0,
      orElse (m.prepare i lp states dt).1.setpoint.vz 0] = numVec 0
    rw [h.vx, h.vy, h.vz]
    funext j
    fin_cases j <;> rfl
  · show (fun j => orElse ((m.prepare i lp states dt).1.setpoint.acceleration j) 0) = _
    rw [h.acceleration]
    exact ha

theorem idleInput_prepare (h : IdleSetpoint (m.prepare i lp states dt).1.setpoint) :
    IdleInput (m.prepare i lp states dt).1.control := by
  refine holdInput_prepare h ?_
  funext j
  fin_cases j <;> rfl

end Prepare

/-! ### Whole runs -/

/-- The cycle is position-controlled and finds the take-off state below
`rampup`. -/
structure OnGround (m : ESOMulticopterPositionControl ℝ) (i : Inputs ℝ) (lp : LocalPosition ℝ) :
    Prop where
  local_pos : i.local_pos = some lp
  mode : (m.firstCall i lp).1.vehicle_control_mode.flag_multicopter_position_control_enabled = true
  state : (m.firstCall i lp).1.takeoff.takeoff_state < .rampup

/-- A cycle on the ground publishes the minimum thrust. -/
def IdlesOnGround (dcm : Quatf ℝ → Matrix3f ℝ) (m : ESOMulticopterPositionControl ℝ)
    (i : Inputs ℝ) : Prop :=
  ∀ lp, OnGround m i lp → ∃ pub, (m.run dcm i).2 = some pub ∧
    length pub.attitude_setpoint.thrust_body = (m.run dcm i).1.control.lim_thr_min

/-- The parameters stay, and the estimates and internal terms of a cycle on the
ground are bounded. -/
def BoundedOnGround (dcm : Quatf ℝ → Matrix3f ℝ) (m : ESOMulticopterPositionControl ℝ)
    (i : Inputs ℝ) : Prop :=
  i.parameters = none ∧ ∀ lp, OnGround m i lp →
    Bounded dcm (m.firstCall i lp).1.control (m.loopTime lp.timestamp_sample)

/-- A cycle on the ground has received a trajectory setpoint, or the idle
setpoint is stored. -/
def RefreshedOnGround (m : ESOMulticopterPositionControl ℝ) (i : Inputs ℝ) : Prop :=
  ∀ lp, OnGround m i lp → i.trajectory_setpoint.isSome = true ∨ IdleSetpoint m.setpoint

theorem prepare_takeoff_state (i : Inputs ℝ) (lp : LocalPosition ℝ)
    (states : PositionControlStates ℝ) (dt : Flt ℝ) :
    (m.prepare i lp states dt).1.takeoff.takeoff_state
      = (m.updateSetpoint i lp states).takeoff.takeoff_state :=
  ESOTakeoff.updateRamp_takeoff_state _ _

noncomputable def stored (m : ESOMulticopterPositionControl ℝ) (i : Inputs ℝ)
    (lp : LocalPosition ℝ) : ESOMulticopterPositionControl ℝ :=
  let cycle := (m.parametersUpdate i.parameters i.system_com).beginCycle i lp
  cycle.1.updateSetpoint i lp cycle.2

theorem Sane.stored (h : Sane p m) (hp : Ranges p) {i : Inputs ℝ} (hi : i.parameters = none)
    (lp : LocalPosition ℝ) : Sane p (m.stored i lp) := by
  have hbegin := (h.parametersUpdate i.system_com).beginCycle i lp
  rw [← hi] at hbegin
  exact hbegin.updateSetpoint hp i lp _

theorem beginCycle_setpoint (i : Inputs ℝ) (lp : LocalPosition ℝ) :
    ((m.parametersUpdate i.parameters i.system_com).beginCycle i lp).1.setpoint = m.setpoint := by
  cases i.parameters <;> rfl

theorem OnGround.stored {i : Inputs ℝ} {lp : LocalPosition ℝ} (h : OnGround m i lp) :
    (m.stored i lp).takeoff.takeoff_state < .rampup := by
  have hstate := h.state
  rwa [firstCall, prepare_takeoff_state] at hstate

theorem idleLimits_firstCall (h : Sane p m) (hp : Ranges p) {i : Inputs ℝ} {lp : LocalPosition ℝ}
    (hi : i.parameters = none) (hg : OnGround m i lp) :
    IdleLimits (m.firstCall i lp).1.control := by
  obtain ⟨dt, hdt, hdt0⟩ := loopTime_pos (m := m) lp.timestamp_sample
  have hlim := idleLimits_setLimits (h.stored hp hi lp) hp hdt0 hg.stored
  simp only [firstCall, prepare, parametersUpdate_loopTime, hdt]
  exact { hlim with }

theorem idleSetpoint_firstCall {i : Inputs ℝ} {lp : LocalPosition ℝ} (hg : OnGround m i lp)
    (hset : i.trajectory_setpoint.isSome = true ∨ IdleSetpoint m.setpoint) :
    IdleSetpoint (m.firstCall i lp).1.setpoint := by
  rw [← beginCycle_setpoint i lp] at hset
  exact updateSetpoint_idle hg.stored hset

theorem HoldSetpoint.firstCall {acc : Vector3f ℝ} (h : HoldSetpoint acc m.setpoint)
    {i : Inputs ℝ} (hi : i.trajectory_setpoint = none) (lp : LocalPosition ℝ) :
    HoldSetpoint acc (m.firstCall i lp).1.setpoint := by
  rw [← beginCycle_setpoint i lp] at h
  exact h.updateSetpoint hi lp _

theorem actuate_control_of_ok (states : PositionControlStates ℝ) (now : UInt64) {dt : Flt ℝ}
    (h : (m.control.update dcm dt).2 = true) :
    (m.actuate dcm states now dt).control = (m.control.update dcm dt).1 := by
  simp only [actuate, h, if_true]

theorem length_thrust_body (now : UInt64) {t : ℝ} (ht : 0 ≤ t)
    (h : length m.control.thr_sp = num t) :
    length (m.publish now).attitude_setpoint.thrust_body = num t := by
  have hbody : (m.publish now).attitude_setpoint.thrust_body = numVec ![0, 0, -t] := by
    show setZ _ (-length m.control.thr_sp) = _
    rw [h]
    funext j
    fin_cases j <;> rfl
  rw [hbody, length_numVec, len, Fin.sum_univ_three]
  show num (Real.sqrt (0 * 0 + 0 * 0 + -t * -t)) = num t
  rw [zero_mul, zero_add, zero_add, neg_mul_neg, Real.sqrt_mul_self ht]

theorem run_of_ok {i : Inputs ℝ} {lp : LocalPosition ℝ} (hg : OnGround m i lp)
    (hok : ((m.firstCall i lp).1.control.update dcm (m.loopTime lp.timestamp_sample)).2 = true)
    {t : ℝ} (ht : 0 ≤ t) (hthr : length ((m.firstCall i lp).1.control.update dcm
      (m.loopTime lp.timestamp_sample)).1.thr_sp = num t) :
    ∃ pub, (m.run dcm i).2 = some pub ∧ length pub.attitude_setpoint.thrust_body = num t ∧
      (m.run dcm i).1.control.lim_thr_min = (m.firstCall i lp).1.control.lim_thr_min := by
  rw [← actuate_control_of_ok (m.firstCall i lp).2 lp.timestamp_sample hok] at hthr
  rw [run_of_position hg.local_pos hg.mode]
  refine ⟨_, rfl, length_thrust_body i.hrt_now ht hthr, ?_⟩
  show (ESOMulticopterPositionControl.actuate _ _ _ _ _).control.lim_thr_min = _
  rw [actuate_control_of_ok _ _ hok, update_lim_thr_min]

theorem idlesOnGround_of_refreshed (h : Sane p m) (hp : Ranges p) {i : Inputs ℝ}
    (hb : BoundedOnGround dcm m i) (hset : RefreshedOnGround m i) : IdlesOnGround dcm m i := by
  intro lp hg
  have hin := idleInput_prepare (idleSetpoint_firstCall hg (hset lp hg))
  have hlim := idleLimits_firstCall h hp hb.1 hg
  obtain ⟨hok, hthr⟩ := update_idle hin hlim (hb.2 lp hg)
  obtain ⟨pub, hpub, hlen, hmin⟩ := run_of_ok hg hok (by norm_num) hthr
  exact ⟨pub, hpub, by rw [hlen, hmin, hlim.thr_min]⟩

theorem sane_init (hp : Ranges (adjustParams p)) (com : Vector3f ℝ) (now : UInt64) :
    Sane (adjustParams p) (init p com now) := by
  simp only [init, parametersUpdate, Bool.not_false, Bool.or_true, if_true]
  have hhover := le_setHoverThrust (ESOPositionControl.init ℝ) hp.thr_hover
  exact ⟨rfl, ⟨rfl, rfl, rfl, rfl, rfl, hhover⟩, rfl, rfl, 0, rfl, le_rfl, by positivity⟩

/-- In every run from a fresh module, with parameters in range and bounded
estimates, whose cycles on the ground are all refreshed, each of these cycles
publishes the minimum thrust. -/
theorem always_idle (hp : Ranges (adjustParams p)) (com : Vector3f ℝ) (now : UInt64)
    {is : List (Inputs ℝ)}
    (hb : Always (fun m i => (m.run dcm i).1) (BoundedOnGround dcm) (init p com now) is)
    (hset : Always (fun m i => (m.run dcm i).1) RefreshedOnGround (init p com now) is) :
    Always (fun m i => (m.run dcm i).1) (IdlesOnGround dcm) (init p com now) is := by
  refine always_of_invariant (I := Sane (adjustParams p))
    (C := fun m i => BoundedOnGround dcm m i ∧ RefreshedOnGround m i) ?_ (sane_init hp com now)
    (always_and.mpr ⟨hb, hset⟩)
  rintro m i hm ⟨hbi, hseti⟩
  exact ⟨idlesOnGround_of_refreshed hm hp hbi hseti, hm.run hp hbi.1⟩

/-! ### A concrete cycle on the ground -/

theorem adjustParams_tunedParams : adjustParams tunedParams = tunedParams := by
  have hres : ¬ (0 : Flt ℝ) ≤ num (-1) := by rw [zero_def, num_le_num]; norm_num
  have htilt : ¬ (MAX_SAFE_TILT_DEG : Flt ℝ) < num 45 := by
    rw [MAX_SAFE_TILT_DEG, num_lt_num]; norm_num
  have hlnd : ¬ (num 45 : Flt ℝ) < num 12 := by rw [num_lt_num]; norm_num
  have hhover : ¬ ((1 : Flt ℝ) < num 0.5 ∨ (num 0.5 : Flt ℝ) < num 0.12) := by
    rw [one_def, num_lt_num, num_lt_num]; norm_num
  have hland : math.min (num 0.7 : Flt ℝ) 1 = num 0.7 := by
    rw [one_def, math.min_num, min_eq_left (by norm_num)]
  simp only [adjustParams, tunedParams, hres, htilt, hlnd, hhover, hland, if_false]

theorem ranges_tunedParams : Ranges tunedParams where
  pos_p _ := rfl
  pos_i _ := rfl
  vel_p_acc := ⟨fun _ => 2, rfl, by norm_num⟩
  xy_vel_max := ⟨10, rfl, by norm_num⟩
  z_vel_max_up := rfl
  thr_hover := rfl
  thr_max := ⟨1, rfl, by norm_num⟩
  thr_xy_marg := ⟨0.3, rfl, by norm_num⟩
  tiltmax_air := ⟨45, rfl, by norm_num⟩
  tiltmax_lnd := ⟨12, rfl, by norm_num⟩

theorem ranges_adjusted : Ranges (adjustParams tunedParams) := by
  rw [adjustParams_tunedParams]
  exact ranges_tunedParams

theorem handleTakeoff_pos_int (h : m.control.pos_int = numVec 0) (b : Bool) :
    (m.handleTakeoff b).control.pos_int = numVec 0 := by
  simp only [handleTakeoff]
  split_ifs <;> first | exact h | rfl

theorem updateSubscriptions_pos_int (i : Inputs ℝ) :
    (m.updateSubscriptions i).control.pos_int = m.control.pos_int := by
  simp only [updateSubscriptions]
  cases i.attitude <;> cases i.angular_velocity <;> cases i.hover_thrust_estimate <;>
    simp only [Option.elim, updateHoverThrust, setHoverThrust] <;> (try split_ifs) <;> rfl

theorem compensateResets_control (lp : LocalPosition ℝ) :
    (m.compensateResets lp).control = m.control := by
  rw [compensateResets_eq]

theorem updateSetpoint_pos_int (h : m.control.pos_int = numVec 0) (i : Inputs ℝ)
    (lp : LocalPosition ℝ) (states : PositionControlStates ℝ) :
    (m.updateSetpoint i lp states).control.pos_int = numVec 0 := by
  refine handleTakeoff_pos_int ?_ _
  simp only [updateConstraints, compensateResets_control, h]

theorem firstCall_pos_int (h : m.control.pos_int = numVec 0) {i : Inputs ℝ}
    (hi : i.parameters = none) (lp : LocalPosition ℝ) :
    (m.firstCall i lp).1.control.pos_int = numVec 0 := by
  simp only [firstCall, prepare, setLimits, setState, setInputSetpoint, setVelocityLimits,
    setThrustLimits, setTiltLimit]
  refine updateSetpoint_pos_int ?_ i lp _
  simp only [beginCycle, setVehicleStates, updateSubscriptions_pos_int, hi]
  exact h

noncomputable def fresh : ESOMulticopterPositionControl ℝ := init tunedParams (fun _ => 0) 0

/-- On the ground, with an estimated velocity of 1 m/s downwards. -/
noncomputable def sinking : LocalPosition ℝ := { localPosition 0 0 true true 4000 with vz := 1 }

/-- The first cycle of an armed vehicle, with or without an empty trajectory
setpoint. -/
noncomputable def sinkingInputs (updated : Bool) : Inputs ℝ :=
  { positionInputs sinking with
    trajectory_setpoint := if updated then some (resetSetpointToNan zeroSetpoint) else none }

theorem sane_fresh : Sane tunedParams fresh := by
  have h := sane_init ranges_adjusted (fun _ => 0) 0
  rwa [adjustParams_tunedParams] at h

theorem fresh_pos_int : fresh.control.pos_int = numVec 0 := by
  simp only [fresh, init, parametersUpdate, Bool.not_false, Bool.or_true, if_true]
  rfl

theorem onGround_sinking (updated : Bool) : OnGround fresh (sinkingInputs updated) sinking := by
  refine ⟨rfl, ?_, ?_⟩
  · rw [firstCall, prepare_vehicle_control_mode]
    rfl
  · rw [firstCall, prepare_takeoff_state, fresh, init, updateSetpoint, handleTakeoff_takeoff]
    simp only [parametersUpdate, adjustParams_tunedParams]
    cases updated <;> decide

theorem handleTakeoff_eso_update_enabled (b : Bool) :
    (m.handleTakeoff b).control.eso_update_enabled
      = (!(m.handleTakeoff b).param.pos_esogate || (m.handleTakeoff b).flying) := by
  simp only [flying, handleTakeoff_takeoff]
  simp only [handleTakeoff]
  split_ifs <;> rfl

theorem firstCall_disturbance (h : Sane p m) (hp : Ranges p) (hgate : p.pos_esogate = true)
    {i : Inputs ℝ} {lp : LocalPosition ℝ} (hi : i.parameters = none) (hg : OnGround m i lp)
    (dt : Flt ℝ) : ((m.firstCall i lp).1.control.observe dt).eso_disturbance = numVec 0 := by
  have hstored : (m.stored i lp).control.eso_update_enabled
      = (!(m.stored i lp).param.pos_esogate || (m.stored i lp).flying) :=
    handleTakeoff_eso_update_enabled _
  rw [flying_of_lt hg.stored, (h.stored hp hi lp).param, hgate, stored] at hstored
  simp only [firstCall, prepare, setLimits, setState, setInputSetpoint, setVelocityLimits,
    setThrustLimits, setTiltLimit, observe, hstored, Bool.not_true, Bool.or_false,
    Bool.false_eq_true, if_false]
  rfl

theorem firstCall_centrifugal (dcm : Quatf ℝ → Matrix3f ℝ) (h : Sane p m) (hp : Ranges p)
    (hff : p.dyn_ff_en = false) {i : Inputs ℝ} (hi : i.parameters = none) (lp : LocalPosition ℝ) :
    (m.firstCall i lp).1.control.centrifugal dcm = numVec 0 := by
  rw [centrifugal, (h.firstCall hp hi lp).control.dyn_ff_enabled, hff]
  rfl

theorem setpoint_sinking (updated : Bool) :
    HoldSetpoint (if updated then ![0, 0, num 100] else fun _ => nan)
      (fresh.firstCall (sinkingInputs updated) sinking).1.setpoint := by
  cases updated with
  | true => exact idleSetpoint_firstCall (onGround_sinking true) (.inl rfl)
  | false =>
    have hfresh : HoldSetpoint (fun _ => nan) fresh.setpoint :=
      ⟨rfl, rfl, rfl, rfl, rfl, rfl, rfl⟩
    exact hfresh.firstCall rfl sinking

theorem estimates_sinking (updated : Bool) :
    (fresh.firstCall (sinkingInputs updated) sinking).1.control.pos = numVec 0 ∧
    (fresh.firstCall (sinkingInputs updated) sinking).1.control.vel = numVec ![0, 0, 1] ∧
    (fresh.firstCall (sinkingInputs updated) sinking).1.control.vel_dot = numVec 0 := by
  obtain ⟨hpos, hvel, hacc⟩ := setState_prepare (setpoint_sinking updated)
  refine ⟨hpos.trans ?_, hvel.trans ?_, hacc.trans ?_⟩ <;> funext j <;> fin_cases j <;> rfl

theorem bounded_sinking (dcm : Quatf ℝ → Matrix3f ℝ) (updated : Bool) :
    Bounded dcm (fresh.firstCall (sinkingInputs updated) sinking).1.control
      (fresh.loopTime 4000) := by
  obtain ⟨hpos, hvel, hacc⟩ := estimates_sinking updated
  have hsane := sane_fresh.firstCall ranges_tunedParams (i := sinkingInputs updated) rfl sinking
  have hd := firstCall_disturbance sane_fresh ranges_tunedParams rfl rfl
    (onGround_sinking updated) (fresh.loopTime 4000)
  have hf := firstCall_centrifugal dcm sane_fresh ranges_tunedParams rfl
    (i := sinkingInputs updated) rfl sinking
  refine ⟨?_, ?_, ?_, ?_, ⟨0, hd, by simp⟩, ⟨0, hf, by simp⟩, ?_⟩
  · rw [hpos]; exact finiteVec_numVec _
  · rw [hvel]; exact finiteVec_numVec _
  · rw [hacc]; exact finiteVec_numVec _
  · rw [firstCall_pos_int fresh_pos_int rfl]; exact finiteVec_numVec _
  · intro k v hk hv
    rw [hsane.control.gain_vel_p] at hk
    rw [hvel] at hv
    obtain rfl : 2 = k := WithNaN.num.inj hk
    obtain rfl : 1 = v := WithNaN.num.inj hv
    norm_num

theorem boundedOnGround_sinking (updated : Bool) :
    BoundedOnGround dcm fresh (sinkingInputs updated) := by
  refine ⟨rfl, fun lp hg => ?_⟩
  obtain rfl : sinking = lp := Option.some.inj hg.local_pos
  exact bounded_sinking _ updated

theorem always_idle_sinking :
    Always (fun m i => (m.run rotationMatrix i).1) (IdlesOnGround rotationMatrix)
      (init tunedParams (fun _ => 0) 0) [sinkingInputs true] ∧
    OnGround (init tunedParams (fun _ => 0) 0) (sinkingInputs true) sinking :=
  ⟨always_idle ranges_adjusted (fun _ => 0) 0 ⟨boundedOnGround_sinking true, trivial⟩
    ⟨fun _ _ => .inl rfl, trivial⟩, onGround_sinking true⟩

theorem firstCall_lim_vel_up (h : Sane p m) (hp : Ranges p) {i : Inputs ℝ} {lp : LocalPosition ℝ}
    (hi : i.parameters = none) (hg : OnGround m i lp) :
    (m.firstCall i lp).1.control.lim_vel_up
      = math.min (-num (CONSTANTS_ONE_G ℝ) / math.max (p.vel_p_acc 2) 0.01) p.z_vel_max_up := by
  have hset := h.stored hp hi lp
  have hlow := hg.stored
  rw [stored] at hset hlow
  simp only [firstCall, prepare, setLimits, setState, setInputSetpoint, setVelocityLimits]
  rw [ESOTakeoff.updateRamp_snd_of_lt hlow, hset.vz_init, hset.param]

theorem firstCall_lim_thr_max (h : Sane p m) (hp : Ranges p) {i : Inputs ℝ}
    (hi : i.parameters = none) (lp : LocalPosition ℝ) :
    (m.firstCall i lp).1.control.lim_thr_max = p.thr_max := by
  show (m.stored i lp).param.thr_max = p.thr_max
  rw [(h.stored hp hi lp).param]

theorem lim_vel_up_sinking :
    (fresh.firstCall (sinkingInputs false) sinking).1.control.lim_vel_up
      = num (-CONSTANTS_ONE_G ℝ / 2) := by
  rw [firstCall_lim_vel_up sane_fresh ranges_tunedParams rfl (onGround_sinking false)]
  show math.min (-num (CONSTANTS_ONE_G ℝ) / math.max (num 2) 0.01) (num 3) = _
  rw [ofScientific_def, math.max_num, neg_num, max_eq_left (by norm_num),
    num_div_of_ne (by norm_num), math.min_num, min_eq_left]
  linarith [CONSTANTS_ONE_G_pos]

theorem holdInput_sinking : HoldInput 0 (fresh.firstCall (sinkingInputs false) sinking).1.control :=
  holdInput_prepare (setpoint_sinking false) rfl

theorem acc_sp_sinking (dcm : Quatf ℝ → Matrix3f ℝ) :
    ∃ a : Fin 3 → ℝ, ((fresh.firstCall (sinkingInputs false) sinking).1.control.control dcm
      (fresh.loopTime 4000)).acc_sp = numVec a ∧ a 2 = CONSTANTS_ONE_G ℝ - 2 := by
  have hg := onGround_sinking false
  have hlim := idleLimits_firstCall sane_fresh ranges_tunedParams rfl hg
  have hsane := sane_fresh.firstCall ranges_tunedParams (i := sinkingInputs false) rfl sinking
  obtain ⟨x, w, k, v, d, f, hx, hclamp, hk, hv, hd, hf, hacc⟩ :=
    control_acc_sp_of_hold holdInput_sinking hlim (bounded_sinking dcm false)
  refine ⟨_, hacc, ?_⟩
  obtain ⟨down, hdown, hdown0⟩ := hlim.vel_down
  rw [velSpI, firstCall_pos_int fresh_pos_int rfl, hsane.control.gain_pos_i] at hx
  rw [hsane.control.gain_vel_p] at hk
  rw [(estimates_sinking false).2.1] at hv
  rw [firstCall_disturbance sane_fresh ranges_tunedParams rfl rfl hg] at hd
  rw [firstCall_centrifugal dcm sane_fresh ranges_tunedParams rfl rfl] at hf
  obtain rfl := numVec_injective hv
  obtain rfl := numVec_injective hd
  obtain rfl := numVec_injective hf
  have hx2 : (0 : ℝ) * 0 = x 2 := WithNaN.num.inj (congrFun hx 2)
  have hk2 : (2 : ℝ) = k 2 := WithNaN.num.inj (congrFun hk 2)
  have hw2 : w 2 = CONSTANTS_ONE_G ℝ / 2 := by
    rw [hclamp _ down lim_vel_up_sinking hdown, ← hx2, if_pos]
    · ring
    · linarith [CONSTANTS_ONE_G_pos]
  show 0 + (w 2 - 1) * k 2 - 0 - 0 = _
  rw [hw2, ← hk2]
  ring

theorem thr_sp_sinking (dcm : Quatf ℝ → Matrix3f ℝ) :
    ∃ t : Fin 3 → ℝ, ((fresh.firstCall (sinkingInputs false) sinking).1.control.control dcm
      (fresh.loopTime 4000)).thr_sp = numVec t ∧ t 2 ≤ -0.02 := by
  obtain ⟨a, hacc, ha⟩ := acc_sp_sinking dcm
  have hlim := idleLimits_firstCall sane_fresh ranges_tunedParams rfl (onGround_sinking false)
  have hsane := sane_fresh.firstCall ranges_tunedParams (i := sinkingInputs false) rfl sinking
  obtain ⟨h, hh, hle⟩ := hsane.control.hover_thrust
  have hmax := firstCall_lim_thr_max sane_fresh ranges_tunedParams (i := sinkingInputs false) rfl
    sinking
  obtain ⟨t, ht, ht2⟩ := thrustFor_z_le hlim a hh hmax hsane.control.thr_xy_margin (by norm_num)
    (by norm_num)
  refine ⟨t, by rw [control_thr_sp, hacc, ht], ht2.trans (max_le ?_ ?_)⟩
  · have hg := CONSTANTS_ONE_G_pos
    have hshare : a 2 * (h / CONSTANTS_ONE_G ℝ) - h = -(2 * h / CONSTANTS_ONE_G ℝ) := by
      rw [ha]
      field_simp
      ring
    rw [hshare, neg_le_neg_iff, le_div_iff₀ hg]
    norm_num [CONSTANTS_ONE_G] at hle ⊢
    linarith
  · rw [neg_le_neg_iff]
    exact Real.le_sqrt_of_sq_le (by norm_num)

/-- In the first cycle after start-up, armed and below `rampup`, no trajectory
setpoint has arrived: the sinking vehicle gets more than the minimum thrust. -/
theorem idle_thrust_exceeded :
    Ranges (adjustParams tunedParams) ∧
    Always (fun m i => (m.run rotationMatrix i).1) (BoundedOnGround rotationMatrix)
      (init tunedParams (fun _ => 0) 0) [sinkingInputs false] ∧
    ¬ Always (fun m i => (m.run rotationMatrix i).1) (IdlesOnGround rotationMatrix)
      (init tunedParams (fun _ => 0) 0) [sinkingInputs false] := by
  refine ⟨ranges_adjusted, ⟨boundedOnGround_sinking false, trivial⟩, ?_⟩
  rintro ⟨h, -⟩
  have hg := onGround_sinking false
  have hlim := idleLimits_firstCall sane_fresh ranges_tunedParams rfl hg
  obtain ⟨a, hacc, -⟩ := acc_sp_sinking rotationMatrix
  obtain ⟨t, ht, ht2⟩ := thr_sp_sinking rotationMatrix
  have hv := inputValid_of_hold holdInput_sinking (bounded_sinking rotationMatrix false)
  obtain ⟨hok, hthr⟩ := update_of_numVec hv hacc ht
  obtain ⟨pub, hpub, hlen, hmin⟩ := run_of_ok hg hok (len_nonneg t) hthr
  obtain ⟨pub', hpub', hlen'⟩ := h sinking hg
  obtain rfl : pub' = pub := Option.some.inj (hpub'.symm.trans hpub)
  have hnorm : len t = 0.001 :=
    WithNaN.num.inj (hlen.symm.trans (hlen'.trans (hmin.trans hlim.thr_min)))
  have hsum := len_mul_self t
  rw [hnorm, Fin.sum_univ_three] at hsum
  nlinarith [mul_self_nonneg (t 0), mul_self_nonneg (t 1)]

end ESOMulticopterPositionControl
