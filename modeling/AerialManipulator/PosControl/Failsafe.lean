/-
The failsafe path of a position-controlled cycle.

When the first `update` call of a cycle fails, the controller is called once
more with another setpoint (`secondCall`).  Two things about that setpoint:

* once the land hysteresis is true it commands no position, and `constrainXY`
  turns the missing position into `nan`, so the second call is always refused
  (`second_update_refused`);
* before that it is a value-initialised message, which commands the origin with
  heading zero (`always_commandsRequested_iff`).
-/
import AerialManipulator.PosControl.MulticopterPositionControl
import AerialManipulator.PosControl.UpdateSpec

open WithNaN ControlMath Trace

namespace ESOPositionControl

variable {dcm : Quatf ℝ → Matrix3f ℝ} {c : ESOPositionControl ℝ}

/-! ### A stop setpoint without a position -/

theorem constrainXY_zero_nan (m : Flt ℝ) (i : Fin 2) :
    constrainXY (numVec 0) (fun _ => nan) m i = nan := by
  cases m with
  | num m => exact (constrainXY_of_nan (a := 0) fun _ => rfl).2 (fun h => h.1 rfl) i
  | nan =>
    have hsum : length (numVec 0 + fun _ => nan : Vector2f ℝ) = nan :=
      length_eq_nan 0 (by rw [Pi.add_apply, add_nan])
    have hdiff : length ((fun _ => nan) - numVec 0 : Vector2f ℝ) = nan :=
      length_eq_nan 0 (by rw [Pi.sub_apply, nan_sub])
    have hu : normalized (fun _ => nan : Vector2f ℝ) i = nan := normalized_eq_nan 0 rfl i
    simp only [constrainXY, hsum, hdiff, not_nan_le, not_nan_lt, fabsf_nan, if_false]
    split_ifs
    · rw [scale, hu, nan_mul]
    · rw [Pi.add_apply, scale, hu, nan_mul, add_nan]

theorem update_refused_of_stop (h0 : c.pos_sp 0 = nan) (h1 : c.pos_sp 1 = nan)
    (hv : xy (setZeroIfNanVector3f c.vel_sp) = numVec 0) (dt : Flt ℝ) :
    (c.update dcm dt).2 = false := by
  have hlim : c.velSpLimited 0 = nan := by
    rw [← xy_zero c.velSpLimited, xy_velSpLimited_of_no_position h0 h1, hv]
    exact constrainXY_zero_nan _ 0
  refine update_refused_of_acc_sp ?_
  show ((c.observe dt).positionControl dt).accCmd dcm 0 = nan
  have hsp : ((c.observe dt).positionControl dt).vel_sp 0 = nan := hlim
  simp only [accCmd, Pi.sub_apply, Pi.add_apply, emult, hsp, nan_sub, nan_mul, add_nan]

end ESOPositionControl

namespace ESOMulticopterPositionControl

variable {dcm : Quatf ℝ → Matrix3f ℝ} {m : ESOMulticopterPositionControl ℝ}

/-! ### The two `update` calls of a cycle -/

/-- The module at the first `update` call of a cycle, with the vehicle states. -/
noncomputable def firstCall (m : ESOMulticopterPositionControl ℝ) (i : Inputs ℝ)
    (local_pos : LocalPosition ℝ) :
    ESOMulticopterPositionControl ℝ × PositionControlStates ℝ :=
  let m := m.parametersUpdate i.parameters i.system_com
  let cycle := m.beginCycle i local_pos
  cycle.1.prepare i local_pos cycle.2 (m.loopTime local_pos.timestamp_sample)

/-- The module at the second `update` call of a cycle, with the setpoint handed
to it. -/
noncomputable def secondCall (dcm : Quatf ℝ → Matrix3f ℝ) (m : ESOMulticopterPositionControl ℝ)
    (i : Inputs ℝ) (local_pos : LocalPosition ℝ) :
    ESOMulticopterPositionControl ℝ × LocalPositionSetpoint ℝ :=
  let first := m.firstCall i local_pos
  let control := (first.1.control.update dcm (m.loopTime local_pos.timestamp_sample)).1
  { first.1 with control := control }.retry first.2 local_pos.timestamp_sample

/-- The cycle is position-controlled and its first `update` call fails. -/
def FirstFails (dcm : Quatf ℝ → Matrix3f ℝ) (m : ESOMulticopterPositionControl ℝ) (i : Inputs ℝ)
    (local_pos : LocalPosition ℝ) : Prop :=
  i.local_pos = some local_pos ∧
  (m.firstCall i local_pos).1.vehicle_control_mode.flag_multicopter_position_control_enabled
    = true ∧
  ((m.firstCall i local_pos).1.control.update dcm (m.loopTime local_pos.timestamp_sample)).2 = false

@[simp] theorem parametersUpdate_loopTime (p : Option (Params ℝ)) (com : Vector3f ℝ)
    (now : UInt64) : (m.parametersUpdate p com).loopTime now = m.loopTime now := by
  cases p <;> rfl

theorem compensateResets_eq (lp : LocalPosition ℝ) :
    m.compensateResets lp = { m with setpoint := (m.compensateResets lp).setpoint } := by
  unfold compensateResets
  split <;> rfl

theorem handleTakeoff_eq (b : Bool) :
    m.handleTakeoff b = { m with
      setpoint := (m.handleTakeoff b).setpoint
      control := (m.handleTakeoff b).control } := by
  simp only [handleTakeoff]
  split_ifs <;> rfl

theorem compensateResets_vehicle_control_mode (lp : LocalPosition ℝ) :
    (m.compensateResets lp).vehicle_control_mode = m.vehicle_control_mode := by
  rw [compensateResets_eq]

theorem handleTakeoff_vehicle_control_mode (b : Bool) :
    (m.handleTakeoff b).vehicle_control_mode = m.vehicle_control_mode := by
  rw [handleTakeoff_eq]

theorem prepare_vehicle_control_mode (i : Inputs ℝ) (lp : LocalPosition ℝ)
    (states : PositionControlStates ℝ) (dt : Flt ℝ) :
    (m.prepare i lp states dt).1.vehicle_control_mode = m.vehicle_control_mode := by
  simp only [prepare, setLimits, updateSetpoint, handleTakeoff_vehicle_control_mode,
    updateConstraints, compensateResets_vehicle_control_mode]

theorem actuate_control_of_fails {states : PositionControlStates ℝ} {now : UInt64} {dt : Flt ℝ}
    (h : (m.control.update dcm dt).2 = false) :
    (m.actuate dcm states now dt).control
      = (({ m with control := (m.control.update dcm dt).1 }.retry states now).1.control.update
        dcm dt).1 := by
  simp only [actuate, h, Bool.false_eq_true, if_false]

theorem run_of_position {i : Inputs ℝ} {lp : LocalPosition ℝ} (hlp : i.local_pos = some lp)
    (hmode : (m.firstCall i lp).1.vehicle_control_mode.flag_multicopter_position_control_enabled
      = true) :
    let m' := (m.firstCall i lp).1.actuate dcm (m.firstCall i lp).2 lp.timestamp_sample
      (m.loopTime lp.timestamp_sample)
    m.run dcm i = (m'.saveCounters lp, some (m'.publish i.hrt_now)) := by
  rw [firstCall, prepare_vehicle_control_mode] at hmode
  simp only [run, hlp, hmode, if_true, firstCall, parametersUpdate_loopTime]

theorem run_of_firstFails {i : Inputs ℝ} {local_pos : LocalPosition ℝ}
    (h : FirstFails dcm m i local_pos) :
    ∃ m' : ESOMulticopterPositionControl ℝ, m'.control
        = ((m.secondCall dcm i local_pos).1.control.update dcm
          (m.loopTime local_pos.timestamp_sample)).1 ∧
      (m.run dcm i).2 = some (m'.publish i.hrt_now) := by
  obtain ⟨hlp, hmode, hfail⟩ := h
  refine ⟨_, actuate_control_of_fails hfail, ?_⟩
  rw [run_of_position hlp hmode]

/-! ### After the delay -/

theorem failsafeSetpoint_position (v : Flt ℝ) (sp : LocalPositionSetpoint ℝ)
    (states : PositionControlStates ℝ) :
    (failsafeSetpoint v sp states).x = nan ∧ (failsafeSetpoint v sp states).y = nan := by
  simp only [failsafeSetpoint, resetSetpointToNan]
  split_ifs <;> exact ⟨rfl, rfl⟩

theorem failsafeSetpoint_velocity (v : Flt ℝ) (sp : LocalPositionSetpoint ℝ)
    (states : PositionControlStates ℝ) :
    ((failsafeSetpoint v sp states).vx = 0 ∧ (failsafeSetpoint v sp states).vy = 0) ∨
      ((failsafeSetpoint v sp states).vx = nan ∧ (failsafeSetpoint v sp states).vy = nan) := by
  simp only [failsafeSetpoint, resetSetpointToNan]
  split_ifs
  all_goals first | exact .inl ⟨rfl, rfl⟩ | exact .inr ⟨rfl, rfl⟩

theorem retry_of_hysteresis {states : PositionControlStates ℝ} {now : UInt64}
    (h : (m.failsafe_land_hysteresis.setStateAndUpdate true now).state = true) :
    (m.retry states now).2 = failsafeSetpoint m.param.land_speed zeroSetpoint states := by
  simp only [retry, failsafe, h, if_true]

theorem retry_control (states : PositionControlStates ℝ) (now : UInt64) :
    (m.retry states now).1.control
      = (m.control.setInputSetpoint (m.retry states now).2).setVelocityLimits m.param.xy_vel_max
        m.param.z_vel_max_up m.param.z_vel_max_dn := by
  simp only [retry, failsafe]
  split_ifs <;> rfl

theorem retry_refused {states : PositionControlStates ℝ} {now : UInt64}
    (h : (m.failsafe_land_hysteresis.setStateAndUpdate true now).state = true) (dt : Flt ℝ) :
    ((m.retry states now).1.control.update dcm dt).2 = false := by
  rw [retry_control, retry_of_hysteresis h]
  obtain ⟨hx, hy⟩ := failsafeSetpoint_position m.param.land_speed zeroSetpoint states
  refine ESOPositionControl.update_refused_of_stop hx hy ?_ dt
  funext i
  rcases failsafeSetpoint_velocity m.param.land_speed zeroSetpoint states with ⟨h0, h1⟩ | ⟨h0, h1⟩
  · fin_cases i
    · exact setZeroIfNan_num _ 0 0 h0
    · exact setZeroIfNan_num _ 1 0 h1
  · fin_cases i
    · exact setZeroIfNan_nan _ 0 h0
    · exact setZeroIfNan_nan _ 1 h1

theorem compensateResets_failsafe_land_hysteresis (lp : LocalPosition ℝ) :
    (m.compensateResets lp).failsafe_land_hysteresis = m.failsafe_land_hysteresis := by
  rw [compensateResets_eq]

theorem handleTakeoff_failsafe_land_hysteresis (b : Bool) :
    (m.handleTakeoff b).failsafe_land_hysteresis = m.failsafe_land_hysteresis := by
  rw [handleTakeoff_eq]

@[simp] theorem parametersUpdate_failsafe_land_hysteresis (p : Option (Params ℝ))
    (com : Vector3f ℝ) :
    (m.parametersUpdate p com).failsafe_land_hysteresis = m.failsafe_land_hysteresis := by
  cases p <;> rfl

theorem firstCall_failsafe_land_hysteresis (i : Inputs ℝ) (lp : LocalPosition ℝ) :
    (m.firstCall i lp).1.failsafe_land_hysteresis = m.failsafe_land_hysteresis := by
  simp only [firstCall, prepare, setLimits, updateSetpoint, handleTakeoff_failsafe_land_hysteresis,
    updateConstraints, compensateResets_failsafe_land_hysteresis, beginCycle, setVehicleStates,
    updateSubscriptions, parametersUpdate_failsafe_land_hysteresis]

theorem secondCall_refused {i : Inputs ℝ} {local_pos : LocalPosition ℝ} {dt : Flt ℝ}
    (hh : m.failsafe_land_hysteresis.state = true) :
    ((m.secondCall dcm i local_pos).1.control.update dcm dt).2 = false := by
  refine retry_refused ?_ _
  rw [← firstCall_failsafe_land_hysteresis (m := m) i local_pos] at hh
  exact Hysteresis.setStateAndUpdate_of_state hh

/-! ### A cycle that has lost its velocity -/

theorem firstCall_vel (i : Inputs ℝ) {lp : LocalPosition ℝ} (h : lp.v_xy_valid = false) :
    (m.firstCall i lp).1.control.vel 0 = nan := by
  simp only [firstCall, prepare, ESOPositionControl.setState, blendVelocityZ, beginCycle,
    setVehicleStates, h, Bool.and_false]
  split_ifs <;> rfl

theorem firstCall_vel_sp (i : Inputs ℝ) (lp : LocalPosition ℝ) :
    ((m.firstCall i lp).1.control.vel_sp 0).isFinite = true := by
  simp only [firstCall, prepare, ESOPositionControl.setState, ESOPositionControl.setInputSetpoint,
    sanitize, orElse]
  show (if _ then _ else (0 : Flt ℝ)).isFinite = true
  split_ifs with hf
  · exact hf
  · rfl

/-- The sanitised setpoint always commands a velocity, so the first call needs
the velocity estimate. -/
theorem first_update_refused (i : Inputs ℝ) {lp : LocalPosition ℝ} (h : lp.v_xy_valid = false)
    (dt : Flt ℝ) : ((m.firstCall i lp).1.control.update dcm dt).2 = false := by
  refine ESOPositionControl.update_refused_of_invalid fun ha => ?_
  have hv := (ha.vel_known 0 (firstCall_vel_sp i lp)).1
  rw [firstCall_vel i h] at hv
  exact nomatch hv

/-- Once the land hysteresis is true, every cycle whose first `update` call
fails has a second call that fails too, and publishes what that leaves. -/
theorem second_update_refused {i : Inputs ℝ} {local_pos : LocalPosition ℝ}
    (h : FirstFails dcm m i local_pos) (hh : m.failsafe_land_hysteresis.state = true) :
    ((m.secondCall dcm i local_pos).1.control.update dcm
        (m.loopTime local_pos.timestamp_sample)).2 = false ∧
      ∃ m' : ESOMulticopterPositionControl ℝ, m'.control
          = ((m.secondCall dcm i local_pos).1.control.update dcm
            (m.loopTime local_pos.timestamp_sample)).1 ∧
        (m.run dcm i).2 = some (m'.publish i.hrt_now) :=
  ⟨secondCall_refused hh, run_of_firstFails h⟩

/-! ### Concrete cycles -/

noncomputable def tunedParams : Params ℝ where
  pos_p := fun _ => 1
  pos_i := fun _ => 0
  vel_p_acc := fun _ => num 2
  bw := fun _ => 1
  pos_esogate := true
  dyn_ff_en := false
  pos_int_lim := 1
  xy_vel_max := num 10
  z_vel_max_up := num 3
  z_vel_max_dn := 1
  tiltmax_air := num 45
  tiltmax_lnd := num 12
  thr_hover := num 0.5
  thr_min := num 0.12
  thr_max := 1
  thr_xy_marg := num 0.3
  use_hte := false
  spoolup_time_us := 1000000
  tko_ramp_t := num 3
  land_speed := num 0.7
  sys_vehicle_resp := num (-1)
  xy_vel_all := num (-1)
  z_vel_all := num (-1)
  veld_lp := num 5

/-- The vehicle is at `pos` with heading `heading`; the velocity is known to be
zero, or not known at all. -/
noncomputable def localPosition (pos : Fin 3 → ℝ) (heading : ℝ) (pos_known vel_known : Bool)
    (now : UInt64) : LocalPosition ℝ where
  timestamp := now
  timestamp_sample := now
  xy_valid := pos_known
  z_valid := pos_known
  v_xy_valid := vel_known
  v_z_valid := vel_known
  x := num (pos 0)
  y := num (pos 1)
  z := num (pos 2)
  delta_xy := fun _ => 0
  xy_reset_counter := 0
  delta_z := 0
  z_reset_counter := 0
  vx := 0
  vy := 0
  vz := 0
  z_deriv := 0
  delta_vxy := fun _ => 0
  vxy_reset_counter := 0
  delta_vz := 0
  vz_reset_counter := 0
  heading := num heading
  delta_heading := 0
  heading_reset_counter := 0

/-- An armed vehicle in a position control mode with nothing but a local
position. -/
noncomputable def positionInputs (lp : LocalPosition ℝ) : Inputs ℝ where
  hrt_now := lp.timestamp
  parameters := none
  system_com := fun _ => 0
  local_pos := some lp
  vehicle_control_mode := some ⟨true, false, true⟩
  vehicle_land_detected := none
  attitude := none
  angular_velocity := none
  hover_thrust_estimate := none
  trajectory_setpoint := none
  vehicle_constraints := none

theorem firstFails_of_lost_velocity (lp : LocalPosition ℝ) (h : lp.v_xy_valid = false) :
    FirstFails dcm m (positionInputs lp) lp := by
  refine ⟨rfl, ?_, first_update_refused _ h _⟩
  rw [firstCall, prepare_vehicle_control_mode]
  rfl

noncomputable def failing : ESOMulticopterPositionControl ℝ :=
  { init tunedParams (fun _ => 0) 0 with
    failsafe_land_hysteresis := ⟨0, 0, LOITER_TIME_BEFORE_DESCEND, true, true⟩ }

theorem second_update_refused_blind :
    ((failing.secondCall ESOPositionControl.rotationMatrix
        (positionInputs (localPosition 0 1 false false 4000))
        (localPosition 0 1 false false 4000)).1.control.update ESOPositionControl.rotationMatrix
      (failing.loopTime 4000)).2 = false :=
  (second_update_refused (firstFails_of_lost_velocity _ rfl) rfl).1

/-- The blind landing of a vehicle with a known position and heading and an
unknown velocity is refused. -/
theorem blind_land_refused :
    let lp := localPosition ![5, 0, 0] 1 true false 4000
    FirstFails ESOPositionControl.rotationMatrix failing (positionInputs lp) lp ∧
      failing.failsafe_land_hysteresis.state = true ∧ failing.control.Loop ∧ failing.control.Body ∧
      ((failing.secondCall ESOPositionControl.rotationMatrix
        (positionInputs lp) lp).1.control.update ESOPositionControl.rotationMatrix
          (failing.loopTime 4000)).2 ≠ true := by
  intro lp
  refine ⟨firstFails_of_lost_velocity lp rfl, rfl, ?_, ?_, ?_⟩
  · simp only [failing, init, parametersUpdate]
    split_ifs <;> exact ⟨fun _ => rfl, fun _ => rfl, fun _ => rfl, fun _ => rfl, fun _ => rfl⟩
  · simp only [failing, init, parametersUpdate]
    split_ifs <;> exact ⟨fun _ => rfl, fun _ => rfl, fun i => by fin_cases i <;> rfl⟩
  · rw [secondCall_refused rfl]
    exact Bool.noConfusion

/-! ### During the delay -/

/-- Every position or heading the setpoint commands is the current one. -/
def Requested (sp : LocalPositionSetpoint ℝ) (states : PositionControlStates ℝ) : Prop :=
  (sp.x = nan ∨ sp.x = states.position 0) ∧ (sp.y = nan ∨ sp.y = states.position 1) ∧
  (sp.z = nan ∨ sp.z = states.position 2) ∧ (sp.yaw = nan ∨ sp.yaw = states.yaw)

/-- In a cycle whose first `update` call fails, the setpoint of the second call
is the failsafe setpoint after the delay, or commands nothing new. -/
def CommandsRequested (dcm : Quatf ℝ → Matrix3f ℝ) (m : ESOMulticopterPositionControl ℝ)
    (i : Inputs ℝ) : Prop :=
  ∀ lp, FirstFails dcm m i lp →
    ((m.failsafe_land_hysteresis.setStateAndUpdate true lp.timestamp_sample).state = true ∧
      (m.secondCall dcm i lp).2
        = failsafeSetpoint (m.firstCall i lp).1.param.land_speed zeroSetpoint
          (m.firstCall i lp).2) ∨
    Requested (m.secondCall dcm i lp).2 (m.firstCall i lp).2

/-- The delay is over, or the vehicle is in the origin with heading zero. -/
def DelayedOrAtOrigin (dcm : Quatf ℝ → Matrix3f ℝ) (m : ESOMulticopterPositionControl ℝ)
    (i : Inputs ℝ) : Prop :=
  ∀ lp, FirstFails dcm m i lp →
    (m.failsafe_land_hysteresis.setStateAndUpdate true lp.timestamp_sample).state = true ∨
    ((m.firstCall i lp).2.position = ![0, 0, 0] ∧ (m.firstCall i lp).2.yaw = 0)

theorem retry_setpoint_of_delay {states : PositionControlStates ℝ} {now : UInt64}
    (h : (m.failsafe_land_hysteresis.setStateAndUpdate true now).state = false) :
    (m.retry states now).2 = zeroSetpoint := by
  simp only [retry, failsafe, h, Bool.false_eq_true, if_false]

theorem requested_zeroSetpoint_iff (states : PositionControlStates ℝ) :
    Requested zeroSetpoint states ↔ states.position = ![0, 0, 0] ∧ states.yaw = 0 := by
  have hz : ∀ a : Flt ℝ, ((0 : Flt ℝ) = nan ∨ 0 = a) ↔ a = 0 := by
    intro a
    rw [zero_def, eq_comm (b := a)]
    exact or_iff_right nofun
  simp only [Requested, zeroSetpoint, hz]
  constructor
  · rintro ⟨h0, h1, h2, hy⟩
    refine ⟨?_, hy⟩
    funext i
    fin_cases i
    exacts [h0, h1, h2]
  · rintro ⟨hp, hy⟩
    rw [hp]
    exact ⟨rfl, rfl, rfl, hy⟩

theorem commandsRequested_iff (i : Inputs ℝ) :
    CommandsRequested dcm m i ↔ DelayedOrAtOrigin dcm m i := by
  refine forall_congr' fun lp => imp_congr_right fun _ => ?_
  have hframe := firstCall_failsafe_land_hysteresis (m := m) i lp
  cases hh : (m.failsafe_land_hysteresis.setStateAndUpdate true lp.timestamp_sample).state with
  | true =>
    rw [← hframe] at hh
    exact iff_of_true (.inl ⟨rfl, retry_of_hysteresis hh⟩) (.inl rfl)
  | false =>
    rw [← hframe] at hh
    have hsp : (m.secondCall dcm i lp).2 = zeroSetpoint := retry_setpoint_of_delay hh
    rw [hsp, requested_zeroSetpoint_iff]
    simp

/-- The setpoints of a run's failed cycles command nothing new if and only if
each of these cycles comes after the delay or finds the vehicle in the origin. -/
theorem always_commandsRequested_iff (is : List (Inputs ℝ)) :
    Always (fun m i => (m.run dcm i).1) (CommandsRequested dcm) m is ↔
      Always (fun m i => (m.run dcm i).1) (DelayedOrAtOrigin dcm) m is :=
  always_iff_of_invariant (I := fun _ => True) (fun _ i _ => commandsRequested_iff i)
    (fun _ _ _ _ => trivial) trivial

theorem firstCall_position (i : Inputs ℝ) (lp : LocalPosition ℝ) :
    (m.firstCall i lp).2.position 0
      = if lp.x.isFinite && lp.y.isFinite && lp.xy_valid then lp.x else nan := by
  simp only [firstCall, prepare, beginCycle, setVehicleStates, blendVelocityZ]
  split_ifs <;> rfl

/-- Five metres from the origin, heading 1 rad, the velocity estimate is lost:
the second `update` call gets the origin with heading zero. -/
theorem origin_commanded :
    ¬ Always (fun m i => (m.run ESOPositionControl.rotationMatrix i).1)
      (CommandsRequested ESOPositionControl.rotationMatrix) (init tunedParams (fun _ => 0) 0)
      [positionInputs (localPosition ![5, 0, 0] 1 true false 4000)] := by
  rintro ⟨h, -⟩
  rw [commandsRequested_iff] at h
  rcases h _ (firstFails_of_lost_velocity _ rfl) with hh | ⟨hpos, -⟩
  · exact nomatch hh
  · have h0 := firstCall_position (m := init tunedParams (fun _ => 0) 0)
      (positionInputs (localPosition ![5, 0, 0] 1 true false 4000))
      (localPosition ![5, 0, 0] 1 true false 4000)
    rw [hpos] at h0
    exact absurd (WithNaN.num.inj h0) (by norm_num)

end ESOMulticopterPositionControl
