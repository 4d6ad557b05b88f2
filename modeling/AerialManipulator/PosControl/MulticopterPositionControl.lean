/-
`ESOMulticopterPositionControl`: the module around the controller.

One `Run` call is `run`: parameters, subscriptions, vehicle states, and, when a
multicopter position control mode is active, the setpoint handling (`prepare`),
the controller call with its failsafe retry (`actuate`) and the publications.

* A subscription is an `Option` of `Inputs`: the message that its `update`
  delivers in this call.
* The system centre of mass that `update_dynamic_parameters` hands to the
  controller is an input, whatever the arm model computed.
* Log texts, performance counters and the take-off status publication are left
  out, and so are the parameters that only other modules read.
-/
import AerialManipulator.PosControl.PositionControl
import AerialManipulator.PosControl.Takeoff

open WithNaN ControlMath

/-! ### Filters -/

/-- `control::BlockDerivative` with its low pass. -/
structure BlockDerivative (K : Type*) where
  u : Flt K
  initialized : Bool
  lowPass : Flt K

namespace BlockDerivative

variable {K : Type*} [Field K] [LinearOrder K] [Elementary K]

def init (K : Type*) [Zero K] : BlockDerivative K := ⟨0, false, nan⟩

def reset (d : BlockDerivative K) : BlockDerivative K := { d with initialized := false }

/-- `BlockLowPass::update` from the filter state `state`. -/
def lowPassUpdate (fCut dt state input : Flt K) : Flt K :=
  let state := if state.isFinite then state else input
  let b := num (2 * Elementary.pi) * fCut * dt
  let a := b / (1 + b)
  a * input + (1 - a) * state

def update (d : BlockDerivative K) (fCut dt input : Flt K) : BlockDerivative K × Flt K :=
  if d.initialized then
    let state := lowPassUpdate fCut dt d.lowPass ((input - d.u) / dt)
    ({ d with u := input, lowPass := state }, state)
  else
    (⟨input, true, lowPassUpdate fCut dt d.lowPass 0⟩, 0)

end BlockDerivative

structure SlewRate (K : Type*) where
  slew_rate : Flt K
  value : Flt K

def SlewRate.update {K : Type*} [Field K] [LinearOrder K] (s : SlewRate K)
    (new_value deltatime : Flt K) : SlewRate K :=
  let dvalue_desired := new_value - s.value
  let dvalue_max := s.slew_rate * deltatime
  { s with value := s.value + math.constrain dvalue_desired (-dvalue_max) dvalue_max }

/-! ### Messages and parameters -/

namespace ESOMulticopterPositionControl

/-- `vehicle_local_position_s`. -/
structure LocalPosition (K : Type*) where
  timestamp : UInt64
  timestamp_sample : UInt64
  xy_valid : Bool
  z_valid : Bool
  v_xy_valid : Bool
  v_z_valid : Bool
  x : Flt K
  y : Flt K
  z : Flt K
  delta_xy : Vector2f K
  xy_reset_counter : UInt8
  delta_z : Flt K
  z_reset_counter : UInt8
  vx : Flt K
  vy : Flt K
  vz : Flt K
  z_deriv : Flt K
  delta_vxy : Vector2f K
  vxy_reset_counter : UInt8
  delta_vz : Flt K
  vz_reset_counter : UInt8
  heading : Flt K
  delta_heading : Flt K
  heading_reset_counter : UInt8

structure VehicleControlMode where
  flag_armed : Bool
  flag_control_offboard_enabled : Bool
  flag_multicopter_position_control_enabled : Bool

structure VehicleLandDetected where
  ground_contact : Bool
  landed : Bool

structure VehicleConstraints (K : Type*) where
  speed_up : Flt K
  speed_down : Flt K
  want_takeoff : Bool

structure HoverThrustEstimate (K : Type*) where
  hover_thrust : Flt K
  valid : Bool

/-- The parameters read by the module; `veld_lp` is the cut-off frequency of
the velocity derivatives. -/
structure Params (K : Type*) where
  pos_p : Vector3f K
  pos_i : Vector3f K
  vel_p_acc : Vector3f K
  bw : Vector3f K
  pos_esogate : Bool
  dyn_ff_en : Bool
  pos_int_lim : Flt K
  xy_vel_max : Flt K
  z_vel_max_up : Flt K
  z_vel_max_dn : Flt K
  tiltmax_air : Flt K
  tiltmax_lnd : Flt K
  thr_hover : Flt K
  thr_min : Flt K
  thr_max : Flt K
  thr_xy_marg : Flt K
  use_hte : Bool
  spoolup_time_us : UInt64
  tko_ramp_t : Flt K
  land_speed : Flt K
  sys_vehicle_resp : Flt K
  xy_vel_all : Flt K
  z_vel_all : Flt K
  veld_lp : Flt K

/-- What one `Run` call finds. -/
structure Inputs (K : Type*) where
  hrt_now : UInt64
  parameters : Option (Params K)
  system_com : Vector3f K
  local_pos : Option (LocalPosition K)
  vehicle_control_mode : Option VehicleControlMode
  vehicle_land_detected : Option VehicleLandDetected
  attitude : Option (Quatf K)
  angular_velocity : Option (Vector3f K)
  hover_thrust_estimate : Option (HoverThrustEstimate K)
  trajectory_setpoint : Option (LocalPositionSetpoint K)
  vehicle_constraints : Option (VehicleConstraints K)

/-- What one position-controlled cycle publishes. -/
structure Publication (K : Type*) where
  local_pos_sp : LocalPositionSetpoint K
  attitude_setpoint : AttitudeSetpoint K

end ESOMulticopterPositionControl

open ESOMulticopterPositionControl in
structure ESOMulticopterPositionControl (K : Type*) where
  param : Params K
  takeoff : ESOTakeoff K
  control : ESOPositionControl K
  setpoint : LocalPositionSetpoint K
  vehicle_control_mode : VehicleControlMode
  vehicle_constraints : VehicleConstraints K
  vehicle_land_detected : VehicleLandDetected
  vel_deriv : Fin 3 → BlockDerivative K
  time_stamp_last_loop : UInt64
  in_failsafe : Bool
  hover_thrust_initialized : Bool
  failsafe_land_hysteresis : Hysteresis
  tilt_limit_slew_rate : SlewRate K
  vxy_reset_counter : UInt8
  vz_reset_counter : UInt8
  xy_reset_counter : UInt8
  z_reset_counter : UInt8
  heading_reset_counter : UInt8

namespace ESOMulticopterPositionControl

variable {K : Type*} [Field K] [LinearOrder K] [Elementary K]

/-- `LOITER_TIME_BEFORE_DESCEND`, 200 ms. -/
def LOITER_TIME_BEFORE_DESCEND : UInt64 := 200000

def MAX_SAFE_TILT_DEG : Flt K := num 89

def resetSetpointToNan (setpoint : LocalPositionSetpoint K) : LocalPositionSetpoint K :=
  ⟨setpoint.timestamp, nan, nan, nan, nan, nan, nan, nan, nan, fun _ => nan, fun _ => nan⟩

def zeroSetpoint : LocalPositionSetpoint K := ⟨0, 0, 0, 0, 0, 0, 0, 0, 0, fun _ => 0, fun _ => 0⟩

/-! ### Parameters -/

/-- What `parameters_update` writes back to the parameters. -/
def adjustParams (p : Params K) : Params K :=
  let p :=
    if 0 ≤ p.sys_vehicle_resp then
      let responsiveness := p.sys_vehicle_resp * p.sys_vehicle_resp
      { p with
        tiltmax_air :=
          if responsiveness < 0.5 then num 45
          else math.min MAX_SAFE_TILT_DEG
            (math.lerp (num 45) (num 70) ((responsiveness - 0.5) * num 2)) }
    else p
  let p := if 0 ≤ p.xy_vel_all then { p with xy_vel_max := p.xy_vel_all } else p
  let p :=
    if 0 ≤ p.z_vel_all then
      { p with
        z_vel_max_up := p.z_vel_all
        z_vel_max_dn := p.z_vel_all * 0.75
        land_speed := p.z_vel_all * 0.5 }
    else p
  let p :=
    if MAX_SAFE_TILT_DEG < p.tiltmax_air then { p with tiltmax_air := MAX_SAFE_TILT_DEG } else p
  let p := if p.tiltmax_air < p.tiltmax_lnd then { p with tiltmax_lnd := p.tiltmax_air } else p
  let p :=
    if p.thr_max < p.thr_hover ∨ p.thr_hover < p.thr_min then
      { p with thr_hover := math.constrain p.thr_hover p.thr_min p.thr_max }
    else p
  { p with land_speed := math.min p.land_speed p.z_vel_max_dn }

/-- `parameters_update`; the forced call of the constructor has `some`
parameters too. -/
def parametersUpdate (m : ESOMulticopterPositionControl K) (parameters : Option (Params K))
    (system_com : Vector3f K) : ESOMulticopterPositionControl K :=
  let m :=
    match parameters with
    | none => m
    | some p =>
      let p := adjustParams p
      let control := m.control.setPositionGains p.pos_p p.pos_i
        |>.setVelocityGains p.vel_p_acc
        |>.setHorizontalThrustMargin p.thr_xy_marg
        |>.setPositionIntegralLimit p.pos_int_lim
        |>.setDynamicsFeedforwardEnabled p.dyn_ff_en
        |>.setESOBandwidth p.bw
      { m with
        param := p
        control :=
          if !p.use_hte || !m.hover_thrust_initialized then control.setHoverThrust p.thr_hover
          else control
        hover_thrust_initialized := true
        takeoff := m.takeoff.setSpoolupTime p.spoolup_time_us
          |>.setTakeoffRampTime p.tko_ramp_t
          |>.generateInitialRampValue (p.vel_p_acc 2) }
  { m with control := m.control.setSystemCoM system_com }

/-- The constructor, `now` being the time of `init`. -/
def init (parameters : Params K) (system_com : Vector3f K) (now : UInt64) :
    ESOMulticopterPositionControl K :=
  parametersUpdate
    { param := parameters
      takeoff := ESOTakeoff.init K
      control := ESOPositionControl.init K
      setpoint := resetSetpointToNan zeroSetpoint
      vehicle_control_mode := ⟨false, false, false⟩
      vehicle_constraints := ⟨nan, nan, false⟩
      vehicle_land_detected := ⟨true, true⟩
      vel_deriv := fun _ => BlockDerivative.init K
      time_stamp_last_loop := now
      in_failsafe := false
      hover_thrust_initialized := false
      failsafe_land_hysteresis :=
        (Hysteresis.init false).setHysteresisTimeFrom false LOITER_TIME_BEFORE_DESCEND
      tilt_limit_slew_rate := ⟨0.2, 0⟩
      vxy_reset_counter := 0
      vz_reset_counter := 0
      xy_reset_counter := 0
      z_reset_counter := 0
      heading_reset_counter := 0 }
    (some parameters) system_com

/-! ### Vehicle states -/

/-- `set_vehicle_states`: only valid and finite estimates; a lost velocity
resets its derivative filter. -/
def setVehicleStates (m : ESOMulticopterPositionControl K) (local_pos : LocalPosition K)
    (dt : Flt K) : ESOMulticopterPositionControl K × PositionControlStates K :=
  let pos_xy := local_pos.x.isFinite && local_pos.y.isFinite && local_pos.xy_valid
  let pos_z := local_pos.z.isFinite && local_pos.z_valid
  let vel_xy := local_pos.vx.isFinite && local_pos.vy.isFinite && local_pos.v_xy_valid
  let vel_z := local_pos.vz.isFinite && local_pos.v_z_valid
  let vel_known : Fin 3 → Bool := ![vel_xy, vel_xy, vel_z]
  let vel : Vector3f K := ![local_pos.vx, local_pos.vy, local_pos.vz]
  let deriv := fun i => (m.vel_deriv i).update m.param.veld_lp dt (vel i)
  ({ m with
      vel_deriv := fun i => if vel_known i then (deriv i).1 else (m.vel_deriv i).reset },
    { position := ![if pos_xy then local_pos.x else nan, if pos_xy then local_pos.y else nan,
        if pos_z then local_pos.z else nan]
      velocity := fun i => if vel_known i then vel i else nan
      acceleration := fun i => if vel_known i then (deriv i).2 else nan
      yaw := local_pos.heading })

/-- Steps 9 and 10 of `Run`: the subscriptions of every cycle. -/
def updateSubscriptions (m : ESOMulticopterPositionControl K) (i : Inputs K) :
    ESOMulticopterPositionControl K :=
  let control := i.attitude.elim m.control m.control.setAttitude
  let control := i.angular_velocity.elim control control.setBodyRate
  let control := i.hover_thrust_estimate.elim control fun hte =>
    if m.param.use_hte && hte.valid then control.updateHoverThrust hte.hover_thrust else control
  { m with
    control := control
    vehicle_control_mode := i.vehicle_control_mode.getD m.vehicle_control_mode
    vehicle_land_detected := i.vehicle_land_detected.getD m.vehicle_land_detected }

/-! ### The setpoint -/

def compensateResets (m : ESOMulticopterPositionControl K) (local_pos : LocalPosition K) :
    ESOMulticopterPositionControl K :=
  if m.setpoint.timestamp < local_pos.timestamp then
    let sp := m.setpoint
    let sp :=
      if local_pos.vxy_reset_counter ≠ m.vxy_reset_counter then
        { sp with vx := sp.vx + local_pos.delta_vxy 0, vy := sp.vy + local_pos.delta_vxy 1 }
      else sp
    let sp :=
      if local_pos.vz_reset_counter ≠ m.vz_reset_counter then
        { sp with vz := sp.vz + local_pos.delta_vz }
      else sp
    let sp :=
      if local_pos.xy_reset_counter ≠ m.xy_reset_counter then
        { sp with x := sp.x + local_pos.delta_xy 0, y := sp.y + local_pos.delta_xy 1 }
      else sp
    let sp :=
      if local_pos.z_reset_counter ≠ m.z_reset_counter then
        { sp with z := sp.z + local_pos.delta_z }
      else sp
    let sp :=
      if local_pos.heading_reset_counter ≠ m.heading_reset_counter then
        { sp with yaw := sp.yaw + local_pos.delta_heading }
      else sp
    { m with setpoint := sp }
  else m

def wantTakeoff (m : ESOMulticopterPositionControl K) (hrt_now : UInt64) (position_z : Flt K) :
    Bool :=
  m.vehicle_control_mode.flag_armed && m.vehicle_land_detected.landed
  && decide (hrt_now - m.setpoint.timestamp < 1000000)
  && (decide (m.setpoint.z < position_z) || decide (m.setpoint.vz < 0)
    || decide (m.setpoint.acceleration 2 < 0))

/-- Steps 15 and 16: the constraints, and the take-off intention of an offboard
setpoint.  A comparison with `nan` is false, so the finiteness tests of the
source are implied. -/
def updateConstraints (m : ESOMulticopterPositionControl K) (i : Inputs K) (position_z : Flt K) :
    ESOMulticopterPositionControl K :=
  let vc := i.vehicle_constraints.getD m.vehicle_constraints
  let vc :=
    if !vc.speed_up.isFinite ∨ m.param.z_vel_max_up < vc.speed_up then
      { vc with speed_up := m.param.z_vel_max_up }
    else vc
  let vc :=
    if m.vehicle_control_mode.flag_control_offboard_enabled then
      { vc with
        want_takeoff := m.wantTakeoff i.hrt_now position_z
        speed_up := m.param.z_vel_max_up
        speed_down := m.param.z_vel_max_dn }
    else vc
  { m with vehicle_constraints := vc }

def flying (m : ESOMulticopterPositionControl K) : Bool :=
  decide (ESOTakeoffState.flight ≤ m.takeoff.takeoff_state)

def notTakenOff (m : ESOMulticopterPositionControl K) : Bool :=
  decide (m.takeoff.takeoff_state < .rampup)

def idleSetpoint (setpoint : LocalPositionSetpoint K) : LocalPositionSetpoint K :=
  { resetSetpointToNan setpoint with acceleration := ![0, 0, num 100] }

/-- Step 18: the observer gate, and the idle setpoint on the ground, the latter
in cycles that received a trajectory setpoint. -/
def handleTakeoff (m : ESOMulticopterPositionControl K) (is_trajectory_setpoint_updated : Bool) :
    ESOMulticopterPositionControl K :=
  let flying := m.flying
  let m := { m with
    control := m.control.setESOUpdateEnabled (!m.param.pos_esogate || flying) }
  if is_trajectory_setpoint_updated then
    let m :=
      if !flying then
        { m with
          setpoint := { m.setpoint with acceleration := setZ m.setpoint.acceleration nan }
          control := m.control.setHoverThrust m.param.thr_hover }
      else m
    if m.notTakenOff || (flying && m.vehicle_land_detected.ground_contact) then
      { m with setpoint := idleSetpoint m.setpoint, control := m.control.resetIntegral }
    else m
  else m

/-- The tilt limit and steps 19 and 20: the take-off ramp and the limits. -/
def setLimits (m : ESOMulticopterPositionControl K) (dt : Flt K) :
    ESOMulticopterPositionControl K :=
  let tilt_limit_deg :=
    if m.takeoff.takeoff_state < .flight then m.param.tiltmax_lnd else m.param.tiltmax_air
  let slew := m.tilt_limit_slew_rate.update (math.radians tilt_limit_deg) dt
  let vc := m.vehicle_constraints
  let ramp := m.takeoff.updateRamp dt
    (if vc.speed_up.isFinite then vc.speed_up else m.param.z_vel_max_up)
  let speed_down := if vc.speed_down.isFinite then vc.speed_down else m.param.z_vel_max_dn
  let minimum_thrust := if m.flying then m.param.thr_min else 0
  { m with
    tilt_limit_slew_rate := slew
    takeoff := ramp.1
    control := m.control.setTiltLimit slew.value
      |>.setThrustLimits minimum_thrust m.param.thr_max
      |>.setVelocityLimits m.param.xy_vel_max (math.min ramp.2 m.param.z_vel_max_up)
        (math.max speed_down 0) }

/-- `a` if it is finite and `b` otherwise. -/
def orElse (a b : Flt K) : Flt K := if a.isFinite then a else b

/-- Step 21: a missing position or heading is the current one, any other
missing component is zero. -/
def sanitize (sp : LocalPositionSetpoint K) (states : PositionControlStates K) :
    LocalPositionSetpoint K :=
  { sp with
    x := orElse sp.x (states.position 0)
    y := orElse sp.y (states.position 1)
    z := orElse sp.z (states.position 2)
    vx := orElse sp.vx 0
    vy := orElse sp.vy 0
    vz := orElse sp.vz 0
    acceleration := fun i => orElse (sp.acceleration i) 0
    yaw := orElse sp.yaw states.yaw
    yawspeed := orElse sp.yawspeed 0 }

/-- The vertical velocity estimate: the derivative of the position is blended
in when a vertical velocity is commanded and the altitude is not. -/
def blendVelocityZ (m : ESOMulticopterPositionControl K) (local_pos : LocalPosition K)
    (states : PositionControlStates K) : PositionControlStates K :=
  if !m.setpoint.z.isFinite ∧ m.setpoint.vz.isFinite
      ∧ num (FLT_EPSILON K) < fabsf m.setpoint.vz ∧ local_pos.z_deriv.isFinite
      ∧ local_pos.z_valid ∧ local_pos.v_z_valid then
    let weighting := fminf (fabsf m.setpoint.vz / m.param.land_speed) 1
    { states with
      velocity := setZ states.velocity
        (local_pos.z_deriv * weighting + local_pos.vz * (1 - weighting)) }
  else states

/-- Steps 13 to 18 of a position-controlled cycle: the stored setpoint and the
take-off state. -/
def updateSetpoint (m : ESOMulticopterPositionControl K) (i : Inputs K)
    (local_pos : LocalPosition K) (states : PositionControlStates K) :
    ESOMulticopterPositionControl K :=
  let m := { m with setpoint := i.trajectory_setpoint.getD m.setpoint }
  let m := m.compensateResets local_pos
  let m := m.updateConstraints i (states.position 2)
  let m := { m with
    takeoff := m.takeoff.updateTakeoffState
      { armed := m.vehicle_control_mode.flag_armed
        landed := m.vehicle_land_detected.landed
        want_takeoff := m.vehicle_constraints.want_takeoff
        skip_takeoff := false
        now_us := local_pos.timestamp_sample } }
  m.handleTakeoff i.trajectory_setpoint.isSome

/-- Steps 13 to 22: everything up to the first `update` call.  The result has
the states handed to the controller. -/
def prepare (m : ESOMulticopterPositionControl K) (i : Inputs K) (local_pos : LocalPosition K)
    (states : PositionControlStates K) (dt : Flt K) :
    ESOMulticopterPositionControl K × PositionControlStates K :=
  let m := (m.updateSetpoint i local_pos states).setLimits dt
  let control := m.control.setInputSetpoint (sanitize m.setpoint states)
  let states := m.blendVelocityZ local_pos states
  ({ m with control := control.setState states }, states)

/-! ### Control, failsafe and publication -/

/-- The setpoint of the failsafe: stop, land blindly, or descend blindly. -/
def failsafeSetpoint (land_speed : Flt K) (setpoint : LocalPositionSetpoint K)
    (states : PositionControlStates K) : LocalPositionSetpoint K :=
  let setpoint := resetSetpointToNan setpoint
  let setpoint :=
    if (states.velocity 0).isFinite && (states.velocity 1).isFinite then
      -- don't move along xy
      { setpoint with vx := 0, vy := 0 }
    else
      -- descend with land speed since we can't stop
      { setpoint with acceleration := setXY setpoint.acceleration ![0, 0], vz := land_speed }
  if (states.velocity 2).isFinite then
    -- don't move along z if we can stop in all dimensions
    if !setpoint.vz.isFinite then { setpoint with vz := 0 } else setpoint
  else
    -- emergency descend with a bit below hover thrust
    { setpoint with vz := nan, acceleration := setZ setpoint.acceleration 0.3 }

/-- `failsafe`: only react after a short delay. -/
def failsafe (m : ESOMulticopterPositionControl K) (now : UInt64)
    (setpoint : LocalPositionSetpoint K) (states : PositionControlStates K) :
    ESOMulticopterPositionControl K × LocalPositionSetpoint K :=
  let m := { m with
    failsafe_land_hysteresis := m.failsafe_land_hysteresis.setStateAndUpdate true now }
  if m.failsafe_land_hysteresis.state then
    ({ m with in_failsafe := true }, failsafeSetpoint m.param.land_speed setpoint states)
  else (m, setpoint)

section Dcm

variable (dcm : Quatf K → Matrix3f K)

/-- The failed branch of step 23 up to the second `update` call, with the
setpoint that is handed to it. -/
def retry (m : ESOMulticopterPositionControl K) (states : PositionControlStates K) (now : UInt64) :
    ESOMulticopterPositionControl K × LocalPositionSetpoint K :=
  let (m, failsafe_setpoint) := m.failsafe now zeroSetpoint states
  -- the initialiser list names `speed_xy`, so its `false` lands in `speed_down`
  let m := { m with vehicle_constraints := ⟨nan, 0, false⟩ }
  ({ m with
      control := (m.control.setInputSetpoint failsafe_setpoint).setVelocityLimits
        m.param.xy_vel_max m.param.z_vel_max_up m.param.z_vel_max_dn },
    failsafe_setpoint)

/-- Step 23: the controller, and once more with the failsafe setpoint. -/
def actuate (m : ESOMulticopterPositionControl K) (states : PositionControlStates K) (now : UInt64)
    (dt : Flt K) : ESOMulticopterPositionControl K :=
  let (control, ok) := m.control.update dcm dt
  let m := { m with control := control }
  if ok then
    { m with
      failsafe_land_hysteresis := m.failsafe_land_hysteresis.setStateAndUpdate false now }
  else
    let m := (m.retry states now).1
    { m with control := (m.control.update dcm dt).1 }

def publish (m : ESOMulticopterPositionControl K) (hrt_now : UInt64) : Publication K where
  local_pos_sp := { m.control.getLocalPositionSetpoint with timestamp := hrt_now }
  attitude_setpoint := m.control.getAttitudeSetpoint

/-- `dt`, limited to 2 to 40 ms. -/
def loopTime (m : ESOMulticopterPositionControl K) (time_stamp_now : UInt64) : Flt K :=
  math.constrain (num ((time_stamp_now - m.time_stamp_last_loop).toNat : K) * 1e-6) 0.002 0.04

/-- The part of `Run` before the mode is looked at, with the vehicle states. -/
def beginCycle (m : ESOMulticopterPositionControl K) (i : Inputs K) (local_pos : LocalPosition K) :
    ESOMulticopterPositionControl K × PositionControlStates K :=
  let dt := m.loopTime local_pos.timestamp_sample
  let m := { m with time_stamp_last_loop := local_pos.timestamp_sample, in_failsafe := false }
  (m.updateSubscriptions i).setVehicleStates local_pos dt

def saveCounters (m : ESOMulticopterPositionControl K) (local_pos : LocalPosition K) :
    ESOMulticopterPositionControl K :=
  { m with
    vxy_reset_counter := local_pos.vxy_reset_counter
    vz_reset_counter := local_pos.vz_reset_counter
    xy_reset_counter := local_pos.xy_reset_counter
    z_reset_counter := local_pos.z_reset_counter
    heading_reset_counter := local_pos.heading_reset_counter }

/-- One `Run` call and what it publishes. -/
def run (m : ESOMulticopterPositionControl K) (i : Inputs K) :
    ESOMulticopterPositionControl K × Option (Publication K) :=
  let m := m.parametersUpdate i.parameters i.system_com
  match i.local_pos with
  | none => (m, none)
  | some local_pos =>
    let now := local_pos.timestamp_sample
    let dt := m.loopTime now
    let (m, states) := m.beginCycle i local_pos
    if m.vehicle_control_mode.flag_multicopter_position_control_enabled then
      let (m, states) := m.prepare i local_pos states dt
      let m := m.actuate dcm states now dt
      (m.saveCounters local_pos, some (m.publish i.hrt_now))
    else
      -- the take-off state is skipped in modes without altitude control
      let m := { m with
        takeoff := m.takeoff.updateTakeoffState
          { armed := m.vehicle_control_mode.flag_armed
            landed := m.vehicle_land_detected.landed
            want_takeoff := false
            skip_takeoff := true
            now_us := now } }
      (m.saveCounters local_pos, none)

end Dcm

end ESOMulticopterPositionControl
