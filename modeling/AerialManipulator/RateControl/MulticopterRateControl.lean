/-
`ESOMulticopterRateControl`: the module around the rate controller.

One `Run` call is `run`.  On a gyro sample it reads its subscriptions
(`beginCycle`), takes over or clears the auxiliary terms of the attitude loop
(`updateAux`), and, when rate control is enabled, applies the ground guard and
calls the controller (`updateCall`, `publish`).

* A subscription is an `Option` of `Inputs`: the message that its `update`
  delivers in this call.
* The inertia that `update_dynamic_parameters` hands to the controller is an
  input, whatever the arm model computed; so is the static inertia of the model
  profile.
* Debug output, performance counters and log texts are left out.
-/
import AerialManipulator.RateControl.RateControl

open WithNaN

/-- `eso_rate_aux_s`; the reference rate it carries too is not read. -/
structure EsoRateAux (K : Type*) where
  timestamp : UInt64
  omega_r_dot : Vector3f K
  beta_v : Vector3f K
  tau_s : Vector3f K

def EsoRateAux.terms {K : Type*} (a : EsoRateAux K) : Vector3f K × Vector3f K × Vector3f K :=
  (a.omega_r_dot, a.beta_v, a.tau_s)

namespace ESOMulticopterRateControl

inductive VehicleType where
  | unknown
  | rotary_wing
  | fixed_wing
  | rover
  | airship
  deriving DecidableEq, Repr

structure VehicleControlMode where
  flag_armed : Bool
  flag_control_manual_enabled : Bool
  flag_control_attitude_enabled : Bool
  flag_control_rates_enabled : Bool
  flag_control_termination_enabled : Bool

structure VehicleLandDetected where
  landed : Bool
  maybe_landed : Bool
  ground_contact : Bool
  has_low_throttle : Bool

structure VehicleStatus where
  vehicle_type : VehicleType
  is_vtol : Bool

/-- The positions of `landing_gear_s`. -/
inductive LandingGear where
  | up
  | down
  | keep
  deriving DecidableEq, Repr

/-- The sticks of `manual_control_setpoint_s`. -/
structure ManualControlSetpoint (K : Type*) where
  x : Flt K
  y : Flt K
  z : Flt K
  r : Flt K

structure VehicleRatesSetpoint (K : Type*) where
  rates : Vector3f K
  thrust_body_z : Flt K

structure ControlAllocatorStatus (K : Type*) where
  torque_setpoint_achieved : Bool
  unallocated_torque : Vector3f K

structure BatteryStatus (K : Type*) where
  connected : Bool
  scale : Flt K

structure VehicleAngularVelocity (K : Type*) where
  timestamp_sample : UInt64
  xyz : Vector3f K

/-- The parameters of the module, per axis where the source has one per axis. -/
structure Params (K : Type*) where
  rate_k : Vector3f K
  rate_p : Vector3f K
  rate_i : Vector3f K
  int_lim : Vector3f K
  static_inertia : Matrix3f K
  rate_bw : Vector3f K
  k_beta : Flt K
  max_torque : Flt K
  rate_i_scale : Flt K
  taus_k : Flt K
  taus_k_axis : Vector3f K
  taus_obs : Vector3f K
  taus_ctl : Vector3f K
  taus_lim : Flt K
  taus_tau : Flt K
  acro_max : Vector3f K
  acro_expo : Flt K
  acro_supexpo : Flt K
  acro_expo_y : Flt K
  acro_supexpoy : Flt K
  bat_scale_en : Bool
  cbrk_rate_ctrl : Bool

/-- What one `Run` call finds. -/
structure Inputs (K : Type*) where
  parameters : Option (Params K)
  angular_velocity : Option (VehicleAngularVelocity K)
  inertia : Option (Matrix3f K)
  control_mode : Option VehicleControlMode
  land_detected : Option VehicleLandDetected
  vehicle_status : Option VehicleStatus
  landing_gear : Option LandingGear
  manual_control_setpoint : Option (ManualControlSetpoint K)
  rates_setpoint : Option (VehicleRatesSetpoint K)
  eso_rate_aux : Option (EsoRateAux K)
  control_allocator_status : Option (ControlAllocatorStatus K)
  battery_status : Option (BatteryStatus K)

/-- The scaled controls of `actuator_controls_s` and the landing gear. -/
structure ActuatorControls (K : Type*) where
  control : Fin 4 → Flt K
  landing_gear : LandingGear

/-- What one `Run` call publishes. -/
structure Outputs (K : Type*) where
  rates_setpoint : Option (VehicleRatesSetpoint K)
  rate_ctrl_status : Option (Vector3f K)
  torque_setpoint : Option (Vector3f K)
  thrust_setpoint : Option (Vector3f K)
  actuators : Option (ActuatorControls K)

end ESOMulticopterRateControl

open ESOMulticopterRateControl in
structure ESOMulticopterRateControl (K : Type*) where
  param : Params K
  rate_control : ESORateControl K
  v_control_mode : VehicleControlMode
  land_detected : VehicleLandDetected
  vehicle_status : VehicleStatus
  battery_status_scale : Flt K
  last_eso_aux_timestamp : UInt64
  rates_sp : Vector3f K
  thrust_sp : Flt K
  last_run : UInt64
  landing_gear : LandingGear

namespace ESOMulticopterRateControl

variable {K : Type*} [Field K] [LinearOrder K] [Elementary K]

/-- `ESO_AUX_TIMEOUT`, 100 ms. -/
def ESO_AUX_TIMEOUT : UInt64 := 100000

def parametersUpdated (m : ESOMulticopterRateControl K) (p : Params K) :
    ESOMulticopterRateControl K :=
  { m with
    param := p
    rate_control := m.rate_control.setGains (emult p.rate_k p.rate_p) (emult p.rate_k p.rate_i)
      |>.setIntegratorLimit p.int_lim
      |>.setInertiaDiagonal (fun i => p.static_inertia i i)
      |>.setESOBandwidth p.rate_bw
      |>.setKBeta p.k_beta
      |>.setMaxTorque p.max_torque
      |>.setIntegralScale p.rate_i_scale
      |>.setTauSScale p.taus_k
      |>.setTauSAxisScale p.taus_k_axis
      |>.setTauSObserverAxisScale p.taus_obs
      |>.setTauSControlAxisScale p.taus_ctl
      |>.setTauSLimitNm p.taus_lim
      |>.setTauSFilterTimeConstant p.taus_tau }

def init (p : Params K) : ESOMulticopterRateControl K :=
  parametersUpdated
    { param := p
      rate_control := ESORateControl.init K
      v_control_mode := ⟨false, false, false, false, false⟩
      land_detected := ⟨true, true, true, true⟩
      vehicle_status := ⟨.rotary_wing, false⟩
      battery_status_scale := 0
      last_eso_aux_timestamp := 0
      rates_sp := fun _ => 0
      thrust_sp := 0
      last_run := 0
      landing_gear := .down }
    p

/-! ### The cycle up to the controller call -/

def updateLandingGear (m : ESOMulticopterRateControl K) (gear : LandingGear) :
    ESOMulticopterRateControl K :=
  if gear = .keep ∨ (gear = .up ∧ (m.land_detected.landed || m.land_detected.maybe_landed)) then m
  else { m with landing_gear := gear }

/-- Rate setpoint from the sticks in acro mode, with the setpoint that is
published, and from the topic otherwise. -/
def updateRatesSetpoint (m : ESOMulticopterRateControl K) (i : Inputs K) (rates : Vector3f K) :
    ESOMulticopterRateControl K × Option (VehicleRatesSetpoint K) :=
  let p := m.param
  if m.v_control_mode.flag_control_manual_enabled
      && !m.v_control_mode.flag_control_attitude_enabled then
    match i.manual_control_setpoint with
    | none => (m, none)
    | some manual =>
      let man_rate_sp : Vector3f K :=
        ![math.superexpo manual.y p.acro_expo p.acro_supexpo,
          math.superexpo (-manual.x) p.acro_expo p.acro_supexpo,
          math.superexpo manual.r p.acro_expo_y p.acro_supexpoy]
      let rates_sp := emult man_rate_sp fun j => math.radians (p.acro_max j)
      let thrust_sp := math.constrain manual.z 0 1
      ({ m with rates_sp := rates_sp, thrust_sp := thrust_sp }, some ⟨rates_sp, -thrust_sp⟩)
  else
    match i.rates_setpoint with
    | none => (m, none)
    | some sp =>
      ({ m with
          rates_sp := fun j => if (sp.rates j).isFinite then sp.rates j else rates j
          thrust_sp := -sp.thrust_body_z }, none)

/-- `dt`, limited to 0.125 to 20 ms. -/
def loopTime (m : ESOMulticopterRateControl K) (now : UInt64) : Flt K :=
  math.constrain (num ((now - m.last_run).toNat : K) * 1e-6) 0.000125 0.02

def beginCycle (inv : Matrix3f K → Option (Matrix3f K)) (m : ESOMulticopterRateControl K)
    (i : Inputs K) (w : VehicleAngularVelocity K) :
    ESOMulticopterRateControl K × Option (VehicleRatesSetpoint K) :=
  let m := { m with
    rate_control := i.inertia.elim m.rate_control fun M => m.rate_control.setInertiaMatrix inv M
    last_run := w.timestamp_sample
    v_control_mode := i.control_mode.getD m.v_control_mode
    land_detected := i.land_detected.getD m.land_detected
    vehicle_status := i.vehicle_status.getD m.vehicle_status }
  let m := i.landing_gear.elim m m.updateLandingGear
  m.updateRatesSetpoint i w.xyz

/-- Take over fresh auxiliary terms, and clear old ones.  The ages are unsigned
differences. -/
def updateAux (m : ESOMulticopterRateControl K) (eso_aux : Option (EsoRateAux K)) (now : UInt64) :
    ESOMulticopterRateControl K :=
  let m :=
    match eso_aux with
    | none => m
    | some a =>
      let m := { m with last_eso_aux_timestamp := a.timestamp }
      if now - m.last_eso_aux_timestamp ≤ ESO_AUX_TIMEOUT then
        { m with rate_control := m.rate_control.setAttitudeAux a.omega_r_dot a.beta_v a.tau_s }
      else m
  if m.last_eso_aux_timestamp = 0 ∨ ESO_AUX_TIMEOUT < now - m.last_eso_aux_timestamp then
    { m with
      rate_control := m.rate_control.setAttitudeAux (fun _ => 0) (fun _ => 0) (fun _ => 0) }
  else m

def enabled (m : ESOMulticopterRateControl K) : Bool :=
  m.v_control_mode.flag_control_rates_enabled && !m.param.cbrk_rate_ctrl

def groundGuard (m : ESOMulticopterRateControl K) : Bool :=
  !m.v_control_mode.flag_armed || decide (m.vehicle_status.vehicle_type ≠ .rotary_wing)
    || m.land_detected.landed || m.land_detected.maybe_landed || m.land_detected.ground_contact
    || m.land_detected.has_low_throttle

def updateSaturation (m : ESOMulticopterRateControl K) (s : ControlAllocatorStatus K) :
    ESOMulticopterRateControl K :=
  { m with
    rate_control := m.rate_control.setSaturationStatus
      (fun j => !s.torque_setpoint_achieved
        && decide (num (FLT_EPSILON K) < s.unallocated_torque j))
      (fun j => !s.torque_setpoint_achieved
        && decide (s.unallocated_torque j < -num (FLT_EPSILON K))) }

/-- The ground guard and the allocator feedback: the module at the controller
call. -/
def updateCall (m : ESOMulticopterRateControl K) (i : Inputs K) : ESOMulticopterRateControl K :=
  let m :=
    if m.groundGuard then { m with rate_control := m.rate_control.resetIntegral.resetESO } else m
  i.control_allocator_status.elim m m.updateSaturation

/-! ### Publications -/

def orZero (a : Flt K) : Flt K := if a.isFinite then a else 0

def actuatorControls (m : ESOMulticopterRateControl K) (att_control : Vector3f K) :
    ActuatorControls K where
  control := fun j =>
    let control : Fin 4 → Flt K :=
      ![orZero (att_control 0), orZero (att_control 1), orZero (att_control 2), orZero m.thrust_sp]
    if m.param.bat_scale_en ∧ 0 < m.battery_status_scale then control j * m.battery_status_scale
    else control j
  landing_gear := m.landing_gear

def updateBattery (m : ESOMulticopterRateControl K) (battery : Option (BatteryStatus K)) :
    ESOMulticopterRateControl K :=
  match battery with
  | none => m
  | some b =>
    if m.param.bat_scale_en ∧ b.connected ∧ 0 < b.scale then
      { m with battery_status_scale := b.scale }
    else m

/-- The controller call and the publications of an enabled cycle. -/
def publish (m : ESOMulticopterRateControl K) (i : Inputs K) (w : VehicleAngularVelocity K)
    (dt : Flt K) : ESOMulticopterRateControl K × Outputs K :=
  let (rate_control, att_control) :=
    m.rate_control.update w.xyz m.rates_sp dt m.groundGuard
  let m := { m with rate_control := rate_control }
  let m := m.updateBattery i.battery_status
  let vtol := m.vehicle_status.is_vtol
  (m,
    { rates_setpoint := none
      rate_ctrl_status := some rate_control.rate_int
      torque_setpoint := if vtol then none else some fun j => orZero (att_control j)
      thrust_setpoint := if vtol then none
        else some ![0, 0, if m.thrust_sp.isFinite then -m.thrust_sp else 0]
      actuators := some (m.actuatorControls att_control) })

/-- Without rate control only a termination publishes, zero controls. -/
def publishTermination (m : ESOMulticopterRateControl K) : Outputs K where
  rates_setpoint := none
  rate_ctrl_status := none
  torque_setpoint := none
  thrust_setpoint := none
  actuators :=
    if m.v_control_mode.flag_control_termination_enabled && !m.vehicle_status.is_vtol then
      some ⟨fun _ => 0, .keep⟩
    else none

section Inv

variable (inv : Matrix3f K → Option (Matrix3f K))

/-- The module of a gyro cycle once the auxiliary terms are up to date. -/
def cycle (m : ESOMulticopterRateControl K) (i : Inputs K) (w : VehicleAngularVelocity K) :
    ESOMulticopterRateControl K :=
  (m.beginCycle inv i w).1.updateAux i.eso_rate_aux w.timestamp_sample

/-- One `Run` call and what it publishes. -/
def run (m : ESOMulticopterRateControl K) (i : Inputs K) :
    ESOMulticopterRateControl K × Outputs K :=
  let m := i.parameters.elim m m.parametersUpdated
  match i.angular_velocity with
  | none => (m, ⟨none, none, none, none, none⟩)
  | some w =>
    let dt := m.loopTime w.timestamp_sample
    let manual := (m.beginCycle inv i w).2
    let m := m.cycle inv i w
    if m.enabled then
      let (m, out) := (m.updateCall i).publish i w dt
      (m, { out with rates_setpoint := manual })
    else (m, { m.publishTermination with rates_setpoint := manual })

end Inv

end ESOMulticopterRateControl
