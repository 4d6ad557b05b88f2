/-
`ESOPositionControl`: the cascaded position/velocity controller with an
extended state observer.

`update` checks its inputs (`inputValid`), integrates the observer
(`PositionESO.update`), and runs `positionControl`, `velocityControl` and
`accelerationControl`.  Each of these is written as a record update whose
components are named functions of the state before it, so that a later proof
can speak about one component without unfolding the whole cycle.

The rotation matrix `Dcmf(_attitude)` comes from the matrix library; it enters
as the parameter `dcm`.  The velocity-loop gains `I` and `D` are stored by the
source and never read, and so are left out.
-/
import AerialManipulator.PosControl.ControlMath

open WithNaN ControlMath

/-- The third-order linear observer, one per axis. -/
structure PositionESO (K : Type*) where
  beta1 : Vector3f K
  beta2 : Vector3f K
  beta3 : Vector3f K
  z1 : Vector3f K
  z2 : Vector3f K
  z3 : Vector3f K

namespace PositionESO

variable {K : Type*} [Field K]

def setBandwidth (e : PositionESO K) (bw : Vector3f K) : PositionESO K :=
  { e with
    beta1 := scale bw 3.0
    beta2 := scale (emult bw bw) 3.0
    beta3 := emult (emult bw bw) bw }

def reset (e : PositionESO K) : PositionESO K :=
  { e with z1 := fun _ => 0, z2 := fun _ => 0, z3 := fun _ => 0 }

/-- `reset(pos_meas, vel_meas)`: start from the measurement. -/
def resetTo (e : PositionESO K) (pos_meas vel_meas : Vector3f K) : PositionESO K :=
  { e with z1 := pos_meas, z2 := vel_meas, z3 := fun _ => 0 }

/-- One Euler step; the disturbance estimate the source returns is `z3`. -/
def update (e : PositionESO K) (pos_meas u_control : Vector3f K) (dt : Flt K) : PositionESO K :=
  let err := pos_meas - e.z1
  let z1_dot := e.z2 + emult e.beta1 err
  let z2_dot := e.z3 + u_control + emult e.beta2 err
  let z3_dot := emult e.beta3 err
  { e with
    z1 := e.z1 + scale z1_dot dt
    z2 := e.z2 + scale z2_dot dt
    z3 := e.z3 + scale z3_dot dt }

def init (K : Type*) [Field K] : PositionESO K :=
  setBandwidth ⟨fun _ => 0, fun _ => 0, fun _ => 0, fun _ => 0, fun _ => 0, fun _ => 0⟩
    ![8.0, 8.0, 4.0]

end PositionESO

/-- `PositionControlStates`: the estimates handed to the controller. -/
structure PositionControlStates (K : Type*) where
  position : Vector3f K
  velocity : Vector3f K
  acceleration : Vector3f K
  yaw : Flt K

/-- `vehicle_local_position_setpoint_s`; `nan` means not controlled. -/
structure LocalPositionSetpoint (K : Type*) where
  timestamp : UInt64
  x : Flt K
  y : Flt K
  z : Flt K
  yaw : Flt K
  yawspeed : Flt K
  vx : Flt K
  vy : Flt K
  vz : Flt K
  acceleration : Vector3f K
  thrust : Vector3f K

structure ESOPositionControl (K : Type*) where
  -- gains
  gain_pos_p : Vector3f K
  gain_pos_i : Vector3f K
  gain_vel_p : Vector3f K
  -- limits
  lim_pos_int : Flt K
  lim_vel_horizontal : Flt K
  lim_vel_up : Flt K
  lim_vel_down : Flt K
  lim_thr_min : Flt K
  lim_thr_max : Flt K
  lim_thr_xy_margin : Flt K
  lim_tilt : Flt K
  hover_thrust : Flt K
  -- states
  pos : Vector3f K
  vel : Vector3f K
  vel_dot : Vector3f K
  vel_int : Vector3f K
  yaw : Flt K
  pos_int : Vector3f K
  body_rate : Vector3f K
  sys_com_pos : Vector3f K
  attitude : Quatf K
  dyn_ff_enabled : Bool
  -- observer
  eso : PositionESO K
  eso_disturbance : Vector3f K
  eso_update_enabled : Bool
  eso_update_enabled_prev : Bool
  acc_cmd_prev : Vector3f K
  eso_input : Vector3f K
  -- setpoints
  pos_sp : Vector3f K
  vel_sp : Vector3f K
  acc_sp : Vector3f K
  thr_sp : Vector3f K
  yaw_sp : Flt K
  yawspeed_sp : Flt K

namespace ESOPositionControl

section Setters

variable {K : Type*} [Field K] [LinearOrder K]

/-- A freshly constructed controller: every number is zero, the attitude is
level, and the observer is enabled. -/
def init (K : Type*) [Field K] : ESOPositionControl K where
  gain_pos_p := fun _ => 0
  gain_pos_i := fun _ => 0
  gain_vel_p := fun _ => 0
  lim_pos_int := 0
  lim_vel_horizontal := 0
  lim_vel_up := 0
  lim_vel_down := 0
  lim_thr_min := 0
  lim_thr_max := 0
  lim_thr_xy_margin := 0
  lim_tilt := 0
  hover_thrust := 0
  pos := fun _ => 0
  vel := fun _ => 0
  vel_dot := fun _ => 0
  vel_int := fun _ => 0
  yaw := 0
  pos_int := fun _ => 0
  body_rate := fun _ => 0
  sys_com_pos := fun _ => 0
  attitude := ![1, 0, 0, 0]
  dyn_ff_enabled := false
  eso := PositionESO.init K
  eso_disturbance := fun _ => 0
  eso_update_enabled := true
  eso_update_enabled_prev := true
  acc_cmd_prev := fun _ => 0
  eso_input := fun _ => 0
  pos_sp := fun _ => 0
  vel_sp := fun _ => 0
  acc_sp := fun _ => 0
  thr_sp := fun _ => 0
  yaw_sp := 0
  yawspeed_sp := 0

def setPositionGains (c : ESOPositionControl K) (P I : Vector3f K) : ESOPositionControl K :=
  { c with gain_pos_p := P, gain_pos_i := I }

def setVelocityGains (c : ESOPositionControl K) (P : Vector3f K) : ESOPositionControl K :=
  { c with gain_vel_p := P }

def setESOBandwidth (c : ESOPositionControl K) (bw : Vector3f K) : ESOPositionControl K :=
  { c with eso := c.eso.setBandwidth bw }

def setESOUpdateEnabled (c : ESOPositionControl K) (enabled : Bool) : ESOPositionControl K :=
  { c with eso_update_enabled := enabled }

def setBodyRate (c : ESOPositionControl K) (rate : Vector3f K) : ESOPositionControl K :=
  { c with body_rate := rate }

def setSystemCoM (c : ESOPositionControl K) (com : Vector3f K) : ESOPositionControl K :=
  { c with sys_com_pos := com }

def setAttitude (c : ESOPositionControl K) (att : Quatf K) : ESOPositionControl K :=
  { c with attitude := att }

def setDynamicsFeedforwardEnabled (c : ESOPositionControl K) (enabled : Bool) :
    ESOPositionControl K :=
  { c with dyn_ff_enabled := enabled }

def setVelocityLimits (c : ESOPositionControl K) (vel_horizontal vel_up vel_down : Flt K) :
    ESOPositionControl K :=
  { c with
    lim_vel_horizontal := vel_horizontal
    lim_vel_up := vel_up
    lim_vel_down := vel_down }

def setPositionIntegralLimit (c : ESOPositionControl K) (limit : Flt K) : ESOPositionControl K :=
  { c with lim_pos_int := limit }

/-- There is always enough thrust to infer the attitude from. -/
def setThrustLimits (c : ESOPositionControl K) (min max : Flt K) : ESOPositionControl K :=
  { c with lim_thr_min := math.max min 10e-4, lim_thr_max := max }

def setHorizontalThrustMargin (c : ESOPositionControl K) (margin : Flt K) : ESOPositionControl K :=
  { c with lim_thr_xy_margin := margin }

def setTiltLimit (c : ESOPositionControl K) (tilt : Flt K) : ESOPositionControl K :=
  { c with lim_tilt := tilt }

def setHoverThrust (c : ESOPositionControl K) (hover_thrust : Flt K) : ESOPositionControl K :=
  { c with hover_thrust := math.constrain hover_thrust 0.1 0.9 }

def updateHoverThrust (c : ESOPositionControl K) (hover_thrust_new : Flt K) :
    ESOPositionControl K :=
  if num (FLT_EPSILON K) < hover_thrust_new then
    let g : Flt K := num (CONSTANTS_ONE_G K)
    let c := { c with
      vel_int := setZ c.vel_int (c.vel_int 2
        + ((c.acc_sp 2 - g) * c.hover_thrust / hover_thrust_new + g - c.acc_sp 2)) }
    c.setHoverThrust hover_thrust_new
  else c

def setState (c : ESOPositionControl K) (states : PositionControlStates K) : ESOPositionControl K :=
  { c with
    pos := states.position
    vel := states.velocity
    yaw := states.yaw
    vel_dot := states.acceleration }

def setInputSetpoint (c : ESOPositionControl K) (setpoint : LocalPositionSetpoint K) :
    ESOPositionControl K :=
  { c with
    pos_sp := ![setpoint.x, setpoint.y, setpoint.z]
    vel_sp := ![setpoint.vx, setpoint.vy, setpoint.vz]
    acc_sp := setpoint.acceleration
    yaw_sp := setpoint.yaw
    yawspeed_sp := setpoint.yawspeed }

/-- Besides the integrals this clears the observer, and asks for a measurement
initialisation at the next enabled cycle. -/
def resetIntegral (c : ESOPositionControl K) : ESOPositionControl K :=
  { c with
    vel_int := fun _ => 0
    pos_int := fun _ => 0
    eso_input := fun _ => 0
    acc_cmd_prev := fun _ => 0
    eso := c.eso.reset
    eso_update_enabled_prev := false }

end Setters

variable {K : Type*}

/-- Some setpoint on every axis, horizontal setpoints in pairs, and an estimate
for every commanded state. -/
def inputValid (c : ESOPositionControl K) : Bool :=
  ((List.finRange 3).all fun i =>
    (c.pos_sp i).isFinite || (c.vel_sp i).isFinite || (c.acc_sp i).isFinite)
  && ((c.pos_sp 0).isFinite == (c.pos_sp 1).isFinite)
  && ((c.vel_sp 0).isFinite == (c.vel_sp 1).isFinite)
  && ((c.acc_sp 0).isFinite == (c.acc_sp 1).isFinite)
  && ((List.finRange 3).all fun i =>
    (!(c.pos_sp i).isFinite || (c.pos i).isFinite)
    && (!(c.vel_sp i).isFinite || ((c.vel i).isFinite && (c.vel_dot i).isFinite)))

/-- `PX4_ISFINITE` of the three components. -/
def allFinite (v : Vector3f K) : Bool := (v 0).isFinite && (v 1).isFinite && (v 2).isFinite

variable [Field K] [LinearOrder K] [Elementary K]

/-! ### The observer stage of `update` -/

/-- The observer after the cycle: initialised from the measurement on the
enabling edge, then integrated; untouched while disabled. -/
def observedESO (c : ESOPositionControl K) (dt : Flt K) : PositionESO K :=
  if c.eso_update_enabled then
    let eso := if !c.eso_update_enabled_prev then c.eso.resetTo c.pos c.vel else c.eso
    eso.update c.pos c.eso_input dt
  else c.eso

def observe (c : ESOPositionControl K) (dt : Flt K) : ESOPositionControl K :=
  { c with
    eso := c.observedESO dt
    eso_disturbance := if c.eso_update_enabled then (c.observedESO dt).z3 else fun _ => 0 }

/-! ### `_positionControl` -/

def velSpP (c : ESOPositionControl K) : Vector3f K := emult (c.pos_sp - c.pos) c.gain_pos_p

def velSpI (c : ESOPositionControl K) : Vector3f K := emult c.pos_int c.gain_pos_i

/-- `vel_sp_unc`: P and I terms plus the feed-forward. -/
def velSpUnc (c : ESOPositionControl K) : Vector3f K :=
  addIfNotNanVector3f (c.velSpP + c.velSpI) c.vel_sp

def velSpLimited (c : ESOPositionControl K) : Vector3f K :=
  let vel_sp_limited := setZeroIfNanVector3f c.velSpUnc
  let vel_sp_limited := setXY vel_sp_limited (constrainXY (xy vel_sp_limited)
    (xy (vel_sp_limited - c.velSpP - c.velSpI)) c.lim_vel_horizontal)
  setZ vel_sp_limited (math.constrain (vel_sp_limited 2) (-c.lim_vel_up) c.lim_vel_down)

/-- `_pos_int` after the anti-windup and the hard limit. -/
def posIntegral (c : ESOPositionControl K) (dt : Flt K) : Vector3f K :=
  let pos_err := c.pos_sp - c.pos
  let saturation_diff := c.velSpUnc - c.velSpLimited
  let arw_gain : Vector3f K := fun i =>
    if num (FLT_EPSILON K) < c.gain_pos_p i then 2.0 / c.gain_pos_p i else 0
  let pos_err_for_int := pos_err - emult saturation_diff arw_gain
  if allFinite pos_err then
    fun i => math.constrain ((c.pos_int + scale pos_err_for_int dt) i)
      (-c.lim_pos_int) c.lim_pos_int
  else c.pos_int

def positionControl (c : ESOPositionControl K) (dt : Flt K) : ESOPositionControl K :=
  { c with pos_int := c.posIntegral dt, vel_sp := c.velSpLimited }

/-! ### `_velocityControl` and `_accelerationControl` -/

/-- `_thr_sp` of `_accelerationControl`, from the acceleration setpoint. -/
def accelerationThrust (hover_thrust lim_thr_min lim_tilt : Flt K) (acc_sp : Vector3f K) :
    Vector3f K :=
  let g : Flt K := num (CONSTANTS_ONE_G K)
  let body_z := normalized ![-acc_sp 0, -acc_sp 1, g]
  let body_z := limitTilt body_z ![0, 0, 1] lim_tilt
  let collective_thrust := acc_sp 2 * (hover_thrust / g) - hover_thrust
  let collective_thrust := collective_thrust / dot ![0, 0, 1] body_z
  let collective_thrust := math.min collective_thrust (-lim_thr_min)
  scale body_z collective_thrust

def accelerationControl (c : ESOPositionControl K) : ESOPositionControl K :=
  { c with thr_sp := accelerationThrust c.hover_thrust c.lim_thr_min c.lim_tilt c.acc_sp }

/-- Vertical thrust first, keeping a horizontal margin (steps 6.A to 6.C of
`_velocityControl`). -/
def prioritizeThrust (lim_thr_max lim_thr_xy_margin : Flt K) (thr_sp : Vector3f K) : Vector3f K :=
  let thrust_sp_xy := xy thr_sp
  let thrust_sp_xy_norm := length thrust_sp_xy
  let thrust_max_squared := lim_thr_max * lim_thr_max
  let allocated_horizontal_thrust := math.min thrust_sp_xy_norm lim_thr_xy_margin
  let thrust_z_max_squared :=
    thrust_max_squared - allocated_horizontal_thrust * allocated_horizontal_thrust
  let thr_sp := setZ thr_sp (math.max (thr_sp 2) (-sqrtf thrust_z_max_squared))
  let thrust_max_xy_squared := thrust_max_squared - thr_sp 2 * thr_sp 2
  let thrust_max_xy := if 0 < thrust_max_xy_squared then sqrtf thrust_max_xy_squared else 0
  if thrust_max_xy < thrust_sp_xy_norm then
    setXY thr_sp (scale (fun i => thrust_sp_xy i / thrust_sp_xy_norm) thrust_max_xy)
  else thr_sp

/-- `_acc_cmd_prev`: the acceleration that the limited thrust can realise. -/
def feasibleAcc (hover_thrust : Flt K) (thr_sp : Vector3f K) : Vector3f K :=
  let g : Flt K := num (CONSTANTS_ONE_G K)
  if num (FLT_EPSILON K) < hover_thrust then scale thr_sp (g / hover_thrust)
  else scale thr_sp g

section Dcm

variable (dcm : Quatf K → Matrix3f K)

/-- `a_f_ned`, the centrifugal compensation. -/
def centrifugal (c : ESOPositionControl K) : Vector3f K :=
  if c.dyn_ff_enabled then
    scale (mulVec (dcm c.attitude) (cross c.body_rate (cross c.body_rate c.sys_com_pos))) (-1)
  else fun _ => 0

def accCmd (c : ESOPositionControl K) : Vector3f K :=
  setZeroIfNanVector3f c.acc_sp + emult (c.vel_sp - c.vel) c.gain_vel_p - c.eso_disturbance
    - c.centrifugal dcm

/-- The reset of the vertical velocity error after `_accelerationControl` is
not modelled: nothing reads the error afterwards. -/
def velocityControl (c : ESOPositionControl K) : ESOPositionControl K :=
  let a_f_ned := c.centrifugal dcm
  let c := { c with acc_sp := c.accCmd dcm }
  let c := c.accelerationControl
  let c := { c with thr_sp := prioritizeThrust c.lim_thr_max c.lim_thr_xy_margin c.thr_sp }
  { c with
    acc_cmd_prev := feasibleAcc c.hover_thrust c.thr_sp
    eso_input := feasibleAcc c.hover_thrust c.thr_sp + ![0, 0, num (CONSTANTS_ONE_G K)] + a_f_ned }

/-- The body of `update` for valid input. -/
def control (c : ESOPositionControl K) (dt : Flt K) : ESOPositionControl K :=
  let c := ((c.observe dt).positionControl dt).velocityControl dcm
  { c with
    yawspeed_sp := if c.yawspeed_sp.isFinite then c.yawspeed_sp else 0
    yaw_sp := if c.yaw_sp.isFinite then c.yaw_sp else c.yaw }

def update (c : ESOPositionControl K) (dt : Flt K) : ESOPositionControl K × Bool :=
  let valid := c.inputValid
  let c := if valid then c.control dcm dt else c
  -- the flag is updated in rejected cycles too
  let c := { c with eso_update_enabled_prev := c.eso_update_enabled }
  (c, valid && allFinite c.acc_sp && allFinite c.thr_sp)

end Dcm

def getLocalPositionSetpoint (c : ESOPositionControl K) : LocalPositionSetpoint K where
  timestamp := 0
  x := c.pos_sp 0
  y := c.pos_sp 1
  z := c.pos_sp 2
  yaw := c.yaw_sp
  yawspeed := c.yawspeed_sp
  vx := c.vel_sp 0
  vy := c.vel_sp 1
  vz := c.vel_sp 2
  acceleration := c.acc_sp
  thrust := c.thr_sp

def getAttitudeSetpoint (c : ESOPositionControl K) : AttitudeSetpoint K :=
  { thrustToAttitude c.thr_sp c.yaw_sp ⟨fun _ _ => 0, fun _ => 0, 0⟩ with
    yaw_sp_move_rate := c.yawspeed_sp }

end ESOPositionControl
