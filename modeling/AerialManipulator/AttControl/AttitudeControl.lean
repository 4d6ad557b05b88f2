/-
`ESOAttitudeControl`: the attitude controller.

`update` compares the attitude with its setpoint, scales the yaw component of the error with a
weight, and returns a body rate that is limited in each axis; the rate controller also gets the
derivative of that rate, which is filtered, and the torque of gravity.

The conversions between quaternions and rotation matrices come from the matrix library; they are the
parameters `dcm` and `quat`.  The body rate that `update` gets is only cleaned, and the inertia of
the arm is only stored; both are left out.
-/
import AerialManipulator.Math

open WithNaN

structure ESOAttitudeControl (K : Type*) where
  proportional_gain : Vector3f K
  rate_limit : Vector3f K
  yaw_w : Flt K
  -- setpoints
  attitude_setpoint_q : Quatf K
  yawspeed_setpoint : Flt K
  -- states
  omega_r_prev : Vector3f K
  omega_r_dot : Vector3f K
  omega_r_prev_valid : Bool
  beta_v : Vector3f K
  -- compensation of gravity
  mass_total : Flt K
  com_offset : Vector3f K
  tau_s : Vector3f K

namespace ESOAttitudeControl

variable {K : Type*} [Field K]

def init (K : Type*) [Field K] : ESOAttitudeControl K where
  proportional_gain := fun _ => 0
  rate_limit := fun _ => 0
  yaw_w := 0
  attitude_setpoint_q := ![1, 0, 0, 0]
  yawspeed_setpoint := 0
  omega_r_prev := fun _ => 0
  omega_r_dot := fun _ => 0
  omega_r_prev_valid := false
  beta_v := fun _ => 0
  mass_total := 0
  com_offset := fun _ => 0
  tau_s := fun _ => 0

/-! ### Setters -/

def setRateLimit (c : ESOAttitudeControl K) (rate_limit : Vector3f K) : ESOAttitudeControl K :=
  { c with rate_limit := rate_limit }

def setTauSParameters (c : ESOAttitudeControl K) (mass_total : Flt K) (com_offset : Vector3f K) :
    ESOAttitudeControl K :=
  { c with mass_total := mass_total, com_offset := com_offset }

def resetOmegaRDerivative (c : ESOAttitudeControl K) : ESOAttitudeControl K :=
  { c with
    omega_r_dot := fun _ => 0
    omega_r_prev := fun _ => 0
    omega_r_prev_valid := false }

def quatMul (p q : Quatf K) : Quatf K :=
  ![p 0 * q 0 - p 1 * q 1 - p 2 * q 2 - p 3 * q 3,
    p 0 * q 1 + p 1 * q 0 + p 2 * q 3 - p 3 * q 2,
    p 0 * q 2 - p 1 * q 3 + p 2 * q 0 + p 3 * q 1,
    p 0 * q 3 + p 1 * q 2 - p 2 * q 1 + p 3 * q 0]

variable [LinearOrder K]

def setProportionalGain (c : ESOAttitudeControl K) (proportional_gain : Vector3f K)
    (yaw_weight : Flt K) : ESOAttitudeControl K :=
  let yaw_w := math.constrain yaw_weight 0 1
  { c with
    yaw_w := yaw_w
    proportional_gain :=
      if 1e-4 < yaw_w then setZ proportional_gain (proportional_gain 2 / yaw_w)
      else proportional_gain }

variable [Elementary K]

def setAttitudeSetpoint (c : ESOAttitudeControl K) (qd : Quatf K) (yawspeed_setpoint : Flt K) :
    ESOAttitudeControl K :=
  { c with attitude_setpoint_q := normalized qd, yawspeed_setpoint := yawspeed_setpoint }

def adaptAttitudeSetpoint (c : ESOAttitudeControl K) (q_delta : Quatf K) : ESOAttitudeControl K :=
  { c with attitude_setpoint_q := normalized (quatMul q_delta c.attitude_setpoint_q) }

/-! ### The control law -/

section Update

variable (dcm : Quatf K → Matrix3f K) (quat : Matrix3f K → Quatf K) (c : ESOAttitudeControl K)

def normalizedOr (q other : Quatf K) : Quatf K := if 0 < dot q q then normalized q else other

def qCurr (q : Quatf K) : Quatf K := normalizedOr q ![1, 0, 0, 0]

def qTarget : Quatf K := normalizedOr c.attitude_setpoint_q c.attitude_setpoint_q

def transpose (R : Matrix3f K) : Matrix3f K := fun i j => R j i

/-- The rotation from the setpoint to the attitude, with a scalar part that is not negative. -/
def qTilde (R : Matrix3f K) : Quatf K :=
  let q_tilde := quat (mulMat (transpose (dcm c.qTarget)) R)
  if q_tilde 0 < 0 then scale q_tilde (-1) else q_tilde

/-- The error of the attitude; the yaw component is scaled with its weight. -/
def betaV (R : Matrix3f K) : Vector3f K :=
  let q_tilde := c.qTilde dcm quat R
  let beta_v := ![q_tilde 1, q_tilde 2, q_tilde 3]
  if 1e-4 < c.yaw_w then setZ beta_v (beta_v 2 * c.yaw_w) else beta_v

def zeroNonFinite (v : Vector3f K) : Vector3f K := fun i => if (v i).isFinite then v i else 0

def tauS (R : Matrix3f K) : Vector3f K :=
  let gravity_world : Vector3f K := ![0, 0, 9.81]
  let g_body := mulVec (transpose R) gravity_world
  zeroNonFinite (scale (cross c.com_offset g_body) c.mass_total)

def targetOmegaWorld : Vector3f K :=
  ![0, 0, if c.yawspeed_setpoint.isFinite then c.yawspeed_setpoint else 0]

def omegaR (R : Matrix3f K) (beta_v : Vector3f K) : Vector3f K :=
  let omega_r := mulVec (transpose R) c.targetOmegaWorld -
    scale (emult c.proportional_gain beta_v) (1 + 1)
  fun i =>
    if (omega_r i).isFinite then math.constrain (omega_r i) (-c.rate_limit i) (c.rate_limit i)
    else 0

def omegaRDot (omega_r : Vector3f K) (dt : Flt K) (i : Fin 3) : Flt K :=
  let alpha := math.constrain (dt / (0.02 + dt)) 0 1
  let omega_r_dot_raw := (omega_r i - c.omega_r_prev i) / dt
  let max_omega_r_dot := math.max (c.rate_limit i / 0.1) 1
  let omega_r_dot_limited :=
    if omega_r_dot_raw.isFinite then
      math.constrain omega_r_dot_raw (-max_omega_r_dot) max_omega_r_dot
    else 0
  c.omega_r_dot i + alpha * (omega_r_dot_limited - c.omega_r_dot i)

/-- The last part of `update`. -/
def updateDerivative (omega_r : Vector3f K) (dt : Flt K) : ESOAttitudeControl K :=
  if ! c.omega_r_prev_valid then
    { c with omega_r_dot := fun _ => 0, omega_r_prev := omega_r, omega_r_prev_valid := true }
  else if dt.isFinite ∧ 1e-4 < dt then
    { c with omega_r_dot := c.omegaRDot omega_r dt, omega_r_prev := omega_r }
  else { c.resetOmegaRDerivative with omega_r_prev := omega_r, omega_r_prev_valid := true }

/-- `update`, and the body rate that it returns. -/
def update (q : Quatf K) (dt : Flt K) : ESOAttitudeControl K × Vector3f K :=
  let R := dcm (qCurr q)
  let beta_v := c.betaV dcm quat R
  let omega_r := c.omegaR R beta_v
  ({ c with beta_v := beta_v, tau_s := c.tauS R }.updateDerivative omega_r dt, omega_r)

end Update

/-! ### Runs -/

/-- What the attitude loop hands to the rate loop. -/
structure Output (K : Type*) where
  omega_r : Vector3f K
  omega_r_dot : Vector3f K
  beta_v : Vector3f K
  tau_s : Vector3f K

inductive Op (K : Type*)
  | setAttitudeSetpoint (qd : Quatf K) (yawspeed_setpoint : Flt K)
  | adaptAttitudeSetpoint (q_delta : Quatf K)
  | setTauSParameters (mass_total : Flt K) (com_offset : Vector3f K)
  | resetOmegaRDerivative
  | update (q : Quatf K) (dt : Flt K)

def step (dcm : Quatf K → Matrix3f K) (quat : Matrix3f K → Quatf K) (c : ESOAttitudeControl K) :
    Op K → ESOAttitudeControl K × Option (Output K)
  | .setAttitudeSetpoint qd yawspeed_setpoint => (c.setAttitudeSetpoint qd yawspeed_setpoint, none)
  | .adaptAttitudeSetpoint q_delta => (c.adaptAttitudeSetpoint q_delta, none)
  | .setTauSParameters mass_total com_offset => (c.setTauSParameters mass_total com_offset, none)
  | .resetOmegaRDerivative => (c.resetOmegaRDerivative, none)
  | .update q dt =>
    match c.update dcm quat q dt with
    | (c, omega_r) => (c, some ⟨omega_r, c.omega_r_dot, c.beta_v, c.tau_s⟩)

end ESOAttitudeControl
