/-
`ESORateControl`: the body rate controller with its observer.

`update` reads the auxiliary terms of the attitude loop that `setAttitudeAux`
stored, filters the compensation torque (`filterTauS`), integrates the observer
and the rate error, and returns a normalised torque.

The matrix inverse `I` comes from the matrix library; it enters as the
parameter `inv`.  The derivative and feed-forward gains are stored by the source
and never read, the terms of the last cycle are cached for debugging only; both
are left out.
-/
import AerialManipulator.Math

open WithNaN

/-- The second-order observer of the body rate. -/
structure AttitudeESO (K : Type*) where
  beta1 : Vector3f K
  beta2 : Vector3f K
  z1_est_omega : Vector3f K
  z2_est_dist : Vector3f K

namespace AttitudeESO

variable {K : Type*} [Field K]

def init (wp : Vector3f K) : AttitudeESO K where
  beta1 := scale wp 2.0
  beta2 := emult wp wp
  z1_est_omega := fun _ => 0
  z2_est_dist := fun _ => 0

def reset (e : AttitudeESO K) : AttitudeESO K :=
  { e with z1_est_omega := fun _ => 0, z2_est_dist := fun _ => 0 }

/-- One Euler step; the estimate the source returns is `z2_est_dist`. -/
def update (e : AttitudeESO K) (omega_meas u_input : Vector3f K) (dt : Flt K) : AttitudeESO K :=
  let err := omega_meas - e.z1_est_omega
  let z1_dot := u_input + e.z2_est_dist + emult e.beta1 err
  let z2_dot := emult e.beta2 err
  { e with
    z1_est_omega := e.z1_est_omega + scale z1_dot dt
    z2_est_dist := e.z2_est_dist + scale z2_dot dt }

end AttitudeESO

structure ESORateControl (K : Type*) where
  -- gains and limits
  gain_p : Vector3f K
  gain_i : Vector3f K
  lim_int : Vector3f K
  k_beta : Flt K
  max_torque : Flt K
  integral_scale : Flt K
  tau_s_scale : Flt K
  tau_s_axis_scale : Vector3f K
  tau_s_obs_axis_scale : Vector3f K
  tau_s_ctrl_axis_scale : Vector3f K
  tau_s_limit_nm : Flt K
  tau_s_filter_tau : Flt K
  -- states
  rate_int : Vector3f K
  tau_s_filter_valid : Bool
  tau_s_filtered : Vector3f K
  last_torque : Vector3f K
  eso : AttitudeESO K
  -- auxiliary terms of the attitude loop
  omega_r_dot : Vector3f K
  beta_v : Vector3f K
  tau_s : Vector3f K
  -- model
  inertia : Matrix3f K
  inertia_inv : Matrix3f K
  -- feedback of the control allocator
  saturation_negative : Fin 3 → Bool
  saturation_positive : Fin 3 → Bool

namespace ESORateControl

/-- The terms of the attitude loop that `update` reads. -/
def aux {K : Type*} (c : ESORateControl K) : Vector3f K × Vector3f K × Vector3f K :=
  (c.omega_r_dot, c.beta_v, c.tau_s)

variable {K : Type*} [Field K] [LinearOrder K]

def diag (d : Vector3f K) : Matrix3f K := fun i j => if i = j then d i else 0

def init (K : Type*) [Field K] : ESORateControl K where
  gain_p := fun _ => 0
  gain_i := fun _ => 0
  lim_int := fun _ => 0
  k_beta := 0.5
  max_torque := 1.5
  integral_scale := 0.2
  tau_s_scale := 0
  tau_s_axis_scale := fun _ => 1
  tau_s_obs_axis_scale := fun _ => 1
  tau_s_ctrl_axis_scale := fun _ => 1
  tau_s_limit_nm := 0.3
  tau_s_filter_tau := 0.1
  rate_int := fun _ => 0
  tau_s_filter_valid := false
  tau_s_filtered := fun _ => 0
  last_torque := fun _ => 0
  eso := AttitudeESO.init fun _ => num 30
  omega_r_dot := fun _ => 0
  beta_v := fun _ => 0
  tau_s := fun _ => 0
  inertia := diag ![0.045, 0.045, 0.08]
  inertia_inv := diag ![num (1 / 0.045), num (1 / 0.045), num (1 / 0.08)]
  saturation_negative := fun _ => false
  saturation_positive := fun _ => false

/-! ### Setters -/

def setGains (c : ESORateControl K) (P I : Vector3f K) : ESORateControl K :=
  { c with gain_p := P, gain_i := I }

def setIntegratorLimit (c : ESORateControl K) (limit : Vector3f K) : ESORateControl K :=
  { c with lim_int := limit }

def setSaturationStatus (c : ESORateControl K) (positive negative : Fin 3 → Bool) :
    ESORateControl K :=
  { c with saturation_positive := positive, saturation_negative := negative }

def setAttitudeAux (c : ESORateControl K) (omega_r_dot beta_v tau_s : Vector3f K) :
    ESORateControl K :=
  { c with omega_r_dot := omega_r_dot, beta_v := beta_v, tau_s := tau_s }

def invertible (d : Vector3f K) : Bool :=
  (List.finRange 3).all fun i => decide (1e-6 < fabsf (d i))

def setInertiaDiagonal (c : ESORateControl K) (inertia_diag : Vector3f K) : ESORateControl K :=
  { c with
    inertia := diag inertia_diag
    inertia_inv :=
      if invertible inertia_diag then diag fun i => 1 / inertia_diag i else fun _ _ => 0 }

/-- A singular matrix keeps the old inverse, or takes that of its diagonal. -/
def setInertiaMatrix (inv : Matrix3f K → Option (Matrix3f K)) (c : ESORateControl K)
    (inertia : Matrix3f K) : ESORateControl K :=
  { c with
    inertia := inertia
    inertia_inv :=
      match inv inertia with
      | some M => M
      | none =>
        if invertible fun i => inertia i i then diag fun i => 1 / inertia i i
        else c.inertia_inv }

def setESOBandwidth (c : ESORateControl K) (bandwidth : Vector3f K) : ESORateControl K :=
  { c with eso := AttitudeESO.init fun i => if 0 ≤ bandwidth i then bandwidth i else 0 }

def setKBeta (c : ESORateControl K) (k_beta : Flt K) : ESORateControl K :=
  { c with k_beta := if 0 ≤ k_beta then k_beta else c.k_beta }

def setMaxTorque (c : ESORateControl K) (max_torque : Flt K) : ESORateControl K :=
  { c with max_torque := if 1e-3 < max_torque then max_torque else c.max_torque }

def setIntegralScale (c : ESORateControl K) (integral_scale : Flt K) : ESORateControl K :=
  { c with integral_scale := if 0 ≤ integral_scale then integral_scale else c.integral_scale }

def setTauSScale (c : ESORateControl K) (tau_s_scale : Flt K) : ESORateControl K :=
  { c with tau_s_scale := if 0 ≤ tau_s_scale then tau_s_scale else c.tau_s_scale }

/-- The finite components of `new`, the others of `old`. -/
def keepFinite (new old : Vector3f K) : Vector3f K :=
  fun i => if (new i).isFinite then new i else old i

def setTauSAxisScale (c : ESORateControl K) (s : Vector3f K) : ESORateControl K :=
  { c with tau_s_axis_scale := keepFinite s c.tau_s_axis_scale }

def setTauSObserverAxisScale (c : ESORateControl K) (s : Vector3f K) : ESORateControl K :=
  { c with tau_s_obs_axis_scale := keepFinite s c.tau_s_obs_axis_scale }

def setTauSControlAxisScale (c : ESORateControl K) (s : Vector3f K) : ESORateControl K :=
  { c with tau_s_ctrl_axis_scale := keepFinite s c.tau_s_ctrl_axis_scale }

def setTauSLimitNm (c : ESORateControl K) (limit : Flt K) : ESORateControl K :=
  { c with tau_s_limit_nm := if 0 ≤ limit then limit else c.tau_s_limit_nm }

def setTauSFilterTimeConstant (c : ESORateControl K) (tau : Flt K) : ESORateControl K :=
  { c with tau_s_filter_tau := if 0 ≤ tau then tau else c.tau_s_filter_tau }

def resetIntegral (c : ESORateControl K) : ESORateControl K := { c with rate_int := fun _ => 0 }

def resetESO (c : ESORateControl K) : ESORateControl K :=
  { c with
    eso := c.eso.reset
    last_torque := fun _ => 0
    omega_r_dot := fun _ => 0
    beta_v := fun _ => 0
    tau_s := fun _ => 0 }

/-! ### `update` -/

/-- `tau_s_base` before the filter: limited, scaled and signed. -/
def tauSBase (c : ESORateControl K) : Vector3f K :=
  let tau_s := keepFinite c.tau_s fun _ => 0
  let tau_s_scale := math.constrain c.tau_s_scale 0 1
  let tau_s_limit_nm := math.max c.tau_s_limit_nm 0
  emult (scale (fun i => math.constrain (tau_s i) (-tau_s_limit_nm) tau_s_limit_nm) tau_s_scale)
    c.tau_s_axis_scale

/-- The low pass of the compensation torque and the torque that is injected;
off on the ground and while it is scaled or limited to zero. -/
def filterTauS (c : ESORateControl K) (dt : Flt K) (landed : Bool) :
    ESORateControl K × Vector3f K :=
  let tau_s_scale := math.constrain c.tau_s_scale 0 1
  let tau_s_limit_nm := math.max c.tau_s_limit_nm 0
  if landed ∨ tau_s_scale ≤ num (FLT_EPSILON K) ∨ tau_s_limit_nm ≤ num (FLT_EPSILON K) then
    ({ c with tau_s_filtered := fun _ => 0, tau_s_filter_valid := false }, fun _ => 0)
  else if !c.tau_s_filter_valid ∨ !dt.isFinite ∨ dt ≤ 1e-6
      ∨ c.tau_s_filter_tau ≤ num (FLT_EPSILON K) then
    ({ c with tau_s_filtered := c.tauSBase, tau_s_filter_valid := true }, c.tauSBase)
  else
    let alpha := math.constrain (dt / (c.tau_s_filter_tau + dt)) 0 1
    let tau_s_filtered := c.tau_s_filtered + scale (c.tauSBase - c.tau_s_filtered) alpha
    ({ c with tau_s_filtered := tau_s_filtered }, tau_s_filtered)

theorem aux_filterTauS (c : ESORateControl K) (dt : Flt K) (landed : Bool) :
    (c.filterTauS dt landed).1.aux = c.aux := by
  simp only [filterTauS]
  split_ifs <;> rfl

def resetLanded (c : ESORateControl K) : ESORateControl K :=
  { c with
    eso := c.eso.reset
    rate_int := fun _ => 0
    last_torque := fun _ => 0
    tau_s_filtered := fun _ => 0
    tau_s_filter_valid := false }

section Elementary

variable [Elementary K]

/-- One axis of `updateIntegral`: anti-windup, less gain for large errors, and
a limit. -/
def integralAxis (c : ESORateControl K) (rate_error dt : Flt K) (i : Fin 3) : Flt K :=
  let rate_error := if c.saturation_positive i then math.min rate_error 0 else rate_error
  let rate_error := if c.saturation_negative i then math.max rate_error 0 else rate_error
  let i_factor := rate_error / math.radians (num 400)
  let i_factor := math.max 0 (1 - i_factor * i_factor)
  let rate_i := c.rate_int i + i_factor * c.gain_i i * rate_error * dt
  if rate_i.isFinite then math.constrain rate_i (-c.lim_int i) (c.lim_int i) else c.rate_int i

def updateIntegral (c : ESORateControl K) (rate_error : Vector3f K) (dt : Flt K) :
    ESORateControl K :=
  { c with rate_int := fun i => c.integralAxis (rate_error i) dt i }

/-- The observer and the integral of the cycle; both stand still on the ground. -/
def observe (c : ESORateControl K) (rate rate_sp tau_s_obs : Vector3f K) (dt : Flt K)
    (landed : Bool) : ESORateControl K :=
  if landed then c.resetLanded
  else
    let coriolis_term := cross rate (mulVec c.inertia rate)
    let u_nominal := mulVec c.inertia_inv (c.last_torque - coriolis_term + tau_s_obs)
    let c := { c with eso := c.eso.update rate u_nominal dt }
    if dt.isFinite ∧ 1e-6 < dt then c.updateIntegral (rate_sp - rate) dt else c

theorem aux_observe (c : ESORateControl K) (rate rate_sp tau : Vector3f K) (dt : Flt K)
    (landed : Bool) : (c.observe rate rate_sp tau dt landed).aux = c.aux := by
  simp only [observe]
  split_ifs <;> rfl

/-- `torque_physical`, from the states after `observe`. -/
def torquePhysical (c : ESORateControl K) (rate rate_sp tau_s_ctrl : Vector3f K) (landed : Bool) :
    Vector3f K :=
  let disturbance_hat := if landed then fun _ => 0 else c.eso.z2_est_dist
  let omega_r_dot := keepFinite c.omega_r_dot fun _ => 0
  let beta_v := keepFinite c.beta_v fun _ => 0
  let inertia_term := mulVec c.inertia (omega_r_dot - disturbance_hat)
  let coriolis_term := cross rate (mulVec c.inertia rate)
  let feedback_term := emult c.gain_p (rate_sp - rate)
  let integral_term := scale c.rate_int c.integral_scale
  let beta_term := scale (fun i => -beta_v i) c.k_beta
  inertia_term + coriolis_term + feedback_term + beta_term + integral_term - tau_s_ctrl

/-- `update` and the normalised torque it returns. -/
def update (c : ESORateControl K) (rate rate_sp : Vector3f K) (dt : Flt K) (landed : Bool) :
    ESORateControl K × Vector3f K :=
  let max_torque := math.max c.max_torque 1e-3
  let (c, tau_s_base) := c.filterTauS dt landed
  let c := c.observe rate rate_sp (emult tau_s_base c.tau_s_obs_axis_scale) dt landed
  let torque_physical :=
    c.torquePhysical rate rate_sp (emult tau_s_base c.tau_s_ctrl_axis_scale) landed
  let torque_norm : Vector3f K := fun i =>
    math.constrain (torque_physical i / max_torque) (-1) 1
  -- the observer of the next cycle gets the torque that can be realised
  ({ c with last_torque := if landed then fun _ => 0 else scale torque_norm max_torque },
    torque_norm)

theorem aux_update (c : ESORateControl K) (rate rate_sp : Vector3f K) (dt : Flt K)
    (landed : Bool) : (c.update rate rate_sp dt landed).1.aux = c.aux := by
  calc (c.update rate rate_sp dt landed).1.aux
      = ((c.filterTauS dt landed).1.observe rate rate_sp _ dt landed).aux := rfl
    _ = c.aux := by rw [aux_observe, aux_filterTauS]

end Elementary

end ESORateControl
