/-
`LandDetector::Run` with `MulticopterLandDetector`.

What the subscriptions deliver and what `hrt_absolute_time` returns are the inputs of a cycle.  The
trigger time is a parameter of the run; from it come the delays of the hystereses, which are written
in every cycle.

* `delay_one_le`, `trigger_lt` — three delays are the trigger time, up to rounding;
* `groundContactState_true` — what a vehicle that is armed does when it has contact;
* `maybeLandedState_true` — with an estimate of the vertical velocity, contact is asked for.
-/
import AerialManipulator.LandDetector.Stages
import AerialManipulator.Lib.Binary32
import AerialManipulator.PosControl.Takeoff

open WithNaN

namespace LandDetector

/-! ### Data -/

/-- The fields of `vehicle_local_position_s` that are read. -/
structure LocalPosition (K : Type*) where
  timestamp : UInt64
  vx : Flt K
  vy : Flt K
  vz : Flt K
  v_xy_valid : Bool
  v_z_valid : Bool
  dist_bottom : Flt K
  dist_bottom_valid : Bool
  dist_bottom_sensor_bitfield : UInt8

/-- The parameters, but for the trigger time. -/
structure ParamValues (K : Type*) where
  mpc_thr_min : Flt K
  mpc_manthr_min : Flt K
  mpc_land_speed : Flt K
  mpc_use_hte : ℤ
  mpc_thr_hover : Flt K
  lndmc_alt_max : Flt K
  lndmc_rot_max : Flt K
  lndmc_xy_vel_max : Flt K
  lndmc_z_vel_max : Flt K
  lndmc_alt_gnd : Flt K

structure HoverThrustEstimate (K : Type*) where
  timestamp : UInt64
  valid : Bool
  hover_thrust : Flt K

/-- `vehicle_land_detected_s`; without a maximum, `alt_max` is infinite. -/
structure LandDetected (K : Type*) where
  timestamp : UInt64
  alt_max : Option (Flt K)
  freefall : Bool
  ground_contact : Bool
  maybe_landed : Bool
  landed : Bool
  in_ground_effect : Bool
  in_descend : Bool
  has_low_throttle : Bool
  vertical_movement : Bool
  horizontal_movement : Bool
  close_to_ground_or_skipped_check : Bool

/-- The parameters as they are used; `lndmc_z_vel_max` is changed by `_update_params`. -/
structure Params (K : Type*) where
  minThrottle : Flt K
  hoverThrottle : Flt K
  minManThrottle : Flt K
  landSpeed : Flt K
  useHoverThrustEstimate : Bool
  lndmc_alt_max : Flt K
  lndmc_rot_max : Flt K
  lndmc_xy_vel_max : Flt K
  lndmc_z_vel_max : Flt K
  lndmc_alt_gnd : Flt K

structure Detector (K : Type*) where
  params : Params K
  freefall_hysteresis : Hysteresis
  stages : Stages
  ground_effect_hysteresis : Hysteresis
  vehicle_local_position : LocalPosition K
  acceleration : Vector3f K
  armed : Bool
  dist_bottom_is_observable : Bool
  land_detected : LandDetected K
  hover_thrust_estimate_last_valid : UInt64
  hover_thrust_estimate_valid : Bool
  flag_control_climb_rate_enabled : Bool
  hover_thrust_initialized : Bool
  actuator_controls_throttle : Flt K
  takeoff_state : ESOTakeoffState
  min_thrust_start : UInt64
  landed_time : UInt64
  in_descend : Bool
  horizontal_movement : Bool
  vertical_movement : Bool
  has_low_throttle : Bool
  close_to_ground_or_skipped_check : Bool
  below_gnd_effect_hgt : Bool

/-- What the subscriptions have for a cycle, and the readings of the clock: in `Run`, in the three
functions that read it, and for the message. -/
structure Cycle (K : Type*) where
  parameter_update : Bool
  parameters : ParamValues K
  actuator_armed : Option Bool
  vehicle_acceleration : Option (Vector3f K)
  vehicle_local_position : Option (LocalPosition K)
  actuator_controls : Option (Flt K)
  vehicle_control_mode : Option Bool
  hover_thrust_estimate : Option (HoverThrustEstimate K)
  takeoff_status : Option ESOTakeoffState
  trajectory_setpoint : Option (Flt K)
  vehicle_angular_velocity : Vector2f K
  now_us : UInt64
  contact_now : UInt64
  maybe_now : UInt64
  landed_now : UInt64
  elapsed_now : UInt64
  publish_now : UInt64

/-! ### Delays -/

/-- The conversion of a float to `hrt_abstime`; that of a value that does not fit is undefined. -/
def toAbstime (x : ℚ) : UInt64 :=
  if ⌊x⌋₊ < 2 ^ 64 then UInt64.ofNat ⌊x⌋₊ else UInt64.ofNat (2 ^ 64 - 1)

/-- `_param_lndmc_trig_time.get() * 1_s / 3 * factor`, in floats. -/
def delay (trig_time : ℚ) (factor : ℕ) : UInt64 :=
  let fl := Rounding.binary32.round
  toAbstime (fl (fl (fl (trig_time * 1000000) / 3) * factor))

def FREEFALL_TRIGGER_TIME_US : UInt64 := 300000

def LAND_DETECTOR_LAND_PHASE_TIME_US : UInt64 := 2000000

def DIST_BOTTOM_SENSOR_RANGE : UInt8 := 1

namespace Detector

variable {K : Type*} [Field K] [LinearOrder K] [Elementary K] (s : Detector K) (now : UInt64)

def updateParams (v : ParamValues K) : Detector K :=
  let useHoverThrustEstimate := v.mpc_use_hte = 1
  let params : Params K :=
    { minThrottle := v.mpc_thr_min
      minManThrottle := v.mpc_manthr_min
      landSpeed := v.mpc_land_speed
      useHoverThrustEstimate := useHoverThrustEstimate
      hoverThrottle :=
        if !useHoverThrustEstimate || !s.hover_thrust_initialized then v.mpc_thr_hover
        else s.params.hoverThrottle
      lndmc_alt_max := v.lndmc_alt_max
      lndmc_rot_max := v.lndmc_rot_max
      lndmc_xy_vel_max := v.lndmc_xy_vel_max
      lndmc_z_vel_max :=
        if v.mpc_land_speed < v.lndmc_z_vel_max then v.mpc_land_speed else v.lndmc_z_vel_max
      lndmc_alt_gnd := v.lndmc_alt_gnd }
  { s with
    params := params
    hover_thrust_initialized :=
      if !useHoverThrustEstimate || !s.hover_thrust_initialized then true
      else s.hover_thrust_initialized }

def updateTopics (c : Cycle K) : Detector K :=
  let s := { s with
    actuator_controls_throttle := c.actuator_controls.getD s.actuator_controls_throttle
    flag_control_climb_rate_enabled :=
      c.vehicle_control_mode.getD s.flag_control_climb_rate_enabled
    takeoff_state := c.takeoff_status.getD s.takeoff_state }
  match c.hover_thrust_estimate with
  | some hte =>
    if s.params.useHoverThrustEstimate && hte.valid then
      { s with
        params := { s.params with hoverThrottle := hte.hover_thrust }
        hover_thrust_estimate_last_valid := hte.timestamp }
    else s
  | none => s

def freefallState : Bool := length s.acceleration < num 2

def gndEffectAltitude : Option (Flt K) :=
  if s.params.lndmc_alt_gnd < 0 then none else some s.params.lndmc_alt_gnd

def isCloseToGround : Bool :=
  s.vehicle_local_position.dist_bottom_valid && s.vehicle_local_position.dist_bottom < 1

def lposAvailable : Bool := now - s.vehicle_local_position.timestamp < 1000000

def landSpeedThreshold : Flt K := 0.9 * math.max s.params.landSpeed 0.1

def maxClimbRate : Flt K :=
  if s.actuator_controls_throttle < s.params.minThrottle then s.landSpeedThreshold
  else if now - s.landed_time < LAND_DETECTOR_LAND_PHASE_TIME_US then s.params.lndmc_z_vel_max * 2.5
  else math.min (s.landSpeedThreshold * 0.5) s.params.lndmc_z_vel_max

/-- The movements in `_get_ground_contact_state`. -/
def updateMovement : Detector K :=
  let lpos := s.vehicle_local_position
  { s with
    vertical_movement :=
      if s.lposAvailable now && lpos.v_z_valid then s.maxClimbRate now < fabsf lpos.vz else true
    horizontal_movement :=
      if s.lposAvailable now && lpos.v_xy_valid then
        s.params.lndmc_xy_vel_max * s.params.lndmc_xy_vel_max <
          lpos.vx * lpos.vx + lpos.vy * lpos.vy
      else false
    below_gnd_effect_hgt :=
      if s.lposAvailable now && lpos.dist_bottom_valid then
        match s.gndEffectAltitude with
        | some altitude => lpos.dist_bottom < altitude
        | none => lpos.dist_bottom.isFinite
      else false }

/-- The throttle in `_get_ground_contact_state`. -/
def updateThrottle : Detector K :=
  let valid : Bool := now - s.hover_thrust_estimate_last_valid < 1000000
  -- the estimate keeps its validity during a descent
  let hover_thrust_estimate_valid :=
    if !s.in_descend || valid then valid else s.hover_thrust_estimate_valid
  let thr_pct_hover : Flt K := if hover_thrust_estimate_valid then 0.6 else 0.3
  let sys_low_throttle :=
    s.params.minThrottle + (s.params.hoverThrottle - s.params.minThrottle) * thr_pct_hover
  { s with
    hover_thrust_estimate_valid := hover_thrust_estimate_valid
    has_low_throttle := s.actuator_controls_throttle ≤ sys_low_throttle }

/-- The descent in `_get_ground_contact_state`. -/
def updateDescend (trajectory_setpoint : Option (Flt K)) : Detector K :=
  { s with
    in_descend :=
      if s.flag_control_climb_rate_enabled then
        match trajectory_setpoint with
        | some vz => vz.isFinite && s.landSpeedThreshold ≤ vz
        | none => s.in_descend
      else false
    close_to_ground_or_skipped_check :=
      s.isCloseToGround || !s.dist_bottom_is_observable ||
        !s.vehicle_local_position.dist_bottom_valid }

def groundContactState (trajectory_setpoint : Option (Flt K)) : Detector K × Bool :=
  let s := ((s.updateMovement now).updateThrottle now).updateDescend trajectory_setpoint
  let descend_required := s.flag_control_climb_rate_enabled &&
    (!s.stages.maybe_landed.state && !s.stages.landed.state)
  let ground_contact := s.has_low_throttle && (!descend_required || s.in_descend)
  (s, !s.armed || (s.close_to_ground_or_skipped_check && ground_contact && !s.horizontal_movement &&
    !s.vertical_movement))

def sysMinThrottle : Flt K :=
  if !s.flag_control_climb_rate_enabled then s.params.minManThrottle + 0.01
  else s.params.minThrottle + (s.params.hoverThrottle - s.params.minThrottle) * 0.1

def landThresholdFactor : Flt K :=
  if s.actuator_controls_throttle < s.sysMinThrottle then num 5
  else if now - s.landed_time < LAND_DETECTOR_LAND_PHASE_TIME_US then 2.5
  else 1

/-- The throttle has been low since the first of these calls. -/
def startMinThrust : Detector K :=
  { s with min_thrust_start := if s.min_thrust_start = 0 then now else s.min_thrust_start }

def maybeLandedState (angular_velocity : Vector2f K) : Detector K × Bool :=
  if !s.armed then (s, true)
  else if s.actuator_controls_throttle ≤ s.sysMinThrottle then
    let s := s.startMinThrust now
    if s.freefall_hysteresis.state then (s, false)
    else if math.radians s.params.lndmc_rot_max * s.landThresholdFactor now <
        length angular_velocity then (s, false)
    else if s.lposAvailable now && s.vehicle_local_position.v_z_valid then
      (s, s.stages.ground_contact.state)
    else (s, 0 < s.min_thrust_start && 8000000 < now - s.min_thrust_start)
  else ({ s with min_thrust_start := 0 }, false)

def landedState : Detector K × Bool :=
  let s := { s with
    landed_time :=
      if !s.stages.maybe_landed.state then 0
      else if s.landed_time = 0 then now
      else s.landed_time }
  (s, !s.armed || s.stages.maybe_landed.state)

def groundEffectState : Bool :=
  (s.in_descend && !s.horizontal_movement) ||
    (s.below_gnd_effect_hgt && s.takeoff_state = .flight) || s.takeoff_state = .rampup

/-! ### `Run` -/

/-- The parameters are read when they have changed, and in the first cycle. -/
def readParams (c : Cycle K) : Detector K :=
  if c.parameter_update || s.land_detected.timestamp = 0 then s.updateParams c.parameters else s

def readMessages (c : Cycle K) : Detector K :=
  { s with
    armed := c.actuator_armed.getD s.armed
    acceleration := c.vehicle_acceleration.getD s.acceleration
    vehicle_local_position := c.vehicle_local_position.getD s.vehicle_local_position }

def observeDistBottom : Detector K :=
  { s with
    dist_bottom_is_observable := s.dist_bottom_is_observable ||
      s.vehicle_local_position.dist_bottom_sensor_bitfield &&& DIST_BOTTOM_SENSOR_RANGE ≠ 0 }

def readTopics (c : Cycle K) : Detector K :=
  (((s.readParams c).readMessages c).updateTopics c).observeDistBottom

def factor : ℕ :=
  if s.dist_bottom_is_observable && !s.vehicle_local_position.dist_bottom_valid then 3 else 1

/-- `_set_hysteresis_factor`, for the three stages. -/
def setHysteresisFactor (trig_time : ℚ) : Detector K :=
  let d := delay trig_time s.factor
  { s with
    stages :=
      ⟨s.stages.ground_contact.setHysteresisTimeFrom false d,
        s.stages.maybe_landed.setHysteresisTimeFrom false d,
        s.stages.landed.setHysteresisTimeFrom false d⟩
    freefall_hysteresis :=
      s.freefall_hysteresis.setHysteresisTimeFrom false FREEFALL_TRIGGER_TIME_US }

def callFreefall : Detector K :=
  { s with
    freefall_hysteresis := s.freefall_hysteresis.setStateAndUpdate s.freefallState now }

def callGroundContact (c : Cycle K) : Detector K :=
  match s.groundContactState c.contact_now c.trajectory_setpoint with
  | (s, state) => { s with
      stages := { s.stages with
        ground_contact := s.stages.ground_contact.setStateAndUpdate state c.now_us } }

def callMaybeLanded (c : Cycle K) : Detector K :=
  match s.maybeLandedState c.maybe_now c.vehicle_angular_velocity with
  | (s, state) => { s with
      stages := { s.stages with
        maybe_landed := s.stages.maybe_landed.setStateAndUpdate state c.now_us } }

def callLanded (c : Cycle K) : Detector K :=
  match s.landedState c.landed_now with
  | (s, state) => { s with
      stages := { s.stages with landed := s.stages.landed.setStateAndUpdate state c.now_us } }

def callGroundEffect : Detector K :=
  { s with
    ground_effect_hysteresis :=
      s.ground_effect_hysteresis.setStateAndUpdate s.groundEffectState now }

/-- The maximum altitude of the message: there is none unless the parameter is positive. -/
def altMax : Option (Flt K) :=
  if 0 < s.params.lndmc_alt_max then some s.params.lndmc_alt_max else none

/-- `fabsf(a - b) > FLT_EPSILON`; the difference of two infinite values is not a number. -/
def altChanged : Option (Flt K) → Option (Flt K) → Bool
  | some a, some b => num (FLT_EPSILON K) < fabsf (a - b)
  | some a, none => a.isFinite
  | none, some b => b.isFinite
  | none, none => false

/-- The message is renewed every second and when something in it changes. -/
def publish (elapsed_now : UInt64) : Detector K :=
  let old := s.land_detected
  if elapsed_now - old.timestamp ≥ 1000000 || old.landed != s.stages.landed.state ||
      old.freefall != s.freefall_hysteresis.state ||
      old.maybe_landed != s.stages.maybe_landed.state ||
      old.ground_contact != s.stages.ground_contact.state ||
      old.in_ground_effect != s.ground_effect_hysteresis.state ||
      altChanged old.alt_max s.altMax then
    { s with
      land_detected :=
        { timestamp := now
          alt_max := s.altMax
          freefall := s.freefall_hysteresis.state
          ground_contact := s.stages.ground_contact.state
          maybe_landed := s.stages.maybe_landed.state
          landed := s.stages.landed.state
          in_ground_effect := s.ground_effect_hysteresis.state
          in_descend := s.in_descend
          has_low_throttle := s.has_low_throttle
          vertical_movement := s.vertical_movement
          horizontal_movement := s.horizontal_movement
          close_to_ground_or_skipped_check := s.close_to_ground_or_skipped_check } }
  else s

/-- The detector before the hystereses of the stages are called. -/
def prepared (trig_time : ℚ) (c : Cycle K) : Detector K :=
  ((s.readTopics c).setHysteresisFactor trig_time).callFreefall c.now_us

def contacted (trig_time : ℚ) (c : Cycle K) : Detector K :=
  (s.prepared trig_time c).callGroundContact c

def maybeLanded (trig_time : ℚ) (c : Cycle K) : Detector K :=
  (s.contacted trig_time c).callMaybeLanded c

def staged (trig_time : ℚ) (c : Cycle K) : Detector K :=
  (s.maybeLanded trig_time c).callLanded c

def run (trig_time : ℚ) (c : Cycle K) : Detector K :=
  ((s.staged trig_time c).callGroundEffect c.now_us).publish c.publish_now c.elapsed_now

end Detector

/-! ### The delays -/

section Delay

open Rounding

variable {trig_time x y : ℚ}

theorem toAbstime_mono (hxy : x ≤ y) : (toAbstime x).toNat ≤ (toAbstime y).toNat := by
  have hfloor := Nat.floor_mono hxy
  unfold toAbstime
  split_ifs with hx hy hy
  · rw [UInt64.toNat_ofNat_of_lt' hx, UInt64.toNat_ofNat_of_lt' hy]
    exact hfloor
  · rw [UInt64.toNat_ofNat_of_lt' hx, UInt64.toNat_ofNat_of_lt' (by decide)]
    exact Nat.le_sub_one_of_lt hx
  · exact absurd (hfloor.trans_lt hy) hx
  · exact le_rfl

theorem lt_toAbstime (h : (toAbstime x).toNat < 2 ^ 64 - 1) : x < (toAbstime x).toNat + 1 := by
  unfold toAbstime at h ⊢
  split_ifs at h ⊢ with hx
  · rw [UInt64.toNat_ofNat_of_lt' hx]
    exact Nat.lt_floor_add_one x
  · rw [UInt64.toNat_ofNat_of_lt' (by decide)] at h
    exact absurd h (lt_irrefl _)

def third (trig_time : ℚ) : ℚ :=
  binary32.round (binary32.round (trig_time * 1000000) / 3)

theorem third_le (htrig : 0 < trig_time) :
    trig_time * 1000000 * (1 - 1 / 2 ^ 24) ^ 2 ≤ 3 * third trig_time := by
  have htime : 0 ≤ trig_time * 1000000 := by positivity
  have hround := le_binary32 htime
  have hpos : 0 ≤ binary32.round (trig_time * 1000000) / 3 :=
    div_nonneg ((mul_nonneg htime (by norm_num)).trans hround) (by norm_num)
  have hround' := le_binary32 hpos
  unfold third
  linarith

theorem third_nonneg (htrig : 0 < trig_time) : 0 ≤ third trig_time := by
  have hle := third_le htrig
  have hpos : 0 ≤ trig_time * 1000000 * (1 - 1 / 2 ^ 24) ^ 2 := by positivity
  linarith

theorem delay_one_le {K : Type*} (htrig : 0 < trig_time) (s : Detector K) :
    (delay trig_time 1).toNat ≤ (delay trig_time s.factor).toNat := by
  have hthird := third_nonneg htrig
  have hle : third trig_time * (1 : ℕ) ≤ third trig_time * s.factor := by
    unfold Detector.factor
    split
    · push_cast
      linarith
    · exact le_rfl
  exact toAbstime_mono (binary32.mono hle)

theorem trigger_lt (htrig : 0 < trig_time) (hfits : (delay trig_time 1).toNat < 2 ^ 64 - 1) :
    trig_time * 1000000 * (1 - 1 / 2 ^ 22) < 3 * (delay trig_time 1).toNat + 3 := by
  have hlt := lt_toAbstime hfits
  have hthird := third_nonneg htrig
  have hround : third trig_time * (1 - 1 / 2 ^ 24) ≤
      binary32.round (third trig_time * (1 : ℕ)) := by
    rw [Nat.cast_one, mul_one]
    exact le_binary32 hthird
  have hle := third_le htrig
  change binary32.round (third trig_time * (1 : ℕ)) < (delay trig_time 1).toNat + 1 at hlt
  have hshort := hround.trans_lt hlt
  have hpos : 0 ≤ trig_time * 1000000 := by positivity
  have hfactor : (1 - 1 / 2 ^ 22 : ℚ) ≤ (1 - 1 / 2 ^ 24) ^ 2 * (1 - 1 / 2 ^ 24) := by norm_num
  calc trig_time * 1000000 * (1 - 1 / 2 ^ 22)
      ≤ trig_time * 1000000 * ((1 - 1 / 2 ^ 24) ^ 2 * (1 - 1 / 2 ^ 24)) :=
        mul_le_mul_of_nonneg_left hfactor hpos
    _ = trig_time * 1000000 * (1 - 1 / 2 ^ 24) ^ 2 * (1 - 1 / 2 ^ 24) := (mul_assoc _ _ _).symm
    _ ≤ 3 * third trig_time * (1 - 1 / 2 ^ 24) := mul_le_mul_of_nonneg_right hle (by norm_num)
    _ < 3 * (delay trig_time 1).toNat + 3 := by linarith only [hshort]

end Delay

/-! ### The states -/

namespace Detector

section States

variable {K : Type*} [Field K] [LinearOrder K] [Elementary K] {s : Detector K} {c : Cycle K}
  {now : UInt64} {trig_time : ℚ}

omit [Elementary K] in
theorem groundContactState_true {trajectory_setpoint : Option (Flt K)}
    (h : (s.groundContactState now trajectory_setpoint).2 = true) (harmed : s.armed = true) :
    (s.groundContactState now trajectory_setpoint).1.has_low_throttle = true ∧
      (s.groundContactState now trajectory_setpoint).1.horizontal_movement = false ∧
      (s.groundContactState now trajectory_setpoint).1.vertical_movement = false := by
  unfold groundContactState at h ⊢
  dsimp only at h ⊢
  generalize hs' : ((s.updateMovement now).updateThrottle now).updateDescend trajectory_setpoint
    = s' at h ⊢
  have harmed' : s'.armed = true := by
    rw [← hs']
    exact harmed
  simp only [harmed', Bool.not_true, Bool.false_or, Bool.and_eq_true, Bool.not_eq_true'] at h
  exact ⟨h.1.1.2.1, h.1.2, h.2⟩

/-- With an estimate of the vertical velocity, a vehicle that is armed has to have contact. -/
theorem maybeLandedState_true {angular_velocity : Vector2f K}
    (h : (s.maybeLandedState now angular_velocity).2 = true) (harmed : s.armed = true)
    (hlpos : s.lposAvailable now = true) (hvalid : s.vehicle_local_position.v_z_valid = true) :
    s.stages.ground_contact.state = true := by
  unfold maybeLandedState at h
  rw [if_neg (by simp [harmed])] at h
  by_cases hthrottle : s.actuator_controls_throttle ≤ s.sysMinThrottle
  · rw [if_pos hthrottle] at h
    dsimp only at h
    split at h
    · exact nomatch h
    · split at h
      · exact nomatch h
      · have hestimate : ((s.startMinThrust now).lposAvailable now &&
            (s.startMinThrust now).vehicle_local_position.v_z_valid) = true :=
          Bool.and_eq_true_iff.mpr ⟨hlpos, hvalid⟩
        rw [if_pos hestimate] at h
        exact h
  · rw [if_neg hthrottle] at h
    exact nomatch h

theorem maybeLandedState_frame (angular_velocity : Vector2f K) :
    ∃ t, (s.maybeLandedState now angular_velocity).1 = { s with min_thrust_start := t } := by
  unfold maybeLandedState
  split
  · exact ⟨_, rfl⟩
  · split
    · dsimp only
      split
      · exact ⟨_, rfl⟩
      · split
        · exact ⟨_, rfl⟩
        · split <;> exact ⟨_, rfl⟩
    · exact ⟨_, rfl⟩

/-! ### One cycle -/

def stageInput (s : Detector K) (trig_time : ℚ) (c : Cycle K) : StageInput where
  now := c.now_us
  delay := delay trig_time (s.readTopics c).factor
  ground_contact := ((s.prepared trig_time c).groundContactState c.contact_now
    c.trajectory_setpoint).2
  maybe_landed := ((s.contacted trig_time c).maybeLandedState c.maybe_now
    c.vehicle_angular_velocity).2
  landed := ((s.maybeLanded trig_time c).landedState c.landed_now).2

theorem callMaybeLanded_frame : ∃ t, s.callMaybeLanded c =
    { s with
      min_thrust_start := t
      stages := { s.stages with
        maybe_landed := s.stages.maybe_landed.setStateAndUpdate
          (s.maybeLandedState c.maybe_now c.vehicle_angular_velocity).2 c.now_us } } := by
  obtain ⟨t, ht⟩ := @maybeLandedState_frame _ _ _ _ s c.maybe_now c.vehicle_angular_velocity
  refine ⟨t, ?_⟩
  unfold callMaybeLanded
  generalize s.maybeLandedState c.maybe_now c.vehicle_angular_velocity = r at ht ⊢
  obtain ⟨s', state⟩ := r
  dsimp only at ht ⊢
  rw [ht]

omit [Elementary K] in
theorem publish_frame (elapsed_now : UInt64) :
    ∃ m, s.publish now elapsed_now = { s with land_detected := m } := by
  unfold publish
  dsimp only
  split
  · exact ⟨_, rfl⟩
  · exact ⟨s.land_detected, rfl⟩

omit [Elementary K] in
theorem publish_land_detected (elapsed_now : UInt64) :
    (s.publish now elapsed_now).land_detected.landed = s.stages.landed.state ∧
      (s.publish now elapsed_now).land_detected.maybe_landed = s.stages.maybe_landed.state ∧
      (s.publish now elapsed_now).land_detected.ground_contact = s.stages.ground_contact.state := by
  unfold publish
  dsimp only
  split
  · exact ⟨rfl, rfl, rfl⟩
  next hkeep =>
    simp only [Bool.or_eq_true, not_or, bne_iff_ne, ne_eq, not_not] at hkeep
    exact ⟨hkeep.1.1.1.1.1.2, hkeep.1.1.1.2, hkeep.1.1.2⟩

omit [Field K] [LinearOrder K] [Elementary K] in
theorem updateTopics_stages : (s.updateTopics c).stages = s.stages := by
  unfold updateTopics
  dsimp only
  split
  · split <;> rfl
  · rfl

omit [Field K] [Elementary K] in
theorem readTopics_stages : (s.readTopics c).stages = s.stages := by
  have hparams : (s.readParams c).stages = s.stages := by
    unfold readParams
    split <;> rfl
  unfold readTopics
  exact updateTopics_stages.trans hparams

theorem prepared_stages : (s.prepared trig_time c).stages =
    ⟨s.stages.ground_contact.setHysteresisTimeFrom false (delay trig_time (s.readTopics c).factor),
      s.stages.maybe_landed.setHysteresisTimeFrom false (delay trig_time (s.readTopics c).factor),
      s.stages.landed.setHysteresisTimeFrom false (delay trig_time (s.readTopics c).factor)⟩ := by
  have hread : (s.readTopics c).stages = s.stages := readTopics_stages
  rw [← hread]
  rfl

theorem staged_stages :
    (s.staged trig_time c).stages = s.stages.call (s.stageInput trig_time c) := by
  obtain ⟨t, hframe⟩ := @callMaybeLanded_frame _ _ _ _ (s.contacted trig_time c) c
  have hcontact : (s.contacted trig_time c).stages = { (s.prepared trig_time c).stages with
      ground_contact := (s.prepared trig_time c).stages.ground_contact.setStateAndUpdate
        (s.stageInput trig_time c).ground_contact c.now_us } := rfl
  have hmaybe : (s.maybeLanded trig_time c).stages = { (s.contacted trig_time c).stages with
      maybe_landed := (s.contacted trig_time c).stages.maybe_landed.setStateAndUpdate
        (s.stageInput trig_time c).maybe_landed c.now_us } := by
    rw [maybeLanded, hframe]
    rfl
  have hlanded : (s.staged trig_time c).stages = { (s.maybeLanded trig_time c).stages with
      landed := (s.maybeLanded trig_time c).stages.landed.setStateAndUpdate
        (s.stageInput trig_time c).landed c.now_us } := rfl
  rw [hlanded, hmaybe, hcontact, prepared_stages]
  rfl

end States

end Detector

end LandDetector
