/-
The outputs of the IO processor.

`mixer_tick` decides where the outputs are taken from, computes them, and decides whether they are
put out.  The three decisions look at the same flags, but not at the same of them.

* `chooseSource`, `decideSource`, `runMixers`, `emit` — the steps of a tick;
* **`provenance_iff`** — otherwise, and only then, each output is of this tick;
* **`override_repeats_output`** — an output of an earlier tick.
-/
import AerialManipulator.Px4io.RcConfig

namespace Px4io

open Flags

/-- The mixers.  `mix` asks for the controls, and gives the number of outputs and their values. -/
structure MixerGroup (G : Type*) extends MixerParser G where
  set_trims : G → (ℕ → UInt16) → G
  set_airmode : G → UInt16 → G
  set_max_delta_out_once : G → ℚ → UInt16 → UInt16 → UInt16 → G
  set_dt_once : G → ℚ → G
  set_thrust_factor : G → UInt16 → G
  mix : G → (ℕ → ℕ → WithNaN ℚ) → ℕ × (ℕ → WithNaN ℚ) × G

/-- Maximum interval before the FMU signal is considered lost. -/
def FMU_INPUT_DROP_LIMIT_US : ℕ := 500000

variable {G : Type*}

namespace State

/-! ### The controls of the mixers -/

section Callback

variable (s : State G)

def regToFloat (reg : UInt16) : WithNaN ℚ := .num (regToSigned reg / 10000)

/-- The control of the FMU, for the groups and the channels that there are. -/
def fmuControl (control_group control_index : ℕ) : Option UInt16 :=
  if control_index < CONTROL_CHANNELS ∧ control_group < CONTROL_GROUPS then
    some (s.controls (control_group * CONTROL_CHANNELS + control_index))
  else none

def rcControl (control_group control_index : ℕ) : Option UInt16 :=
  if s.rc_valid.toNat.testBit (control_group * CONTROL_CHANNELS + control_index) then
    some (s.rc_values control_index)
  else none

def sourceControl (control_group control_index : ℕ) : Option (WithNaN ℚ) :=
  match s.source with
  | .FMU =>
    -- catch NAN values encoded as INT16 max for disarmed outputs
    (s.fmuControl control_group control_index).map fun reg =>
      if reg = 0x7FFF then .nan else regToFloat reg
  | .OVERRIDE => (s.rcControl control_group control_index).map regToFloat
  | .OVERRIDE_FMU_OK =>
    ((s.rcControl control_group control_index).orElse
      fun _ => s.fmuControl control_group control_index).map regToFloat
  | _ => none

def trimmed (control_group control_index : ℕ) (control : WithNaN ℚ) : WithNaN ℚ :=
  if (s.source = .OVERRIDE ∨ s.source = .OVERRIDE_FMU_OK) ∧ control_group = 0 ∧ control_index < 3
    then
    control * regToFloat (s.setup (SETUP_SCALE_ROLL + control_index)) +
      regToFloat (s.setup (SETUP_TRIM_ROLL + control_index))
  else control

def constrainControl : WithNaN ℚ → WithNaN ℚ
  | .num x => .num (if x < -1 then -1 else if 1 < x then 1 else x)
  | .nan => .nan

def mixerCallback (control_group control_index : ℕ) : WithNaN ℚ :=
  if CONTROL_GROUPS ≤ control_group then .num 0
  else
    match s.sourceControl control_group control_index with
    | none => .num 0
    | some control =>
      let control := constrainControl (s.trimmed control_group control_index control)
      let throttle := (control_group = 0 ∨ control_group = 1) ∧ control_index = 3
      -- only safety off, but not armed - set throttle as invalid
      if (s.should_arm_nothrottle ∧ !s.should_arm) ∧ throttle then .nan
      -- motor spinup phase - lock throttle to zero
      else if s.pwm_limit.state = .RAMP ∧ throttle then .num 0
      else control

end Callback

/-! ### The steps of a tick -/

section Steps

variable (p : MixerGroup G) (s : State G) (now : ℕ) (dt : ℚ)

def createMixer : State G :=
  let locked := has s.status_flags STATUS_FLAGS_SAFETY_OFF && has s.setup_arming ARMING_FMU_ARMED
  let r := s.mixer.createMixer p.toMixerParser locked
  { s with
    mixer := r.1
    update_trims := s.update_trims || r.2
    update_mc_thrust_param := s.update_mc_thrust_param || r.2 }

def setGroup (group : G) : State G := { s with mixer := { s.mixer with group := group } }

def prepareMix : State G :=
  let group := s.mixer.group
  let group :=
    if 0 < regToSigned (s.setup SETUP_MOTOR_SLEW_MAX) then
      p.set_max_delta_out_once group dt (s.servo_control_max 0) (s.servo_control_min 0)
        (s.setup SETUP_MOTOR_SLEW_MAX)
    else group
  let group := p.set_dt_once group dt
  let group :=
    if s.update_mc_thrust_param then p.set_thrust_factor group (s.setup SETUP_THR_MDL_FAC)
    else group
  { s.setGroup group with update_mc_thrust_param := false }

/-- `mixer_mix_failsafe`: the failsafe values are those for all inputs as they are. -/
def mixerMixFailsafe : State G :=
  -- a custom failsafe value has been written, or the mixer is not ok
  if has s.setup_arming ARMING_FAILSAFE_CUSTOM || !has s.status_flags STATUS_FLAGS_MIXER_OK then s
  else
    let s := s.prepareMix p dt
    let r := p.mix s.mixer.group s.mixerCallback
    { s.setGroup r.2.2 with
      servo_failsafe := fun i =>
        if i < r.1 then
          match r.2.1 i with
          | .num x => OutputLimit.narrow (x * 600 + 1500)
          | .nan => 0
        else 0 }

def mixFailsafe : State G :=
  if s.mix_failsafe then { s.mixerMixFailsafe p dt with mix_failsafe := false } else s

def fmuLost : Bool :=
  s.fmu_data_received_time == 0 || FMU_INPUT_DROP_LIMIT_US < now - s.fmu_data_received_time

def checkFmu : State G :=
  if s.fmuLost now then
    { s with
      status_flags := s.status_flags &&& ~~~STATUS_FLAGS_FMU_OK
      status_alarms := s.status_alarms ||| STATUS_ALARMS_FMU_LOST }
  else
    { s with
      status_flags := s.status_flags ||| STATUS_FLAGS_FMU_OK ||| STATUS_FLAGS_FMU_INITIALIZED
      new_fmu_data := s.new_fmu_data || s.last_fmu_update < s.fmu_data_received_time
      last_fmu_update := max s.last_fmu_update s.fmu_data_received_time }

def chooseSource (status_flags : UInt16) : MixerSource :=
  let fmu_ok := has status_flags STATUS_FLAGS_FMU_OK
  let override := has status_flags STATUS_FLAGS_OVERRIDE
  -- do not mix if we have raw PWM and FMU is ok
  if has status_flags STATUS_FLAGS_RAW_PWM && fmu_ok then
    if override then .OVERRIDE_FMU_OK else .NONE
  else if !override && fmu_ok && has status_flags STATUS_FLAGS_MIXER_OK then .FMU
  else if override then if fmu_ok then .OVERRIDE_FMU_OK else .OVERRIDE
  else .DISARMED

/-- Initialised, armed, and with valid input via the mixer or as direct PWM. -/
def shouldArm (armed : UInt16) : Bool :=
  has s.status_flags STATUS_FLAGS_INIT_OK && has s.status_flags STATUS_FLAGS_SAFETY_OFF &&
    (has s.setup_arming armed && has s.status_flags STATUS_FLAGS_MIXER_OK ||
      has s.status_flags STATUS_FLAGS_RAW_PWM)

def shouldAlwaysEnablePwm : Bool :=
  has s.setup_arming ARMING_ALWAYS_PWM_ENABLE && has s.status_flags STATUS_FLAGS_INIT_OK &&
    has s.status_flags STATUS_FLAGS_FMU_OK

/-- The source, the arming of the servos, and the termination of the flight. -/
def decideSource : State G :=
  let source := chooseSource s.status_flags
  let should_arm := s.shouldArm ARMING_FMU_ARMED
  -- check if FMU is still alive, if not, terminate the flight
  let setup_arming :=
    if s.setup SETUP_ENABLE_FLIGHTTERMINATION ≠ 0 ∧ source = .DISARMED ∧ should_arm = true ∧
        has s.status_flags STATUS_FLAGS_FMU_INITIALIZED = true then
      s.setup_arming ||| ARMING_FORCE_FAILSAFE
    else s.setup_arming
  let forced := has setup_arming ARMING_FORCE_FAILSAFE
  { s with
    servos := if source = .NONE then s.direct_pwm else s.servos
    source := if forced then .FAILSAFE else source
    should_arm := should_arm
    should_arm_nothrottle := s.shouldArm ARMING_FMU_PREARMED
    setup_arming := setup_arming
    status_flags := put s.status_flags STATUS_FLAGS_FAILSAFE forced }

def updateMixer : State G :=
  let trims := s.update_trims && has s.status_flags STATUS_FLAGS_MIXER_OK
  let group := if trims then p.set_trims s.mixer.group s.servo_control_trim else s.mixer.group
  { s.setGroup (p.set_airmode group (s.setup SETUP_AIRMODE)) with
    update_trims := s.update_trims && !trims }

def channels : OutputLimit.Channels where
  reverse_mask := s.setup SETUP_PWM_REVERSE
  disarmed_output := s.servo_disarmed
  min_output := s.servo_control_min
  max_output := s.servo_control_max

def mixOutputs : State G :=
  let s := s.prepareMix p dt
  let r := p.mix s.mixer.group s.mixerCallback
  let limited := OutputLimit.outputLimitCalc s.channels s.should_arm s.should_arm_nothrottle r.1
    r.2.1 s.servos now s.pwm_limit
  { s.setGroup r.2.2 with
    servos := fun i => if i < r.1 then limited.1 i else 0
    pwm_limit := limited.2
    new_fmu_data := s.new_fmu_data && r.1 == 0 }

def mixes : Bool :=
  has s.status_flags STATUS_FLAGS_MIXER_OK && !has s.setup_arming ARMING_LOCKDOWN

def runMixers : State G :=
  match s.source with
  | .FAILSAFE => { s with servos := s.servo_failsafe }
  | .DISARMED => { s with servos := s.servo_disarmed }
  | .NONE => s
  | _ => if s.mixes then s.mixOutputs p now dt else s

def armServos (needs_to_arm : Bool) : State G :=
  { s with
    mixer_servos_armed := needs_to_arm
    status_flags :=
      if needs_to_arm = s.mixer_servos_armed then s.status_flags
      else put s.status_flags STATUS_FLAGS_OUTPUTS_ARMED needs_to_arm }

def emit (should_always_enable_pwm : Bool) : State G × Option (ℕ → UInt16) :=
  let lockdown := has s.setup_arming ARMING_LOCKDOWN
  let should_arm := s.should_arm || s.should_arm_nothrottle
  let needs_to_arm := should_arm || should_always_enable_pwm || lockdown
  let s := s.armServos needs_to_arm
  if needs_to_arm && (should_arm || s.source == .FAILSAFE) && !lockdown then (s, some s.servos)
  else if needs_to_arm && (should_always_enable_pwm || lockdown) then
    ({ s with servos := s.servo_disarmed }, some s.servo_disarmed)
  else (s, none)

def withServos (page : ℕ → UInt16) : State G := { s with servos := page }

/-- The state of a tick when it knows whether the FMU is alive. -/
def checked : State G := ((s.createMixer p).mixFailsafe p dt).checkFmu now

def beforeMix : State G := (s.checked p now dt).decideSource.updateMixer p

/-- `mixer_tick`, and the values for the outputs. -/
def mixerTick : State G × Option (ℕ → UInt16) :=
  ((s.beforeMix p now dt).runMixers p now dt).emit (s.checked p now dt).shouldAlwaysEnablePwm

end Steps

/-! ### What a tick keeps -/

section Frame

variable (p : MixerGroup G) (s : State G) (now : ℕ) (dt : ℚ)

/-- The status flags of a tick, once it knows whether the FMU is alive. -/
def fmuFlags : UInt16 :=
  if s.fmuLost now then s.status_flags &&& ~~~STATUS_FLAGS_FMU_OK
  else s.status_flags ||| STATUS_FLAGS_FMU_OK ||| STATUS_FLAGS_FMU_INITIALIZED

theorem has_fmuFlags {m : UInt16} (hm : ~~~STATUS_FLAGS_FMU_OK &&& m = m)
    (hm' : has (STATUS_FLAGS_FMU_OK ||| STATUS_FLAGS_FMU_INITIALIZED) m = false) :
    has (s.fmuFlags now) m = has s.status_flags m := by
  unfold fmuFlags
  split_ifs
  · exact has_clear_of_disjoint hm
  · rw [UInt16.or_assoc, has_or, hm', Bool.or_false]

theorem has_fmuFlags_fmu_ok : has (s.fmuFlags now) STATUS_FLAGS_FMU_OK = !s.fmuLost now := by
  unfold fmuFlags
  cases s.fmuLost now with
  | true => exact has_clear (by decide)
  | false =>
    rw [if_neg Bool.false_ne_true, has_or, has_or, has_self (by decide)]
    simp

/-- What the first steps of a tick keep. -/
structure Kept (s s' : State G) : Prop where
  servos : s'.servos = s.servos
  direct_pwm : s'.direct_pwm = s.direct_pwm
  servo_disarmed : s'.servo_disarmed = s.servo_disarmed
  setup : s'.setup = s.setup
  setup_arming : s'.setup_arming = s.setup_arming

theorem kept_mixFailsafe : Kept s (s.mixFailsafe p dt) ∧
    (s.mixFailsafe p dt).status_flags = s.status_flags ∧
    (s.mixFailsafe p dt).fmu_data_received_time = s.fmu_data_received_time := by
  unfold mixFailsafe mixerMixFailsafe
  split_ifs <;> exact ⟨⟨rfl, rfl, rfl, rfl, rfl⟩, rfl, rfl⟩

theorem kept_checkFmu : Kept s (s.checkFmu now) ∧
    (s.checkFmu now).status_flags = s.fmuFlags now := by
  unfold checkFmu fmuFlags
  split_ifs <;> exact ⟨⟨rfl, rfl, rfl, rfl, rfl⟩, rfl⟩

theorem kept_checked :
    Kept s (s.checked p now dt) ∧ (s.checked p now dt).status_flags = s.fmuFlags now := by
  obtain ⟨hmix, hflags, htime⟩ := kept_mixFailsafe p (s.createMixer p) dt
  obtain ⟨hcheck, hfmu⟩ := kept_checkFmu ((s.createMixer p).mixFailsafe p dt) now
  refine ⟨⟨hcheck.servos.trans hmix.servos, hcheck.direct_pwm.trans hmix.direct_pwm,
    hcheck.servo_disarmed.trans hmix.servo_disarmed, hcheck.setup.trans hmix.setup,
    hcheck.setup_arming.trans hmix.setup_arming⟩, hfmu.trans ?_⟩
  unfold fmuFlags fmuLost
  rw [hflags, htime]
  rfl

end Frame

/-! ### The decision -/

section Decision

variable (p : MixerGroup G) (s : State G) (now : ℕ) (dt : ℚ)

theorem beforeMix_servo_disarmed : (s.beforeMix p now dt).servo_disarmed = s.servo_disarmed :=
  (s.kept_checked p now dt).1.servo_disarmed

theorem beforeMix_servos :
    (s.beforeMix p now dt).servos =
      if chooseSource (s.fmuFlags now) = .NONE then s.direct_pwm else s.servos := by
  obtain ⟨hkept, hflags⟩ := s.kept_checked p now dt
  rw [← hflags, ← hkept.direct_pwm, ← hkept.servos]
  rfl

theorem beforeMix_source :
    (s.beforeMix p now dt).source =
      if has (s.beforeMix p now dt).setup_arming ARMING_FORCE_FAILSAFE then .FAILSAFE
      else chooseSource (s.fmuFlags now) := by
  rw [← (s.kept_checked p now dt).2]
  rfl

theorem has_beforeMix_status {m : UInt16} (hm : ~~~STATUS_FLAGS_FAILSAFE &&& m = m) :
    has (s.beforeMix p now dt).status_flags m = has (s.fmuFlags now) m := by
  rw [← (s.kept_checked p now dt).2]
  exact has_put_of_disjoint hm _

theorem beforeMix_setup_arming :
    (s.beforeMix p now dt).setup_arming = s.setup_arming ∨
      chooseSource (s.fmuFlags now) = .DISARMED ∧
        (s.beforeMix p now dt).setup_arming = s.setup_arming ||| ARMING_FORCE_FAILSAFE := by
  obtain ⟨hkept, hflags⟩ := s.kept_checked p now dt
  rw [← hflags, ← hkept.setup_arming]
  change (if _ then _ else _) = _ ∨ _ ∧ (if _ then _ else _) = _
  split_ifs with h
  · exact .inr ⟨h.2.1, rfl⟩
  · exact .inl rfl

theorem beforeMix_arms :
    ((s.beforeMix p now dt).should_arm || (s.beforeMix p now dt).should_arm_nothrottle) =
      (has s.status_flags STATUS_FLAGS_INIT_OK && has s.status_flags STATUS_FLAGS_SAFETY_OFF &&
        ((has s.setup_arming ARMING_FMU_ARMED || has s.setup_arming ARMING_FMU_PREARMED) &&
            has s.status_flags STATUS_FLAGS_MIXER_OK ||
          has s.status_flags STATUS_FLAGS_RAW_PWM)) := by
  obtain ⟨hkept, hflags⟩ := s.kept_checked p now dt
  change ((s.checked p now dt).shouldArm _ || (s.checked p now dt).shouldArm _) = _
  unfold shouldArm
  rw [hflags, hkept.setup_arming, has_fmuFlags _ _ (by decide) (by decide),
    has_fmuFlags _ _ (by decide) (by decide), has_fmuFlags _ _ (by decide) (by decide),
    has_fmuFlags _ _ (by decide) (by decide)]
  cases has s.status_flags STATUS_FLAGS_INIT_OK <;>
    cases has s.status_flags STATUS_FLAGS_SAFETY_OFF <;>
    cases has s.status_flags STATUS_FLAGS_MIXER_OK <;>
    cases has s.status_flags STATUS_FLAGS_RAW_PWM <;> simp

end Decision

/-! ### Stale outputs -/

def mixed : MixerSource → Bool
  | .FMU | .OVERRIDE | .OVERRIDE_FMU_OK => true
  | .NONE | .DISARMED | .FAILSAFE => false

theorem mixed_chooseSource {status_flags : UInt16}
    (h : has status_flags STATUS_FLAGS_MIXER_OK = false) :
    mixed (chooseSource status_flags) = has status_flags STATUS_FLAGS_OVERRIDE := by
  unfold chooseSource
  dsimp only
  rw [h]
  cases has status_flags STATUS_FLAGS_OVERRIDE <;> cases has status_flags STATUS_FLAGS_FMU_OK <;>
    cases has status_flags STATUS_FLAGS_RAW_PWM <;> rfl

/-- Manual override without a mixer, while direct values arm the outputs, and neither a lockdown nor
a forced failsafe takes them. -/
def Stale (s : State G) : Prop :=
  has s.status_flags STATUS_FLAGS_OVERRIDE = true ∧
    has s.status_flags STATUS_FLAGS_MIXER_OK = false ∧
    has s.status_flags STATUS_FLAGS_RAW_PWM = true ∧
    has s.status_flags STATUS_FLAGS_INIT_OK = true ∧
    has s.status_flags STATUS_FLAGS_SAFETY_OFF = true ∧
    has s.setup_arming ARMING_LOCKDOWN = false ∧
    has s.setup_arming ARMING_FORCE_FAILSAFE = false

section Stale

variable (p : MixerGroup G) (s : State G) (now : ℕ) (dt : ℚ)

theorem beforeMix_lockdown :
    has (s.beforeMix p now dt).setup_arming ARMING_LOCKDOWN =
      has s.setup_arming ARMING_LOCKDOWN := by
  rcases s.beforeMix_setup_arming p now dt with heq | ⟨-, heq⟩
  · rw [heq]
  · rw [heq, has_or, show has ARMING_FORCE_FAILSAFE ARMING_LOCKDOWN = false by decide,
      Bool.or_false]

theorem beforeMix_mixes :
    (s.beforeMix p now dt).mixes =
      (has s.status_flags STATUS_FLAGS_MIXER_OK && !has s.setup_arming ARMING_LOCKDOWN) := by
  unfold mixes
  rw [beforeMix_lockdown, has_beforeMix_status _ _ _ _ (by decide),
    has_fmuFlags _ _ (by decide) (by decide)]

theorem beforeMix_mixed :
    mixed (s.beforeMix p now dt).source = true ↔
      mixed (chooseSource (s.fmuFlags now)) = true ∧
        has s.setup_arming ARMING_FORCE_FAILSAFE = false := by
  rw [beforeMix_source]
  rcases s.beforeMix_setup_arming p now dt with heq | ⟨hdisarmed, heq⟩
  · rw [heq]
    cases has s.setup_arming ARMING_FORCE_FAILSAFE <;> simp [mixed]
  · rw [heq, hdisarmed, has_or, has_self (by decide), Bool.or_true]
    simp [mixed]

/-- The outputs of an earlier tick are put out: the mixers are the source, and are not run. -/
theorem stale_iff :
    s.Stale ↔ mixed (s.beforeMix p now dt).source = true ∧ (s.beforeMix p now dt).mixes = false ∧
      ((s.beforeMix p now dt).should_arm || (s.beforeMix p now dt).should_arm_nothrottle) = true ∧
      has (s.beforeMix p now dt).setup_arming ARMING_LOCKDOWN = false := by
  rw [beforeMix_mixed, beforeMix_mixes, beforeMix_arms, beforeMix_lockdown]
  unfold Stale
  cases hmixer : has s.status_flags STATUS_FLAGS_MIXER_OK with
  | true =>
    cases has s.setup_arming ARMING_LOCKDOWN <;> simp
  | false =>
    have hflag : has (s.fmuFlags now) STATUS_FLAGS_MIXER_OK = false :=
      (has_fmuFlags s now (by decide) (by decide)).trans hmixer
    rw [mixed_chooseSource hflag, has_fmuFlags _ _ (by decide) (by decide)]
    simp only [Bool.and_false, Bool.false_or, Bool.and_eq_true, Bool.false_and]
    tauto

end Stale

/-! ### The outputs -/

section Outputs

variable (p : MixerGroup G) (s : State G) (now : ℕ) (dt : ℚ)

theorem runMixers_frame :
    (s.runMixers p now dt).source = s.source ∧ (s.runMixers p now dt).should_arm = s.should_arm ∧
      (s.runMixers p now dt).should_arm_nothrottle = s.should_arm_nothrottle ∧
      (s.runMixers p now dt).setup_arming = s.setup_arming ∧
      (s.runMixers p now dt).servo_disarmed = s.servo_disarmed ∧
      (s.runMixers p now dt).servo_failsafe = s.servo_failsafe := by
  unfold runMixers
  split
  · exact ⟨rfl, rfl, rfl, rfl, rfl, rfl⟩
  · exact ⟨rfl, rfl, rfl, rfl, rfl, rfl⟩
  · exact ⟨rfl, rfl, rfl, rfl, rfl, rfl⟩
  · split_ifs <;> exact ⟨rfl, rfl, rfl, rfl, rfl, rfl⟩

/-- The servos are put out, unless nothing arms them or there is a lockdown. -/
def putsServos : Bool :=
  (s.should_arm || s.should_arm_nothrottle || s.source == .FAILSAFE) &&
    !has s.setup_arming ARMING_LOCKDOWN

theorem emit_some {always : Bool} {out : ℕ → UInt16} (h : (s.emit always).2 = some out) :
    s.putsServos = true ∧ out = s.servos ∨ s.putsServos = false ∧ out = s.servo_disarmed := by
  unfold emit at h
  dsimp only at h
  split_ifs at h with hservos hdisarmed
  · left
    rw [Bool.and_assoc, Bool.and_eq_true] at hservos
    exact ⟨hservos.2, (Option.some.inj h).symm⟩
  · right
    refine ⟨?_, (Option.some.inj h).symm⟩
    rw [Bool.and_eq_true] at hdisarmed
    rw [hdisarmed.1, Bool.true_and] at hservos
    exact Bool.eq_false_iff.mpr hservos

theorem emit_frame (always : Bool) :
    (s.emit always).1.setup_arming = s.setup_arming ∧
      (s.emit always).1.servo_failsafe = s.servo_failsafe := by
  unfold emit
  dsimp only
  split_ifs <;> exact ⟨rfl, rfl⟩

theorem emit_servos (h : s.putsServos = false) (always : Bool) (page : ℕ → UInt16) :
    ((s.withServos page).emit always).2 = (s.emit always).2 := by
  have hnot : ∀ needs : Bool, (needs && (s.should_arm || s.should_arm_nothrottle ||
      s.source == .FAILSAFE) && !has s.setup_arming ARMING_LOCKDOWN) = false := by
    intro needs
    rw [Bool.and_assoc]
    unfold putsServos at h
    rw [h, Bool.and_false]
  unfold emit
  dsimp only [armServos, withServos]
  rw [hnot, if_neg Bool.false_ne_true, if_neg Bool.false_ne_true]
  split_ifs <;> rfl

theorem emit_of_arms (h : (s.should_arm || s.should_arm_nothrottle) = true)
    (hlockdown : has s.setup_arming ARMING_LOCKDOWN = false) (always : Bool) :
    (s.emit always).2 = some s.servos := by
  unfold emit
  dsimp only
  rw [h, hlockdown]
  rfl

/-! ### Outputs and the ones before -/

theorem mixFailsafe_servos (page : ℕ → UInt16) :
    (s.withServos page).mixFailsafe p dt = (s.mixFailsafe p dt).withServos page := by
  unfold mixFailsafe mixerMixFailsafe withServos
  dsimp only
  split_ifs <;> rfl

theorem checkFmu_servos (page : ℕ → UInt16) :
    (s.withServos page).checkFmu now = (s.checkFmu now).withServos page := by
  unfold checkFmu fmuLost withServos
  dsimp only
  split_ifs <;> rfl

/-- The servos before the mixers are run are the direct values, or those of an earlier tick. -/
theorem beforeMix_with_servos (page : ℕ → UInt16) :
    (s.withServos page).checked p now dt = (s.checked p now dt).withServos page ∧
    (s.withServos page).beforeMix p now dt = (s.beforeMix p now dt).withServos
      (if chooseSource (s.fmuFlags now) = .NONE then s.direct_pwm else page) := by
  have hchecked : (s.withServos page).checked p now dt = (s.checked p now dt).withServos page := by
    unfold checked
    rw [← checkFmu_servos, ← mixFailsafe_servos]
    rfl
  obtain ⟨hkept, hflags⟩ := s.kept_checked p now dt
  refine ⟨hchecked, ?_⟩
  unfold beforeMix
  rw [hchecked, ← hflags, ← hkept.direct_pwm]
  rfl

theorem mixOutputs_servos (page : ℕ → UInt16) :
    (s.withServos page).mixOutputs p now dt = s.mixOutputs p now dt := by
  have hprepare : (s.withServos page).prepareMix p dt = (s.prepareMix p dt).withServos page := rfl
  unfold mixOutputs
  rw [hprepare]
  dsimp only
  congr 1
  funext i
  change (if i < (p.mix (s.prepareMix p dt).mixer.group (s.prepareMix p dt).mixerCallback).1 then _
    else _) = if i < (p.mix (s.prepareMix p dt).mixer.group (s.prepareMix p dt).mixerCallback).1
      then _ else _
  split_ifs with hi
  · exact (if_pos hi).trans (if_pos hi).symm
  · rfl

theorem runMixers_mixed (h : mixed s.source = true) :
    s.runMixers p now dt = if s.mixes then s.mixOutputs p now dt else s := by
  unfold runMixers
  cases hsource : s.source with
  | FMU | OVERRIDE | OVERRIDE_FMU_OK => rfl
  | NONE | DISARMED | FAILSAFE =>
    rw [hsource] at h
    cases h

theorem mixed_or (source : MixerSource) :
    mixed source = true ∨ source = .NONE ∨ source = .DISARMED ∨ source = .FAILSAFE := by
  cases source <;> decide

theorem runMixers_disarmed (h : s.source = .DISARMED) :
    s.runMixers p now dt = { s with servos := s.servo_disarmed } := by
  unfold runMixers
  rw [h]

theorem runMixers_failsafe (h : s.source = .FAILSAFE) :
    s.runMixers p now dt = { s with servos := s.servo_failsafe } := by
  unfold runMixers
  rw [h]

theorem runMixers_none (h : s.source = .NONE) : s.runMixers p now dt = s := by
  unfold runMixers
  rw [h]

/-- Where the mixers are run if they are the source, an earlier tick does not matter. -/
theorem runMixers_servos (page : ℕ → UInt16) (hpage : s.source = .NONE → page = s.servos)
    (hmixed : mixed s.source = true → s.mixes = true) :
    (s.withServos page).runMixers p now dt = s.runMixers p now dt := by
  rcases mixed_or s.source with hsource | hsource | hsource | hsource
  · have hmixes := hmixed hsource
    have hmixes' : (s.withServos page).mixes = true := hmixes
    rw [runMixers_mixed p s now dt hsource, if_pos hmixes,
      runMixers_mixed p (s.withServos page) now dt hsource, if_pos hmixes']
    exact mixOutputs_servos p s now dt page
  · rw [hpage hsource]
    rfl
  · exact (runMixers_disarmed p (s.withServos page) now dt hsource).trans
      (runMixers_disarmed p s now dt hsource).symm
  · exact (runMixers_failsafe p (s.withServos page) now dt hsource).trans
      (runMixers_failsafe p s now dt hsource).symm

/-! ### Provenance -/

/-- Where the outputs of a tick should be from. -/
def Provenance (out : ℕ → UInt16) : Prop :=
  (has (s.mixerTick p now dt).1.setup_arming ARMING_LOCKDOWN = true → out = s.servo_disarmed) ∧
  (has (s.mixerTick p now dt).1.setup_arming ARMING_LOCKDOWN = false →
    has (s.mixerTick p now dt).1.setup_arming ARMING_FORCE_FAILSAFE = true →
      out = (s.mixerTick p now dt).1.servo_failsafe) ∧
  (has (s.mixerTick p now dt).1.setup_arming ARMING_LOCKDOWN = false →
    has (s.mixerTick p now dt).1.setup_arming ARMING_FORCE_FAILSAFE = false →
      out = s.direct_pwm ∨ out = s.servo_disarmed ∨
        mixed (s.beforeMix p now dt).source = true ∧ (s.beforeMix p now dt).mixes = true ∧
          out = ((s.beforeMix p now dt).mixOutputs p now dt).servos)

/-- What a tick should do: its outputs are from where they should be, none of them is from an
earlier tick, and without the FMU they are fixed ones. -/
def OutputsCorrect : Prop :=
  (∀ out, (s.mixerTick p now dt).2 = some out → s.Provenance p now dt out) ∧
  (∀ page, ((s.withServos page).mixerTick p now dt).2 = (s.mixerTick p now dt).2) ∧
  (s.fmuLost now = true → has s.status_flags STATUS_FLAGS_OVERRIDE = false →
    ∀ out, (s.mixerTick p now dt).2 = some out →
      out = s.servo_disarmed ∨ out = (s.mixerTick p now dt).1.servo_failsafe)

theorem mixerTick_frame :
    (s.mixerTick p now dt).1.setup_arming = (s.beforeMix p now dt).setup_arming ∧
      (s.mixerTick p now dt).1.servo_failsafe = (s.beforeMix p now dt).servo_failsafe := by
  obtain ⟨-, -, -, harming, -, hfailsafe⟩ := (s.beforeMix p now dt).runMixers_frame p now dt
  obtain ⟨harming', hfailsafe'⟩ := ((s.beforeMix p now dt).runMixers p now dt).emit_frame
    (s.checked p now dt).shouldAlwaysEnablePwm
  exact ⟨harming'.trans harming, hfailsafe'.trans hfailsafe⟩

theorem runMixers_cases :
    (s.source = .FAILSAFE ∧ (s.runMixers p now dt).servos = s.servo_failsafe) ∨
    (s.source = .DISARMED ∧ (s.runMixers p now dt).servos = s.servo_disarmed) ∨
    (s.source = .NONE ∧ (s.runMixers p now dt).servos = s.servos) ∨
    (mixed s.source = true ∧ s.mixes = true ∧
      (s.runMixers p now dt).servos = (s.mixOutputs p now dt).servos) ∨
    (mixed s.source = true ∧ s.mixes = false ∧ s.runMixers p now dt = s) := by
  rcases mixed_or s.source with hsource | hsource | hsource | hsource
  · rw [runMixers_mixed p s now dt hsource]
    cases hmixes : s.mixes with
    | true => exact .inr (.inr (.inr (.inl ⟨hsource, rfl, rfl⟩)))
    | false => exact .inr (.inr (.inr (.inr ⟨hsource, rfl, rfl⟩)))
  · rw [runMixers_none p s now dt hsource]
    exact .inr (.inr (.inl ⟨hsource, rfl⟩))
  · rw [runMixers_disarmed p s now dt hsource]
    exact .inr (.inl ⟨hsource, rfl⟩)
  · rw [runMixers_failsafe p s now dt hsource]
    exact .inl ⟨hsource, rfl⟩

theorem chooseSource_ne_failsafe (status_flags : UInt16) :
    chooseSource status_flags ≠ .FAILSAFE := by
  unfold chooseSource
  dsimp only
  split_ifs <;> decide

theorem beforeMix_source_failsafe :
    (s.beforeMix p now dt).source = .FAILSAFE ↔
      has (s.beforeMix p now dt).setup_arming ARMING_FORCE_FAILSAFE = true := by
  rw [beforeMix_source]
  cases has (s.beforeMix p now dt).setup_arming ARMING_FORCE_FAILSAFE with
  | true => simp
  | false => simpa using chooseSource_ne_failsafe (s.fmuFlags now)

theorem chooseSource_of_none (h : (s.beforeMix p now dt).source = .NONE) :
    chooseSource (s.fmuFlags now) = .NONE := by
  rw [beforeMix_source] at h
  split_ifs at h with hforced
  exact h

theorem beforeMix_servos_none (h : (s.beforeMix p now dt).source = .NONE) :
    (s.beforeMix p now dt).servos = s.direct_pwm := by
  rw [beforeMix_servos, if_pos (s.chooseSource_of_none p now dt h)]

theorem mixerTick_some {out : ℕ → UInt16} (h : (s.mixerTick p now dt).2 = some out) :
    (s.beforeMix p now dt).putsServos = true ∧
        out = ((s.beforeMix p now dt).runMixers p now dt).servos ∨
      (s.beforeMix p now dt).putsServos = false ∧ out = s.servo_disarmed := by
  obtain ⟨hsource, harm, hnothrottle, harming, hdisarmed, -⟩ :=
    (s.beforeMix p now dt).runMixers_frame p now dt
  have hputs : ((s.beforeMix p now dt).runMixers p now dt).putsServos =
      (s.beforeMix p now dt).putsServos := by
    unfold putsServos
    rw [hsource, harm, hnothrottle, harming]
  rw [← hputs, ← beforeMix_servo_disarmed p s now dt, ← hdisarmed]
  exact emit_some _ h

theorem provenance_of_not_stale (hstale : ¬ s.Stale) {out : ℕ → UInt16}
    (hout : (s.mixerTick p now dt).2 = some out) : s.Provenance p now dt out := by
  obtain ⟨harming, hfailsafe⟩ := s.mixerTick_frame p now dt
  unfold Provenance
  rw [harming, hfailsafe, ← beforeMix_source_failsafe]
  rcases s.mixerTick_some p now dt hout with ⟨hputs, rfl⟩ | ⟨hputs, rfl⟩
  · obtain ⟨harm, hlockdown⟩ := Bool.and_eq_true_iff.mp hputs
    rw [Bool.not_eq_true'] at hlockdown
    refine ⟨fun h => absurd (hlockdown.symm.trans h) Bool.false_ne_true, fun _ hforced => ?_,
      fun _ hforced => ?_⟩
    · rw [runMixers_failsafe _ _ _ _ hforced]
    · rw [← Bool.not_eq_true, ← beforeMix_source_failsafe] at hforced
      rcases (s.beforeMix p now dt).runMixers_cases p now dt with
        ⟨hsource, -⟩ | ⟨-, heq⟩ | ⟨hsource, heq⟩ | ⟨hmixed, hmixes, heq⟩ | ⟨hmixed, hmixes, -⟩
      · exact absurd hsource hforced
      · exact .inr (.inl (heq.trans (beforeMix_servo_disarmed p s now dt)))
      · exact .inl (heq.trans (beforeMix_servos_none p s now dt hsource))
      · exact .inr (.inr ⟨hmixed, hmixes, heq⟩)
      · refine absurd ((stale_iff p s now dt).mpr ⟨hmixed, hmixes, ?_, hlockdown⟩) hstale
        rwa [beq_false_of_ne hforced, Bool.or_false] at harm
  · refine ⟨fun _ => rfl, fun hlockdown hforced => ?_, fun _ _ => .inr (.inl rfl)⟩
    unfold putsServos at hputs
    rw [hlockdown, hforced] at hputs
    simp at hputs

theorem independent_of_not_stale (hstale : ¬ s.Stale) (page : ℕ → UInt16) :
    ((s.withServos page).mixerTick p now dt).2 = (s.mixerTick p now dt).2 := by
  obtain ⟨hchecked, hbefore⟩ := s.beforeMix_with_servos p now dt page
  have halways : ((s.checked p now dt).withServos page).shouldAlwaysEnablePwm =
      (s.checked p now dt).shouldAlwaysEnablePwm := rfl
  unfold mixerTick
  rw [hchecked, hbefore, halways]
  by_cases hmixed : mixed (s.beforeMix p now dt).source = true → (s.beforeMix p now dt).mixes = true
  · rw [runMixers_servos p (s.beforeMix p now dt) now dt _ ?_ hmixed]
    intro hsource
    rw [beforeMix_servos_none p s now dt hsource, if_pos (s.chooseSource_of_none p now dt hsource)]
  · rw [Classical.not_imp, Bool.not_eq_true] at hmixed
    obtain ⟨hmixed, hmixes⟩ := hmixed
    have hputs : (s.beforeMix p now dt).putsServos = false := by
      rw [← Bool.not_eq_true]
      intro hputs
      obtain ⟨harm, hlockdown⟩ := Bool.and_eq_true_iff.mp hputs
      rw [Bool.not_eq_true'] at hlockdown
      refine hstale ((stale_iff p s now dt).mpr ⟨hmixed, hmixes, ?_, hlockdown⟩)
      have hforced : (s.beforeMix p now dt).source ≠ .FAILSAFE := by
        intro hfailsafe
        rw [hfailsafe] at hmixed
        cases hmixed
      rwa [beq_false_of_ne hforced, Bool.or_false] at harm
    have hnot := Bool.eq_false_iff.mp hmixes
    generalize (if chooseSource (s.fmuFlags now) = .NONE then s.direct_pwm else page) = page'
    have hnot' : ¬ ((s.beforeMix p now dt).withServos page').mixes = true := hnot
    rw [runMixers_mixed p (s.beforeMix p now dt) now dt hmixed, if_neg hnot,
      runMixers_mixed p ((s.beforeMix p now dt).withServos page') now dt hmixed, if_neg hnot']
    exact emit_servos (s.beforeMix p now dt) hputs _ _

theorem mixerTick_of_stale (hstale : s.Stale) : (s.mixerTick p now dt).2 = some s.servos := by
  obtain ⟨hmixed, hmixes, harm, hlockdown⟩ := (stale_iff p s now dt).mp hstale
  have hservos : (s.beforeMix p now dt).servos = s.servos := by
    rw [beforeMix_servos, if_neg]
    intro hnone
    have hmixed' := ((beforeMix_mixed p s now dt).mp hmixed).1
    rw [hnone] at hmixed'
    cases hmixed'
  unfold mixerTick
  rw [runMixers_mixed p (s.beforeMix p now dt) now dt hmixed, if_neg (Bool.eq_false_iff.mp hmixes),
    emit_of_arms (s.beforeMix p now dt) harm hlockdown, hservos]

theorem fixed_of_lost (hlost : s.fmuLost now = true)
    (hoverride : has s.status_flags STATUS_FLAGS_OVERRIDE = false) {out : ℕ → UInt16}
    (hout : (s.mixerTick p now dt).2 = some out) :
    out = s.servo_disarmed ∨ out = (s.mixerTick p now dt).1.servo_failsafe := by
  have hdisarmed : chooseSource (s.fmuFlags now) = .DISARMED := by
    unfold chooseSource
    rw [has_fmuFlags_fmu_ok, hlost, has_fmuFlags _ _ (by decide) (by decide), hoverride]
    simp
  rw [(s.mixerTick_frame p now dt).2]
  rcases s.mixerTick_some p now dt hout with ⟨-, rfl⟩ | ⟨-, rfl⟩
  · have hsource := s.beforeMix_source p now dt
    rw [hdisarmed] at hsource
    split_ifs at hsource with hforced
    · rw [runMixers_failsafe _ _ _ _ hsource]
      exact .inr rfl
    · rw [runMixers_disarmed _ _ _ _ hsource]
      exact .inl (beforeMix_servo_disarmed p s now dt)
  · exact .inl rfl

theorem outputsCorrect_iff : s.OutputsCorrect p now dt ↔ ¬ s.Stale := by
  constructor
  · rintro ⟨-, hindependent, -⟩ hstale
    have hpage := hindependent fun i => s.servos i + 1
    rw [mixerTick_of_stale p s now dt hstale,
      mixerTick_of_stale p (s.withServos fun i => s.servos i + 1) now dt hstale,
      Option.some.injEq] at hpage
    have hzero : s.servos 0 + 1 = s.servos 0 := congrFun hpage 0
    exact absurd hzero (by simp)
  · exact fun hstale => ⟨fun out hout => s.provenance_of_not_stale p now dt hstale hout,
      s.independent_of_not_stale p now dt hstale,
      fun hlost hoverride out hout => s.fixed_of_lost p now dt hlost hoverride hout⟩

end Outputs

end State

/-! ### Runs -/

/-- What happens to the processor: the FMU writes registers, the two ticks alternate, and the
safety switch is pressed. -/
inductive IoEvent
  | write (now : ℕ) (page : Page) (offset : ℕ) (values : List UInt16)
  | controls (now : ℕ) (input : Input)
  | mixer (now : ℕ) (dt : ℚ)
  | safetyOff

namespace State

variable (fl : Rounding) (p : MixerGroup G)

def ioStep (s : State G) : IoEvent → State G
  | .write now page offset values => (s.registersSet now page offset values).1
  | .controls now input => s.controlsTick fl now input
  | .mixer now dt => (s.mixerTick p now dt).1
  | .safetyOff => { s with status_flags := s.status_flags ||| STATUS_FLAGS_SAFETY_OFF }

/-- What a step should do: a tick has correct outputs, and no write takes a final failsafe back. -/
def IoCorrect (s : State G) (e : IoEvent) : Prop :=
  (∀ now dt, e = .mixer now dt → s.OutputsCorrect p now dt) ∧
  ∀ now page offset values, e = .write now page offset values → s.Terminated →
    (s.ioStep fl p e).Terminated

/-- No tick of the mixer meets a state whose outputs are stale. -/
def NotStale (s : State G) (e : IoEvent) : Prop := ∀ now dt, e = .mixer now dt → ¬ s.Stale

theorem ioCorrect_iff (s : State G) (e : IoEvent) : s.IoCorrect fl p e ↔ s.NotStale e := by
  unfold IoCorrect NotStale
  rw [and_iff_left]
  · exact forall₃_congr fun now dt _ => s.outputsCorrect_iff p now dt
  · rintro now page offset values rfl hterminated
    exact hterminated.registersSet now page offset values

end State

/-- In any run, whatever is written between the ticks, the outputs are correct exactly where no tick
of the mixer meets manual override without a mixer and with direct values. -/
theorem provenance_iff (fl : Rounding) (p : MixerGroup G) (s : State G) (es : List IoEvent) :
    Trace.Always (State.ioStep fl p) (State.IoCorrect fl p) s es ↔
      Trace.Always (State.ioStep fl p) State.NotStale s es :=
  Trace.always_iff_of_invariant (I := fun _ => True)
    (fun s e _ => s.ioCorrect_iff fl p e) (fun _ _ _ _ => trivial) trivial

def nullMixers : MixerGroup ℕ where
  toMixerParser := nullParser
  set_trims := fun n _ => n
  set_airmode := fun n _ => n
  set_max_delta_out_once := fun n _ _ _ _ => n
  set_dt_once := fun n _ => n
  set_thrust_factor := fun n _ => n
  mix := fun n _ => (min n SERVO_COUNT, fun _ => .nan, n)

def directFlags : UInt16 :=
  STATUS_FLAGS_RAW_PWM ||| STATUS_FLAGS_INIT_OK ||| STATUS_FLAGS_SAFETY_OFF

/-- A direct value is put out, the override is restored, and another direct value arrives. -/
def overrideEvents : List IoEvent :=
  [.write 1 .DIRECT_PWM 0 [1500], .write 2 .STATUS 2 [directFlags], .mixer 3 0,
    .write 4 .STATUS 2 [directFlags ||| STATUS_FLAGS_OVERRIDE], .write 5 .DIRECT_PWM 0 [1100],
    .mixer 6 0]

/-- The last tick puts out the first value again. -/
theorem override_repeats_output :
    ¬ ∀ es, Trace.Always (State.ioStep .exact nullMixers) (State.IoCorrect .exact nullMixers)
      (State.powerOn 0).controlsInit es := by
  intro h
  obtain ⟨-, -, -, -, -, hlast, -⟩ := h overrideEvents
  have hstale := (State.outputsCorrect_iff nullMixers _ 6 0).mp (hlast.1 6 0 rfl)
  exact hstale ⟨by decide, by decide, by decide, by decide, by decide, by decide, by decide⟩

end Px4io
