/-
The registers of the IO processor.

The FMU writes registers in pages; `registers_set` takes such a write.  The pages that are not
just copied are set one register at a time, and the first one that is refused ends the write.

* `State` — the registers, and the variables next to them that the two ticks of the processor use;
* `registersSet` — a write;
* **`setRcConfig_iff`** — when a register of a channel is written as it should be.
-/
import AerialManipulator.Lib.Flags
import AerialManipulator.Output.OutputLimit
import AerialManipulator.Px4io.MixerText

namespace Px4io

open Flags

/-! ### The flags -/

def SERVO_COUNT : ℕ := 8
def CONTROL_CHANNELS : ℕ := 8
def CONTROL_GROUPS : ℕ := 4
def RC_INPUT_CHANNELS : ℕ := 18

def STATUS_FLAGS_OUTPUTS_ARMED : UInt16 := 0x0001
def STATUS_FLAGS_OVERRIDE : UInt16 := 0x0002
def STATUS_FLAGS_RC_OK : UInt16 := 0x0004
def STATUS_FLAGS_RC_PPM : UInt16 := 0x0008
def STATUS_FLAGS_RC_DSM : UInt16 := 0x0010
def STATUS_FLAGS_RC_SBUS : UInt16 := 0x0020
def STATUS_FLAGS_FMU_OK : UInt16 := 0x0040
def STATUS_FLAGS_RAW_PWM : UInt16 := 0x0080
def STATUS_FLAGS_MIXER_OK : UInt16 := 0x0100
def STATUS_FLAGS_ARM_SYNC : UInt16 := 0x0200
def STATUS_FLAGS_INIT_OK : UInt16 := 0x0400
def STATUS_FLAGS_FAILSAFE : UInt16 := 0x0800
def STATUS_FLAGS_SAFETY_OFF : UInt16 := 0x1000
def STATUS_FLAGS_FMU_INITIALIZED : UInt16 := 0x2000
def STATUS_FLAGS_RC_ST24 : UInt16 := 0x4000
def STATUS_FLAGS_RC_SUMD : UInt16 := 0x8000

def STATUS_ALARMS_FMU_LOST : UInt16 := 0x0010
def STATUS_ALARMS_RC_LOST : UInt16 := 0x0020

def RAW_RC_FLAGS_FRAME_DROP : UInt16 := 0x0001
def RAW_RC_FLAGS_FAILSAFE : UInt16 := 0x0002
def RAW_RC_FLAGS_RC_DSM11 : UInt16 := 0x0004
def RAW_RC_FLAGS_MAPPING_OK : UInt16 := 0x0008
def RAW_RC_FLAGS_RC_OK : UInt16 := 0x0010

def ARMING_FMU_ARMED : UInt16 := 0x0002
def ARMING_FMU_PREARMED : UInt16 := 0x0004
def ARMING_MANUAL_OVERRIDE_OK : UInt16 := 0x0008
def ARMING_FAILSAFE_CUSTOM : UInt16 := 0x0010
def ARMING_ALWAYS_PWM_ENABLE : UInt16 := 0x0040
def ARMING_RC_HANDLING_DISABLED : UInt16 := 0x0080
def ARMING_LOCKDOWN : UInt16 := 0x0100
def ARMING_FORCE_FAILSAFE : UInt16 := 0x0200
def ARMING_TERMINATION_FAILSAFE : UInt16 := 0x0400
def ARMING_OVERRIDE_IMMEDIATE : UInt16 := 0x0800

def ARMING_VALID : UInt16 := 0x0FFF

def OPTIONS_ENABLED : UInt16 := 0x0001
def OPTIONS_REVERSE : UInt16 := 0x0002
def OPTIONS_VALID : UInt16 := OPTIONS_REVERSE ||| OPTIONS_ENABLED

def ASSIGNMENT_MODESWITCH : UInt16 := 100
def RC_MAPPED_CONTROL_CHANNELS : UInt16 := 8
def FORCE_SAFETY_MAGIC : UInt16 := 22027

/-! ### The state -/

structure RcConf where
  min : UInt16
  center : UInt16
  max : UInt16
  deadzone : UInt16
  assignment : UInt16
  options : UInt16
  deriving DecidableEq

inductive MixerSource
  | NONE
  | DISARMED
  | FMU
  | OVERRIDE
  | FAILSAFE
  | OVERRIDE_FMU_OK
  deriving DecidableEq

structure State (G : Type*) where
  status_flags : UInt16
  status_alarms : UInt16
  servos : ℕ → UInt16
  raw_rc_count : UInt16
  raw_rc_flags : UInt16
  raw_rc_values : ℕ → UInt16
  rc_valid : UInt16
  rc_values : ℕ → UInt16
  direct_pwm : ℕ → UInt16
  setup_arming : UInt16
  /-- The other registers of the page, by their offset. -/
  setup : ℕ → UInt16
  controls : ℕ → UInt16
  rc_input_config : ℕ → RcConf
  servo_failsafe : ℕ → UInt16
  servo_control_min : ℕ → UInt16
  servo_control_max : ℕ → UInt16
  servo_control_trim : ℕ → UInt16
  servo_disarmed : ℕ → UInt16
  fmu_data_received_time : ℕ
  rc_channels_timestamp_received : ℕ
  update_trims : Bool
  update_mc_thrust_param : Bool
  /-- The switch that asks for manual override. -/
  rc_value_override : UInt16
  frame_drops : ℕ
  mixer : MixerText G
  mix_failsafe : Bool
  mixer_servos_armed : Bool
  should_arm : Bool
  should_arm_nothrottle : Bool
  new_fmu_data : Bool
  last_fmu_update : ℕ
  source : MixerSource
  pwm_limit : OutputLimit.Limit

def State.powerOn {G : Type*} (group : G) : State G where
  status_flags := 0
  status_alarms := 0
  servos := fun _ => 0
  raw_rc_count := 0
  raw_rc_flags := 0
  raw_rc_values := fun _ => 0
  rc_valid := 0
  rc_values := fun _ => 0
  direct_pwm := fun _ => 0
  setup_arming := ARMING_OVERRIDE_IMMEDIATE
  -- the scales, the rates and the thermal management are not zero
  setup := fun
    | 19 | 20 | 21 => 10000
    | 22 => 72
    | 26 => 0xFFFF
    | _ => 0
  controls := fun _ => 0
  rc_input_config := fun _ => ⟨0, 0, 0, 0, 0, 0⟩
  servo_failsafe := fun _ => 0
  servo_control_min := fun _ => 1000
  servo_control_max := fun _ => 2000
  servo_control_trim := fun _ => 0
  servo_disarmed := fun _ => 0
  fmu_data_received_time := 0
  rc_channels_timestamp_received := 0
  update_trims := false
  update_mc_thrust_param := false
  rc_value_override := 0
  frame_drops := 0
  mixer := ⟨group, [], false, false⟩
  mix_failsafe := false
  mixer_servos_armed := false
  should_arm := false
  should_arm_nothrottle := false
  new_fmu_data := false
  last_fmu_update := 0
  source := .NONE
  pwm_limit := OutputLimit.outputLimitInit

/-! ### One register -/

namespace RcConf

@[match_pattern] def MIN : ℕ := 0
@[match_pattern] def CENTER : ℕ := 1
@[match_pattern] def MAX : ℕ := 2
@[match_pattern] def DEADZONE : ℕ := 3
@[match_pattern] def ASSIGNMENT : ℕ := 4
@[match_pattern] def OPTIONS : ℕ := 5

def STRIDE : ℕ := 6

/-- The channel of a register, and which of its registers it is. -/
def channel (offset : ℕ) : ℕ := offset / STRIDE

def index (offset : ℕ) : ℕ := offset - channel offset * STRIDE

variable (conf : RcConf)

def set : ℕ → UInt16 → RcConf
  | MIN, value => { conf with min := value }
  | CENTER, value => { conf with center := value }
  | MAX, value => { conf with max := value }
  | DEADZONE, value => { conf with deadzone := value }
  | ASSIGNMENT, value => { conf with assignment := value }
  | _, _ => conf

def disabled : Bool := conf.assignment == 255

/-- How many of the checks fail: the order, the dead zone and the assignment. -/
def count : ℕ :=
  (if conf.min < 500 then 1 else 0) + (if 2500 < conf.max then 1 else 0) +
    (if conf.center < conf.min then 1 else 0) + (if conf.max < conf.center then 1 else 0) +
    (if 500 < conf.deadzone then 1 else 0) +
    if conf.disabled then 0
    else if RC_MAPPED_CONTROL_CHANNELS ≤ conf.assignment ∧ conf.assignment ≠ ASSIGNMENT_MODESWITCH
      then 1
    else 0

def enabled : Bool := has conf.options OPTIONS_ENABLED

def setOptions (value : UInt16) : RcConf :=
  let conf := { conf with options := value &&& ~~~OPTIONS_ENABLED }
  if has value OPTIONS_ENABLED ∧ conf.count = 0 ∧ conf.disabled = false then
    { conf with options := conf.options ||| OPTIONS_ENABLED }
  else conf

end RcConf

variable {G : Type*}

namespace State

/-- A register of the page `STATUS`; the arming state may be overridden while it is not in sync. -/
def setStatus (s : State G) (offset : ℕ) (value : UInt16) : State G :=
  match offset with
  -- the flags
  | 2 =>
    let s :=
      if has value STATUS_FLAGS_MIXER_OK then
        { s with status_flags := s.status_flags ||| STATUS_FLAGS_MIXER_OK }
      else if !has s.status_flags STATUS_FLAGS_ARM_SYNC then { s with status_flags := value }
      else s
    if has s.status_flags STATUS_FLAGS_MIXER_OK then { s with mix_failsafe := true } else s
  -- the alarms
  | 3 => { s with status_alarms := s.status_alarms &&& ~~~value }
  | _ => s

/-- `PX4IO_P_SETUP_ARMING`. -/
def setArming (s : State G) (value : UInt16) : State G :=
  let value := value &&& ARMING_VALID
  -- if the failsafe termination flag is set, do not allow the autopilot to unset it
  let kept := value ||| s.setup_arming &&& ARMING_TERMINATION_FAILSAFE
  { s with
    status_flags :=
      if has value ARMING_RC_HANDLING_DISABLED then s.status_flags ||| STATUS_FLAGS_INIT_OK
      else s.status_flags
    setup_arming :=
      if has s.setup_arming ARMING_TERMINATION_FAILSAFE then
        kept ||| s.setup_arming &&& ARMING_FORCE_FAILSAFE
      else kept }

@[match_pattern] def SETUP_FORCE_SAFETY_OFF : ℕ := 12
@[match_pattern] def SETUP_RC_THR_FAILSAFE_US : ℕ := 13
@[match_pattern] def SETUP_FORCE_SAFETY_ON : ℕ := 14
def SETUP_PWM_REVERSE : ℕ := 15
def SETUP_TRIM_ROLL : ℕ := 16
def SETUP_SCALE_ROLL : ℕ := 19
def SETUP_MOTOR_SLEW_MAX : ℕ := 24
@[match_pattern] def SETUP_THR_MDL_FAC : ℕ := 25
def SETUP_AIRMODE : ℕ := 27
def SETUP_ENABLE_FLIGHTTERMINATION : ℕ := 28

/-- A register of the page `SETUP`. -/
def setSetup (s : State G) (offset : ℕ) (value : UInt16) : Option (State G) :=
  match offset with
  | 1 => some (s.setArming value)
  | SETUP_FORCE_SAFETY_OFF =>
    if value = FORCE_SAFETY_MAGIC then
      some { s with status_flags := s.status_flags ||| STATUS_FLAGS_SAFETY_OFF }
    else none
  | SETUP_RC_THR_FAILSAFE_US =>
    if 650 < value ∧ value < 2350 then
      some { s with setup := Function.update s.setup SETUP_RC_THR_FAILSAFE_US value }
    else some s
  | SETUP_FORCE_SAFETY_ON =>
    if value = FORCE_SAFETY_MAGIC then
      some { s with status_flags := s.status_flags &&& ~~~STATUS_FLAGS_SAFETY_OFF }
    else none
  | SETUP_THR_MDL_FAC =>
    some
      { s with
        update_mc_thrust_param := true
        setup := Function.update s.setup SETUP_THR_MDL_FAC value }
  -- the features, the rates, the binding of a receiver, the debug level and the reboot
  | 0 | 2 | 3 | 4 | 7 | 9 | 10 => some s
  -- reversed outputs, trims, scales, the rate of S.BUS, slew rate, thermal, airmode, termination
  | 15 | 16 | 17 | 18 | 19 | 20 | 21 | 22 | 24 | 26 | 27 | 28 =>
    some { s with setup := Function.update s.setup offset value }
  | _ => none

/-- A register of the page `RC_CONFIG`. -/
def setRcConfig (s : State G) (offset : ℕ) (value : UInt16) : Option (State G) :=
  -- do not allow a RC config change while safety is off
  if has s.status_flags STATUS_FLAGS_SAFETY_OFF then some s
  else
    let channel := RcConf.channel offset
    if RC_INPUT_CHANNELS ≤ channel then none
    else
      let conf := s.rc_input_config channel
      -- disable the channel until we have a chance to sanity-check it
      let conf := { conf with options := conf.options &&& OPTIONS_ENABLED }
      match RcConf.index offset with
      | RcConf.OPTIONS =>
        let value := value &&& OPTIONS_VALID
        let bad := has value OPTIONS_ENABLED && conf.count != 0
        let status_flags := s.status_flags ||| STATUS_FLAGS_INIT_OK
        some
          { s with
            status_flags := if bad then status_flags &&& ~~~STATUS_FLAGS_INIT_OK else status_flags
            setup_arming := s.setup_arming &&& ~~~ARMING_RC_HANDLING_DISABLED
            rc_input_config :=
              Function.update s.rc_input_config channel (conf.setOptions value) }
      | index =>
        some
          { s with
            rc_input_config := Function.update s.rc_input_config channel (conf.set index value) }

end State

/-! ### A write -/

inductive Page
  | STATUS
  | SETUP
  | CONTROLS
  | MIXERLOAD
  | RC_CONFIG
  | DIRECT_PWM
  | FAILSAFE_PWM
  | CONTROL_MIN_PWM
  | CONTROL_MAX_PWM
  | CONTROL_TRIM_PWM
  | DISARMED_PWM
  | TEST
  /-- A page that is not written. -/
  | other
  deriving DecidableEq

/-- The registers from `offset` on, as long as there are both a register and a value. -/
def copyChannels (count : ℕ) (copy : UInt16 → UInt16 → UInt16) :
    ℕ → List UInt16 → (ℕ → UInt16) → ℕ → UInt16
  | _, [], page => page
  | offset, value :: values, page =>
    if offset < count then
      copyChannels count copy (offset + 1) values
        (Function.update page offset (copy (page offset) value))
    else page

/-- The value in the range from `low` to `high`. -/
def clampPwm (low high value : UInt16) : UInt16 :=
  if value < low then low else if high < value then high else value

def copyPwm (low high old value : UInt16) : UInt16 :=
  if value = 0 then old else clampPwm low high value

namespace MixerAction

def ofByte : UInt8 → Option MixerAction
  | 0 => some .RESET
  | 1 => some .APPEND
  | _ => none

end MixerAction

namespace State

def interruptMixerHandleText (s : State G) (buffer : List UInt8) : State G × ℤ :=
  let locked := has s.status_flags STATUS_FLAGS_SAFETY_OFF && has s.setup_arming ARMING_FMU_ARMED
  -- do not allow a mixer change while safety off and FMU armed
  if locked then (s, 1)
  else
    -- disable mixing, will be enabled once load is complete
    let s := { s with status_flags := s.status_flags &&& ~~~STATUS_FLAGS_MIXER_OK }
    match buffer with
    | _ :: _ :: byte :: text =>
      match MixerAction.ofByte byte with
      | some action =>
        let r := s.mixer.handleText locked action text
        ({ s with mixer := r.1 }, r.2)
      | none => (s, 0)
    | _ => (s, 0)

def registersSetOne (s : State G) (page : Page) (offset : ℕ) (value : UInt16) : Option (State G) :=
  match page with
  | .STATUS => some (s.setStatus offset value)
  | .SETUP => s.setSetup offset value
  | .RC_CONFIG => s.setRcConfig offset value
  | .TEST => some s
  | _ => none

def registersSetAll (s : State G) (page : Page) : ℕ → List UInt16 → State G × ℤ
  | _, [] => (s, 0)
  | offset, value :: values =>
    match s.registersSetOne page offset value with
    | none => (s, -1)
    | some s => s.registersSetAll page (offset + 1) values

def clip (offset : ℕ) (values : List UInt16) : List UInt16 :=
  if 255 < offset + values.length then values.take (255 - offset) else values

/-- `registers_set`, and its answer. -/
def registersSet (s : State G) (now : ℕ) (page : Page) (offset : ℕ) (values : List UInt16) :
    State G × ℤ :=
  match page with
  | .CONTROLS =>
    ({ s with
        controls := copyChannels (CONTROL_GROUPS * CONTROL_CHANNELS) (fun _ value => value)
          offset values s.controls
        status_flags := s.status_flags &&& ~~~STATUS_FLAGS_RAW_PWM
        fmu_data_received_time := now }, 0)
  | .DIRECT_PWM =>
    ({ s with
        direct_pwm := copyChannels CONTROL_CHANNELS
          (fun old value => if value = 0xFFFF then old else value) offset values s.direct_pwm
        status_flags := s.status_flags ||| STATUS_FLAGS_RAW_PWM
        fmu_data_received_time := now }, 0)
  | .FAILSAFE_PWM =>
    ({ s with
        servo_failsafe := copyChannels SERVO_COUNT (copyPwm 90 2500) offset values s.servo_failsafe
        -- flag the failsafe values as custom
        setup_arming :=
          if offset < SERVO_COUNT ∧ values ≠ [] then s.setup_arming ||| ARMING_FAILSAFE_CUSTOM
          else s.setup_arming }, 0)
  | .CONTROL_MIN_PWM =>
    ({ s with
        servo_control_min :=
          copyChannels SERVO_COUNT (copyPwm 90 1600) offset values s.servo_control_min }, 0)
  | .CONTROL_MAX_PWM =>
    ({ s with
        servo_control_max :=
          copyChannels SERVO_COUNT (copyPwm 200 2500) offset values s.servo_control_max }, 0)
  | .CONTROL_TRIM_PWM =>
    ({ s with
        servo_control_trim :=
          copyChannels SERVO_COUNT (fun _ value => value) offset values s.servo_control_trim
        update_trims := true }, 0)
  | .DISARMED_PWM =>
    ({ s with
        -- 0 means disabling always PWM
        servo_disarmed := copyChannels SERVO_COUNT
          (fun _ value => if value = 0 then 0 else clampPwm 90 2500 value)
          offset values s.servo_disarmed
        setup_arming :=
          if (values.take (SERVO_COUNT - offset)).all (· == 0) then
            s.setup_arming &&& ~~~ARMING_ALWAYS_PWM_ENABLE
          else s.setup_arming ||| ARMING_ALWAYS_PWM_ENABLE }, 0)
  | .MIXERLOAD =>
    s.interruptMixerHandleText (values.flatMap fun value : UInt16 =>
      [value.toUInt8, (value >>> 8).toUInt8])
  | page => s.registersSetAll page offset (clip offset values)

end State

/-! ### The channels -/

namespace RcConf

/-- The order of a channel and its dead zone, which the mapping computes with. -/
def Ordered (conf : RcConf) : Prop :=
  500 ≤ conf.min ∧ conf.min ≤ conf.center ∧ conf.center ≤ conf.max ∧ conf.max ≤ 2500 ∧
    conf.deadzone ≤ 500

def Sane (conf : RcConf) : Prop := conf.enabled = true → conf.Ordered

/-- The channel as it should be until its options are written again. -/
def disable (conf : RcConf) : RcConf := { conf with options := conf.options &&& ~~~OPTIONS_ENABLED }

theorem enabled_disable (conf : RcConf) : conf.disable.enabled = false := has_clear (by decide)

theorem set_options (conf : RcConf) (i : ℕ) (value : UInt16) :
    (conf.set i value).options = conf.options := by
  unfold set
  split <;> rfl

theorem ordered_of_count {conf : RcConf} (h : conf.count = 0) : conf.Ordered := by
  unfold count at h
  simp only [Nat.add_eq_zero_iff, ite_eq_right_iff, one_ne_zero, imp_false, UInt16.not_lt] at h
  obtain ⟨⟨⟨⟨⟨hmin, hmax⟩, hlow⟩, hhigh⟩, hdeadzone⟩, -⟩ := h
  exact ⟨hmin, hlow, hhigh, hmax, hdeadzone⟩

theorem sane_setOptions (conf : RcConf) (value : UInt16) : (conf.setOptions value).Sane := by
  unfold setOptions
  dsimp only
  by_cases h : has value OPTIONS_ENABLED ∧
      ({ conf with options := value &&& ~~~OPTIONS_ENABLED } : RcConf).count = 0 ∧
      ({ conf with options := value &&& ~~~OPTIONS_ENABLED } : RcConf).disabled = false
  · rw [if_pos h]
    have hordered : conf.Ordered := ordered_of_count h.2.1
    exact fun _ => hordered
  · rw [if_neg h]
    exact fun henabled => absurd henabled (Bool.eq_false_iff.mp
      (enabled_disable { conf with options := value }))

end RcConf

namespace State

variable {s : State G} {offset : ℕ} {value : UInt16}

theorem setRcConfig_of_ne (hsafety : has s.status_flags STATUS_FLAGS_SAFETY_OFF = false)
    (hchannel : RcConf.channel offset < RC_INPUT_CHANNELS)
    (hindex : RcConf.index offset ≠ RcConf.OPTIONS) :
    s.setRcConfig offset value = some
      { s with
        rc_input_config := Function.update s.rc_input_config (RcConf.channel offset)
          ({ s.rc_input_config (RcConf.channel offset) with
              options := (s.rc_input_config (RcConf.channel offset)).options &&& OPTIONS_ENABLED :
            RcConf}.set (RcConf.index offset) value) } := by
  unfold setRcConfig
  rw [hsafety, if_neg Bool.false_ne_true, if_neg (Nat.not_le.mpr hchannel)]
  dsimp only
  split
  · exact absurd ‹_› hindex
  · rfl

def writeDisabled (s : State G) (offset : ℕ) (value : UInt16) : State G :=
  { s with
    rc_input_config := Function.update s.rc_input_config (RcConf.channel offset)
      ((s.rc_input_config (RcConf.channel offset)).disable.set (RcConf.index offset) value) }

/-- A write to a register other than the options disables the channel, and changes nothing else,
only where no option is set. -/
theorem setRcConfig_iff (hsafety : has s.status_flags STATUS_FLAGS_SAFETY_OFF = false)
    (hchannel : RcConf.channel offset < RC_INPUT_CHANNELS)
    (hindex : RcConf.index offset ≠ RcConf.OPTIONS) :
    s.setRcConfig offset value = some (s.writeDisabled offset value) ↔
      (s.rc_input_config (RcConf.channel offset)).options = 0 := by
  rw [setRcConfig_of_ne hsafety hchannel hindex, Option.some.injEq, writeDisabled,
    ← and_eq_clear_iff (m := OPTIONS_ENABLED)]
  constructor
  · intro h
    have hconf := congrArg (fun s => (s.rc_input_config (RcConf.channel offset)).options) h
    simpa only [Function.update_self, RcConf.set_options, RcConf.disable] using hconf
  · intro h
    rw [RcConf.disable, h]

theorem setRcConfig_options (hsafety : has s.status_flags STATUS_FLAGS_SAFETY_OFF = false)
    (hchannel : RcConf.channel offset < RC_INPUT_CHANNELS)
    (hindex : RcConf.index offset = RcConf.OPTIONS) :
    ∃ s' conf, s.setRcConfig offset value = some s' ∧ conf.Sane ∧
      s'.rc_input_config = Function.update s.rc_input_config (RcConf.channel offset) conf := by
  unfold setRcConfig
  rw [hsafety, if_neg Bool.false_ne_true, if_neg (Nat.not_le.mpr hchannel)]
  dsimp only
  rw [hindex]
  exact ⟨_, _, rfl, RcConf.sane_setOptions _ _, rfl⟩

/-- A single write leaves the configuration, or it changes one channel, whose options are written
or only become less. -/
theorem rc_input_config_setRcConfig {s' : State G} (h : s.setRcConfig offset value = some s') :
    s'.rc_input_config = s.rc_input_config ∨
    has s.status_flags STATUS_FLAGS_SAFETY_OFF = false ∧
      RcConf.channel offset < RC_INPUT_CHANNELS ∧
      ∃ conf, s'.rc_input_config = Function.update s.rc_input_config (RcConf.channel offset) conf ∧
        (RcConf.index offset = RcConf.OPTIONS ∧ conf.Sane ∨
          RcConf.index offset ≠ RcConf.OPTIONS ∧
            conf.options = (s.rc_input_config
              (RcConf.channel offset)).options &&& OPTIONS_ENABLED) := by
  cases hsafety : has s.status_flags STATUS_FLAGS_SAFETY_OFF with
  | true =>
    rw [setRcConfig, if_pos hsafety, Option.some.injEq] at h
    exact .inl (h ▸ rfl)
  | false =>
    by_cases hchannel : RcConf.channel offset < RC_INPUT_CHANNELS
    · refine .inr ⟨rfl, hchannel, ?_⟩
      by_cases hindex : RcConf.index offset = RcConf.OPTIONS
      · obtain ⟨s'', conf, hset, hsane, hconf⟩ :=
          @setRcConfig_options _ _ _ value hsafety hchannel hindex
        rw [h, Option.some.injEq] at hset
        exact ⟨conf, hset ▸ hconf, .inl ⟨hindex, hsane⟩⟩
      · rw [setRcConfig_of_ne hsafety hchannel hindex, Option.some.injEq] at h
        subst h
        exact ⟨_, rfl, .inr ⟨hindex, RcConf.set_options _ _ _⟩⟩
    · unfold setRcConfig at h
      rw [hsafety, if_neg Bool.false_ne_true, if_pos (Nat.not_lt.mp hchannel)] at h
      cases h

/-! ### What a write keeps -/

theorem registersSetAll_preserves {I : State G → Prop} {page : Page}
    (hone : ∀ s offset value s', I s → s.registersSetOne page offset value = some s' → I s')
    (values : List UInt16) : ∀ {s : State G} {offset : ℕ}, I s →
      I (s.registersSetAll page offset values).1 := by
  induction values with
  | nil => exact fun h => h
  | cons value values ih =>
    intro s offset h
    unfold registersSetAll
    cases hset : s.registersSetOne page offset value with
    | none => exact h
    | some s' => exact ih (hone s offset value s' h hset)

theorem setStatus_frame (s : State G) (offset : ℕ) (value : UInt16) :
    (s.setStatus offset value).rc_input_config = s.rc_input_config ∧
      (s.setStatus offset value).setup_arming = s.setup_arming := by
  unfold setStatus
  split
  · dsimp only
    split_ifs <;> exact ⟨rfl, rfl⟩
  · exact ⟨rfl, rfl⟩
  · exact ⟨rfl, rfl⟩

theorem setSetup_frame {s' : State G} (h : s.setSetup offset value = some s') :
    s'.rc_input_config = s.rc_input_config ∧
      (s'.setup_arming = (s.setArming value).setup_arming ∨ s'.setup_arming = s.setup_arming) := by
  unfold setSetup at h
  split at h
  · cases h
    exact ⟨rfl, .inl rfl⟩
  · split_ifs at h
    cases h
    exact ⟨rfl, .inr rfl⟩
  · split_ifs at h <;> cases h <;> exact ⟨rfl, .inr rfl⟩
  · split_ifs at h
    cases h
    exact ⟨rfl, .inr rfl⟩
  all_goals cases h <;> exact ⟨rfl, .inr rfl⟩

theorem interruptMixerHandleText_frame (s : State G) (buffer : List UInt8) :
    (s.interruptMixerHandleText buffer).1.rc_input_config = s.rc_input_config ∧
      (s.interruptMixerHandleText buffer).1.setup_arming = s.setup_arming := by
  unfold interruptMixerHandleText
  dsimp only
  split_ifs
  · exact ⟨rfl, rfl⟩
  · split
    · split <;> exact ⟨rfl, rfl⟩
    · exact ⟨rfl, rfl⟩

theorem registersSet_rc_input_config (s : State G) (now : ℕ) {page : Page}
    (hpage : page ≠ .RC_CONFIG) (offset : ℕ) (values : List UInt16) :
    (s.registersSet now page offset values).1.rc_input_config = s.rc_input_config := by
  have hone : ∀ (t : State G) offset value t', t.rc_input_config = s.rc_input_config →
      t.registersSetOne page offset value = some t' → t'.rc_input_config = s.rc_input_config := by
    intro t offset value t' ht hset
    refine Eq.trans ?_ ht
    unfold registersSetOne at hset
    cases page with
    | STATUS =>
      cases hset
      exact (setStatus_frame t offset value).1
    | SETUP => exact (setSetup_frame hset).1
    | RC_CONFIG => exact absurd rfl hpage
    | TEST =>
      cases hset
      rfl
    | _ => cases hset
  have hall := fun values => @registersSetAll_preserves _ _ _ hone values s offset rfl
  cases page with
  | MIXERLOAD => exact (interruptMixerHandleText_frame s _).1
  | RC_CONFIG => exact absurd rfl hpage
  | STATUS | SETUP | TEST | other => exact hall _
  | _ => rfl

/-! ### The failsafe that is final -/

/-- The failsafe is forced, and is not to be taken back. -/
def Terminated (s : State G) : Prop :=
  has s.setup_arming ARMING_TERMINATION_FAILSAFE = true ∧
    has s.setup_arming ARMING_FORCE_FAILSAFE = true

theorem Terminated.setArming (h : s.Terminated) (value : UInt16) :
    (s.setArming value).Terminated := by
  obtain ⟨htermination, hforce⟩ := h
  unfold Terminated State.setArming
  dsimp only
  rw [if_pos htermination, has_or, has_or, has_or, has_or,
    has_and (s := ARMING_TERMINATION_FAILSAFE) (by decide),
    has_and (s := ARMING_FORCE_FAILSAFE) (m := ARMING_FORCE_FAILSAFE) (by decide), htermination,
    hforce]
  simp

section Keep

variable {s' : State G} {m : UInt16}

theorem Terminated.of_eq (h : s.Terminated) (harming : s'.setup_arming = s.setup_arming) :
    s'.Terminated := by
  unfold Terminated
  rw [harming]
  exact h

theorem Terminated.of_or (h : s.Terminated) (harming : s'.setup_arming = s.setup_arming ||| m) :
    s'.Terminated := by
  unfold Terminated
  rw [harming, has_or, has_or, h.1, h.2]
  exact ⟨rfl, rfl⟩

theorem Terminated.of_clear (h : s.Terminated) (harming : s'.setup_arming = s.setup_arming &&& ~~~m)
    (htermination : ~~~m &&& ARMING_TERMINATION_FAILSAFE = ARMING_TERMINATION_FAILSAFE)
    (hforce : ~~~m &&& ARMING_FORCE_FAILSAFE = ARMING_FORCE_FAILSAFE) : s'.Terminated := by
  unfold Terminated
  rw [harming, has_and htermination, has_and hforce]
  exact h

end Keep

theorem setRcConfig_arming {s' : State G} (h : s.setRcConfig offset value = some s') :
    s'.setup_arming = s.setup_arming ∨
      s'.setup_arming = s.setup_arming &&& ~~~ARMING_RC_HANDLING_DISABLED := by
  unfold setRcConfig at h
  dsimp only at h
  split_ifs at h
  · cases h
    exact .inl rfl
  all_goals
    split at h <;> cases h
    · exact .inr rfl
    · exact .inl rfl

theorem Terminated.registersSet (h : s.Terminated) (now : ℕ) (page : Page) (offset : ℕ)
    (values : List UInt16) : (s.registersSet now page offset values).1.Terminated := by
  have hone : ∀ (t : State G) offset value t', t.Terminated →
      t.registersSetOne page offset value = some t' → t'.Terminated := by
    intro t offset value t' ht hset
    unfold registersSetOne at hset
    cases page with
    | STATUS =>
      cases hset
      exact ht.of_eq (setStatus_frame t offset value).2
    | SETUP =>
      rcases (setSetup_frame hset).2 with harming | harming
      · exact (ht.setArming value).of_eq harming
      · exact ht.of_eq harming
    | RC_CONFIG =>
      rcases setRcConfig_arming hset with harming | harming
      · exact ht.of_eq harming
      · exact ht.of_clear harming (by decide) (by decide)
    | TEST =>
      cases hset
      exact ht
    | _ => cases hset
  have hall := fun values => @registersSetAll_preserves _ _ _ hone values s offset h
  cases page with
  | MIXERLOAD => exact h.of_eq (interruptMixerHandleText_frame s _).2
  | STATUS | SETUP | RC_CONFIG | TEST | other => exact hall _
  | FAILSAFE_PWM =>
    unfold State.registersSet
    dsimp only
    by_cases hany : offset < SERVO_COUNT ∧ values ≠ []
    · rw [if_pos hany]
      exact h.of_or rfl
    · rw [if_neg hany]
      exact h.of_eq rfl
  | DISARMED_PWM =>
    unfold State.registersSet
    dsimp only
    cases hoff : (values.take (SERVO_COUNT - offset)).all (· == 0) with
    | true =>
      rw [if_pos rfl]
      exact h.of_clear rfl (by decide) (by decide)
    | false =>
      rw [if_neg Bool.false_ne_true]
      exact h.of_or rfl
  | _ => exact h.of_eq rfl

end State

end Px4io
