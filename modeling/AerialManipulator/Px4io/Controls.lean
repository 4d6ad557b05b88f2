/-
The RC input of the IO processor.

`controls_tick` gathers the frames of the receivers, maps their channels to the controls, and
decides whether the pilot overrides the FMU.

* `Input` — what the decoders of the receivers give to a tick;
* `gather`, `mapChannel`, `process`, `lose`, `checkOverride` — the steps of a tick;
* `controlsTick` — a tick.
-/
import AerialManipulator.Lib.Rounding
import AerialManipulator.Px4io.Registers

namespace Px4io

open Flags

/-! ### The receivers -/

/-- A frame: the number of channels, and the values of those that are in it. -/
structure Frame where
  count : UInt16
  values : ℕ → Option UInt16

structure SbusFrame extends Frame where
  failsafe : Bool
  frame_drop : Bool

structure DsmFrame extends Frame where
  dsm_11_bit : Bool
  frame_drops : ℕ

structure St24Frame extends Frame where
  lost_count : UInt8

structure SumdFrame extends Frame where
  failsafe : Bool

structure Input where
  sbus : Option SbusFrame
  /-- A frame of the last 200 ms, which was not taken yet. -/
  ppm : Option Frame
  dsm : Option DsmFrame
  st24 : Option St24Frame
  sumd : Option SumdFrame

def limitCount (count : UInt16) : UInt16 := if 18 < count then 18 else count

theorem limitCount_le (count : UInt16) : (limitCount count).toNat ≤ RC_INPUT_CHANNELS := by
  unfold limitCount
  split_ifs with h
  · decide
  · exact UInt16.le_iff_toNat_le.mp (UInt16.not_lt.mp h)

variable {G : Type*}

namespace State

variable (s : State G)

def receive (frame : Frame) : State G :=
  { s with raw_rc_values := fun i => (frame.values i).getD (s.raw_rc_values i) }

def sbusInput : Option SbusFrame → State G × Bool
  | none => (s, false)
  | some frame =>
    if has s.status_flags (STATUS_FLAGS_RC_DSM ||| STATUS_FLAGS_RC_ST24 ||| STATUS_FLAGS_RC_SUMD)
      then (s, false)
    else
      ({ s.receive frame.toFrame with
          raw_rc_count := frame.count
          status_flags := s.status_flags ||| STATUS_FLAGS_RC_SBUS
          raw_rc_flags := put (put s.raw_rc_flags RAW_RC_FLAGS_FRAME_DROP frame.frame_drop)
            RAW_RC_FLAGS_FAILSAFE frame.failsafe }, true)

/-- `ppm_input`, and what the tick does with it. -/
def ppmInput : Option Frame → State G × Bool
  | none => (s, false)
  | some frame =>
    let s := { s.receive frame with raw_rc_count := limitCount frame.count }
    if 0 < s.raw_rc_count then
      ({ s with
          status_flags := s.status_flags ||| STATUS_FLAGS_RC_PPM
          raw_rc_flags := put (put s.raw_rc_flags RAW_RC_FLAGS_FRAME_DROP false)
            RAW_RC_FLAGS_FAILSAFE false }, true)
    else (s, false)

def dsmInput : Option DsmFrame → State G × Bool
  | none => (s, false)
  | some frame =>
    ({ s.receive frame.toFrame with
        raw_rc_count := frame.count
        raw_rc_flags := put
          (put (put s.raw_rc_flags RAW_RC_FLAGS_RC_DSM11 frame.dsm_11_bit)
            RAW_RC_FLAGS_FRAME_DROP (frame.frame_drops != s.frame_drops))
          RAW_RC_FLAGS_FAILSAFE false
        frame_drops := frame.frame_drops }, true)

def st24Input : Option St24Frame → State G × Bool
  | none => (s, false)
  | some frame =>
    if has s.status_flags (STATUS_FLAGS_RC_DSM ||| STATUS_FLAGS_RC_SUMD) then (s, false)
    else if frame.lost_count = 0 then
      ({ s.receive frame.toFrame with
          raw_rc_count := frame.count
          status_flags := s.status_flags ||| STATUS_FLAGS_RC_ST24
          raw_rc_flags := put (put s.raw_rc_flags RAW_RC_FLAGS_FRAME_DROP false)
            RAW_RC_FLAGS_FAILSAFE false }, true)
    else (s.receive frame.toFrame, true)

def sumdInput : Option SumdFrame → State G × Bool
  | none => (s, false)
  | some frame =>
    if has s.status_flags (STATUS_FLAGS_RC_DSM ||| STATUS_FLAGS_RC_ST24) then (s, false)
    else
      ({ s.receive frame.toFrame with
          raw_rc_count := frame.count
          status_flags := s.status_flags ||| STATUS_FLAGS_RC_SUMD
          raw_rc_flags := put (put s.raw_rc_flags RAW_RC_FLAGS_FRAME_DROP false)
            RAW_RC_FLAGS_FAILSAFE frame.failsafe }, true)

/-- `dsm_port_input`: three protocols share the port, which is not read with the other ones. -/
def portInput (input : Input) : State G × Bool :=
  if has s.status_flags (STATUS_FLAGS_RC_SBUS ||| STATUS_FLAGS_RC_PPM) then (s, false)
  else
    let dsm := s.dsmInput input.dsm
    let st24 := dsm.1.st24Input input.st24
    let sumd := st24.1.sumdInput input.sumd
    let status_flags := sumd.1.status_flags
    let status_flags := if dsm.2 then status_flags ||| STATUS_FLAGS_RC_DSM else status_flags
    let status_flags := if st24.2 then status_flags ||| STATUS_FLAGS_RC_ST24 else status_flags
    ({ sumd.1 with status_flags := status_flags }, dsm.2 || st24.2 || sumd.2)

/-- The inputs are gathered; and whether there is a new frame. -/
def gather (input : Input) : State G × Bool :=
  let sbus := s.sbusInput input.sbus
  let ppm := sbus.1.ppmInput input.ppm
  let port := ppm.1.portInput input
  ({ port.1 with raw_rc_count := limitCount port.1.raw_rc_count }, sbus.2 || ppm.2 || port.2)

end State

/-! ### What the receivers do not change -/

namespace State

/-- Only the raw input and the status flags differ. -/
def Received (s s' : State G) : Prop :=
  s' = { s with
    status_flags := s'.status_flags
    raw_rc_count := s'.raw_rc_count
    raw_rc_flags := s'.raw_rc_flags
    raw_rc_values := s'.raw_rc_values
    frame_drops := s'.frame_drops }

theorem Received.trans {s s' s'' : State G} (h : Received s s') (h' : Received s' s'') :
    Received s s'' := by
  unfold Received at *
  rw [h] at h'
  exact h'

variable (s : State G)

theorem received_sbusInput (input : Option SbusFrame) : Received s (s.sbusInput input).1 := by
  unfold sbusInput
  split
  · rfl
  · split_ifs <;> rfl

theorem received_ppmInput (input : Option Frame) : Received s (s.ppmInput input).1 := by
  unfold ppmInput
  split
  · rfl
  · dsimp only
    split_ifs <;> rfl

theorem received_dsmInput (input : Option DsmFrame) : Received s (s.dsmInput input).1 := by
  unfold dsmInput
  split <;> rfl

theorem received_st24Input (input : Option St24Frame) : Received s (s.st24Input input).1 := by
  unfold st24Input
  split
  · rfl
  · split_ifs <;> rfl

theorem received_sumdInput (input : Option SumdFrame) : Received s (s.sumdInput input).1 := by
  unfold sumdInput
  split
  · rfl
  · split_ifs <;> rfl

theorem received_portInput (input : Input) : Received s (s.portInput input).1 := by
  unfold portInput
  split_ifs
  · rfl
  · have hport := ((s.received_dsmInput input.dsm).trans (received_st24Input _ input.st24)).trans
      (received_sumdInput _ input.sumd)
    exact hport.trans rfl

theorem received_gather (input : Input) : Received s (s.gather input).1 := by
  have hport := ((s.received_sbusInput input.sbus).trans (received_ppmInput _ input.ppm)).trans
    (received_portInput _ input)
  exact hport.trans rfl

end State

/-! ### The mapping -/

def regToSigned (reg : UInt16) : ℤ := reg.toInt16.toInt

def signedToReg (x : ℤ) : UInt16 := (Int16.ofInt x).toUInt16

theorem regToSigned_signedToReg {x : ℤ} (h : -10000 ≤ x ∧ x ≤ 10000) :
    regToSigned (signedToReg x) = x := by
  change (Int16.ofInt x).toInt = x
  exact Int16.toInt_ofInt_of_le (by omega) (by omega)

namespace RcConf

variable (fl : Rounding) (conf : RcConf)

/-- Constrain to min/max values, as later processing depends on bounds. -/
def constrain (raw : UInt16) : UInt16 :=
  let raw := if raw < conf.min then conf.min else raw
  if conf.max < raw then conf.max else raw

def upper : ℤ := conf.max.toNat - conf.center.toNat - conf.deadzone.toNat

def lower : ℤ := conf.center.toNat - conf.deadzone.toNat - conf.min.toNat

/-- Scale around the mid point differently for lower and upper range. -/
def scale (raw : UInt16) : ℤ :=
  if (conf.center.toNat + conf.deadzone.toNat : ℤ) < raw.toNat then
    fl.ratio 10000 (raw.toNat - conf.center.toNat - conf.deadzone.toNat) conf.upper
  else if (raw.toNat : ℤ) < conf.center.toNat - conf.deadzone.toNat then
    fl.ratio 10000 (raw.toNat - conf.center.toNat + conf.deadzone.toNat) conf.lower
  -- in the configured dead zone, output zero
  else 0

def scaled (raw : UInt16) : ℤ :=
  if has conf.options OPTIONS_REVERSE then -conf.scale fl (conf.constrain raw)
  else conf.scale fl (conf.constrain raw)

end RcConf

/-- What the loop over the channels computes. -/
structure Mapping where
  raw_rc_flags : UInt16
  rc_values : ℕ → UInt16
  rc_value_override : UInt16
  assigned_channels : ℕ

namespace State

variable (fl : Rounding) (s : State G)

/-- The threshold of the throttle for the failsafe; none, if zero. -/
def rcThrFailsafe : UInt16 := s.setup SETUP_RC_THR_FAILSAFE_US

/-- A throttle outside of the range of its channel, and behind the threshold. -/
def throttleFailsafe (conf : RcConf) (raw : UInt16) : Bool :=
  raw < conf.min && raw < s.rcThrFailsafe || conf.max < raw && s.rcThrFailsafe < raw

def mapChannel (m : Mapping) (i : ℕ) : Mapping :=
  let conf := s.rc_input_config i
  if conf.enabled then
    let raw := conf.constrain (s.raw_rc_values i)
    let scaled := conf.scaled fl (s.raw_rc_values i)
    let mapped := conf.assignment
    if mapped.toNat < CONTROL_CHANNELS then
      { m with
        raw_rc_flags :=
          -- throttle failsafe detection
          if mapped = 3 ∧ s.rcThrFailsafe ≠ 0 then
            put m.raw_rc_flags RAW_RC_FLAGS_FAILSAFE (s.throttleFailsafe conf raw)
          else m.raw_rc_flags
        rc_values := Function.update m.rc_values mapped.toNat
          -- invert channel if pitch
          (signedToReg (if mapped = 1 then -scaled else scaled))
        assigned_channels := m.assigned_channels ||| 1 <<< mapped.toNat }
    -- pick out override channel, indicated by special mapping
    else if mapped = ASSIGNMENT_MODESWITCH then
      { m with rc_value_override := signedToReg scaled }
    else m
  else m

def mapChannels : ℕ → Mapping
  | 0 => ⟨s.raw_rc_flags, s.rc_values, s.rc_value_override, 0⟩
  | i + 1 => s.mapChannel fl (mapChannels i) i

def process (now : ℕ) : State G :=
  let m := s.mapChannels fl s.raw_rc_count.toNat
  { s with
    rc_channels_timestamp_received := now
    -- set un-assigned controls to zero
    rc_values := fun i =>
      if i < CONTROL_CHANNELS ∧ m.assigned_channels.testBit i = false then 0 else m.rc_values i
    rc_value_override := m.rc_value_override
    status_flags := s.status_flags ||| STATUS_FLAGS_RC_OK
    raw_rc_flags :=
      put (m.raw_rc_flags ||| RAW_RC_FLAGS_RC_OK) RAW_RC_FLAGS_MAPPING_OK (4 < m.assigned_channels)
    rc_valid := UInt16.ofNat m.assigned_channels }

/-! ### The loss of the input, and the override -/

def inputLost (now : ℕ) : Bool := 200000 < now - s.rc_channels_timestamp_received

def lose (now : ℕ) : State G :=
  let rc_input_lost := s.inputLost now
  let s :=
    if rc_input_lost then
      { s with
        status_flags := s.status_flags &&& ~~~(STATUS_FLAGS_RC_PPM ||| STATUS_FLAGS_RC_DSM |||
          STATUS_FLAGS_RC_SBUS ||| STATUS_FLAGS_RC_ST24 ||| STATUS_FLAGS_RC_SUMD) }
    else s
  -- if we are in failsafe, clear the override flag
  let s :=
    if has s.raw_rc_flags RAW_RC_FLAGS_FAILSAFE then
      { s with status_flags := s.status_flags &&& ~~~STATUS_FLAGS_OVERRIDE }
    else s
  if rc_input_lost then
    { s with
      status_flags := s.status_flags &&& ~~~(STATUS_FLAGS_OVERRIDE ||| STATUS_FLAGS_RC_OK)
      raw_rc_flags := s.raw_rc_flags &&& ~~~RAW_RC_FLAGS_RC_OK
      rc_valid := 0
      raw_rc_count := 0
      status_alarms := s.status_alarms ||| STATUS_ALARMS_RC_LOST }
  else s

def overrideAllowed : Bool :=
  has s.setup_arming ARMING_MANUAL_OVERRIDE_OK && has s.status_flags STATUS_FLAGS_RC_OK &&
    !has s.raw_rc_flags RAW_RC_FLAGS_FAILSAFE &&
    !has s.setup_arming ARMING_RC_HANDLING_DISABLED && has s.status_flags STATUS_FLAGS_MIXER_OK

/-- The pilot has requested override, or the FMU is dead and override is immediate. -/
def overrideRequested : Bool :=
  has s.status_flags STATUS_FLAGS_RC_OK && decide (regToSigned s.rc_value_override < -8000) ||
    !has s.status_flags STATUS_FLAGS_FMU_OK && has s.setup_arming ARMING_OVERRIDE_IMMEDIATE &&
      !has s.setup_arming ARMING_TERMINATION_FAILSAFE

def checkOverride : State G :=
  { s with
    status_flags :=
      put s.status_flags STATUS_FLAGS_OVERRIDE (s.overrideAllowed && s.overrideRequested) }

def controlsTick (now : ℕ) (input : Input) : State G :=
  let gathered := s.gather input
  let s := if gathered.2 then gathered.1.process fl now else gathered.1
  (s.lose now).checkOverride

end State

/-! ### The range of a channel -/

namespace RcConf

variable (fl : Rounding) {conf : RcConf} {raw : UInt16}

theorem constrain_mem (h : conf.min ≤ conf.max) (raw : UInt16) :
    conf.min ≤ conf.constrain raw ∧ conf.constrain raw ≤ conf.max := by
  unfold constrain
  dsimp only
  rw [UInt16.le_iff_toNat_le] at *
  rw [UInt16.le_iff_toNat_le]
  split_ifs <;> simp only [UInt16.lt_iff_toNat_lt] at * <;> omega

/-- The divisor is positive where it is used, and the scaled value is in its range. -/
theorem scale_mem (h : conf.Ordered) (hraw : conf.min ≤ raw ∧ raw ≤ conf.max) :
    ((conf.center.toNat + conf.deadzone.toNat : ℤ) < raw.toNat → 0 < conf.upper) ∧
    ((raw.toNat : ℤ) < conf.center.toNat - conf.deadzone.toNat → 0 < conf.lower) ∧
    -10000 ≤ conf.scale fl raw ∧ conf.scale fl raw ≤ 10000 := by
  obtain ⟨-, hmin, hmax, -, -⟩ := h
  rw [UInt16.le_iff_toNat_le] at hmin hmax
  rw [UInt16.le_iff_toNat_le, UInt16.le_iff_toNat_le] at hraw
  unfold scale upper lower
  refine ⟨by omega, by omega, ?_⟩
  split_ifs with hhigh hlow
  · have hmem := @Rounding.ratio_mem fl
      (raw.toNat - conf.center.toNat - conf.deadzone.toNat)
      (conf.max.toNat - conf.center.toNat - conf.deadzone.toNat) 10000 0 1
      (by decide) (by decide) (by decide) (by decide) (by omega) (by omega)
    omega
  · have hmem := @Rounding.ratio_mem fl
      (raw.toNat - conf.center.toNat + conf.deadzone.toNat)
      (conf.center.toNat - conf.deadzone.toNat - conf.min.toNat) 10000 (-1) 0
      (by decide) (by decide) (by decide) (by decide) (by omega) (by omega)
    omega
  · decide

theorem scaled_mem (h : conf.Ordered) (raw : UInt16) :
    -10000 ≤ conf.scaled fl raw ∧ conf.scaled fl raw ≤ 10000 := by
  have hmem := (scale_mem fl h (constrain_mem (UInt16.le_trans h.2.1 h.2.2.1) raw)).2.2
  unfold scaled
  split_ifs <;> omega

end RcConf

/-! ### The mapped values -/

/-- A control is between its two ends. -/
def InRange (reg : UInt16) : Prop := -10000 ≤ regToSigned reg ∧ regToSigned reg ≤ 10000

theorem inRange_signedToReg {x : ℤ} (h : -10000 ≤ x ∧ x ≤ 10000) : InRange (signedToReg x) := by
  unfold InRange
  rw [regToSigned_signedToReg h]
  exact h

theorem testBit_assign (assigned mapped j : ℕ) :
    (assigned ||| 1 <<< mapped).testBit j = (assigned.testBit j || decide (mapped = j)) := by
  rw [Nat.testBit_or, Nat.shiftLeft_eq, Nat.one_mul, Nat.testBit_two_pow]

namespace State

variable (fl : Rounding) (s : State G)

theorem mapChannels_inRange (hsane : ∀ i < RC_INPUT_CHANNELS, (s.rc_input_config i).Sane) {n : ℕ}
    (hn : n ≤ RC_INPUT_CHANNELS) :
    (∀ j, (s.mapChannels fl n).assigned_channels.testBit j = true →
      InRange ((s.mapChannels fl n).rc_values j)) ∧
    ((s.mapChannels fl n).rc_value_override = s.rc_value_override ∨
      InRange (s.mapChannels fl n).rc_value_override) := by
  induction n with
  | zero => exact ⟨fun j hj => absurd hj (by simp [mapChannels]), .inl rfl⟩
  | succ n ih =>
    obtain ⟨hvalues, hoverride⟩ := ih (Nat.le_of_succ_le hn)
    unfold mapChannels mapChannel
    dsimp only
    cases henabled : (s.rc_input_config n).enabled with
    | false => exact ⟨hvalues, hoverride⟩
    | true =>
      have hmem := RcConf.scaled_mem fl (hsane n hn henabled) (s.raw_rc_values n)
      rw [if_pos rfl]
      by_cases hmapped : (s.rc_input_config n).assignment.toNat < CONTROL_CHANNELS
      · rw [if_pos hmapped]
        refine ⟨fun j hj => ?_, hoverride⟩
        dsimp only at hj ⊢
        by_cases hj' : j = (s.rc_input_config n).assignment.toNat
        · rw [hj', Function.update_self]
          apply inRange_signedToReg
          split_ifs <;> omega
        · rw [testBit_assign, decide_eq_false (Ne.symm hj'), Bool.or_false] at hj
          rw [Function.update_of_ne hj']
          exact hvalues j hj
      · rw [if_neg hmapped]
        by_cases hswitch : (s.rc_input_config n).assignment = ASSIGNMENT_MODESWITCH
        · rw [if_pos hswitch]
          exact ⟨hvalues, .inr (inRange_signedToReg hmem)⟩
        · rw [if_neg hswitch]
          exact ⟨hvalues, hoverride⟩

theorem process_inRange (hsane : ∀ i < RC_INPUT_CHANNELS, (s.rc_input_config i).Sane)
    (hcount : s.raw_rc_count.toNat ≤ RC_INPUT_CHANNELS) (now : ℕ) :
    (∀ j < CONTROL_CHANNELS, InRange ((s.process fl now).rc_values j)) ∧
    ((s.process fl now).rc_value_override = s.rc_value_override ∨
      InRange (s.process fl now).rc_value_override) := by
  obtain ⟨hvalues, hoverride⟩ := s.mapChannels_inRange fl hsane hcount
  refine ⟨fun j hj => ?_, hoverride⟩
  unfold process
  dsimp only
  cases hassigned : (s.mapChannels fl s.raw_rc_count.toNat).assigned_channels.testBit j with
  | false =>
    rw [if_pos ⟨hj, rfl⟩]
    exact ⟨by decide, by decide⟩
  | true =>
    rw [if_neg fun h => nomatch h.2]
    exact hvalues j hassigned

end State

/-! ### What the tick keeps -/

namespace State

variable (fl : Rounding) (s : State G) (now : ℕ)

theorem lose_frame :
    (s.lose now).rc_input_config = s.rc_input_config ∧ (s.lose now).rc_values = s.rc_values ∧
      (s.lose now).rc_value_override = s.rc_value_override := by
  unfold lose
  dsimp only
  split_ifs <;> exact ⟨rfl, rfl, rfl⟩

theorem gather_count (input : Input) :
    (s.gather input).1.raw_rc_count.toNat ≤ RC_INPUT_CHANNELS := limitCount_le _

theorem controlsTick_rc_input_config (input : Input) :
    (s.controlsTick fl now input).rc_input_config = s.rc_input_config := by
  have hgather : (s.gather input).1.rc_input_config = s.rc_input_config := by
    rw [s.received_gather input]
  unfold controlsTick checkOverride
  dsimp only
  rw [(lose_frame _ now).1]
  split_ifs
  · exact hgather
  · exact hgather

end State

/-- `controls_init`: a 1:1 input map, all enabled. -/
def defaultConf (i : ℕ) : RcConf where
  min := 1000
  center := 1500
  max := 2000
  deadzone := 30
  assignment := UInt16.ofNat i
  options := OPTIONS_ENABLED

def State.controlsInit (s : State G) : State G :=
  { s with
    raw_rc_count := 0
    rc_channels_timestamp_received := 0
    rc_input_config := fun i =>
      if i < RC_INPUT_CHANNELS then defaultConf i else s.rc_input_config i }

end Px4io
