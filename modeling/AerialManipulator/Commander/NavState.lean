/-
The navigation state.

`setNavState` chooses what the vehicle does from what the user wants, which is the main state, and
from what has failed: links, position, engine, mission.  Each kind of loss has a configured action;
an action that the estimates do not allow falls through to the next one.

* `unattended_setLinkLossNavState`, `unattended_setOffboardLossNavState`,
  `posSafe_setOffboardLossRcNavState` — the actions choose a state whose position is there;
* `checkInvalidPosNavState_spec` — what the check of the position does;
* **`nav_state_safe`** — a state that needs the global position is chosen only if it is valid, and
  without remote control no state that needs the sticks.
-/
import AerialManipulator.Commander.Arming
import AerialManipulator.Lib.WithNaN

namespace Commander

inductive NavState
  | manual
  | altctl
  | posctl
  | autoMission
  | autoLoiter
  | autoRtl
  | autoLandengfail
  | autoLandgpsfail
  | acro
  | unused
  | descend
  | termination
  | offboard
  | stab
  | unused2
  | autoTakeoff
  | autoLand
  | autoFollowTarget
  | autoPrecland
  | orbit
  deriving DecidableEq

inductive MainState
  | manual
  | altctl
  | posctl
  | autoMission
  | autoLoiter
  | autoRtl
  | acro
  | offboard
  | stab
  | autoTakeoff
  | autoLand
  | autoFollowTarget
  | autoPrecland
  | orbit
  deriving DecidableEq

inductive VehicleType
  | unknown
  | rotaryWing
  | fixedWing
  | rover
  | airship
  deriving DecidableEq

inductive LinkLossAction
  | disabled
  | autoLoiter
  | autoRtl
  | autoLand
  | terminate
  | lockdown
  deriving DecidableEq

inductive OffboardLossAction
  | disabled
  | autoLand
  | autoLoiter
  | autoRtl
  | terminate
  | lockdown
  deriving DecidableEq

inductive OffboardLossRcAction
  | disabled
  | manualPosition
  | manualAltitude
  | manualAttitude
  | autoRtl
  | autoLand
  | autoLoiter
  | terminate
  | lockdown
  deriving DecidableEq

inductive PositionNavLossAction
  | altitudeManual
  | landTerminate
  deriving DecidableEq

/-- What is read and written of `vehicle_status`, `actuator_armed` and `commander_state`, and the
messages to the user. -/
structure Nav where
  nav_state : NavState
  arming_state : ArmingState
  failsafe : Bool
  failsafe_timestamp : UInt64
  vehicle_type : VehicleType
  rc_signal_lost : Bool
  data_link_lost : Bool
  engine_failure : Bool
  mission_failure : Bool
  force_failsafe : Bool
  lockdown : Bool
  main_state : MainState
  main_state_changes : UInt16
  main_state_timestamp : UInt64
  log : List String

/-- `vehicle_status_flags`. -/
structure StatusFlags where
  condition_auto_mission_available : Bool
  condition_local_altitude_valid : Bool
  condition_local_position_valid : Bool
  condition_local_velocity_valid : Bool
  condition_global_position_valid : Bool
  condition_home_position_valid : Bool
  offboard_control_signal_lost : Bool
  rc_signal_found_once : Bool
  vtol_transition_failure : Bool

/-- The other arguments of `set_nav_state`, and the clock when it is read for the time since the
last failsafe, for `failsafe_timestamp`, for the delay and for the main state. -/
structure NavInput where
  flags : StatusFlags
  mission_finished : Bool
  stay_in_failsafe : Bool
  landed : Bool
  data_link_loss_act : LinkLossAction
  rc_loss_act : LinkLossAction
  offb_loss_act : OffboardLossAction
  offb_loss_rc_act : OffboardLossRcAction
  posctl_nav_loss_act : PositionNavLossAction
  param_com_rcl_act_t : WithNaN ℚ
  param_com_rcl_except : BitVec 32
  elapsedAt : UInt64
  failsafeAt : UInt64
  delayAt : UInt64
  mainAt : UInt64

/-! The bits of `RCLossExceptionBits`, and the reasons for a failsafe. -/

def rclExceptMission : ℕ := 0
def rclExceptHold : ℕ := 1
def rclExceptOffboard : ℕ := 2

def reasonNoRc : String := "No manual control stick input"
def reasonNoOffboard : String := "no offboard"
def reasonNoRcAndNoOffboard : String := "no RC and no offboard"
def reasonNoLocalPosition : String := "no local position"
def reasonNoGlobalPosition : String := "no global position"
def reasonNoDatalink : String := "no datalink"
def reasonNoRcAndNoDatalink : String := "no RC and no datalink"

variable (s : Nav) (i : NavInput)

/-- Whether `main_state_transition` allows a main state. -/
def mainStateAllowed : MainState → Bool
  | .manual | .stab | .acro => true
  | .altctl => i.flags.condition_local_altitude_valid || i.flags.condition_global_position_valid
  | .posctl => i.flags.condition_local_position_valid || i.flags.condition_global_position_valid
  | .autoLoiter => i.flags.condition_global_position_valid
  | .autoFollowTarget | .orbit => s.vehicle_type = .rotaryWing
  | .autoMission =>
    i.flags.condition_global_position_valid && i.flags.condition_auto_mission_available
  | .autoRtl => i.flags.condition_global_position_valid && i.flags.condition_home_position_valid
  | .autoTakeoff | .autoLand => i.flags.condition_local_position_valid
  | .autoPrecland =>
    i.flags.condition_local_position_valid && i.flags.condition_global_position_valid &&
      s.vehicle_type = .rotaryWing
  | .offboard => !i.flags.offboard_control_signal_lost

def mainStateTransition (new_main_state : MainState) : Nav × TransitionResult :=
  if mainStateAllowed s i new_main_state then
    if s.main_state ≠ new_main_state then
      ({ s with
        main_state := new_main_state
        main_state_changes := s.main_state_changes + 1
        main_state_timestamp := i.mainAt }, .changed)
    else (s, .notChanged)
  else (s, .denied)

def enableFailsafe (old_failsafe : Bool) (reason : String) : Nav :=
  let s :=
    if !old_failsafe && s.arming_state = .armed then
      -- "make sure intermittent failsafes don't lead to infinite delay"
      let s :=
        if s.failsafe_timestamp = 0 ∨ i.elapsedAt - s.failsafe_timestamp > 1000000 then
          { s with failsafe_timestamp := i.failsafeAt }
        else s
      { s with log := s.log ++ ["Failsafe enabled: " ++ reason] }
    else s
  { s with failsafe := true }

def fallbackRequired (using_global_pos : Bool) : Bool :=
  if using_global_pos then !i.flags.condition_global_position_valid
  else !i.flags.condition_local_position_valid || !i.flags.condition_local_velocity_valid

/-- "fallback to a mode that gives the operator stick control", or "go into a descent that does not
require stick control" -/
def fallbackState (use_rc : Bool) : NavState :=
  if use_rc then
    if s.vehicle_type = .rotaryWing ∧ i.flags.condition_local_position_valid then .posctl
    else if i.flags.condition_local_altitude_valid then .altctl
    else .stab
  else if i.flags.condition_local_position_valid then .autoLand
  else if i.flags.condition_local_altitude_valid then
    if s.vehicle_type = .rotaryWing then .descend else .autoLandgpsfail
  else .termination

def checkInvalidPosNavState (old_failsafe use_rc using_global_pos : Bool) : Nav × Bool :=
  if fallbackRequired i using_global_pos then
    (enableFailsafe { s with nav_state := fallbackState s i use_rc } i old_failsafe
      (if using_global_pos then reasonNoGlobalPosition else reasonNoLocalPosition), true)
  else (s, false)

/-! The actions on the loss of a link; each falls through to the next one. -/

def linkTerminate : Nav := { s with nav_state := .termination, force_failsafe := true }

def linkLand : Nav :=
  if i.flags.condition_global_position_valid then { s with nav_state := .autoLand }
  else if s.vehicle_type = .rotaryWing then
    if i.flags.condition_local_position_valid then { s with nav_state := .autoLand }
    else if i.flags.condition_local_altitude_valid then { s with nav_state := .descend }
    else linkTerminate s
  else { s with nav_state := .autoLandgpsfail }

def linkLoiter : Nav :=
  if i.flags.condition_global_position_valid then { s with nav_state := .autoLoiter }
  else linkLand s i

def linkRtl : Nav :=
  if i.flags.condition_global_position_valid && i.flags.condition_home_position_valid then
    { (mainStateTransition s i .autoRtl).1 with nav_state := .autoRtl }
  else linkLoiter s i

/-- The reaction is delayed: the time since the failsafe is less than the delay. -/
def delayed (ll_delay : WithNaN ℚ) : Prop :=
  WithNaN.num (((i.delayAt - s.failsafe_timestamp).toNat : ℕ) : ℚ) <
    ll_delay * WithNaN.num ((1000000 : ℕ) : ℚ)

instance (ll_delay : WithNaN ℚ) : Decidable (delayed s i ll_delay) :=
  inferInstanceAs (Decidable (_ < _))

def setLinkLossNavState (link_loss_act : LinkLossAction) (ll_delay : WithNaN ℚ) : Nav :=
  -- "delay failsafe reaction by trying to hold position if configured"
  let link_loss_act :=
    if delayed s i ll_delay ∧ link_loss_act ≠ .disabled then .autoLoiter else link_loss_act
  match link_loss_act with
  | .disabled => s
  | .autoRtl => linkRtl s i
  | .autoLoiter => linkLoiter s i
  | .autoLand => linkLand s i
  | .terminate => linkTerminate s
  | .lockdown => { s with lockdown := true }

def resetLinkLossGlobals (old_failsafe : Bool) (link_loss_act : LinkLossAction) : Nav :=
  if old_failsafe then
    if link_loss_act = .terminate then { s with force_failsafe := false }
    else if link_loss_act = .lockdown then { s with lockdown := false }
    else s
  else s

/-! The actions on the loss of the offboard control. -/

def mitigate : Nav :=
  if i.flags.condition_local_altitude_valid then
    if s.vehicle_type = .rotaryWing then { s with nav_state := .descend }
    else { s with nav_state := .autoLandgpsfail }
  else { s with nav_state := .termination }

def offboardLand : Nav :=
  if i.flags.condition_global_position_valid then { s with nav_state := .autoLand }
  else mitigate s i

def offboardLoiter : Nav :=
  if i.flags.condition_global_position_valid then { s with nav_state := .autoLoiter }
  else offboardLand s i

def offboardRtl : Nav :=
  if i.flags.condition_global_position_valid && i.flags.condition_home_position_valid then
    { s with nav_state := .autoRtl }
  else offboardLoiter s i

def setOffboardLossNavState : OffboardLossAction → Nav
  | .disabled => s
  | .terminate => { s with nav_state := .termination, force_failsafe := true }
  | .lockdown => { s with lockdown := true }
  | .autoRtl => offboardRtl s i
  | .autoLoiter => offboardLoiter s i
  | .autoLand => offboardLand s i

def manualAltitude : Nav :=
  if i.flags.condition_local_altitude_valid then { s with nav_state := .altctl }
  else { s with nav_state := .manual }

def manualPosition : Nav :=
  if s.vehicle_type = .rotaryWing ∧ i.flags.condition_local_position_valid then
    { s with nav_state := .posctl }
  else if i.flags.condition_global_position_valid then { s with nav_state := .posctl }
  else manualAltitude s i

def setOffboardLossRcNavState : OffboardLossRcAction → Nav
  | .disabled => s
  | .terminate => { s with nav_state := .termination, force_failsafe := true }
  | .lockdown => { s with lockdown := true }
  | .manualPosition => manualPosition s i
  | .manualAltitude => manualAltitude s i
  | .manualAttitude => { s with nav_state := .manual }
  | .autoRtl => offboardRtl s i
  | .autoLoiter => offboardLoiter s i
  | .autoLand => offboardLand s i

def resetOffboardLossGlobals (old_failsafe : Bool) (offboard_loss_act : OffboardLossAction)
    (offboard_loss_rc_act : OffboardLossRcAction) : Nav :=
  if old_failsafe then
    let s :=
      if offboard_loss_act = .terminate ∨ offboard_loss_rc_act = .terminate then
        { s with force_failsafe := false }
      else s
    if offboard_loss_act = .lockdown ∨ offboard_loss_rc_act = .lockdown then
      { s with lockdown := false }
    else s
  else s

/-! ### The main states -/

variable (old_failsafe : Bool)

def isArmed : Bool := s.arming_state = .armed

def dataLinkLossActConfigured : Bool := i.data_link_loss_act ≠ .disabled

/-- `MAIN_STATE_ACRO`, `MAIN_STATE_MANUAL`, `MAIN_STATE_STAB` and `MAIN_STATE_ALTCTL`. -/
def manualState (nav_state : NavState) : Nav :=
  if s.rc_signal_lost && isArmed s then
    setLinkLossNavState (enableFailsafe s i old_failsafe reasonNoRc) i i.rc_loss_act
      i.param_com_rcl_act_t
  else { s with nav_state := nav_state }

def posctlState : Nav :=
  let rc_fallback_allowed := i.posctl_nav_loss_act ≠ .landTerminate || !isArmed s
  if s.rc_signal_lost && isArmed s then
    setLinkLossNavState (enableFailsafe s i old_failsafe reasonNoRc) i i.rc_loss_act
      i.param_com_rcl_act_t
  else
    let r := checkInvalidPosNavState s i old_failsafe rc_fallback_allowed
      (s.vehicle_type = .fixedWing)
    if r.2 then r.1 else { s with nav_state := .posctl }

/-- The reactions to lost links in the mission, loiter and takeoff states; `none` if there is no
reason for one. -/
def linkLossReaction (exception : ℕ) : Option Nav :=
  let excepted := i.param_com_rcl_except.getLsbD exception
  -- data link lost, reaction configured
  if s.data_link_lost && dataLinkLossActConfigured i && isArmed s && !i.landed then
    some (setLinkLossNavState (enableFailsafe s i old_failsafe reasonNoDatalink) i
      i.data_link_loss_act 0)
  -- RC lost that was used before: reaction after the delay
  else if s.rc_signal_lost && !excepted && i.flags.rc_signal_found_once && isArmed s &&
      !i.landed then
    some (setLinkLossNavState (enableFailsafe s i old_failsafe reasonNoRc) i i.rc_loss_act
      i.param_com_rcl_act_t)
  -- all links lost, without a reaction to the loss of the data link: immediately
  else if s.rc_signal_lost && !excepted && s.data_link_lost && !dataLinkLossActConfigured i &&
      isArmed s && !i.landed then
    some (setLinkLossNavState (enableFailsafe s i old_failsafe reasonNoDatalink) i i.rc_loss_act 0)
  else none

def autoMissionState : Nav :=
  let r := checkInvalidPosNavState s i old_failsafe false true
  if isArmed s && r.2 then r.1
  else if s.engine_failure then { s with nav_state := .autoLandengfail }
  else if i.flags.vtol_transition_failure then { s with nav_state := .autoRtl }
  else if s.mission_failure then { s with nav_state := .autoRtl }
  else
    match linkLossReaction s i old_failsafe rclExceptMission with
    | some t => t
    | none =>
      -- "finish mission but then return to avoid lost vehicle"
      if s.rc_signal_lost && i.param_com_rcl_except.getLsbD rclExceptMission && s.data_link_lost &&
          !dataLinkLossActConfigured i && isArmed s && !i.landed && i.mission_finished then
        setLinkLossNavState (enableFailsafe s i old_failsafe reasonNoRcAndNoDatalink) i .autoRtl 0
      -- the state is kept where the failsafe has to be kept
      else if !i.stay_in_failsafe then { s with nav_state := .autoMission }
      else s

/-- The states that only the engine and the position can end. -/
def autoState (using_global_pos : Bool) (nav_state : NavState) : Nav :=
  if s.engine_failure then { s with nav_state := .autoLandengfail }
  else
    let r := checkInvalidPosNavState s i old_failsafe false using_global_pos
    if isArmed s && r.2 then r.1 else { s with nav_state := nav_state }

/-- `MAIN_STATE_AUTO_LOITER` and `MAIN_STATE_AUTO_TAKEOFF`. -/
def linkedState (using_global_pos : Bool) (nav_state : NavState) : Nav :=
  if s.engine_failure then { s with nav_state := .autoLandengfail }
  else
    let r := checkInvalidPosNavState s i old_failsafe false using_global_pos
    if isArmed s && r.2 then r.1
    else
      match linkLossReaction s i old_failsafe rclExceptHold with
      | some t => t
      | none => { s with nav_state := nav_state }

/-- Orbit; "recovery from failsafe into orbit is not possible", so the main state is left.  When the
data link is lost, the delay is counted before the failsafe is enabled. -/
def orbitState : Nav :=
  if s.engine_failure then { s with nav_state := .autoLandengfail, main_state := .posctl }
  else
    let r := checkInvalidPosNavState s i old_failsafe false true
    if isArmed s && r.2 then { r.1 with main_state := .posctl }
    else if s.data_link_lost && dataLinkLossActConfigured i && !i.landed && isArmed s then
      { enableFailsafe (setLinkLossNavState s i i.data_link_loss_act 0) i old_failsafe
          reasonNoDatalink with
        main_state := .posctl }
    else if s.rc_signal_lost && s.data_link_lost && !dataLinkLossActConfigured i && isArmed s then
      { setLinkLossNavState (enableFailsafe s i old_failsafe reasonNoRc) i i.rc_loss_act 0 with
        main_state := .posctl }
    else { s with nav_state := .orbit }

def offboardState : Nav :=
  if i.flags.offboard_control_signal_lost then
    if s.rc_signal_lost && !i.param_com_rcl_except.getLsbD rclExceptOffboard then
      setOffboardLossNavState (enableFailsafe s i old_failsafe reasonNoRcAndNoOffboard) i
        i.offb_loss_act
    else
      setOffboardLossRcNavState (enableFailsafe s i old_failsafe reasonNoOffboard) i
        i.offb_loss_rc_act
  else { s with nav_state := .offboard }

/-- "Failsafe decision logic for every normal non-failsafe mode" -/
def decideNavState : Nav :=
  match s.main_state with
  | .acro => manualState s i old_failsafe .acro
  | .manual => manualState s i old_failsafe .manual
  | .stab => manualState s i old_failsafe .stab
  | .altctl => manualState s i old_failsafe .altctl
  | .posctl => posctlState s i old_failsafe
  | .autoMission => autoMissionState s i old_failsafe
  | .autoLoiter => linkedState s i old_failsafe true .autoLoiter
  | .autoRtl => autoState s i old_failsafe true .autoRtl
  | .autoFollowTarget => autoState s i old_failsafe true .autoFollowTarget
  | .orbit => orbitState s i old_failsafe
  | .autoTakeoff => linkedState s i old_failsafe false .autoTakeoff
  | .autoLand => autoState s i old_failsafe false .autoLand
  | .autoPrecland => autoState s i old_failsafe false .autoPrecland
  | .offboard => offboardState s i old_failsafe

/-- The flags of the actions are reset; "if loss state persists flags will be restored". -/
def resetGlobals : Nav :=
  let old_failsafe := s.failsafe
  let s := { s with failsafe := false }
  let s := resetLinkLossGlobals s old_failsafe i.rc_loss_act
  let s := resetLinkLossGlobals s old_failsafe i.data_link_loss_act
  resetOffboardLossGlobals s old_failsafe i.offb_loss_act i.offb_loss_rc_act

/-- `set_nav_state`; returns whether the state has changed. -/
def setNavState : Nav × Bool :=
  let t := decideNavState (resetGlobals s i) i s.failsafe
  (t, t.nav_state ≠ s.nav_state)

/-! ### Safe states -/

def NavState.needsGlobalPosition : NavState → Bool
  | .autoMission | .autoLoiter | .autoRtl | .orbit | .autoFollowTarget => true
  | _ => false

def NavState.stickControlled : NavState → Bool
  | .manual | .altctl | .posctl | .acro | .stab => true
  | _ => false

def MainState.isManual : MainState → Bool
  | .manual | .altctl | .posctl | .acro | .stab => true
  | _ => false

/-- A state that may be chosen with these estimates. -/
def PosSafe (i : NavInput) (n : NavState) : Prop :=
  n.needsGlobalPosition = true → i.flags.condition_global_position_valid = true

/-- A state that may be chosen without remote control. -/
def Unattended (i : NavInput) (n : NavState) : Prop := PosSafe i n ∧ n.stickControlled = false

variable {s i old_failsafe} {n : NavState}

theorem unattended_of_not (h : n.needsGlobalPosition = false) (h' : n.stickControlled = false) :
    Unattended i n := ⟨fun hn => absurd (hn.symm.trans h) Bool.true_eq_false.mp, h'⟩

theorem unattended_of_valid (h : i.flags.condition_global_position_valid = true)
    (h' : n.stickControlled = false) : Unattended i n := ⟨fun _ => h, h'⟩

theorem posSafe_of_not (h : n.needsGlobalPosition = false) : PosSafe i n :=
  fun hn => absurd (hn.symm.trans h) Bool.true_eq_false.mp

theorem unattended_linkLand : Unattended i (linkLand s i).nav_state := by
  unfold linkLand linkTerminate
  split
  · exact unattended_of_not rfl rfl
  · split
    · split
      · exact unattended_of_not rfl rfl
      · split <;> exact unattended_of_not rfl rfl
    · exact unattended_of_not rfl rfl

theorem unattended_linkLoiter : Unattended i (linkLoiter s i).nav_state := by
  unfold linkLoiter
  split
  · next hvalid => exact unattended_of_valid hvalid rfl
  · exact unattended_linkLand

theorem unattended_linkRtl : Unattended i (linkRtl s i).nav_state := by
  unfold linkRtl
  split
  · next hvalid => exact unattended_of_valid (Bool.and_eq_true_iff.mp hvalid).1 rfl
  · exact unattended_linkLoiter

theorem unattended_setLinkLossNavState {act : LinkLossAction} (hdisabled : act ≠ .disabled)
    (hlockdown : act ≠ .lockdown) (ll_delay : WithNaN ℚ) :
    Unattended i (setLinkLossNavState s i act ll_delay).nav_state := by
  unfold setLinkLossNavState
  dsimp only
  split_ifs with hdelay
  · exact unattended_linkLoiter
  · cases act with
    | disabled => exact absurd rfl hdisabled
    | autoLoiter => exact unattended_linkLoiter
    | autoRtl => exact unattended_linkRtl
    | autoLand => exact unattended_linkLand
    | terminate => exact unattended_of_not rfl rfl
    | lockdown => exact absurd rfl hlockdown

theorem unattended_mitigate : Unattended i (mitigate s i).nav_state := by
  unfold mitigate
  split
  · split <;> exact unattended_of_not rfl rfl
  · exact unattended_of_not rfl rfl

theorem unattended_offboardLand : Unattended i (offboardLand s i).nav_state := by
  unfold offboardLand
  split
  · exact unattended_of_not rfl rfl
  · exact unattended_mitigate

theorem unattended_offboardLoiter : Unattended i (offboardLoiter s i).nav_state := by
  unfold offboardLoiter
  split
  · next hvalid => exact unattended_of_valid hvalid rfl
  · exact unattended_offboardLand

theorem unattended_offboardRtl : Unattended i (offboardRtl s i).nav_state := by
  unfold offboardRtl
  split
  · next hvalid => exact unattended_of_valid (Bool.and_eq_true_iff.mp hvalid).1 rfl
  · exact unattended_offboardLoiter

theorem unattended_setOffboardLossNavState {act : OffboardLossAction} (hdisabled : act ≠ .disabled)
    (hlockdown : act ≠ .lockdown) :
    Unattended i (setOffboardLossNavState s i act).nav_state := by
  cases act with
  | disabled => exact absurd rfl hdisabled
  | autoLand => exact unattended_offboardLand
  | autoLoiter => exact unattended_offboardLoiter
  | autoRtl => exact unattended_offboardRtl
  | terminate => exact unattended_of_not rfl rfl
  | lockdown => exact absurd rfl hlockdown

/-- The actions on the loss of the offboard control alone, which may use the sticks. -/
theorem posSafe_setOffboardLossRcNavState {act : OffboardLossRcAction}
    (hdisabled : act ≠ .disabled) (hlockdown : act ≠ .lockdown) :
    PosSafe i (setOffboardLossRcNavState s i act).nav_state := by
  have haltitude : PosSafe i (manualAltitude s i).nav_state := by
    unfold manualAltitude
    split <;> exact posSafe_of_not rfl
  cases act with
  | disabled => exact absurd rfl hdisabled
  | manualPosition =>
    change PosSafe i (manualPosition s i).nav_state
    unfold manualPosition
    split
    · exact posSafe_of_not rfl
    · split
      · exact posSafe_of_not rfl
      · exact haltitude
  | manualAltitude => exact haltitude
  | manualAttitude => exact posSafe_of_not rfl
  | autoRtl => exact unattended_offboardRtl.1
  | autoLand => exact unattended_offboardLand.1
  | autoLoiter => exact unattended_offboardLoiter.1
  | terminate => exact posSafe_of_not rfl
  | lockdown => exact absurd rfl hlockdown

@[simp] theorem nav_state_enableFailsafe (s : Nav) (reason : String) :
    (enableFailsafe s i old_failsafe reason).nav_state = s.nav_state := by
  unfold enableFailsafe
  dsimp only
  split
  · split <;> rfl
  · rfl

theorem posSafe_fallbackState (use_rc : Bool) : PosSafe i (fallbackState s i use_rc) := by
  apply posSafe_of_not
  unfold fallbackState
  split_ifs <;> rfl

/-- The check of the position: either it chooses a state that needs none, or the position that is
asked for is there. -/
theorem checkInvalidPosNavState_spec (use_rc using_global_pos : Bool) :
    (∃ t, checkInvalidPosNavState s i old_failsafe use_rc using_global_pos = (t, true) ∧
        PosSafe i t.nav_state) ∨
      checkInvalidPosNavState s i old_failsafe use_rc using_global_pos = (s, false) ∧
        (using_global_pos = true → i.flags.condition_global_position_valid = true) := by
  unfold checkInvalidPosNavState
  split
  · left
    refine ⟨_, rfl, ?_⟩
    rw [nav_state_enableFailsafe]
    exact posSafe_fallbackState use_rc
  · next hfallback =>
    right
    refine ⟨rfl, fun hglobal => ?_⟩
    rw [fallbackRequired, hglobal, if_pos rfl] at hfallback
    simpa using hfallback

/-! ### The main states are safe -/

/-- Actions are configured that do something. -/
structure Configured (i : NavInput) : Prop where
  data_link : i.data_link_loss_act ≠ .disabled ∧ i.data_link_loss_act ≠ .lockdown
  rc : i.rc_loss_act ≠ .disabled ∧ i.rc_loss_act ≠ .lockdown
  offb : i.offb_loss_act ≠ .disabled ∧ i.offb_loss_act ≠ .lockdown
  offb_rc : i.offb_loss_rc_act ≠ .disabled ∧ i.offb_loss_rc_act ≠ .lockdown

theorem unattended_manualState (hi : Configured i) (harmed : isArmed s = true)
    (hrc : s.rc_signal_lost = true) (n : NavState) :
    Unattended i (manualState s i old_failsafe n).nav_state := by
  rw [manualState, hrc, harmed, Bool.and_self, if_pos rfl]
  exact unattended_setLinkLossNavState hi.rc.1 hi.rc.2 _

theorem posSafe_manualState (hi : Configured i) (hn : n.needsGlobalPosition = false) :
    PosSafe i (manualState s i old_failsafe n).nav_state := by
  unfold manualState
  split
  · exact (unattended_setLinkLossNavState hi.rc.1 hi.rc.2 _).1
  · exact posSafe_of_not hn

theorem unattended_posctlState (hi : Configured i) (harmed : isArmed s = true)
    (hrc : s.rc_signal_lost = true) : Unattended i (posctlState s i old_failsafe).nav_state := by
  unfold posctlState
  dsimp only
  rw [hrc, harmed, Bool.and_self, if_pos rfl]
  exact unattended_setLinkLossNavState hi.rc.1 hi.rc.2 _

theorem posSafe_posctlState (hi : Configured i) :
    PosSafe i (posctlState s i old_failsafe).nav_state := by
  unfold posctlState
  dsimp only
  split
  · exact (unattended_setLinkLossNavState hi.rc.1 hi.rc.2 _).1
  · rcases @checkInvalidPosNavState_spec s i old_failsafe
      (i.posctl_nav_loss_act ≠ .landTerminate || !isArmed s) (s.vehicle_type = .fixedWing) with
      ⟨t, heq, ht⟩ | ⟨heq, -⟩
    · rwa [heq, if_pos rfl]
    · rw [heq, if_neg Bool.false_ne_true]
      exact posSafe_of_not rfl

theorem posSafe_linkLossReaction (hi : Configured i) {exception : ℕ} {t : Nav}
    (h : linkLossReaction s i old_failsafe exception = some t) : PosSafe i t.nav_state := by
  unfold linkLossReaction at h
  dsimp only at h
  split_ifs at h
  · obtain rfl := Option.some.inj h
    exact (unattended_setLinkLossNavState hi.data_link.1 hi.data_link.2 _).1
  · obtain rfl := Option.some.inj h
    exact (unattended_setLinkLossNavState hi.rc.1 hi.rc.2 _).1
  · obtain rfl := Option.some.inj h
    exact (unattended_setLinkLossNavState hi.rc.1 hi.rc.2 _).1

theorem posSafe_linkedState (hi : Configured i) (harmed : isArmed s = true) {using_global : Bool}
    (hn : n.needsGlobalPosition = true → using_global = true) :
    PosSafe i (linkedState s i old_failsafe using_global n).nav_state := by
  unfold linkedState
  dsimp only
  split
  · exact posSafe_of_not rfl
  · rcases @checkInvalidPosNavState_spec s i old_failsafe false using_global with
      ⟨t, heq, ht⟩ | ⟨heq, hvalid⟩
    · rwa [heq, harmed, Bool.true_and, if_pos rfl]
    · -- the check has passed; links can still be lost
      rw [heq, harmed, Bool.true_and, if_neg Bool.false_ne_true]
      split
      · next t hreaction => exact posSafe_linkLossReaction hi hreaction
      · exact fun hneeds => hvalid (hn hneeds)

theorem posSafe_autoState (harmed : isArmed s = true) {using_global : Bool}
    (hn : n.needsGlobalPosition = true → using_global = true) :
    PosSafe i (autoState s i old_failsafe using_global n).nav_state := by
  unfold autoState
  dsimp only
  split
  · exact posSafe_of_not rfl
  · rcases @checkInvalidPosNavState_spec s i old_failsafe false using_global with
      ⟨t, heq, ht⟩ | ⟨heq, hvalid⟩
    · rwa [heq, harmed, Bool.true_and, if_pos rfl]
    · rw [heq, harmed, Bool.true_and, if_neg Bool.false_ne_true]
      exact fun hneeds => hvalid (hn hneeds)

/-- The mission: once the check has passed, the position is valid for whatever is chosen or
kept. -/
theorem posSafe_autoMissionState (harmed : isArmed s = true) :
    PosSafe i (autoMissionState s i old_failsafe).nav_state := by
  unfold autoMissionState
  dsimp only
  rcases @checkInvalidPosNavState_spec s i old_failsafe false true with ⟨t, heq, ht⟩ | ⟨-, hvalid⟩
  · rwa [heq, harmed, Bool.true_and, if_pos rfl]
  · exact fun _ => hvalid rfl

theorem posSafe_orbitState (harmed : isArmed s = true) :
    PosSafe i (orbitState s i old_failsafe).nav_state := by
  unfold orbitState
  dsimp only
  split
  · exact posSafe_of_not rfl
  · rcases @checkInvalidPosNavState_spec s i old_failsafe false true with ⟨t, heq, ht⟩ | ⟨-, hvalid⟩
    · rwa [heq, harmed, Bool.true_and, if_pos rfl]
    · exact fun _ => hvalid rfl

theorem posSafe_offboardState (hi : Configured i) :
    PosSafe i (offboardState s i old_failsafe).nav_state := by
  unfold offboardState
  split
  · split
    · exact (unattended_setOffboardLossNavState hi.offb.1 hi.offb.2).1
    · exact posSafe_setOffboardLossRcNavState hi.offb_rc.1 hi.offb_rc.2
  · exact posSafe_of_not rfl

theorem posSafe_decideNavState (hi : Configured i) (harmed : isArmed s = true) :
    PosSafe i (decideNavState s i old_failsafe).nav_state := by
  unfold decideNavState
  cases s.main_state with
  | manual | altctl | acro | stab => exact posSafe_manualState hi rfl
  | posctl => exact posSafe_posctlState hi
  | autoMission => exact posSafe_autoMissionState harmed
  | autoLoiter => exact posSafe_linkedState hi harmed fun _ => rfl
  | autoTakeoff => exact posSafe_linkedState hi harmed fun h => nomatch h
  | autoRtl | autoFollowTarget => exact posSafe_autoState harmed fun _ => rfl
  | autoLand | autoPrecland => exact posSafe_autoState harmed fun h => nomatch h
  | orbit => exact posSafe_orbitState harmed
  | offboard => exact posSafe_offboardState hi

theorem unattended_decideNavState (hi : Configured i) (harmed : isArmed s = true)
    (hmanual : s.main_state.isManual = true) (hrc : s.rc_signal_lost = true) :
    Unattended i (decideNavState s i old_failsafe).nav_state := by
  unfold decideNavState
  cases hmain : s.main_state with
  | manual | altctl | acro | stab => exact unattended_manualState hi harmed hrc _
  | posctl => exact unattended_posctlState hi harmed hrc
  | autoMission | autoLoiter | autoTakeoff | autoRtl | autoFollowTarget | autoLand | autoPrecland
  | orbit | offboard =>
    rw [hmain] at hmanual
    exact nomatch hmanual

/-! ### The whole function -/

theorem resetGlobals_same (s : Nav) : (resetGlobals s i).arming_state = s.arming_state ∧
    (resetGlobals s i).main_state = s.main_state ∧
    (resetGlobals s i).rc_signal_lost = s.rc_signal_lost := by
  have hlink : ∀ (t : Nav) (act : LinkLossAction),
      (resetLinkLossGlobals t s.failsafe act).arming_state = t.arming_state ∧
      (resetLinkLossGlobals t s.failsafe act).main_state = t.main_state ∧
      (resetLinkLossGlobals t s.failsafe act).rc_signal_lost = t.rc_signal_lost := by
    intro t act
    unfold resetLinkLossGlobals
    split_ifs <;> exact ⟨rfl, rfl, rfl⟩
  have hoffb : ∀ t : Nav,
      (resetOffboardLossGlobals t s.failsafe i.offb_loss_act i.offb_loss_rc_act).arming_state =
        t.arming_state ∧
      (resetOffboardLossGlobals t s.failsafe i.offb_loss_act i.offb_loss_rc_act).main_state =
        t.main_state ∧
      (resetOffboardLossGlobals t s.failsafe i.offb_loss_act i.offb_loss_rc_act).rc_signal_lost =
        t.rc_signal_lost := by
    intro t
    unfold resetOffboardLossGlobals
    dsimp only
    split_ifs <;> exact ⟨rfl, rfl, rfl⟩
  unfold resetGlobals
  dsimp only
  refine ⟨?_, ?_, ?_⟩
  · rw [(hoffb _).1, (hlink _ _).1, (hlink _ _).1]
  · rw [(hoffb _).2.1, (hlink _ _).2.1, (hlink _ _).2.1]
  · rw [(hoffb _).2.2, (hlink _ _).2.2, (hlink _ _).2.2]

/-- An armed vehicle whose configured actions do something gets a state that needs the global
position only if this is valid; and in a manual main state without remote control it never gets a
state that needs the sticks. -/
theorem nav_state_safe (s : Nav) (i : NavInput) (harmed : s.arming_state = .armed)
    (hi : Configured i) :
    ((setNavState s i).1.nav_state.needsGlobalPosition = true →
        i.flags.condition_global_position_valid = true) ∧
      (s.main_state.isManual = true → s.rc_signal_lost = true →
        (setNavState s i).1.nav_state.stickControlled = false) := by
  obtain ⟨harming, hmain, hrc⟩ := @resetGlobals_same i s
  have harmed' : isArmed (resetGlobals s i) = true := decide_eq_true (harming.trans harmed)
  refine ⟨posSafe_decideNavState hi harmed', fun hmanual hlost => ?_⟩
  exact (unattended_decideNavState hi harmed' (by rwa [hmain]) (by rwa [hrc])).2

def flightInput : NavInput :=
  ⟨⟨true, true, true, true, true, true, false, true, false⟩, false, true, false, .autoRtl, .autoRtl,
    .autoRtl, .manualPosition, .altitudeManual, .num 0, 0, 2, 2, 2, 2⟩

/-- A vehicle in altitude control that has lost the remote control. -/
def flightNav : Nav :=
  ⟨.altctl, .armed, false, 0, .rotaryWing, true, false, false, false, false, false, .altctl, 0, 0,
    []⟩

/-- The vehicle returns: it has a position, and does not need the sticks. -/
theorem nav_state_safe_return :
    (setNavState flightNav flightInput).1.nav_state = .autoRtl ∧
      flightInput.flags.condition_global_position_valid = true ∧
      (setNavState flightNav flightInput).1.nav_state.stickControlled = false := by
  have hrtl : (setNavState flightNav flightInput).1.nav_state = .autoRtl := by decide +kernel
  have hi : Configured flightInput := ⟨by decide, by decide, by decide, by decide⟩
  obtain ⟨hposition, hsticks⟩ := nav_state_safe flightNav flightInput rfl hi
  exact ⟨hrtl, hposition (by rw [hrtl]; rfl), hsticks rfl rfl⟩

end Commander
