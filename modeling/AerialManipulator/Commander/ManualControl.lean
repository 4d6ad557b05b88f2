/-
`ManualControl`: arming and disarming with the sticks, a button or a switch.

Each of the two requests has a hysteresis.  With the sticks, or with a button, it is the hysteresis
that makes the request; with a switch it is the change of the switch.  The throttle stick is read
from the setpoint before the current one, the yaw stick from the current one.

* `wantsDisarm_eq`, `wantsArm_eq` — what a call does to its hysteresis, and when it asks;
* `Waits` — what the hystereses say about the updates so far;
* **`gestures`** — the requests come from gestures, as long as the throttle is not raised while the
  yaw stick is held.
-/
import AerialManipulator.Hysteresis
import AerialManipulator.Commander.NavState
import AerialManipulator.Lib.Binary32
import AerialManipulator.Lib.Mealy

open Trace

namespace Commander

/-! ### The code -/

/-- `manual_control_switches_s::SWITCH_POS_*` -/
inductive SwitchPos
  | none
  | on
  | middle
  | off
  deriving DecidableEq

/-- A stick; the values are compared only. -/
abbrev Stick := WithNaN (WithBot (WithTop ℚ))

def stick (x : ℚ) : Stick := .num (Rounding.binary32.round x : ℚ)

/-- The sticks of `manual_control_setpoint_s` that are read: throttle and yaw. -/
structure Setpoint where
  z : Stick
  r : Stick
  deriving DecidableEq

structure ManualControl where
  manual_control_setpoint : Setpoint
  last_manual_control_setpoint : Setpoint
  stick_disarm_hysteresis : Hysteresis
  stick_arm_hysteresis : Hysteresis
  last_manual_control_switches_arm_switch : SwitchPos
  com_arm_swisbtn : Bool

/-- What one of the two calls gets besides the switches, and the time of its `hrt_absolute_time`. -/
structure Situation where
  flag_control_manual_enabled : Bool
  flag_control_climb_rate_enabled : Bool
  arming_state : ArmingState
  vehicle_type : VehicleType
  landed : Bool
  now : UInt64

namespace Situation

variable (q : Situation)

def armed : Bool := q.arming_state = .armed

def mcManualThrustMode : Bool :=
  q.vehicle_type = .rotaryWing && q.flag_control_manual_enabled &&
    !q.flag_control_climb_rate_enabled

def allowed : Bool := q.landed || q.mcManualThrustMode

end Situation

namespace ManualControl

variable (m : ManualControl) (arm_switch : SwitchPos) (q : Situation)

def init : ManualControl :=
  ⟨⟨0, 0⟩, ⟨0, 0⟩, Hysteresis.init false, Hysteresis.init false, .none, false⟩

/-- `updateParams`; the time is `COM_RC_ARM_HYST` in microseconds. -/
def updateParams (com_arm_swisbtn : Bool) (rc_arm_hyst : UInt64) : ManualControl :=
  { m with
    com_arm_swisbtn := com_arm_swisbtn
    stick_disarm_hysteresis := m.stick_disarm_hysteresis.setHysteresisTimeFrom false rc_arm_hyst
    stick_arm_hysteresis := m.stick_arm_hysteresis.setHysteresisTimeFrom false rc_arm_hyst }

/-- `update`, when there is a new setpoint. -/
def update (setpoint : Setpoint) : ManualControl :=
  { m with
    last_manual_control_setpoint := m.manual_control_setpoint
    manual_control_setpoint := setpoint }

def isThrottleLow : Bool := m.last_manual_control_setpoint.z < stick (1 / 10)

def useStick : Bool := arm_switch = .none
def useButton : Bool := !useStick arm_switch && m.com_arm_swisbtn
def useSwitch : Bool := !useStick arm_switch && !m.useButton arm_switch

def stickInLowerLeft : Bool :=
  useStick arm_switch && m.isThrottleLow && m.manual_control_setpoint.r < stick (-9 / 10)

def stickInLowerRight : Bool :=
  useStick arm_switch && m.isThrottleLow && stick (9 / 10) < m.manual_control_setpoint.r

def armButtonPressed : Bool := arm_switch = .on && m.useButton arm_switch

def armSwitchToDisarmTransition : Bool :=
  m.useSwitch arm_switch && m.last_manual_control_switches_arm_switch = .on && arm_switch = .off

def armSwitchToArmTransition : Bool :=
  m.useSwitch arm_switch && m.last_manual_control_switches_arm_switch = .off && arm_switch = .on

def wantsDisarm : ManualControl × Bool :=
  if q.armed && q.allowed &&
      (m.stickInLowerLeft arm_switch || m.armButtonPressed arm_switch ||
        m.armSwitchToDisarmTransition arm_switch) then
    let last_disarm_hysteresis := m.stick_disarm_hysteresis.state
    let hysteresis := m.stick_disarm_hysteresis.setStateAndUpdate true q.now
    let disarm_trigger :=
      !last_disarm_hysteresis && hysteresis.state && !m.stick_arm_hysteresis.state
    ({ m with stick_disarm_hysteresis := hysteresis },
      disarm_trigger || m.armSwitchToDisarmTransition arm_switch)
  else if !m.armButtonPressed arm_switch then
    ({ m with
      stick_disarm_hysteresis := m.stick_disarm_hysteresis.setStateAndUpdate false q.now }, false)
  else (m, false)

def wantsArm : ManualControl × Bool :=
  let remember (hysteresis : Hysteresis) : ManualControl :=
    { m with
      stick_arm_hysteresis := hysteresis
      last_manual_control_switches_arm_switch := arm_switch }
  if !q.armed &&
      (m.stickInLowerRight arm_switch || m.armButtonPressed arm_switch ||
        m.armSwitchToArmTransition arm_switch) then
    let last_arm_hysteresis := m.stick_arm_hysteresis.state
    let hysteresis := m.stick_arm_hysteresis.setStateAndUpdate true q.now
    let arm_trigger := !last_arm_hysteresis && hysteresis.state && !m.stick_disarm_hysteresis.state
    (remember hysteresis, arm_trigger || m.armSwitchToArmTransition arm_switch)
  else if !m.armButtonPressed arm_switch then
    (remember (m.stick_arm_hysteresis.setStateAndUpdate false q.now), false)
  else (remember m.stick_arm_hysteresis, false)

end ManualControl

/-! ### Runs -/

/-- One RC update: the new setpoint, and what the two calls get. -/
structure RcUpdate where
  setpoint : Setpoint
  arm_switch : SwitchPos
  disarm : Situation
  arm : Situation

/-- `update`, `wantsDisarm` and `wantsArm`, with the two requests. -/
def ManualControl.step (m : ManualControl) (u : RcUpdate) : ManualControl × (Bool × Bool) :=
  match (m.update u.setpoint).wantsDisarm u.arm_switch u.disarm with
  | (m, disarm) =>
    match m.wantsArm u.arm_switch u.arm with
    | (m, arm) => (m, disarm, arm)

def ManualControl.between (m : ManualControl) (u : RcUpdate) : ManualControl :=
  ((m.update u.setpoint).wantsDisarm u.arm_switch u.disarm).1

theorem ManualControl.step_eq (m : ManualControl) (u : RcUpdate) :
    m.step u = (((m.between u).wantsArm u.arm_switch u.arm).1,
      ((m.update u.setpoint).wantsDisarm u.arm_switch u.disarm).2,
      ((m.between u).wantsArm u.arm_switch u.arm).2) := rfl

def ManualControl.start (com_arm_swisbtn : Bool) (rc_arm_hyst : UInt64) : ManualControl :=
  ManualControl.init.updateParams com_arm_swisbtn rc_arm_hyst

def ManualControl.after (m : ManualControl) (us : List RcUpdate) : ManualControl :=
  Trace.run (fun m u => (m.step u).1) m us

def ManualControl.requests (m : ManualControl) (us : List RcUpdate) : ℕ :=
  ((Mealy.feed step m us).2.map fun o => o.1.toNat + o.2.toNat).sum

def Setpoint.lowerLeft (s : Setpoint) : Bool := s.z < stick (1 / 10) && s.r < stick (-9 / 10)

def Setpoint.lowerRight (s : Setpoint) : Bool := s.z < stick (1 / 10) && stick (9 / 10) < s.r

/-- The clock does not run backwards. -/
def ClockMono (us : List RcUpdate) : Prop :=
  (us.flatMap fun u => [u.disarm.now, u.arm.now]).Pairwise (· ≤ ·)

/-- The arm switch stays mapped, or not mapped. -/
def SameMapping (us : List RcUpdate) : Prop :=
  ∀ u ∈ us, ∀ u' ∈ us, u.arm_switch = .none → u'.arm_switch = .none

/-- The throttle stick, if it is up again since the last setpoint, has not left a corner in which
the yaw stick still is. -/
def Settled (m : ManualControl) (u : RcUpdate) : Prop :=
  u.arm_switch = .none → m.manual_control_setpoint.z < stick (1 / 10) →
    ¬ u.setpoint.z < stick (1 / 10) →
      ¬ (u.disarm.armed = true ∧ u.disarm.allowed = true ∧ u.setpoint.r < stick (-9 / 10)) ∧
      ¬ (u.arm.armed = false ∧ stick (9 / 10) < u.setpoint.r)

/-- What has been true in every update over at least a time, up to the last one. -/
def HeldFor (P : RcUpdate → Prop) (time : RcUpdate → UInt64) (T : UInt64) (us : List RcUpdate)
    (u : RcUpdate) : Prop :=
  ∃ first, EndsInBlock P (us ++ [u]) first u ∧ T ≤ time u - time first

/-- The requests in the last update, with the updates before it. -/
structure Gestures (com_arm_swisbtn : Bool) (rc_arm_hyst : UInt64) (us : List RcUpdate)
    (u : RcUpdate) (disarm arm : Bool) : Prop where
  stick_disarm : u.arm_switch = .none → disarm = true →
    HeldFor (·.setpoint.lowerLeft = true) (·.disarm.now) rc_arm_hyst us u
  stick_arm : u.arm_switch = .none → arm = true →
    HeldFor (·.setpoint.lowerRight = true) (·.arm.now) rc_arm_hyst us u
  button_disarm : u.arm_switch ≠ .none → com_arm_swisbtn = true → disarm = true →
    HeldFor (·.arm_switch = .on) (·.disarm.now) rc_arm_hyst us u
  button_arm : u.arm_switch ≠ .none → com_arm_swisbtn = true → arm = true →
    HeldFor (·.arm_switch = .on) (·.arm.now) rc_arm_hyst us u
  /-- At most one request for each press. -/
  press : com_arm_swisbtn = true → ∀ before held, us ++ [u] = before ++ held →
    (∀ u ∈ held, u.arm_switch = .on) →
      ((ManualControl.start com_arm_swisbtn rc_arm_hyst).after before).requests held ≤ 1
  switch_disarm : u.arm_switch ≠ .none → com_arm_swisbtn = false →
    (disarm = true ↔ us.getLast?.map RcUpdate.arm_switch = some .on ∧ u.arm_switch = .off ∧
      u.disarm.armed = true ∧ u.disarm.allowed = true)
  switch_arm : u.arm_switch ≠ .none → com_arm_swisbtn = false →
    (arm = true ↔ us.getLast?.map RcUpdate.arm_switch = some .off ∧ u.arm_switch = .on ∧
      u.arm.armed = false)

/-! ### One call -/

section Call

variable {m : ManualControl} {a : SwitchPos} {q : Situation}

namespace ManualControl

theorem wantsDisarm_cases :
    (q.armed = true ∧ q.allowed = true ∧
      (m.stickInLowerLeft a = true ∨ m.armButtonPressed a = true ∨
        m.armSwitchToDisarmTransition a = true) ∧
      m.wantsDisarm a q =
        ({ m with
          stick_disarm_hysteresis := m.stick_disarm_hysteresis.setStateAndUpdate true q.now },
          (!m.stick_disarm_hysteresis.state &&
            (m.stick_disarm_hysteresis.setStateAndUpdate true q.now).state &&
            !m.stick_arm_hysteresis.state) || m.armSwitchToDisarmTransition a)) ∨
    (m.armButtonPressed a = false ∧
      ¬ (q.armed = true ∧ q.allowed = true ∧ m.armSwitchToDisarmTransition a = true) ∧
      m.wantsDisarm a q =
        ({ m with
          stick_disarm_hysteresis := m.stick_disarm_hysteresis.setStateAndUpdate false q.now },
          false)) ∨
    (m.armButtonPressed a = true ∧ m.wantsDisarm a q = (m, false)) := by
  unfold wantsDisarm
  split
  next hwants =>
    simp only [Bool.and_eq_true, Bool.or_eq_true] at hwants
    obtain ⟨⟨harmed, hallowed⟩, (hstick | hbutton) | hswitch⟩ := hwants
    · exact .inl ⟨harmed, hallowed, .inl hstick, rfl⟩
    · exact .inl ⟨harmed, hallowed, .inr (.inl hbutton), rfl⟩
    · exact .inl ⟨harmed, hallowed, .inr (.inr hswitch), rfl⟩
  next hwants =>
    split
    next hbutton =>
      refine .inr (.inl ⟨Bool.not_eq_true' _ ▸ hbutton, ?_, rfl⟩)
      rintro ⟨harmed, hallowed, hswitch⟩
      exact hwants (by simp [harmed, hallowed, hswitch])
    next hbutton => exact .inr (.inr ⟨by simpa using hbutton, rfl⟩)

theorem wantsArm_cases :
    (q.armed = false ∧
      (m.stickInLowerRight a = true ∨ m.armButtonPressed a = true ∨
        m.armSwitchToArmTransition a = true) ∧
      m.wantsArm a q =
        ({ m with
          stick_arm_hysteresis := m.stick_arm_hysteresis.setStateAndUpdate true q.now
          last_manual_control_switches_arm_switch := a },
          (!m.stick_arm_hysteresis.state &&
            (m.stick_arm_hysteresis.setStateAndUpdate true q.now).state &&
            !m.stick_disarm_hysteresis.state) || m.armSwitchToArmTransition a)) ∨
    (m.armButtonPressed a = false ∧
      ¬ (q.armed = false ∧ m.armSwitchToArmTransition a = true) ∧
      m.wantsArm a q =
        ({ m with
          stick_arm_hysteresis := m.stick_arm_hysteresis.setStateAndUpdate false q.now
          last_manual_control_switches_arm_switch := a }, false)) ∨
    (m.armButtonPressed a = true ∧
      m.wantsArm a q = ({ m with last_manual_control_switches_arm_switch := a }, false)) := by
  unfold wantsArm
  dsimp only
  split
  next hwants =>
    simp only [Bool.and_eq_true, Bool.or_eq_true, Bool.not_eq_true'] at hwants
    obtain ⟨harmed, (hstick | hbutton) | hswitch⟩ := hwants
    · exact .inl ⟨harmed, .inl hstick, rfl⟩
    · exact .inl ⟨harmed, .inr (.inl hbutton), rfl⟩
    · exact .inl ⟨harmed, .inr (.inr hswitch), rfl⟩
  next hwants =>
    split
    next hbutton =>
      refine .inr (.inl ⟨Bool.not_eq_true' _ ▸ hbutton, ?_, rfl⟩)
      rintro ⟨harmed, hswitch⟩
      exact hwants (by simp [harmed, hswitch])
    next hbutton => exact .inr (.inr ⟨by simpa using hbutton, rfl⟩)

theorem stickInLowerLeft_eq : m.stickInLowerLeft a = true ↔
    a = .none ∧ m.last_manual_control_setpoint.z < stick (1 / 10) ∧
      m.manual_control_setpoint.r < stick (-9 / 10) := by
  simp [stickInLowerLeft, useStick, isThrottleLow, and_assoc]

theorem stickInLowerRight_eq : m.stickInLowerRight a = true ↔
    a = .none ∧ m.last_manual_control_setpoint.z < stick (1 / 10) ∧
      stick (9 / 10) < m.manual_control_setpoint.r := by
  simp [stickInLowerRight, useStick, isThrottleLow, and_assoc]

theorem armButtonPressed_eq : m.armButtonPressed a = true ↔ a = .on ∧ m.com_arm_swisbtn = true := by
  cases a <;> simp [armButtonPressed, useButton, useStick]

theorem armSwitchToDisarmTransition_eq : m.armSwitchToDisarmTransition a = true ↔
    m.com_arm_swisbtn = false ∧ m.last_manual_control_switches_arm_switch = .on ∧ a = .off := by
  cases a <;> simp [armSwitchToDisarmTransition, useSwitch, useButton, useStick]

theorem armSwitchToArmTransition_eq : m.armSwitchToArmTransition a = true ↔
    m.com_arm_swisbtn = false ∧ m.last_manual_control_switches_arm_switch = .off ∧ a = .on := by
  cases a <;> simp [armSwitchToArmTransition, useSwitch, useButton, useStick]

theorem wantsDisarm_frame :
    ∃ h, (m.wantsDisarm a q).1 = { m with stick_disarm_hysteresis := h } := by
  obtain ⟨-, -, -, h⟩ | ⟨-, -, h⟩ | ⟨-, h⟩ := @wantsDisarm_cases m a q
  · exact ⟨_, congrArg Prod.fst h⟩
  · exact ⟨_, congrArg Prod.fst h⟩
  · exact ⟨_, congrArg Prod.fst h⟩

theorem wantsArm_frame : ∃ h, (m.wantsArm a q).1 =
    { m with stick_arm_hysteresis := h, last_manual_control_switches_arm_switch := a } := by
  obtain ⟨-, -, h⟩ | ⟨-, -, h⟩ | ⟨-, h⟩ := @wantsArm_cases m a q
  · exact ⟨_, congrArg Prod.fst h⟩
  · exact ⟨_, congrArg Prod.fst h⟩
  · exact ⟨_, congrArg Prod.fst h⟩

end ManualControl

end Call

/-! ### The hystereses -/

/-- The input asks for a request: the sticks are in the corner, the button is pressed, or the switch
is where it should be. -/
def gestureDisarm (com_arm_swisbtn : Bool) (u : RcUpdate) : Bool :=
  match u.arm_switch with
  | .none => u.setpoint.lowerLeft
  | .on => com_arm_swisbtn
  | .middle => false
  | .off => !com_arm_swisbtn

def gestureArm (u : RcUpdate) : Bool :=
  match u.arm_switch with
  | .none => u.setpoint.lowerRight
  | .on => true
  | .middle => false
  | .off => false

section Wait

open ManualControl

variable {com_arm_swisbtn : Bool} {rc_arm_hyst : UInt64} {us : List RcUpdate} {m : ManualControl}
  {u : RcUpdate}

/-- What the object knows of the updates so far. -/
structure Waits (com_arm_swisbtn : Bool) (rc_arm_hyst : UInt64) (us : List RcUpdate)
    (m : ManualControl) : Prop where
  swisbtn : m.com_arm_swisbtn = com_arm_swisbtn
  disarm : m.stick_disarm_hysteresis.Follows (gestureDisarm com_arm_swisbtn) (·.disarm.now)
    rc_arm_hyst us
  arm : m.stick_arm_hysteresis.Follows gestureArm (·.arm.now) rc_arm_hyst us
  last : m.last_manual_control_switches_arm_switch =
    (us.getLast?.map RcUpdate.arm_switch).getD .none

theorem waits_start : Waits com_arm_swisbtn rc_arm_hyst []
    (ManualControl.start com_arm_swisbtn rc_arm_hyst) := by
  have hfollows : ∀ (input : RcUpdate → Bool) (time : RcUpdate → UInt64),
      ((Hysteresis.init false).setHysteresisTimeFrom false rc_arm_hyst).Follows input time
        rc_arm_hyst [] := fun input time =>
    ⟨rfl, rfl, fun h => absurd h Bool.false_ne_true, fun h => nomatch h⟩
  exact ⟨rfl, hfollows _ _, hfollows _ _, rfl⟩

theorem gestureDisarm_of (hset : Settled m u) (harmed : u.disarm.armed = true)
    (hallowed : u.disarm.allowed = true)
    (h : (m.update u.setpoint).stickInLowerLeft u.arm_switch = true ∨
      (m.update u.setpoint).armButtonPressed u.arm_switch = true ∨
        (m.update u.setpoint).armSwitchToDisarmTransition u.arm_switch = true) :
    gestureDisarm m.com_arm_swisbtn u = true := by
  unfold gestureDisarm
  rcases h with h | h | h
  · obtain ⟨hnone, hlow, hyaw⟩ := stickInLowerLeft_eq.mp h
    rw [hnone]
    have hstill : u.setpoint.z < stick (1 / 10) := by
      by_contra hup
      exact (hset hnone hlow hup).1 ⟨harmed, hallowed, hyaw⟩
    exact Bool.and_eq_true_iff.mpr ⟨decide_eq_true hstill, decide_eq_true hyaw⟩
  · obtain ⟨hon, hbutton⟩ := armButtonPressed_eq.mp h
    rw [hon]
    exact hbutton
  · obtain ⟨hswitch, -, hoff⟩ := armSwitchToDisarmTransition_eq.mp h
    rw [hoff]
    exact congrArg Bool.not hswitch

theorem gestureArm_of (hset : Settled m u) (harmed : u.arm.armed = false)
    (h : (m.between u).stickInLowerRight u.arm_switch = true ∨
      (m.between u).armButtonPressed u.arm_switch = true ∨
        (m.between u).armSwitchToArmTransition u.arm_switch = true) : gestureArm u = true := by
  unfold gestureArm
  rcases h with h | h | h
  · obtain ⟨hyst, hframe⟩ := @wantsDisarm_frame (m.update u.setpoint) u.arm_switch u.disarm
    unfold between at h
    rw [hframe] at h
    obtain ⟨hnone, hlow, hyaw⟩ := stickInLowerRight_eq.mp h
    rw [hnone]
    have hstill : u.setpoint.z < stick (1 / 10) := by
      by_contra hup
      exact (hset hnone hlow hup).2 ⟨harmed, hyaw⟩
    exact Bool.and_eq_true_iff.mpr ⟨decide_eq_true hstill, decide_eq_true hyaw⟩
  · rw [(armButtonPressed_eq.mp h).1]
  · rw [(armSwitchToArmTransition_eq.mp h).2.2]

theorem ClockMono.pairwise (h : ClockMono us) :
    us.Pairwise (·.disarm.now ≤ ·.disarm.now) ∧ us.Pairwise (·.arm.now ≤ ·.arm.now) := by
  obtain ⟨-, hpair⟩ := List.pairwise_flatMap.mp h
  constructor
  · exact hpair.imp fun h => h _ (by simp) _ (by simp)
  · exact hpair.imp fun h => h _ (by simp) _ (by simp)

theorem Waits.follows_disarm (h : Waits com_arm_swisbtn rc_arm_hyst us m) (hset : Settled m u)
    (hclock : ClockMono (us ++ [u])) :
    (m.between u).stick_disarm_hysteresis.Follows (gestureDisarm com_arm_swisbtn) (·.disarm.now)
      rc_arm_hyst (us ++ [u]) := by
  unfold between
  obtain ⟨harmed, hallowed, hgesture, heq⟩ | ⟨-, -, heq⟩ | ⟨hbutton, heq⟩ :=
    @wantsDisarm_cases (m.update u.setpoint) u.arm_switch u.disarm
  · have hinput := gestureDisarm_of hset harmed hallowed hgesture
    have hsnoc := h.disarm.snoc u hclock.pairwise.1
    rw [← h.swisbtn] at hsnoc ⊢
    rw [hinput] at hsnoc
    rw [heq]
    exact hsnoc
  · rw [heq]
    exact h.disarm.reset u
  · rw [heq]
    obtain ⟨hon, hswisbtn⟩ := armButtonPressed_eq.mp hbutton
    refine h.disarm.skip ?_ hclock.pairwise.1
    rw [gestureDisarm, hon]
    exact h.swisbtn.symm.trans hswisbtn

theorem between_frame : ∃ h, m.between u =
    { m.update u.setpoint with stick_disarm_hysteresis := h } :=
  wantsDisarm_frame

theorem Waits.follows_arm (h : Waits com_arm_swisbtn rc_arm_hyst us m) (hset : Settled m u)
    (hclock : ClockMono (us ++ [u])) :
    ((m.between u).wantsArm u.arm_switch u.arm).1.stick_arm_hysteresis.Follows gestureArm
      (·.arm.now) rc_arm_hyst (us ++ [u]) := by
  have harm : (m.between u).stick_arm_hysteresis = m.stick_arm_hysteresis := by
    obtain ⟨hyst, hframe⟩ := @between_frame m u
    rw [hframe]
    rfl
  obtain ⟨harmed, hgesture, heq⟩ | ⟨-, -, heq⟩ | ⟨hbutton, heq⟩ :=
    @wantsArm_cases (m.between u) u.arm_switch u.arm
  · have hsnoc := h.arm.snoc u hclock.pairwise.2
    rw [gestureArm_of hset harmed hgesture, ← harm] at hsnoc
    rw [heq]
    exact hsnoc
  · have hreset := h.arm.reset u
    rw [← harm] at hreset
    rw [heq]
    exact hreset
  · have hskip := h.arm.skip (e := u)
      (by rw [gestureArm, (armButtonPressed_eq.mp hbutton).1]) hclock.pairwise.2
    rw [← harm] at hskip
    rw [heq]
    exact hskip

theorem Waits.step (h : Waits com_arm_swisbtn rc_arm_hyst us m) (hset : Settled m u)
    (hclock : ClockMono (us ++ [u])) :
    Waits com_arm_swisbtn rc_arm_hyst (us ++ [u]) (m.step u).1 := by
  have hdisarm := h.follows_disarm hset hclock
  have harm := h.follows_arm hset hclock
  obtain ⟨hyst, hframe⟩ := @between_frame m u
  obtain ⟨hyst', hframe'⟩ := @wantsArm_frame (m.between u) u.arm_switch u.arm
  rw [step_eq]
  refine ⟨?_, ?_, harm, ?_⟩
  · rw [hframe', hframe]
    exact h.swisbtn
  · rw [hframe']
    exact hdisarm
  · rw [hframe', List.getLast?_append]
    rfl

theorem waits_after (hclock : ClockMono us)
    (hset : Trace.Always (fun m u => (m.step u).1) Settled
      (ManualControl.start com_arm_swisbtn rc_arm_hyst) us) :
    Waits com_arm_swisbtn rc_arm_hyst us
      ((ManualControl.start com_arm_swisbtn rc_arm_hyst).after us) := by
  induction us using List.reverseRecOn with
  | nil => exact waits_start
  | append_singleton us u ih =>
    obtain ⟨hbefore, hlast⟩ := (Trace.always_append _ _ _).mp hset
    have hwaits := ih (List.Pairwise.sublist
      (by rw [List.flatMap_append]; exact List.sublist_append_left _ _) hclock) hbefore
    unfold after
    rw [Trace.run_append]
    exact hwaits.step hlast.1 hclock

end Wait

/-! ### The requests -/

section Requests

namespace ManualControl

variable {m : ManualControl} {a : SwitchPos} {q : Situation} {u : RcUpdate}

theorem state_of_wantsDisarm (h : (m.wantsDisarm a q).2 = true)
    (hswitch : m.armSwitchToDisarmTransition a = false) :
    m.stick_disarm_hysteresis.state = false ∧ m.stick_arm_hysteresis.state = false ∧
      (m.wantsDisarm a q).1.stick_disarm_hysteresis.state = true := by
  obtain ⟨-, -, -, heq⟩ | ⟨-, -, heq⟩ | ⟨-, heq⟩ := @wantsDisarm_cases m a q
  · rw [heq] at h ⊢
    simp only [hswitch, Bool.or_false, Bool.and_eq_true, Bool.not_eq_true'] at h
    exact ⟨h.1.1, h.2, h.1.2⟩
  all_goals
    rw [heq] at h
    exact nomatch h

theorem state_of_wantsArm (h : (m.wantsArm a q).2 = true)
    (hswitch : m.armSwitchToArmTransition a = false) :
    m.stick_arm_hysteresis.state = false ∧ m.stick_disarm_hysteresis.state = false ∧
      (m.wantsArm a q).1.stick_arm_hysteresis.state = true := by
  obtain ⟨-, -, heq⟩ | ⟨-, -, heq⟩ | ⟨-, heq⟩ := @wantsArm_cases m a q
  · rw [heq] at h ⊢
    simp only [hswitch, Bool.or_false, Bool.and_eq_true, Bool.not_eq_true'] at h
    exact ⟨h.1.1, h.2, h.1.2⟩
  all_goals
    rw [heq] at h
    exact nomatch h

theorem wantsDisarm_switch (ha : a ≠ .none) (hbutton : m.com_arm_swisbtn = false) :
    (m.wantsDisarm a q).2 = true ↔ m.last_manual_control_switches_arm_switch = .on ∧ a = .off ∧
      q.armed = true ∧ q.allowed = true := by
  have hswitch := @armSwitchToDisarmTransition_eq m a
  rw [hbutton, eq_self_iff_true, true_and] at hswitch
  have hpressed : m.armButtonPressed a = false := by simp [armButtonPressed, useButton, hbutton]
  have hstick : m.stickInLowerLeft a = false := by
    by_contra h
    exact ha (stickInLowerLeft_eq.mp (by simpa using h)).1
  rw [← and_assoc, ← hswitch]
  obtain ⟨harmed, hallowed, hgesture, heq⟩ | ⟨-, hnot, heq⟩ | ⟨h, -⟩ := @wantsDisarm_cases m a q
  · have htransition : m.armSwitchToDisarmTransition a = true := by
      simpa [hstick, hpressed] using hgesture
    rw [heq, htransition]
    exact iff_of_true (Bool.or_true _) ⟨rfl, harmed, hallowed⟩
  · rw [heq]
    exact iff_of_false Bool.false_ne_true fun ⟨h, harmed, hallowed⟩ => hnot ⟨harmed, hallowed, h⟩
  · exact absurd (hpressed.symm.trans h) Bool.false_ne_true

theorem wantsArm_switch (ha : a ≠ .none) (hbutton : m.com_arm_swisbtn = false) :
    (m.wantsArm a q).2 = true ↔ m.last_manual_control_switches_arm_switch = .off ∧ a = .on ∧
      q.armed = false := by
  have hswitch := @armSwitchToArmTransition_eq m a
  rw [hbutton, eq_self_iff_true, true_and] at hswitch
  have hpressed : m.armButtonPressed a = false := by simp [armButtonPressed, useButton, hbutton]
  have hstick : m.stickInLowerRight a = false := by
    by_contra h
    exact ha (stickInLowerRight_eq.mp (by simpa using h)).1
  rw [← and_assoc, ← hswitch]
  obtain ⟨harmed, hgesture, heq⟩ | ⟨-, hnot, heq⟩ | ⟨h, -⟩ := @wantsArm_cases m a q
  · have htransition : m.armSwitchToArmTransition a = true := by
      simpa [hstick, hpressed] using hgesture
    rw [heq, htransition]
    exact iff_of_true (Bool.or_true _) ⟨rfl, harmed⟩
  · rw [heq]
    exact iff_of_false Bool.false_ne_true fun ⟨h, harmed⟩ => hnot ⟨harmed, h⟩
  · exact absurd (hpressed.symm.trans h) Bool.false_ne_true

/-! ### One press -/

/-- One of the hystereses has made a request, or kept the other one from it. -/
def locked (m : ManualControl) : Bool :=
  m.stick_disarm_hysteresis.state || m.stick_arm_hysteresis.state

theorem wantsDisarm_press (hpressed : m.armButtonPressed a = true)
    (hstate : m.stick_disarm_hysteresis.state = true) :
    (m.wantsDisarm a q).1.stick_disarm_hysteresis.state = true := by
  obtain ⟨-, -, -, heq⟩ | ⟨h, -, -⟩ | ⟨-, heq⟩ := @wantsDisarm_cases m a q
  · rw [heq]
    exact Hysteresis.setStateAndUpdate_of_state hstate
  · exact absurd (h.symm.trans hpressed) Bool.false_ne_true
  · rwa [heq]

theorem wantsArm_press (hpressed : m.armButtonPressed a = true)
    (hstate : m.stick_arm_hysteresis.state = true) :
    (m.wantsArm a q).1.stick_arm_hysteresis.state = true := by
  obtain ⟨-, -, heq⟩ | ⟨h, -, -⟩ | ⟨-, heq⟩ := @wantsArm_cases m a q
  · rw [heq]
    exact Hysteresis.setStateAndUpdate_of_state hstate
  · exact absurd (h.symm.trans hpressed) Bool.false_ne_true
  · rwa [heq]

theorem press_count : ∀ disarm arm D A D' A' : Bool,
    (disarm = true → D = false ∧ A = false ∧ D' = true) →
      (arm = true → A = false ∧ D' = false ∧ A' = true) → (D = true → D' = true) →
        (A = true → A' = true) → disarm.toNat + arm.toNat + (D || A).toNat ≤ (D' || A').toNat := by
  decide

theorem step_press (hon : u.arm_switch = .on) (hbutton : m.com_arm_swisbtn = true) :
    (m.step u).2.1.toNat + (m.step u).2.2.toNat + m.locked.toNat ≤ (m.step u).1.locked.toNat := by
  have hpressed : (m.update u.setpoint).armButtonPressed u.arm_switch = true :=
    armButtonPressed_eq.mpr ⟨hon, hbutton⟩
  obtain ⟨hyst, hframe⟩ := @between_frame m u
  have hpressed' : (m.between u).armButtonPressed u.arm_switch = true := by
    rw [hframe]
    exact hpressed
  have hswitch : (m.update u.setpoint).armSwitchToDisarmTransition u.arm_switch = false := by
    by_contra h
    have hoff := (armSwitchToDisarmTransition_eq.mp (by simpa using h)).2.2
    exact absurd (hon.symm.trans hoff) (by decide)
  have hswitch' : (m.between u).armSwitchToArmTransition u.arm_switch = false := by
    by_contra h
    have hbtn := (armSwitchToArmTransition_eq.mp (by simpa using h)).1
    rw [hframe] at hbtn
    exact absurd (hbutton.symm.trans hbtn) (by decide)
  have harm_state : (m.between u).stick_arm_hysteresis = m.stick_arm_hysteresis := by
    rw [hframe]
    rfl
  have hdisarm := @state_of_wantsDisarm (m.update u.setpoint) u.arm_switch u.disarm
  have harm := @state_of_wantsArm (m.between u) u.arm_switch u.arm
  have hkeep := @wantsDisarm_press (m.update u.setpoint) u.arm_switch u.disarm hpressed
  have hkeep' := @wantsArm_press (m.between u) u.arm_switch u.arm hpressed'
  rw [harm_state] at harm hkeep'
  obtain ⟨hyst', hframe'⟩ := @wantsArm_frame (m.between u) u.arm_switch u.arm
  have hdisarm_state : ((m.between u).wantsArm u.arm_switch u.arm).1.stick_disarm_hysteresis =
      (m.between u).stick_disarm_hysteresis := by
    rw [hframe']
  rw [step_eq, locked, locked, hdisarm_state]
  exact press_count _ _ _ _ _ _ (fun h => hdisarm h hswitch) (fun h => harm h hswitch') hkeep hkeep'

theorem requests_le_one {held : List RcUpdate} (hheld : ∀ u ∈ held, u.arm_switch = .on) :
    ∀ {m : ManualControl}, m.com_arm_swisbtn = true → m.requests held + m.locked.toNat ≤ 1 := by
  induction held with
  | nil => exact fun _ => (Nat.zero_add _).trans_le (Bool.toNat_le _)
  | cons u held ih =>
    intro m hbutton
    obtain ⟨hon, hrest⟩ := List.forall_mem_cons.mp hheld
    have hstep := @step_press m u hon hbutton
    have hbutton' : (m.step u).1.com_arm_swisbtn = true := by
      obtain ⟨hyst, hframe⟩ := @between_frame m u
      obtain ⟨hyst', hframe'⟩ := @wantsArm_frame (m.between u) u.arm_switch u.arm
      rw [step_eq, hframe', hframe]
      exact hbutton
    have hrun := ih hrest hbutton'
    have hcount : m.requests (u :: held) =
        (m.step u).2.1.toNat + (m.step u).2.2.toNat + (m.step u).1.requests held := by
      unfold requests
      rw [Mealy.feed_cons, List.map_cons, List.sum_cons]
    omega

end ManualControl

open ManualControl

variable {com_arm_swisbtn : Bool} {rc_arm_hyst : UInt64} {us : List RcUpdate} {u : RcUpdate}

theorem after_swisbtn :
    ((start com_arm_swisbtn rc_arm_hyst).after us).com_arm_swisbtn = com_arm_swisbtn := by
  induction us using List.reverseRecOn with
  | nil => rfl
  | append_singleton us u ih =>
    obtain ⟨hyst, hframe⟩ := @between_frame ((start com_arm_swisbtn rc_arm_hyst).after us) u
    obtain ⟨hyst', hframe'⟩ := @wantsArm_frame
      (((start com_arm_swisbtn rc_arm_hyst).after us).between u) u.arm_switch u.arm
    rw [after, Trace.run_append]
    change (((start com_arm_swisbtn rc_arm_hyst).after us).step u).1.com_arm_swisbtn = _
    rw [step_eq, hframe', hframe]
    exact ih

section Step

variable {m : ManualControl}

theorem HeldFor.imp {P Q : RcUpdate → Prop} {time : RcUpdate → UInt64}
    (h : HeldFor P time rc_arm_hyst us u) (hPQ : ∀ e ∈ us ++ [u], P e → Q e) :
    HeldFor Q time rc_arm_hyst us u := by
  obtain ⟨first, hblock, hspan⟩ := h
  exact ⟨first, hblock.imp hPQ, hspan⟩

theorem heldFor_disarm (h : Waits com_arm_swisbtn rc_arm_hyst us m) (hset : Settled m u)
    (hclock : ClockMono (us ++ [u])) (hreq : (m.step u).2.1 = true)
    (hswitch : (m.update u.setpoint).armSwitchToDisarmTransition u.arm_switch = false) :
    HeldFor (gestureDisarm com_arm_swisbtn · = true) (·.disarm.now) rc_arm_hyst us u :=
  (h.follows_disarm hset hclock).span (state_of_wantsDisarm hreq hswitch).2.2

theorem heldFor_arm (h : Waits com_arm_swisbtn rc_arm_hyst us m) (hset : Settled m u)
    (hclock : ClockMono (us ++ [u])) (hreq : (m.step u).2.2 = true)
    (hswitch : (m.between u).armSwitchToArmTransition u.arm_switch = false) :
    HeldFor (gestureArm · = true) (·.arm.now) rc_arm_hyst us u :=
  (h.follows_arm hset hclock).span (state_of_wantsArm hreq hswitch).2.2

theorem no_transition (h : u.arm_switch = .none ∨ m.com_arm_swisbtn = true) :
    (m.update u.setpoint).armSwitchToDisarmTransition u.arm_switch = false ∧
      (m.between u).armSwitchToArmTransition u.arm_switch = false := by
  obtain ⟨hyst, hframe⟩ := @between_frame m u
  constructor
  · rw [← Bool.not_eq_true, armSwitchToDisarmTransition_eq]
    rintro ⟨hbutton, -, hoff⟩
    rcases h with h | h
    · exact absurd (h.symm.trans hoff) (by decide)
    · exact absurd (h.symm.trans hbutton) (by decide)
  · rw [← Bool.not_eq_true, armSwitchToArmTransition_eq, hframe]
    rintro ⟨hbutton, -, hon⟩
    rcases h with h | h
    · exact absurd (h.symm.trans hon) (by decide)
    · exact absurd (h.symm.trans hbutton) (by decide)

theorem Waits.last_eq (h : Waits com_arm_swisbtn rc_arm_hyst us m) {a : SwitchPos}
    (ha : a ≠ .none) : m.last_manual_control_switches_arm_switch = a ↔
      us.getLast?.map RcUpdate.arm_switch = some a := by
  rw [h.last]
  cases us.getLast? with
  | none => exact iff_of_false ha.symm nofun
  | some e => exact (Option.some_inj).symm

theorem gestureDisarm_on {e : RcUpdate} (hsome : e.arm_switch ≠ .none)
    (h : gestureDisarm true e = true) : e.arm_switch = .on := by
  unfold gestureDisarm at h
  cases hswitch : e.arm_switch <;> simp_all

theorem gestureArm_on {e : RcUpdate} (hsome : e.arm_switch ≠ .none) (h : gestureArm e = true) :
    e.arm_switch = .on := by
  unfold gestureArm at h
  cases hswitch : e.arm_switch <;> simp_all

end Step

/-- In every run with a fixed configuration and a clock that does not run backwards, in which the
throttle is not raised while the yaw stick is held, requests come from gestures. -/
theorem gestures (hclock : ClockMono (us ++ [u])) (hmapping : SameMapping (us ++ [u]))
    (hset : Trace.Always (fun m u => (ManualControl.step m u).1) Settled
      (start com_arm_swisbtn rc_arm_hyst) (us ++ [u])) :
    Gestures com_arm_swisbtn rc_arm_hyst us u
      (((start com_arm_swisbtn rc_arm_hyst).after us).step u).2.1
      (((start com_arm_swisbtn rc_arm_hyst).after us).step u).2.2 := by
  obtain ⟨hbefore, hlast, -⟩ := (Trace.always_append _ _ _).mp hset
  have hclock' : ClockMono us := hclock.sublist
    (by rw [List.flatMap_append]; exact List.sublist_append_left _ _)
  have hwaits := waits_after hclock' hbefore
  change Settled ((start com_arm_swisbtn rc_arm_hyst).after us) u at hlast
  generalize (start com_arm_swisbtn rc_arm_hyst).after us = m at hwaits hlast ⊢
  have hmem : u ∈ us ++ [u] := List.mem_append_right _ (List.mem_singleton_self u)
  obtain ⟨hyst, hframe⟩ := @between_frame m u
  refine ⟨fun hnone hreq => ?_, fun hnone hreq => ?_, fun hsome hbutton hreq => ?_,
    fun hsome hbutton hreq => ?_, fun hbutton before held _ hheld => ?_,
    fun hsome hbutton => ?_, fun hsome hbutton => ?_⟩
  · refine (heldFor_disarm hwaits hlast hclock hreq (no_transition (.inl hnone)).1).imp ?_
    intro e he hgesture
    rwa [gestureDisarm, hmapping u hmem e he hnone] at hgesture
  · refine (heldFor_arm hwaits hlast hclock hreq (no_transition (.inl hnone)).2).imp ?_
    intro e he hgesture
    rwa [gestureArm, hmapping u hmem e he hnone] at hgesture
  · have hswitch := no_transition (u := u) (.inr (hwaits.swisbtn.trans hbutton))
    refine (heldFor_disarm hwaits hlast hclock hreq hswitch.1).imp fun e he hgesture => ?_
    rw [hbutton] at hgesture
    exact gestureDisarm_on (fun h => hsome (hmapping e he u hmem h)) hgesture
  · have hswitch := no_transition (u := u) (.inr (hwaits.swisbtn.trans hbutton))
    refine (heldFor_arm hwaits hlast hclock hreq hswitch.2).imp fun e he hgesture => ?_
    exact gestureArm_on (fun h => hsome (hmapping e he u hmem h)) hgesture
  · have hle := @requests_le_one _ hheld ((start com_arm_swisbtn rc_arm_hyst).after before)
      (after_swisbtn.trans hbutton)
    omega
  · rw [← hwaits.last_eq (by decide)]
    exact wantsDisarm_switch hsome (hwaits.swisbtn.trans hbutton)
  · rw [← hwaits.last_eq (by decide)]
    have harm := @wantsArm_switch (m.between u) u.arm_switch u.arm hsome
    rw [hframe] at harm
    rw [step_eq, hframe]
    exact harm (hwaits.swisbtn.trans hbutton)

/-- An update of a vehicle on the ground, with the yaw stick to the right. -/
def yawRight (z : ℚ) (now : UInt64) : RcUpdate :=
  ⟨⟨stick z, stick 1⟩, .none, ⟨true, false, .standby, .rotaryWing, true, now⟩,
    ⟨true, false, .standby, .rotaryWing, true, now + 1⟩⟩

theorem sameMapping_yawRight {z z' : ℚ} {now now' : UInt64} :
    SameMapping [yawRight z now, yawRight z' now'] := by
  intro _ _ e he _
  rcases List.mem_cons.mp he with rfl | he
  · rfl
  · rw [List.mem_singleton.mp he]
    rfl

/-- The sticks are in the lower right corner for a second. -/
theorem gestures_second :
    HeldFor (·.setpoint.lowerRight = true) (·.arm.now) 1000000 [yawRight 0 0]
      (yawRight 0 1000000) := by
  refine (@gestures false _ _ _ ?_ sameMapping_yawRight ?_).stick_arm rfl ?_
  · unfold ClockMono
    decide
  · refine ⟨fun _ _ h => absurd ?_ h, fun _ _ h => absurd ?_ h, trivial⟩
    · decide +kernel
    · decide +kernel
  · decide +kernel

/-- The throttle stick is up when the second is over. -/
theorem throttle_late : ClockMono [yawRight 0 0, yawRight 1 1000000] ∧
    SameMapping [yawRight 0 0, yawRight 1 1000000] ∧
    ¬ Gestures false 1000000 [yawRight 0 0] (yawRight 1 1000000)
      (((start false 1000000).after [yawRight 0 0]).step (yawRight 1 1000000)).2.1
      (((start false 1000000).after [yawRight 0 0]).step (yawRight 1 1000000)).2.2 := by
  refine ⟨?_, sameMapping_yawRight, fun h => ?_⟩
  · unfold ClockMono
    decide
  · obtain ⟨first, hblock, -⟩ := h.stick_arm rfl (by decide +kernel)
    have hcorner := hblock.last_mem.2.2
    exact absurd hcorner (by decide +kernel)

end Requests

end Commander
