/-
Reactions to lost links.

A loss is answered with the action that is configured for it.  `consulted` is the reaction that
`setNavState` asks for, from the inputs alone, and `Outcome` says what comes of it: the flags that
it sets, and that an action that is disabled leaves the navigation state as it was.

* `outcome_decideNavState` — the outcome of the whole decision;
* `consulted_kind` — which reactions are asked for where;
* `resetGlobals_eq` — the flags that are reset before the decision.
-/
import AerialManipulator.Commander.NavState

namespace Commander

/-- A reaction to a loss: the action that is consulted, and the delay before it. -/
inductive Reaction
  | dataLink (act : LinkLossAction)
  | rc (act : LinkLossAction) (ll_delay : WithNaN ℚ)
  | offboard (act : OffboardLossAction)
  | offboardRc (act : OffboardLossRcAction)
  /-- "finish mission but then return to avoid lost vehicle" -/
  | goHome

variable (s : Nav) (i : NavInput)

/-- The reaction to lost links in the mission, loiter and takeoff states. -/
def linkConsulted (exception : ℕ) : Option Reaction :=
  let excepted := i.param_com_rcl_except.getLsbD exception
  if s.data_link_lost && dataLinkLossActConfigured i && isArmed s && !i.landed then
    some (.dataLink i.data_link_loss_act)
  else if s.rc_signal_lost && !excepted && i.flags.rc_signal_found_once && isArmed s &&
      !i.landed then
    some (.rc i.rc_loss_act i.param_com_rcl_act_t)
  else if s.rc_signal_lost && !excepted && s.data_link_lost && !dataLinkLossActConfigured i &&
      isArmed s && !i.landed then
    some (.rc i.rc_loss_act 0)
  else none

def missionConsulted : Option Reaction :=
  match linkConsulted s i rclExceptMission with
  | some r => some r
  | none =>
    if s.rc_signal_lost && i.param_com_rcl_except.getLsbD rclExceptMission && s.data_link_lost &&
        !dataLinkLossActConfigured i && isArmed s && !i.landed && i.mission_finished then
      some .goHome
    else none

def orbitConsulted : Option Reaction :=
  if s.data_link_lost && dataLinkLossActConfigured i && !i.landed && isArmed s then
    some (.dataLink i.data_link_loss_act)
  else if s.rc_signal_lost && s.data_link_lost && !dataLinkLossActConfigured i && isArmed s then
    some (.rc i.rc_loss_act 0)
  else none

def offboardConsulted : Option Reaction :=
  if i.flags.offboard_control_signal_lost then
    if s.rc_signal_lost && !i.param_com_rcl_except.getLsbD rclExceptOffboard then
      some (.offboard i.offb_loss_act)
    else some (.offboardRc i.offb_loss_rc_act)
  else none

/-- The engine or the position decide before any link is looked at. -/
def overruled (using_global_pos : Bool) : Bool :=
  s.engine_failure || isArmed s && fallbackRequired i using_global_pos

/-- The reaction that `set_nav_state` asks for. -/
def consulted : Option Reaction :=
  match s.main_state with
  | .acro | .manual | .stab | .altctl | .posctl =>
    if s.rc_signal_lost && isArmed s then some (.rc i.rc_loss_act i.param_com_rcl_act_t) else none
  | .autoMission =>
    if overruled s i true || i.flags.vtol_transition_failure || s.mission_failure then none
    else missionConsulted s i
  | .autoLoiter => if overruled s i true then none else linkConsulted s i rclExceptHold
  | .autoTakeoff => if overruled s i false then none else linkConsulted s i rclExceptHold
  | .orbit => if overruled s i true then none else orbitConsulted s i
  | .offboard => offboardConsulted s i
  | .autoRtl | .autoFollowTarget | .autoLand | .autoPrecland => none

/-! ### What an action does to the flags -/

def stranded : Bool :=
  s.vehicle_type = .rotaryWing && !i.flags.condition_global_position_valid &&
    !i.flags.condition_local_position_valid && !i.flags.condition_local_altitude_valid

def takenAction (act : LinkLossAction) (ll_delay : WithNaN ℚ) : LinkLossAction :=
  if delayed s i ll_delay ∧ act ≠ .disabled then .autoLoiter else act

/-- The action ends in `TERMINATE`, where it may begin with another one. -/
def linkTerminates : LinkLossAction → Bool
  | .terminate => true
  | .autoLoiter | .autoRtl | .autoLand => stranded s i
  | .disabled | .lockdown => false

def Reaction.terminates : Reaction → Bool
  | .dataLink act => linkTerminates s i act
  | .rc act ll_delay => linkTerminates s i (takenAction s i act ll_delay)
  | .offboard act => act = .terminate
  | .offboardRc act => act = .terminate
  | .goHome => stranded s i

def Reaction.locksDown : Reaction → Bool
  | .dataLink act => act = .lockdown
  | .rc act ll_delay => takenAction s i act ll_delay = .lockdown
  | .offboard act => act = .lockdown
  | .offboardRc act => act = .lockdown
  | .goHome => false

/-- The action that is consulted is `DISABLED`. -/
def Reaction.isDisabled : Reaction → Bool
  | .dataLink act => act = .disabled
  | .rc act _ => act = .disabled
  | .offboard act => act = .disabled
  | .offboardRc act => act = .disabled
  | .goHome => false

/-- What a reaction leaves behind, from a state in which the failsafe has been enabled. -/
structure Reacted (r : Reaction) (t : Nav) : Prop where
  disabled : r.isDisabled = true → t.nav_state = s.nav_state
  force_failsafe : t.force_failsafe = (s.force_failsafe || r.terminates s i)
  lockdown : t.lockdown = (s.lockdown || r.locksDown s i)
  failsafe : t.failsafe = true

variable {s i}

theorem linkLand_flags : (linkLand s i).force_failsafe = (s.force_failsafe || stranded s i) ∧
    (linkLand s i).lockdown = s.lockdown := by
  unfold linkLand linkTerminate stranded
  split_ifs with hglobal hrotary hlocal haltitude <;> simp [*]

theorem linkLoiter_flags : (linkLoiter s i).force_failsafe = (s.force_failsafe || stranded s i) ∧
    (linkLoiter s i).lockdown = s.lockdown := by
  unfold linkLoiter
  split_ifs with hglobal
  · simp [stranded, hglobal]
  · exact linkLand_flags

theorem linkRtl_flags : (linkRtl s i).force_failsafe = (s.force_failsafe || stranded s i) ∧
    (linkRtl s i).lockdown = s.lockdown := by
  unfold linkRtl
  split_ifs with hvalid
  · have hmain : (mainStateTransition s i .autoRtl).1.force_failsafe = s.force_failsafe ∧
        (mainStateTransition s i .autoRtl).1.lockdown = s.lockdown := by
      unfold mainStateTransition
      split_ifs <;> exact ⟨rfl, rfl⟩
    simp [stranded, (Bool.and_eq_true_iff.mp hvalid).1, hmain]
  · exact linkLoiter_flags

theorem takenAction_zero (s : Nav) (act : LinkLossAction) : takenAction s i act 0 = act := by
  have hnot : ¬ delayed s i 0 := by
    unfold delayed
    rw [WithNaN.zero_def, WithNaN.num_mul, WithNaN.num_lt_num, zero_mul, not_lt]
    exact Nat.cast_nonneg _
  rw [takenAction, if_neg fun h => hnot h.1]

theorem setLinkLossNavState_flags (act : LinkLossAction) (ll_delay : WithNaN ℚ) :
    (setLinkLossNavState s i act ll_delay).force_failsafe =
        (s.force_failsafe || linkTerminates s i (takenAction s i act ll_delay)) ∧
      (setLinkLossNavState s i act ll_delay).lockdown =
        (s.lockdown || takenAction s i act ll_delay = .lockdown) := by
  unfold setLinkLossNavState takenAction
  dsimp only
  generalize (if delayed s i ll_delay ∧ act ≠ .disabled then .autoLoiter else act) = taken
  cases taken with
  | disabled => simp [linkTerminates]
  | autoLoiter => simpa [linkTerminates] using linkLoiter_flags
  | autoRtl => simpa [linkTerminates] using linkRtl_flags
  | autoLand => simpa [linkTerminates] using linkLand_flags
  | terminate => simp [linkTerminates, linkTerminate]
  | lockdown => simp [linkTerminates]

theorem setLinkLossNavState_disabled (ll_delay : WithNaN ℚ) :
    setLinkLossNavState s i .disabled ll_delay = s := by
  unfold setLinkLossNavState
  dsimp only
  rw [if_neg fun h => h.2 rfl]

theorem offboardRtl_flags : (offboardRtl s i).force_failsafe = s.force_failsafe ∧
    (offboardRtl s i).lockdown = s.lockdown ∧
    (offboardLoiter s i).force_failsafe = s.force_failsafe ∧
    (offboardLoiter s i).lockdown = s.lockdown ∧
    (offboardLand s i).force_failsafe = s.force_failsafe ∧
    (offboardLand s i).lockdown = s.lockdown := by
  unfold offboardRtl offboardLoiter offboardLand mitigate
  split_ifs <;> exact ⟨rfl, rfl, rfl, rfl, rfl, rfl⟩

theorem setOffboardLossNavState_flags (act : OffboardLossAction) :
    (setOffboardLossNavState s i act).force_failsafe = (s.force_failsafe || act = .terminate) ∧
      (setOffboardLossNavState s i act).lockdown = (s.lockdown || act = .lockdown) := by
  cases act <;> simp [setOffboardLossNavState, offboardRtl_flags]

theorem setOffboardLossRcNavState_flags (act : OffboardLossRcAction) :
    (setOffboardLossRcNavState s i act).force_failsafe = (s.force_failsafe || act = .terminate) ∧
      (setOffboardLossRcNavState s i act).lockdown = (s.lockdown || act = .lockdown) := by
  have haltitude : (manualAltitude s i).force_failsafe = s.force_failsafe ∧
      (manualAltitude s i).lockdown = s.lockdown := by
    unfold manualAltitude
    split_ifs <;> exact ⟨rfl, rfl⟩
  have hposition : (manualPosition s i).force_failsafe = s.force_failsafe ∧
      (manualPosition s i).lockdown = s.lockdown := by
    unfold manualPosition
    split_ifs
    · exact ⟨rfl, rfl⟩
    · exact ⟨rfl, rfl⟩
    · exact haltitude
  cases act <;> simp [setOffboardLossRcNavState, offboardRtl_flags, haltitude, hposition]

/-! No action takes the failsafe back. -/

theorem failsafe_setLinkLossNavState (act : LinkLossAction) (ll_delay : WithNaN ℚ) :
    (setLinkLossNavState s i act ll_delay).failsafe = s.failsafe := by
  have hland : (linkLand s i).failsafe = s.failsafe := by
    unfold linkLand linkTerminate
    split_ifs <;> rfl
  have hloiter : (linkLoiter s i).failsafe = s.failsafe := by
    unfold linkLoiter
    split_ifs
    · rfl
    · exact hland
  have hrtl : (linkRtl s i).failsafe = s.failsafe := by
    unfold linkRtl mainStateTransition
    split_ifs
    · rfl
    · rfl
    · rfl
    · exact hloiter
  unfold setLinkLossNavState
  dsimp only
  split
  · rfl
  · exact hrtl
  · exact hloiter
  · exact hland
  · rfl
  · rfl

theorem failsafe_offboardRtl : (offboardRtl s i).failsafe = s.failsafe ∧
    (offboardLoiter s i).failsafe = s.failsafe ∧ (offboardLand s i).failsafe = s.failsafe := by
  unfold offboardRtl offboardLoiter offboardLand mitigate
  split_ifs <;> exact ⟨rfl, rfl, rfl⟩

theorem failsafe_setOffboardLossNavState (act : OffboardLossAction) :
    (setOffboardLossNavState s i act).failsafe = s.failsafe := by
  cases act <;> simp [setOffboardLossNavState, failsafe_offboardRtl]

theorem failsafe_setOffboardLossRcNavState (act : OffboardLossRcAction) :
    (setOffboardLossRcNavState s i act).failsafe = s.failsafe := by
  have hposition : (manualPosition s i).failsafe = s.failsafe ∧
      (manualAltitude s i).failsafe = s.failsafe := by
    unfold manualPosition manualAltitude
    split_ifs <;> exact ⟨rfl, rfl⟩
  cases act <;> simp [setOffboardLossRcNavState, failsafe_offboardRtl, hposition]

/-! ### The outcome of the main states -/

variable {old_failsafe : Bool}

def alerted (s : Nav) (i : NavInput) (old_failsafe : Bool) : Nav :=
  enableFailsafe s i old_failsafe reasonNoRc

theorem enableFailsafe_eq (s : Nav) (reason : String) : ∃ log,
    enableFailsafe s i old_failsafe reason = { alerted s i old_failsafe with log := log } := by
  unfold alerted enableFailsafe
  dsimp only
  split_ifs
  · exact ⟨_, rfl⟩
  · exact ⟨_, rfl⟩
  · exact ⟨_, rfl⟩

theorem alerted_eq (s : Nav) : ∃ stamp log, alerted s i old_failsafe =
    { s with failsafe := true, failsafe_timestamp := stamp, log := log } := by
  unfold alerted enableFailsafe
  dsimp only
  split_ifs
  · exact ⟨_, _, rfl⟩
  · exact ⟨_, _, rfl⟩
  · exact ⟨_, _, rfl⟩

@[simp] theorem nav_state_alerted : (alerted s i old_failsafe).nav_state = s.nav_state := by
  obtain ⟨stamp, log, heq⟩ := @alerted_eq i old_failsafe s
  rw [heq]

@[simp] theorem force_failsafe_alerted :
    (alerted s i old_failsafe).force_failsafe = s.force_failsafe := by
  obtain ⟨stamp, log, heq⟩ := @alerted_eq i old_failsafe s
  rw [heq]

@[simp] theorem lockdown_alerted : (alerted s i old_failsafe).lockdown = s.lockdown := by
  obtain ⟨stamp, log, heq⟩ := @alerted_eq i old_failsafe s
  rw [heq]

@[simp] theorem stranded_alerted : stranded (alerted s i old_failsafe) i = stranded s i := by
  obtain ⟨stamp, log, heq⟩ := @alerted_eq i old_failsafe s
  rw [heq]
  rfl

@[simp] theorem linkTerminates_alerted (act : LinkLossAction) :
    linkTerminates (alerted s i old_failsafe) i act = linkTerminates s i act := by
  cases act <;> simp [linkTerminates]

/-- What comes of the reaction that is asked for, or of there being none. -/
def Outcome (s : Nav) (i : NavInput) (old_failsafe : Bool) : Option Reaction → Nav → Prop
  | none, t => t.force_failsafe = s.force_failsafe ∧ t.lockdown = s.lockdown
  | some r, t => Reacted (alerted s i old_failsafe) i r t

theorem reacted_rc (act : LinkLossAction) (ll_delay : WithNaN ℚ) (reason : String) :
    Reacted (alerted s i old_failsafe) i (.rc act ll_delay)
      (setLinkLossNavState (enableFailsafe s i old_failsafe reason) i act ll_delay) := by
  obtain ⟨log, heq⟩ := @enableFailsafe_eq i old_failsafe s reason
  rw [heq]
  refine ⟨fun hdisabled => ?_, (setLinkLossNavState_flags act ll_delay).1,
    (setLinkLossNavState_flags act ll_delay).2, ?_⟩
  · obtain rfl : act = .disabled := of_decide_eq_true hdisabled
    rw [setLinkLossNavState_disabled]
  · rw [failsafe_setLinkLossNavState]
    rfl

theorem reacted_dataLink (act : LinkLossAction) (reason : String) :
    Reacted (alerted s i old_failsafe) i (.dataLink act)
      (setLinkLossNavState (enableFailsafe s i old_failsafe reason) i act 0) := by
  have h := @reacted_rc s i old_failsafe act 0 reason
  refine ⟨h.disabled, ?_, ?_, h.failsafe⟩
  · simp only [h.force_failsafe, Reaction.terminates, takenAction_zero]
  · simp only [h.lockdown, Reaction.locksDown, takenAction_zero]

theorem reacted_goHome (reason : String) :
    Reacted (alerted s i old_failsafe) i .goHome
      (setLinkLossNavState (enableFailsafe s i old_failsafe reason) i .autoRtl 0) := by
  have h := @reacted_dataLink s i old_failsafe .autoRtl reason
  exact ⟨fun hdisabled => absurd hdisabled Bool.false_ne_true, h.force_failsafe, h.lockdown,
    h.failsafe⟩

theorem reacted_offboard (act : OffboardLossAction) (reason : String) :
    Reacted (alerted s i old_failsafe) i (.offboard act)
      (setOffboardLossNavState (enableFailsafe s i old_failsafe reason) i act) := by
  obtain ⟨log, heq⟩ := @enableFailsafe_eq i old_failsafe s reason
  rw [heq]
  refine ⟨fun hdisabled => ?_, (setOffboardLossNavState_flags act).1,
    (setOffboardLossNavState_flags act).2, ?_⟩
  · obtain rfl : act = .disabled := of_decide_eq_true hdisabled
    rfl
  · rw [failsafe_setOffboardLossNavState]
    rfl

theorem reacted_offboardRc (act : OffboardLossRcAction) (reason : String) :
    Reacted (alerted s i old_failsafe) i (.offboardRc act)
      (setOffboardLossRcNavState (enableFailsafe s i old_failsafe reason) i act) := by
  obtain ⟨log, heq⟩ := @enableFailsafe_eq i old_failsafe s reason
  rw [heq]
  refine ⟨fun hdisabled => ?_, (setOffboardLossRcNavState_flags act).1,
    (setOffboardLossRcNavState_flags act).2, ?_⟩
  · obtain rfl : act = .disabled := of_decide_eq_true hdisabled
    rfl
  · rw [failsafe_setOffboardLossRcNavState]
    rfl

theorem outcome_manualState (n : NavState) :
    Outcome s i old_failsafe
      (if s.rc_signal_lost && isArmed s then some (.rc i.rc_loss_act i.param_com_rcl_act_t)
        else none)
      (manualState s i old_failsafe n) := by
  unfold manualState
  split
  · exact reacted_rc _ _ _
  · exact ⟨rfl, rfl⟩

theorem checkInvalidPosNavState_flags (use_rc using_global_pos : Bool) :
    (checkInvalidPosNavState s i old_failsafe use_rc using_global_pos).1.force_failsafe =
        s.force_failsafe ∧
      (checkInvalidPosNavState s i old_failsafe use_rc using_global_pos).1.lockdown = s.lockdown ∧
      (checkInvalidPosNavState s i old_failsafe use_rc using_global_pos).2 =
        fallbackRequired i using_global_pos := by
  unfold checkInvalidPosNavState
  split
  · next hfallback =>
    obtain ⟨log, heq⟩ := @enableFailsafe_eq i old_failsafe
      { s with nav_state := fallbackState s i use_rc }
      (if using_global_pos then reasonNoGlobalPosition else reasonNoLocalPosition)
    rw [heq, hfallback]
    exact ⟨force_failsafe_alerted, lockdown_alerted, rfl⟩
  · next hfallback => exact ⟨rfl, rfl, (Bool.eq_false_of_not_eq_true hfallback).symm⟩

theorem outcome_posctlState :
    Outcome s i old_failsafe
      (if s.rc_signal_lost && isArmed s then some (.rc i.rc_loss_act i.param_com_rcl_act_t)
        else none)
      (posctlState s i old_failsafe) := by
  unfold posctlState
  dsimp only
  split
  · exact reacted_rc _ _ _
  · split
    · exact ⟨(checkInvalidPosNavState_flags _ _).1, (checkInvalidPosNavState_flags _ _).2.1⟩
    · exact ⟨rfl, rfl⟩

theorem outcome_linkLossReaction (exception : ℕ) :
    (linkConsulted s i exception = none ∧ linkLossReaction s i old_failsafe exception = none) ∨
      ∃ r t, linkConsulted s i exception = some r ∧
        linkLossReaction s i old_failsafe exception = some t ∧
        Reacted (alerted s i old_failsafe) i r t := by
  unfold linkConsulted linkLossReaction
  dsimp only
  split_ifs
  · exact .inr ⟨_, _, rfl, rfl, reacted_dataLink _ _⟩
  · exact .inr ⟨_, _, rfl, rfl, reacted_rc _ _ _⟩
  · exact .inr ⟨_, _, rfl, rfl, reacted_rc _ _ _⟩
  · exact .inl ⟨rfl, rfl⟩

theorem outcome_linkedState (using_global_pos : Bool) (n : NavState) :
    Outcome s i old_failsafe
      (if overruled s i using_global_pos then none else linkConsulted s i rclExceptHold)
      (linkedState s i old_failsafe using_global_pos n) := by
  obtain ⟨hforce, hlockdown, hfallback⟩ :=
    @checkInvalidPosNavState_flags s i old_failsafe false using_global_pos
  unfold linkedState overruled
  dsimp only
  rw [hfallback]
  by_cases hengine : s.engine_failure = true
  · rw [hengine, Bool.true_or, if_pos rfl, if_pos rfl]
    exact ⟨rfl, rfl⟩
  · rw [Bool.eq_false_of_not_eq_true hengine, Bool.false_or, if_neg Bool.false_ne_true]
    split
    · exact ⟨hforce, hlockdown⟩
    · rcases @outcome_linkLossReaction s i old_failsafe rclExceptHold with
        ⟨hnone, hreaction⟩ | ⟨r, t, hsome, hreaction, h⟩
      · rw [hnone, hreaction]
        exact ⟨rfl, rfl⟩
      · rw [hsome, hreaction]
        exact h

theorem outcome_autoState (using_global_pos : Bool) (n : NavState) :
    Outcome s i old_failsafe none (autoState s i old_failsafe using_global_pos n) := by
  unfold autoState
  dsimp only
  split_ifs
  · exact ⟨rfl, rfl⟩
  · exact ⟨(checkInvalidPosNavState_flags _ _).1, (checkInvalidPosNavState_flags _ _).2.1⟩
  · exact ⟨rfl, rfl⟩

theorem outcome_offboardState :
    Outcome s i old_failsafe (offboardConsulted s i) (offboardState s i old_failsafe) := by
  unfold offboardState offboardConsulted
  split_ifs
  · exact reacted_offboard _ _
  · exact reacted_offboardRc _ _
  · exact ⟨rfl, rfl⟩

theorem outcome_autoMissionState :
    Outcome s i old_failsafe
      (if overruled s i true || i.flags.vtol_transition_failure || s.mission_failure then none
        else missionConsulted s i)
      (autoMissionState s i old_failsafe) := by
  obtain ⟨hforce, hlockdown, hfallback⟩ :=
    @checkInvalidPosNavState_flags s i old_failsafe false true
  unfold autoMissionState overruled
  dsimp only
  rw [hfallback]
  by_cases hpos : (isArmed s && fallbackRequired i true) = true
  · rw [hpos, Bool.or_true, Bool.true_or, Bool.true_or, if_pos rfl, if_pos rfl]
    exact ⟨hforce, hlockdown⟩
  · rw [Bool.eq_false_of_not_eq_true hpos, Bool.or_false, if_neg Bool.false_ne_true]
    cases s.engine_failure with
    | true => exact ⟨rfl, rfl⟩
    | false =>
      cases i.flags.vtol_transition_failure with
      | true => exact ⟨rfl, rfl⟩
      | false =>
        cases s.mission_failure with
        | true => exact ⟨rfl, rfl⟩
        | false =>
          -- nothing else has happened: the links
          simp only [Bool.or_false, Bool.false_eq_true, if_false, missionConsulted]
          rcases @outcome_linkLossReaction s i old_failsafe rclExceptMission with
            ⟨hnone, hreaction⟩ | ⟨r, t, hsome, hreaction, h⟩
          · rw [hnone, hreaction]
            dsimp only
            split_ifs
            · exact reacted_goHome _
            · exact ⟨rfl, rfl⟩
            · exact ⟨rfl, rfl⟩
          · rw [hsome, hreaction]
            exact h

theorem outcome_orbitState :
    Outcome s i old_failsafe (if overruled s i true then none else orbitConsulted s i)
      (orbitState s i old_failsafe) := by
  obtain ⟨hforce, hlockdown, hfallback⟩ :=
    @checkInvalidPosNavState_flags s i old_failsafe false true
  unfold orbitState overruled
  dsimp only
  rw [hfallback]
  cases s.engine_failure with
  | true => exact ⟨rfl, rfl⟩
  | false =>
    rw [Bool.false_or, if_neg Bool.false_ne_true]
    split
    · exact ⟨hforce, hlockdown⟩
    · unfold orbitConsulted
      split_ifs
      · -- here the action comes before the failsafe is enabled
        obtain ⟨log, heq⟩ := @enableFailsafe_eq i old_failsafe
          (setLinkLossNavState s i i.data_link_loss_act 0) reasonNoDatalink
        rw [heq]
        obtain ⟨hforce', hlockdown'⟩ := @setLinkLossNavState_flags s i i.data_link_loss_act 0
        rw [takenAction_zero] at hforce' hlockdown'
        refine ⟨fun hdisabled => ?_, ?_, ?_, rfl⟩
        · have hact : i.data_link_loss_act = .disabled := of_decide_eq_true hdisabled
          simp only [hact, setLinkLossNavState_disabled]
        · rw [force_failsafe_alerted, force_failsafe_alerted, hforce', Reaction.terminates,
            linkTerminates_alerted]
        · rw [lockdown_alerted, lockdown_alerted, hlockdown', Reaction.locksDown]
      · have h := @reacted_rc s i old_failsafe i.rc_loss_act 0 reasonNoRc
        exact ⟨h.disabled, h.force_failsafe, h.lockdown, h.failsafe⟩
      · exact ⟨rfl, rfl⟩

theorem outcome_decideNavState :
    Outcome s i old_failsafe (consulted s i) (decideNavState s i old_failsafe) := by
  unfold decideNavState consulted
  cases s.main_state with
  | manual | altctl | acro | stab => exact outcome_manualState _
  | posctl => exact outcome_posctlState
  | autoMission => exact outcome_autoMissionState
  | autoLoiter | autoTakeoff => exact outcome_linkedState _ _
  | autoRtl | autoFollowTarget | autoLand | autoPrecland => exact outcome_autoState _ _
  | orbit => exact outcome_orbitState
  | offboard => exact outcome_offboardState

/-! Which reactions are asked for where. -/

def Reaction.isOffboard : Reaction → Bool
  | .offboard _ | .offboardRc _ => true
  | .dataLink _ | .rc _ _ | .goHome => false

/-- The action is the configured one; the data link is not asked for one that is disabled. -/
def Reaction.IsOf (i : NavInput) : Reaction → Prop
  | .dataLink act => act = i.data_link_loss_act ∧ act ≠ .disabled
  | .rc act _ => act = i.rc_loss_act
  | .offboard act => act = i.offb_loss_act
  | .offboardRc act => act = i.offb_loss_rc_act
  | .goHome => True

theorem configured_of_and {b c : Bool} (h : (b && dataLinkLossActConfigured i && c) = true) :
    (Reaction.dataLink i.data_link_loss_act).IsOf i := by
  have hconfigured : dataLinkLossActConfigured i = true :=
    (Bool.and_eq_true_iff.mp (Bool.and_eq_true_iff.mp h).1).2
  exact ⟨rfl, of_decide_eq_true hconfigured⟩

theorem linkConsulted_kind {exception : ℕ} {r : Reaction}
    (h : linkConsulted s i exception = some r) :
    r.isOffboard = false ∧ r.IsOf i ∧ isArmed s = true := by
  unfold linkConsulted at h
  dsimp only at h
  split_ifs at h with hlink hrc hall
  · obtain rfl := Option.some.inj h
    have harmed := (Bool.and_eq_true_iff.mp (Bool.and_eq_true_iff.mp hlink).1).2
    rw [Bool.and_assoc] at hlink
    exact ⟨rfl, configured_of_and hlink, harmed⟩
  · obtain rfl := Option.some.inj h
    exact ⟨rfl, rfl, (Bool.and_eq_true_iff.mp (Bool.and_eq_true_iff.mp hrc).1).2⟩
  · obtain rfl := Option.some.inj h
    exact ⟨rfl, rfl, (Bool.and_eq_true_iff.mp (Bool.and_eq_true_iff.mp hall).1).2⟩

theorem missionConsulted_kind {r : Reaction} (h : missionConsulted s i = some r) :
    r.isOffboard = false ∧ r.IsOf i ∧ isArmed s = true := by
  unfold missionConsulted at h
  split at h
  · next r' hr =>
    obtain rfl := Option.some.inj h
    exact linkConsulted_kind hr
  · split_ifs at h with hall
    obtain rfl := Option.some.inj h
    have hlanded := (Bool.and_eq_true_iff.mp (Bool.and_eq_true_iff.mp hall).1).1
    exact ⟨rfl, trivial, (Bool.and_eq_true_iff.mp hlanded).2⟩

theorem orbitConsulted_kind {r : Reaction} (h : orbitConsulted s i = some r) :
    r.isOffboard = false ∧ r.IsOf i ∧ isArmed s = true := by
  unfold orbitConsulted at h
  split_ifs at h with hlink hrc
  · obtain rfl := Option.some.inj h
    have harmed := (Bool.and_eq_true_iff.mp hlink).2
    rw [Bool.and_assoc] at hlink
    exact ⟨rfl, configured_of_and hlink, harmed⟩
  · obtain rfl := Option.some.inj h
    exact ⟨rfl, rfl, (Bool.and_eq_true_iff.mp hrc).2⟩

theorem not_stranded {using_global_pos : Bool} (harmed : isArmed s = true)
    (h : ¬ overruled s i using_global_pos = true) : stranded s i = false := by
  have hpos := (Bool.or_eq_false_iff.mp (Bool.eq_false_of_not_eq_true h)).2
  rw [harmed, Bool.true_and] at hpos
  unfold fallbackRequired at hpos
  unfold stranded
  cases using_global_pos with
  | true =>
    rw [if_pos rfl] at hpos
    simp only [hpos, Bool.and_false, Bool.false_and]
  | false =>
    rw [if_neg Bool.false_ne_true] at hpos
    simp only [(Bool.or_eq_false_iff.mp hpos).1, Bool.and_false, Bool.false_and]

/-- The offboard signal is only asked for in the offboard state, and outside the manual states
there is always something left to do for the other links. -/
theorem consulted_kind {r : Reaction} (h : consulted s i = some r) :
    (r.isOffboard = true → s.main_state = .offboard) ∧ r.IsOf i ∧
      (r.isOffboard = false → stranded s i = true →
        s.main_state.isManual = true ∧ s.rc_signal_lost = true ∧ isArmed s = true ∧
          r = .rc i.rc_loss_act i.param_com_rcl_act_t) := by
  unfold consulted at h
  cases hmain : s.main_state with
  | manual | altctl | acro | stab | posctl =>
    rw [hmain] at h
    dsimp only at h
    split_ifs at h with hlost
    obtain rfl := Option.some.inj h
    refine ⟨fun hoff => absurd hoff Bool.false_ne_true, rfl, fun _ _ => ⟨rfl, ?_⟩⟩
    exact ⟨(Bool.and_eq_true_iff.mp hlost).1, (Bool.and_eq_true_iff.mp hlost).2, rfl⟩
  | autoMission =>
    rw [hmain] at h
    obtain ⟨hover, hsome⟩ := Option.ite_none_left_eq_some.mp h
    obtain ⟨hoff, hof, harmed⟩ := missionConsulted_kind hsome
    refine ⟨fun hoff' => absurd (hoff'.symm.trans hoff) Bool.true_eq_false.mp, hof, ?_⟩
    intro _ hstranded
    rw [Bool.or_eq_true, Bool.or_eq_true, not_or, not_or] at hover
    rw [not_stranded harmed hover.1.1] at hstranded
    exact nomatch hstranded
  | autoLoiter | autoTakeoff =>
    rw [hmain] at h
    obtain ⟨hover, hsome⟩ := Option.ite_none_left_eq_some.mp h
    obtain ⟨hoff, hof, harmed⟩ := linkConsulted_kind hsome
    refine ⟨fun hoff' => absurd (hoff'.symm.trans hoff) Bool.true_eq_false.mp, hof, ?_⟩
    intro _ hstranded
    rw [not_stranded harmed hover] at hstranded
    exact nomatch hstranded
  | orbit =>
    rw [hmain] at h
    obtain ⟨hover, hsome⟩ := Option.ite_none_left_eq_some.mp h
    obtain ⟨hoff, hof, harmed⟩ := orbitConsulted_kind hsome
    refine ⟨fun hoff' => absurd (hoff'.symm.trans hoff) Bool.true_eq_false.mp, hof, ?_⟩
    intro _ hstranded
    rw [not_stranded harmed hover] at hstranded
    exact nomatch hstranded
  | autoRtl | autoFollowTarget | autoLand | autoPrecland =>
    rw [hmain] at h
    exact nomatch h
  | offboard =>
    rw [hmain] at h
    dsimp only [offboardConsulted] at h
    split_ifs at h
    · obtain rfl := Option.some.inj h
      exact ⟨fun _ => rfl, rfl, fun hoff => absurd hoff Bool.true_eq_false.mp⟩
    · obtain rfl := Option.some.inj h
      exact ⟨fun _ => rfl, rfl, fun hoff => absurd hoff Bool.true_eq_false.mp⟩

/-! The flags that are reset before the decision. -/

structure LossActions where
  rc : LinkLossAction
  data_link : LinkLossAction
  offb : OffboardLossAction
  offb_rc : OffboardLossRcAction

def NavInput.actions (i : NavInput) : LossActions :=
  ⟨i.rc_loss_act, i.data_link_loss_act, i.offb_loss_act, i.offb_loss_rc_act⟩

/-- One of the actions is to terminate. -/
def LossActions.HasTerminate (a : LossActions) : Prop :=
  a.rc = .terminate ∨ a.data_link = .terminate ∨ a.offb = .terminate ∨ a.offb_rc = .terminate

def LossActions.HasLockdown (a : LossActions) : Prop :=
  a.rc = .lockdown ∨ a.data_link = .lockdown ∨ a.offb = .lockdown ∨ a.offb_rc = .lockdown

instance (a : LossActions) : Decidable a.HasTerminate := inferInstanceAs (Decidable (_ ∨ _))

instance (a : LossActions) : Decidable a.HasLockdown := inferInstanceAs (Decidable (_ ∨ _))

theorem resetLinkLossGlobals_eq (s : Nav) (old_failsafe : Bool) (act : LinkLossAction) :
    resetLinkLossGlobals s old_failsafe act =
      { s with
        force_failsafe := s.force_failsafe && !(old_failsafe && act = .terminate)
        lockdown := s.lockdown && !(old_failsafe && act = .lockdown) } := by
  unfold resetLinkLossGlobals
  cases old_failsafe <;> cases act <;> simp

theorem resetOffboardLossGlobals_eq (s : Nav) (old_failsafe : Bool) (act : OffboardLossAction)
    (rc_act : OffboardLossRcAction) :
    resetOffboardLossGlobals s old_failsafe act rc_act =
      { s with
        force_failsafe :=
          s.force_failsafe && !(old_failsafe && decide (act = .terminate ∨ rc_act = .terminate))
        lockdown :=
          s.lockdown && !(old_failsafe && decide (act = .lockdown ∨ rc_act = .lockdown)) } := by
  unfold resetOffboardLossGlobals
  cases old_failsafe with
  | false => simp
  | true =>
    rw [if_pos rfl]
    by_cases hterminate : act = .terminate ∨ rc_act = .terminate
    · rw [if_pos hterminate]
      by_cases hlockdown : act = .lockdown ∨ rc_act = .lockdown
      · simp [if_pos hlockdown, decide_eq_true hterminate, decide_eq_true hlockdown]
      · simp [if_neg hlockdown, decide_eq_true hterminate, decide_eq_false hlockdown]
    · rw [if_neg hterminate]
      by_cases hlockdown : act = .lockdown ∨ rc_act = .lockdown
      · simp [if_pos hlockdown, decide_eq_false hterminate, decide_eq_true hlockdown]
      · simp [if_neg hlockdown, decide_eq_false hterminate, decide_eq_false hlockdown]

theorem resetGlobals_eq (s : Nav) : resetGlobals s i =
    { s with
      failsafe := false
      force_failsafe := s.force_failsafe && !(s.failsafe && decide i.actions.HasTerminate)
      lockdown := s.lockdown && !(s.failsafe && decide i.actions.HasLockdown) } := by
  have hterminate : decide i.actions.HasTerminate = (i.rc_loss_act = .terminate ||
      (i.data_link_loss_act = .terminate ||
        (i.offb_loss_act = .terminate || i.offb_loss_rc_act = .terminate))) := by
    rw [Bool.eq_iff_iff, decide_eq_true_iff]
    simp [LossActions.HasTerminate, NavInput.actions]
  have hlockdown : decide i.actions.HasLockdown = (i.rc_loss_act = .lockdown ||
      (i.data_link_loss_act = .lockdown ||
        (i.offb_loss_act = .lockdown || i.offb_loss_rc_act = .lockdown))) := by
    rw [Bool.eq_iff_iff, decide_eq_true_iff]
    simp [LossActions.HasLockdown, NavInput.actions]
  unfold resetGlobals
  simp only [resetLinkLossGlobals_eq, resetOffboardLossGlobals_eq, Nav.mk.injEq, true_and, and_true,
    hterminate, hlockdown]
  cases s.failsafe with
  | false => simp
  | true => simp [Bool.and_assoc]

theorem nav_state_resetGlobals (s : Nav) : (resetGlobals s i).nav_state = s.nav_state := by
  rw [resetGlobals_eq]

theorem consulted_resetGlobals (s : Nav) : consulted (resetGlobals s i) i = consulted s i := by
  rw [resetGlobals_eq]
  rfl

end Commander
