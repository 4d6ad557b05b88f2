/-
Disabled actions on lost links.

* `nav_state_of_linked` — where no reaction is asked for, the main state gets what it asks for;
* `consulted_rcRestored`, `consulted_dataLinkRestored` — with the link there, no reaction is asked
  for;
* **`takesNoAction_iff`** — when a disabled action leaves no trace in the navigation state.
-/
import AerialManipulator.Commander.LossReaction

namespace Commander

variable {s : Nav} {i : NavInput} {old_failsafe : Bool}

def wantedAuto (s : Nav) (i : NavInput) (using_global_pos : Bool) (n : NavState) : NavState :=
  if s.engine_failure then .autoLandengfail
  else if isArmed s && fallbackRequired i using_global_pos then fallbackState s i false
  else n

def wantedMission (s : Nav) (i : NavInput) : NavState :=
  if isArmed s && fallbackRequired i true then fallbackState s i false
  else if s.engine_failure then .autoLandengfail
  else if i.flags.vtol_transition_failure || s.mission_failure then .autoRtl
  else if i.stay_in_failsafe then s.nav_state
  else .autoMission

/-- The state that the main state asks for when every link is there. -/
def wanted (s : Nav) (i : NavInput) : NavState :=
  match s.main_state with
  | .manual => .manual
  | .altctl => .altctl
  | .acro => .acro
  | .stab => .stab
  | .posctl =>
    if fallbackRequired i (s.vehicle_type = .fixedWing) then
      fallbackState s i (i.posctl_nav_loss_act ≠ .landTerminate || !isArmed s)
    else .posctl
  | .autoMission => wantedMission s i
  | .autoLoiter => wantedAuto s i true .autoLoiter
  | .autoTakeoff => wantedAuto s i false .autoTakeoff
  | .autoRtl => wantedAuto s i true .autoRtl
  | .autoFollowTarget => wantedAuto s i true .autoFollowTarget
  | .autoLand => wantedAuto s i false .autoLand
  | .autoPrecland => wantedAuto s i false .autoPrecland
  | .orbit => wantedAuto s i true .orbit
  | .offboard => .offboard

theorem ite_some_eq_none {α : Type*} {b : Bool} {a : α} :
    (if b then some a else none) = none ↔ b = false := by
  cases b <;> simp

theorem nav_state_checkInvalidPosNavState {use_rc using_global_pos : Bool}
    (h : fallbackRequired i using_global_pos = true) :
    (checkInvalidPosNavState s i old_failsafe use_rc using_global_pos).1.nav_state =
      fallbackState s i use_rc := by
  rw [checkInvalidPosNavState, if_pos h]
  exact nav_state_enableFailsafe _ _

theorem posctlState_of_linked (h : (s.rc_signal_lost && isArmed s) = false) :
    (posctlState s i old_failsafe).nav_state =
      if fallbackRequired i (s.vehicle_type = .fixedWing) then
        fallbackState s i (i.posctl_nav_loss_act ≠ .landTerminate || !isArmed s)
      else .posctl := by
  unfold posctlState
  dsimp only
  rw [h, if_neg Bool.false_ne_true, (checkInvalidPosNavState_flags _ _).2.2]
  split
  · next hfallback => exact nav_state_checkInvalidPosNavState hfallback
  · rfl

theorem autoState_eq_wanted (using_global_pos : Bool) (n : NavState) :
    (autoState s i old_failsafe using_global_pos n).nav_state =
      wantedAuto s i using_global_pos n := by
  unfold autoState wantedAuto
  dsimp only
  rw [(checkInvalidPosNavState_flags _ _).2.2]
  split
  · rfl
  · split
    · next hpos => exact nav_state_checkInvalidPosNavState (Bool.and_eq_true_iff.mp hpos).2
    · rfl

theorem linkedState_of_linked {using_global_pos : Bool} (n : NavState)
    (h : (if overruled s i using_global_pos then none else linkConsulted s i rclExceptHold) =
      none) :
    (linkedState s i old_failsafe using_global_pos n).nav_state =
      wantedAuto s i using_global_pos n := by
  have hlinked : overruled s i using_global_pos = false →
      linkLossReaction s i old_failsafe rclExceptHold = none := by
    intro hover
    rw [hover, if_neg Bool.false_ne_true] at h
    rcases @outcome_linkLossReaction s i old_failsafe rclExceptHold with
      ⟨-, hreaction⟩ | ⟨r, t, hsome, -, -⟩
    · exact hreaction
    · exact absurd (hsome.symm.trans h) (Option.some_ne_none r)
  unfold linkedState wantedAuto
  dsimp only
  rw [(checkInvalidPosNavState_flags _ _).2.2]
  split
  · rfl
  · next hengine =>
    split
    · next hpos => exact nav_state_checkInvalidPosNavState (Bool.and_eq_true_iff.mp hpos).2
    · next hpos =>
      rw [hlinked (Bool.or_eq_false_iff.mpr ⟨Bool.eq_false_of_not_eq_true hengine,
        Bool.eq_false_of_not_eq_true hpos⟩)]

theorem orbitState_of_linked
    (h : (if overruled s i true then none else orbitConsulted s i) = none) :
    (orbitState s i old_failsafe).nav_state = wantedAuto s i true .orbit := by
  unfold orbitState wantedAuto
  dsimp only
  rw [(checkInvalidPosNavState_flags _ _).2.2]
  split
  · rfl
  · next hengine =>
    split
    · next hpos => exact nav_state_checkInvalidPosNavState (Bool.and_eq_true_iff.mp hpos).2
    · next hpos =>
      have hover : ¬ overruled s i true = true := by
        rw [overruled, Bool.or_eq_true]
        exact not_or.mpr ⟨hengine, hpos⟩
      rw [if_neg hover] at h
      unfold orbitConsulted at h
      split_ifs at h with hlink hrc
      rw [if_neg hlink, if_neg hrc]

theorem autoMissionState_of_linked
    (h : (if overruled s i true || i.flags.vtol_transition_failure || s.mission_failure then none
      else missionConsulted s i) = none) :
    (autoMissionState s i old_failsafe).nav_state = wantedMission s i := by
  unfold autoMissionState wantedMission
  dsimp only
  rw [(checkInvalidPosNavState_flags _ _).2.2]
  split
  · next hpos => exact nav_state_checkInvalidPosNavState (Bool.and_eq_true_iff.mp hpos).2
  · next hpos =>
    split
    · rfl
    · next hengine =>
      have hover : overruled s i true = false :=
        Bool.or_eq_false_iff.mpr ⟨Bool.eq_false_of_not_eq_true hengine,
          Bool.eq_false_of_not_eq_true hpos⟩
      rw [hover, Bool.false_or] at h
      cases hvtol : i.flags.vtol_transition_failure with
      | true => rfl
      | false =>
        cases hmission : s.mission_failure with
        | true => rfl
        | false =>
          -- the links are there
          rw [hvtol, hmission, Bool.false_or, if_neg Bool.false_ne_true, missionConsulted] at h
          rcases @outcome_linkLossReaction s i old_failsafe rclExceptMission with
            ⟨hnone, hreaction⟩ | ⟨r, t, hsome, -, -⟩
          · rw [hnone] at h
            rw [hreaction]
            dsimp only at h ⊢
            rw [ite_some_eq_none] at h
            rw [h]
            cases i.stay_in_failsafe <;> rfl
          · rw [hsome] at h
            exact absurd h (Option.some_ne_none r)

theorem manualState_of_linked (n : NavState) (h : (s.rc_signal_lost && isArmed s) = false) :
    (manualState s i old_failsafe n).nav_state = n := by
  rw [manualState, h, if_neg Bool.false_ne_true]

theorem offboardState_of_linked (h : offboardConsulted s i = none) :
    (offboardState s i old_failsafe).nav_state = .offboard := by
  unfold offboardConsulted at h
  split_ifs at h with hlost
  rw [offboardState, if_neg hlost]

theorem nav_state_of_linked (h : consulted s i = none) :
    (decideNavState s i old_failsafe).nav_state = wanted s i := by
  unfold consulted at h
  unfold decideNavState wanted
  cases hmain : s.main_state with
  | manual | altctl | acro | stab =>
    rw [hmain] at h
    exact manualState_of_linked _ (ite_some_eq_none.mp h)
  | posctl =>
    rw [hmain] at h
    exact posctlState_of_linked (ite_some_eq_none.mp h)
  | autoMission =>
    rw [hmain] at h
    exact autoMissionState_of_linked h
  | autoLoiter | autoTakeoff =>
    rw [hmain] at h
    exact linkedState_of_linked _ h
  | autoRtl | autoFollowTarget | autoLand | autoPrecland => exact autoState_eq_wanted _ _
  | orbit =>
    rw [hmain] at h
    exact orbitState_of_linked h
  | offboard =>
    rw [hmain] at h
    exact offboardState_of_linked h

/-! The same inputs with a link that is not lost. -/

def Nav.rcRestored (s : Nav) : Nav := { s with rc_signal_lost := false }

def Nav.dataLinkRestored (s : Nav) : Nav := { s with data_link_lost := false }

def NavInput.offboardRestored (i : NavInput) : NavInput :=
  { i with flags := { i.flags with offboard_control_signal_lost := false } }

theorem linkConsulted_rcRestored {exception : ℕ} {act : LinkLossAction} {ll_delay : WithNaN ℚ}
    (h : linkConsulted s i exception = some (.rc act ll_delay)) :
    linkConsulted s.rcRestored i exception = none := by
  have hlink : (s.data_link_lost && dataLinkLossActConfigured i && isArmed s && !i.landed) =
      false := by
    by_contra hlost
    rw [linkConsulted, if_pos (Bool.eq_true_of_not_eq_false hlost)] at h
    exact Reaction.noConfusion (Option.some.inj h)
  have hlink' : (s.rcRestored.data_link_lost && dataLinkLossActConfigured i &&
      isArmed s.rcRestored && !i.landed) = false := hlink
  have hrc : s.rcRestored.rc_signal_lost = false := rfl
  unfold linkConsulted
  simp only [hlink', hrc, Bool.false_and, Bool.false_eq_true, if_false]

theorem missionConsulted_rcRestored {act : LinkLossAction} {ll_delay : WithNaN ℚ}
    (h : missionConsulted s i = some (.rc act ll_delay)) :
    missionConsulted s.rcRestored i = none := by
  unfold missionConsulted at h
  split at h
  · next r hr =>
    rw [h] at hr
    have hrc : s.rcRestored.rc_signal_lost = false := rfl
    unfold missionConsulted
    rw [linkConsulted_rcRestored hr]
    simp only [hrc, Bool.false_and, Bool.false_eq_true, if_false]
  · split at h
    · exact Reaction.noConfusion (Option.some.inj h)
    · exact nomatch h

theorem orbitConsulted_rcRestored {act : LinkLossAction} {ll_delay : WithNaN ℚ}
    (h : orbitConsulted s i = some (.rc act ll_delay)) : orbitConsulted s.rcRestored i = none := by
  have hlink : (s.data_link_lost && dataLinkLossActConfigured i && !i.landed && isArmed s) =
      false := by
    by_contra hlost
    rw [orbitConsulted, if_pos (Bool.eq_true_of_not_eq_false hlost)] at h
    exact Reaction.noConfusion (Option.some.inj h)
  have hlink' : (s.rcRestored.data_link_lost && dataLinkLossActConfigured i && !i.landed &&
      isArmed s.rcRestored) = false := hlink
  have hrc : s.rcRestored.rc_signal_lost = false := rfl
  unfold orbitConsulted
  simp only [hlink', hrc, Bool.false_and, Bool.false_eq_true, if_false]

theorem consulted_rcRestored {act : LinkLossAction} {ll_delay : WithNaN ℚ}
    (h : consulted s i = some (.rc act ll_delay)) : consulted s.rcRestored i = none := by
  have hsame : s.rcRestored.main_state = s.main_state := rfl
  unfold consulted at h ⊢
  rw [hsame]
  cases hmain : s.main_state with
  | manual | altctl | acro | stab | posctl => rfl
  | autoMission =>
    rw [hmain] at h
    exact (if_neg (Option.ite_none_left_eq_some.mp h).1).trans
      (missionConsulted_rcRestored (Option.ite_none_left_eq_some.mp h).2)
  | autoLoiter | autoTakeoff =>
    rw [hmain] at h
    exact (if_neg (Option.ite_none_left_eq_some.mp h).1).trans
      (linkConsulted_rcRestored (Option.ite_none_left_eq_some.mp h).2)
  | orbit =>
    rw [hmain] at h
    exact (if_neg (Option.ite_none_left_eq_some.mp h).1).trans
      (orbitConsulted_rcRestored (Option.ite_none_left_eq_some.mp h).2)
  | autoRtl | autoFollowTarget | autoLand | autoPrecland => rfl
  | offboard =>
    rw [hmain] at h
    dsimp only [offboardConsulted] at h
    split_ifs at h
    · exact Reaction.noConfusion (Option.some.inj h)
    · exact Reaction.noConfusion (Option.some.inj h)

theorem linkConsulted_dataLinkRestored {exception : ℕ} (h : linkConsulted s i exception = none) :
    linkConsulted s.dataLinkRestored i exception = none := by
  have hdata : s.dataLinkRestored.data_link_lost = false := rfl
  unfold linkConsulted at h
  dsimp only at h
  split_ifs at h with hlink hrc
  have hrc' : ¬ (s.dataLinkRestored.rc_signal_lost && !i.param_com_rcl_except.getLsbD exception &&
      i.flags.rc_signal_found_once && isArmed s.dataLinkRestored && !i.landed) = true := hrc
  unfold linkConsulted
  simp only [hdata, if_neg hrc', Bool.false_and, Bool.and_false, Bool.false_eq_true, if_false]

theorem missionConsulted_dataLinkRestored (h : missionConsulted s i = none) :
    missionConsulted s.dataLinkRestored i = none := by
  have hdata : s.dataLinkRestored.data_link_lost = false := rfl
  unfold missionConsulted at h
  split at h
  · next r hr => exact nomatch h
  · next hr =>
    unfold missionConsulted
    rw [linkConsulted_dataLinkRestored hr]
    simp only [hdata, Bool.false_and, Bool.and_false, Bool.false_eq_true, if_false]

theorem orbitConsulted_dataLinkRestored : orbitConsulted s.dataLinkRestored i = none := by
  have hdata : s.dataLinkRestored.data_link_lost = false := rfl
  unfold orbitConsulted
  simp only [hdata, Bool.false_and, Bool.and_false, Bool.false_eq_true, if_false]

theorem consulted_dataLinkRestored (h : consulted s i = none) :
    consulted s.dataLinkRestored i = none := by
  have hsame : s.dataLinkRestored.main_state = s.main_state := rfl
  unfold consulted at h ⊢
  rw [hsame]
  cases hmain : s.main_state with
  | manual | altctl | acro | stab | posctl =>
    rw [hmain] at h
    exact h
  | autoMission =>
    rw [hmain] at h
    dsimp only at h ⊢
    split
    · rfl
    · next hover =>
      exact missionConsulted_dataLinkRestored ((if_neg hover).symm.trans h)
  | autoLoiter | autoTakeoff =>
    rw [hmain] at h
    dsimp only at h ⊢
    split
    · rfl
    · next hover =>
      exact linkConsulted_dataLinkRestored ((if_neg hover).symm.trans h)
  | orbit =>
    dsimp only
    split
    · rfl
    · exact orbitConsulted_dataLinkRestored
  | autoRtl | autoFollowTarget | autoLand | autoPrecland => rfl
  | offboard =>
    rw [hmain] at h
    exact h

theorem wanted_resetGlobals (s : Nav) : wanted (resetGlobals s i) i = wanted s i := by
  rw [resetGlobals_eq]
  rfl

theorem setNavState_of_linked (h : consulted s i = none) :
    (setNavState s i).1.nav_state = wanted s i := by
  rw [← wanted_resetGlobals]
  exact nav_state_of_linked ((consulted_resetGlobals s).trans h)

theorem setNavState_of_disabled {r : Reaction} (h : consulted s i = some r)
    (hr : r.isDisabled = true) : (setNavState s i).1.nav_state = s.nav_state := by
  have hout := @outcome_decideNavState (resetGlobals s i) i s.failsafe
  rw [consulted_resetGlobals, h] at hout
  exact (hout.disabled hr).trans (nav_state_alerted.trans (nav_state_resetGlobals s))

/-- A loss whose action is `DISABLED` makes no difference to the navigation state. -/
structure TakesNoAction (s : Nav) (i : NavInput) : Prop where
  rc : ∀ ll_delay, consulted s i = some (.rc .disabled ll_delay) →
    (setNavState s i).1.nav_state = (setNavState s.rcRestored i).1.nav_state
  offboard : consulted s i = some (.offboard .disabled) ∨
      consulted s i = some (.offboardRc .disabled) →
    (setNavState s i).1.nav_state = (setNavState s i.offboardRestored).1.nav_state
  data_link : i.data_link_loss_act = .disabled → consulted s i = none →
    (setNavState s i).1.nav_state = (setNavState s.dataLinkRestored i).1.nav_state

theorem setNavState_rcRestored {act : LinkLossAction} {ll_delay : WithNaN ℚ}
    (h : consulted s i = some (.rc act ll_delay)) :
    (setNavState s.rcRestored i).1.nav_state = wanted s i :=
  setNavState_of_linked (consulted_rcRestored h)

theorem setNavState_offboardRestored {r : Reaction} (h : consulted s i = some r)
    (hr : r.isOffboard = true) :
    (setNavState s i.offboardRestored).1.nav_state = wanted s i := by
  have hmain := (consulted_kind h).1 hr
  have hnone : consulted s i.offboardRestored = none := by
    unfold consulted
    rw [hmain]
    rfl
  rw [setNavState_of_linked hnone, wanted, wanted, hmain]

/-- A disabled action makes no difference exactly if the state that there was is the one that the
main state asks for.  The data link never makes one. -/
theorem takesNoAction_iff (s : Nav) (i : NavInput) :
    TakesNoAction s i ↔
      ∀ r, consulted s i = some r → r.isDisabled = true → s.nav_state = wanted s i := by
  constructor
  · intro h r hr hdisabled
    rw [← setNavState_of_disabled hr hdisabled]
    cases r with
    | dataLink act => exact absurd (of_decide_eq_true hdisabled) (consulted_kind hr).2.1.2
    | rc act ll_delay =>
      obtain rfl : act = .disabled := of_decide_eq_true hdisabled
      rw [h.rc ll_delay hr, setNavState_rcRestored hr]
    | offboard act =>
      obtain rfl : act = .disabled := of_decide_eq_true hdisabled
      rw [h.offboard (.inl hr), setNavState_offboardRestored hr rfl]
    | offboardRc act =>
      obtain rfl : act = .disabled := of_decide_eq_true hdisabled
      rw [h.offboard (.inr hr), setNavState_offboardRestored hr rfl]
    | goHome => exact nomatch hdisabled
  · intro h
    refine ⟨fun ll_delay hr => ?_, ?_, fun _ hnone => ?_⟩
    · rw [setNavState_of_disabled hr rfl, setNavState_rcRestored hr, h _ hr rfl]
    · rintro (hr | hr)
      · rw [setNavState_of_disabled hr rfl, setNavState_offboardRestored hr rfl, h _ hr rfl]
      · rw [setNavState_of_disabled hr rfl, setNavState_offboardRestored hr rfl, h _ hr rfl]
    · rw [setNavState_of_linked hnone, setNavState_of_linked (consulted_dataLinkRestored hnone)]
      rfl

/-- Offboard control and RC were lost, so that the vehicle landed; now the RC is back. -/
def landingNav : Nav :=
  { flightNav with
    nav_state := .autoLand
    failsafe := true
    rc_signal_lost := false
    main_state := .offboard }

/-- No action on the loss of the offboard control while there is RC. -/
def landingInput : NavInput :=
  { flightInput with
    flags := { flightInput.flags with offboard_control_signal_lost := true }
    offb_loss_act := .autoLand
    offb_loss_rc_act := .disabled }

/-- The landing goes on, although the main state is offboard. -/
theorem landing_not_left :
    consulted landingNav landingInput = some (.offboardRc .disabled) ∧
      (setNavState landingNav landingInput).1.nav_state = .autoLand ∧
      (setNavState landingNav landingInput.offboardRestored).1.nav_state = .offboard ∧
      ¬ TakesNoAction landingNav landingInput := by
  have hland : (setNavState landingNav landingInput).1.nav_state = .autoLand := by decide +kernel
  have hoffboard : (setNavState landingNav landingInput.offboardRestored).1.nav_state =
      .offboard := by decide +kernel
  refine ⟨rfl, hland, hoffboard, fun h => ?_⟩
  have hsame := h.offboard (.inr rfl)
  rw [hland, hoffboard] at hsame
  exact NavState.noConfusion hsame

end Commander
