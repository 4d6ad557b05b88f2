/-
The flags that the reactions to a loss set.

`force_failsafe` and `lockdown` are set by a reaction and reset at the start of the next call, if
the failsafe was on and the action that sets them is a configured one.

* `setNavState_flags` — what a call does to the flags;
* `request_cases` — where a request for termination comes from;
* **`flags_withdrawn`** — in every run in which no action falls through to a termination that is
  not configured, the flags are set only as long as they are requested.
-/
import AerialManipulator.Commander.LossReaction

namespace Commander

variable {s : Nav} {i : NavInput} {old_failsafe : Bool}

/-- A call, or anything else that happens to the vehicle; nobody else writes the flags. -/
inductive NavEvent
  | call (i : NavInput)
  | environment (t : Nav)

def navStep (s : Nav) : NavEvent → Nav
  | .call i => (setNavState s i).1
  | .environment t =>
    { t with
      failsafe := s.failsafe
      force_failsafe := s.force_failsafe
      lockdown := s.lockdown }

/-- The configured actions are always the same. -/
def NavEvent.Constant (a : LossActions) : NavEvent → Prop
  | .call i => i.actions = a
  | .environment _ => True

def requestsTermination (s : Nav) (i : NavInput) : Bool :=
  ((consulted s i).map fun r => r.terminates (alerted s i s.failsafe) i).getD false

def requestsLockdown (s : Nav) (i : NavInput) : Bool :=
  ((consulted s i).map fun r => r.locksDown (alerted s i s.failsafe) i).getD false

/-- After a call in which nothing requested a flag, the flag is not set. -/
def Withdrawn (s : Nav) : NavEvent → Prop
  | .call i =>
    (requestsTermination s i = false → (setNavState s i).1.force_failsafe = false) ∧
      (requestsLockdown s i = false → (setNavState s i).1.lockdown = false)
  | .environment _ => True

/-- In a manual state without RC, an action other than `TERMINATE` falls through to it. -/
def FallsThrough (s : Nav) (i : NavInput) : Prop :=
  s.main_state.isManual = true ∧ s.rc_signal_lost = true ∧ isArmed s = true ∧
    stranded s i = true ∧
    takenAction (alerted s i s.failsafe) i i.rc_loss_act i.param_com_rcl_act_t ∈
      [.autoLoiter, .autoRtl, .autoLand]

theorem requests_alerted (s : Nav) (r : Reaction) :
    r.terminates (alerted (resetGlobals s i) i old_failsafe) i =
        r.terminates (alerted s i old_failsafe) i ∧
      r.locksDown (alerted (resetGlobals s i) i old_failsafe) i =
        r.locksDown (alerted s i old_failsafe) i := by
  rw [resetGlobals_eq]
  unfold alerted enableFailsafe
  dsimp only
  split_ifs <;> cases r <;> exact ⟨rfl, rfl⟩

theorem setNavState_flags (s : Nav) (i : NavInput) :
    (setNavState s i).1.force_failsafe =
        (s.force_failsafe && !(s.failsafe && decide i.actions.HasTerminate) ||
          requestsTermination s i) ∧
      (setNavState s i).1.lockdown =
        (s.lockdown && !(s.failsafe && decide i.actions.HasLockdown) || requestsLockdown s i) ∧
      (requestsTermination s i = true ∨ requestsLockdown s i = true →
        (setNavState s i).1.failsafe = true) := by
  have hout := @outcome_decideNavState (resetGlobals s i) i s.failsafe
  have hforce : (resetGlobals s i).force_failsafe =
      (s.force_failsafe && !(s.failsafe && decide i.actions.HasTerminate)) := by
    rw [resetGlobals_eq]
  have hlockdown : (resetGlobals s i).lockdown =
      (s.lockdown && !(s.failsafe && decide i.actions.HasLockdown)) := by
    rw [resetGlobals_eq]
  rw [consulted_resetGlobals] at hout
  unfold requestsTermination requestsLockdown
  cases hr : consulted s i with
  | none =>
    rw [hr] at hout
    refine ⟨?_, ?_, fun h => absurd h (by simp)⟩
    · rw [Option.map_none, Option.getD_none, Bool.or_false, ← hforce]
      exact hout.1
    · rw [Option.map_none, Option.getD_none, Bool.or_false, ← hlockdown]
      exact hout.2
  | some r =>
    rw [hr] at hout
    refine ⟨?_, ?_, fun _ => hout.failsafe⟩
    · rw [Option.map_some, Option.getD_some, ← hforce, ← (requests_alerted s r).1]
      exact hout.force_failsafe.trans (by rw [force_failsafe_alerted])
    · rw [Option.map_some, Option.getD_some, ← hlockdown, ← (requests_alerted s r).2]
      exact hout.lockdown.trans (by rw [lockdown_alerted])

theorem eq_of_takenAction {u : Nav} {act : LinkLossAction} {ll_delay : WithNaN ℚ}
    {taken : LinkLossAction} (h : takenAction u i act ll_delay = taken)
    (htaken : taken ≠ .autoLoiter) : act = taken := by
  unfold takenAction at h
  split at h
  · exact absurd h.symm htaken
  · exact h

theorem terminate_or_stranded {u : Nav} {act : LinkLossAction}
    (h : linkTerminates u i act = true) :
    act = .terminate ∨ stranded u i = true ∧ act ∈ [.autoLoiter, .autoRtl, .autoLand] := by
  cases act with
  | terminate => exact .inl rfl
  | autoLoiter | autoRtl | autoLand => exact .inr ⟨h, by decide⟩
  | disabled | lockdown => exact nomatch h

/-- A request for termination comes from an action that is configured, or falls through. -/
theorem request_cases (h : requestsTermination s i = true) :
    i.actions.HasTerminate ∨ FallsThrough s i := by
  unfold requestsTermination at h
  cases hr : consulted s i with
  | none => rw [hr] at h; exact nomatch h
  | some r =>
    rw [hr, Option.map_some, Option.getD_some] at h
    obtain ⟨-, hof, hstranded⟩ := consulted_kind hr
    cases r with
    | dataLink act =>
      rcases terminate_or_stranded h with hact | ⟨hs, -⟩
      · exact .inl (.inr (.inl (hof.1.symm.trans hact)))
      · rw [stranded_alerted] at hs
        exact Reaction.noConfusion (hstranded rfl hs).2.2.2
    | rc act ll_delay =>
      rcases terminate_or_stranded h with hact | ⟨hs, hmem⟩
      · exact .inl (.inl (hof.symm.trans (eq_of_takenAction hact (by decide))))
      · rw [stranded_alerted] at hs
        obtain ⟨hmanual, hlost, harmed, heq⟩ := hstranded rfl hs
        obtain ⟨rfl, rfl⟩ := Reaction.rc.inj heq
        exact .inr ⟨hmanual, hlost, harmed, hs, hmem⟩
    | offboard act => exact .inl (.inr (.inr (.inl (hof.symm.trans (of_decide_eq_true h)))))
    | offboardRc act => exact .inl (.inr (.inr (.inr (hof.symm.trans (of_decide_eq_true h)))))
    | goHome =>
      rw [Reaction.terminates, stranded_alerted] at h
      exact Reaction.noConfusion (hstranded rfl h).2.2.2

theorem lockdown_of_request (h : requestsLockdown s i = true) : i.actions.HasLockdown := by
  unfold requestsLockdown at h
  cases hr : consulted s i with
  | none => rw [hr] at h; exact nomatch h
  | some r =>
    rw [hr, Option.map_some, Option.getD_some] at h
    obtain ⟨-, hof, -⟩ := consulted_kind hr
    cases r with
    | dataLink act => exact .inr (.inl (hof.1.symm.trans (of_decide_eq_true h)))
    | rc act ll_delay =>
      have htaken := eq_of_takenAction (of_decide_eq_true h) (by decide)
      exact .inl (hof.symm.trans htaken)
    | offboard act => exact .inr (.inr (.inl (hof.symm.trans (of_decide_eq_true h))))
    | offboardRc act => exact .inr (.inr (.inr (hof.symm.trans (of_decide_eq_true h))))
    | goHome => exact nomatch h

/-- A flag that is set can be taken back: the failsafe is on, and its action is configured. -/
structure Revocable (a : LossActions) (s : Nav) : Prop where
  force_failsafe : s.force_failsafe = true → s.failsafe = true ∧ a.HasTerminate
  lockdown : s.lockdown = true → s.failsafe = true ∧ a.HasLockdown

variable {a : LossActions}

theorem Revocable.reset (h : Revocable i.actions s) :
    (s.force_failsafe && !(s.failsafe && decide i.actions.HasTerminate)) = false ∧
      (s.lockdown && !(s.failsafe && decide i.actions.HasLockdown)) = false := by
  constructor
  · cases hforce : s.force_failsafe with
    | false => rfl
    | true =>
      obtain ⟨hfailsafe, hhas⟩ := h.force_failsafe hforce
      rw [hfailsafe, decide_eq_true hhas]
      rfl
  · cases hlockdown : s.lockdown with
    | false => rfl
    | true =>
      obtain ⟨hfailsafe, hhas⟩ := h.lockdown hlockdown
      rw [hfailsafe, decide_eq_true hhas]
      rfl

theorem Revocable.withdrawn (h : Revocable i.actions s) : Withdrawn s (.call i) := by
  obtain ⟨hforce, hlockdown, -⟩ := setNavState_flags s i
  rw [h.reset.1, Bool.false_or] at hforce
  rw [h.reset.2, Bool.false_or] at hlockdown
  exact ⟨fun hno => hforce.trans hno, fun hno => hlockdown.trans hno⟩

theorem Revocable.call (h : Revocable i.actions s)
    (hfalls : FallsThrough s i → i.actions.HasTerminate) :
    Revocable i.actions (setNavState s i).1 := by
  obtain ⟨hforce, hlockdown, hfailsafe⟩ := setNavState_flags s i
  rw [h.reset.1, Bool.false_or] at hforce
  rw [h.reset.2, Bool.false_or] at hlockdown
  constructor
  · intro hset
    have hrequest := hforce.symm.trans hset
    exact ⟨hfailsafe (.inl hrequest), (request_cases hrequest).elim id hfalls⟩
  · intro hset
    have hrequest := hlockdown.symm.trans hset
    exact ⟨hfailsafe (.inr hrequest), lockdown_of_request hrequest⟩

/-- A call that falls through to `TERMINATE` does so only if it is configured. -/
def NoFallThrough (s : Nav) : NavEvent → Prop
  | .call i => FallsThrough s i → i.actions.HasTerminate
  | .environment _ => True

/-- In every run with constant actions in which no action falls through to `TERMINATE` unless
that is a configured action as well, the flags are set only as long as they are requested. -/
theorem flags_withdrawn (a : LossActions) (s : Nav) (hforce : s.force_failsafe = false)
    (hlockdown : s.lockdown = false) (es : List NavEvent) (hes : ∀ e ∈ es, e.Constant a)
    (h : Trace.Always navStep NoFallThrough s es) : Trace.Always navStep Withdrawn s es := by
  have hinit : Revocable a s :=
    ⟨fun hset => absurd (hset.symm.trans hforce) Bool.true_eq_false.mp,
      fun hset => absurd (hset.symm.trans hlockdown) Bool.true_eq_false.mp⟩
  have hconstant : Trace.Always navStep (fun _ e => e.Constant a) s es :=
    Trace.always_of_forall hes
  refine Trace.always_of_invariant (fun s e hs he => ?_) hinit (Trace.always_and.mpr ⟨hconstant, h⟩)
  cases e with
  | call i =>
    obtain ⟨rfl, hfalls⟩ := he
    exact ⟨hs.withdrawn, hs.call hfalls⟩
  | environment t => exact ⟨trivial, hs.force_failsafe, hs.lockdown⟩

/-- Altitude control without RC and without any estimate, and the same with RC. -/
def strandedNav (lost : Bool) : Nav := { flightNav with rc_signal_lost := lost }

def strandedInput (act : LinkLossAction) : NavInput :=
  { flightInput with
    flags := ⟨false, false, false, false, false, false, false, true, false⟩
    rc_loss_act := act }

def strandedRun (act : LinkLossAction) : List NavEvent :=
  [.call (strandedInput act), .environment (strandedNav false), .call (strandedInput act)]

/-- A flight that is terminated as configured, until the RC is back. -/
theorem flags_withdrawn_terminate :
    (setNavState (strandedNav true) (strandedInput .terminate)).1.force_failsafe = true ∧
      Trace.Always navStep Withdrawn (strandedNav true) (strandedRun .terminate) :=
  ⟨by decide +kernel, flags_withdrawn (strandedInput .terminate).actions _ rfl rfl _
    (by simp [strandedRun, NavEvent.Constant])
    ⟨fun _ => .inl rfl, trivial, fun _ => .inl rfl, trivial⟩⟩

/-- A return that falls through to a termination, which nothing takes back. -/
theorem termination_not_withdrawn :
    (strandedNav true).force_failsafe = false ∧ (strandedNav true).lockdown = false ∧
      (∀ e ∈ strandedRun .autoRtl, e.Constant (strandedInput .autoRtl).actions) ∧
      ¬ Trace.Always navStep Withdrawn (strandedNav true) (strandedRun .autoRtl) := by
  refine ⟨rfl, rfl, by simp [strandedRun, NavEvent.Constant], fun h => ?_⟩
  have hlast := h.2.2.1.1
  have hrequest : requestsTermination
      (Trace.run navStep (strandedNav true) ((strandedRun .autoRtl).take 2))
      (strandedInput .autoRtl) = false := by decide +kernel
  have hset : (Trace.run navStep (strandedNav true) (strandedRun .autoRtl)).force_failsafe =
      true := by decide +kernel
  exact Bool.false_ne_true ((hlast hrequest).symm.trans hset)

end Commander
