/-
Arming.

`armingStateTransition` takes a request for an arming state.  A table says which transitions there
are; the checks before flight, the simulation of the hardware (HIL) and the sensors decide in this
order whether the transition is made.  The outcomes of the checks and the readings of the clock are
part of the request.

* `transition_cases` — what a request can do;
* `Coupled` — `armed.armed`, `armed_time` and the arming state say the same;
* **`arming_law`** — so it is after every request of every run; the vehicle is not armed from
  standby without the checks; and what a request that is not granted leaves as it was.
-/
import AerialManipulator.Lib.Trace
import Mathlib.Data.UInt

namespace Commander

inductive ArmingState
  | init
  | standby
  | armed
  | standbyError
  | shutdown
  | inAirRestore
  deriving DecidableEq

inductive HilState
  | off
  | on
  deriving DecidableEq

inductive TransitionResult
  | denied
  | notChanged
  | changed
  deriving DecidableEq

def armingStateNames : ArmingState → String
  | .init => "INIT"
  | .standby => "STANDBY"
  | .armed => "ARMED"
  | .standbyError => "STANDBY_ERROR"
  | .shutdown => "SHUTDOWN"
  | .inAirRestore => "IN_AIR_RESTORE"

/-- `arming_transitions`: the new state first, then the current one. -/
def armingTransitions : ArmingState → ArmingState → Bool
  | .init, .init | .init, .standby | .init, .standbyError => true
  | .standby, .init | .standby, .standby | .standby, .armed => true
  | .armed, .standby | .armed, .armed | .armed, .inAirRestore => true
  | .standbyError, .init | .standbyError, .standby | .standbyError, .armed
  | .standbyError, .standbyError => true
  | .shutdown, .init | .shutdown, .standby | .shutdown, .standbyError | .shutdown, .shutdown
  | .shutdown, .inAirRestore => true
  | _, _ => false

/-- What the transitions read and write of `vehicle_status`, `actuator_armed` and
`vehicle_status_flags`, and the time of the last check. -/
structure Vehicle where
  arming_state : ArmingState
  hil_state : HilState
  latest_arming_reason : UInt8
  latest_disarming_reason : UInt8
  armed_time : UInt64
  armed : Bool
  ready_to_arm : Bool
  lockdown : Bool
  condition_system_sensors_initialized : Bool
  last_preflight_check : UInt64

def Vehicle.init : Vehicle := ⟨.init, .off, 0, 0, 0, false, false, false, true, 0⟩

/-- A call, with what the two preflight checks and the prearm check return in it, and the clock when
it is read for the time since the last check, for the time of a check and for `armed_time`. -/
structure Request where
  new_arming_state : ArmingState
  fRunPreArmChecks : Bool
  calling_reason : UInt8
  preflight : Bool
  preflightAgain : Bool
  prearm : Bool
  elapsedAt : UInt64
  checkedAt : UInt64
  armedAt : UInt64

variable (s : Vehicle) (r : Request)

def runsPreflight : Bool :=
  r.fRunPreArmChecks && r.new_arming_state = .armed && s.hil_state ≠ .on

def preflightCheckRet : Bool := if runsPreflight s r then r.preflight else true

def afterPreflight : Vehicle :=
  if runsPreflight s r && r.preflight then { s with condition_system_sensors_initialized := true }
  else s

/-- "re-run the pre-flight check as long as sensors are failing" -/
def afterRerun : Vehicle :=
  if !s.condition_system_sensors_initialized && r.fRunPreArmChecks &&
      (r.new_arming_state = .armed || r.new_arming_state = .standby) && s.hil_state ≠ .on then
    if s.last_preflight_check = 0 ∨ r.elapsedAt - s.last_preflight_check > 1000 * 1000 then
      { s with
        condition_system_sensors_initialized := r.preflightAgain
        last_preflight_check := r.checkedAt }
    else s
  else s

def checksOk (preflight_check_ret : Bool) : Bool :=
  if r.new_arming_state = .armed ∧ s.arming_state ≠ .inAirRestore then
    -- "only bother running prearm if preflight was successful"
    let prearm_check_ret := if r.fRunPreArmChecks && preflight_check_ret then r.prearm else true
    preflight_check_ret && prearm_check_ret
  else true

def afterHil : Vehicle :=
  if s.hil_state = .on then
    { s with
      lockdown := true
      condition_system_sensors_initialized := true
      arming_state := if s.arming_state = .standbyError then .standby else s.arming_state }
  else s

/-- "Sensors need to be initialized for STANDBY state, except for HIL" -/
def sensorsMissing : Bool :=
  s.hil_state ≠ .on && r.new_arming_state = .standby && s.arming_state ≠ .standbyError &&
    !s.condition_system_sensors_initialized

def finish : Vehicle :=
  { s with
    armed := r.new_arming_state = .armed
    ready_to_arm := r.new_arming_state = .armed || r.new_arming_state = .standby
    arming_state := r.new_arming_state
    latest_disarming_reason :=
      if s.armed && r.new_arming_state ≠ .armed then r.calling_reason
      else s.latest_disarming_reason
    latest_arming_reason :=
      if !s.armed && r.new_arming_state = .armed then r.calling_reason
      else s.latest_arming_reason
    armed_time := if r.new_arming_state = .armed then r.armedAt else 0 }

/-- `arming_state_transition`, with what it says when it denies a request. -/
def armingStateTransition : Vehicle × TransitionResult × Option String :=
  if r.new_arming_state = s.arming_state then (s, .notChanged, none)
  else
    let preflight_check_ret := preflightCheckRet s r
    let s₁ := afterRerun (afterPreflight s r) r
    let inTable := armingTransitions r.new_arming_state s₁.arming_state
    let ok := checksOk s₁ r preflight_check_ret
    let s₂ := afterHil s₁
    -- "HIL can always go to standby"
    let valid := (inTable && ok) || (s₁.hil_state = .on && r.new_arming_state = .standby)
    if valid && !sensorsMissing s₂ r then (finish s₂ r, .changed, none)
    else
      let feedback_provided := runsPreflight s r || (inTable && !ok) || sensorsMissing s₂ r
      (s₂, .denied,
        if feedback_provided then none
        else some ("Transition denied: " ++ armingStateNames s₂.arming_state ++ " to " ++
          armingStateNames r.new_arming_state))

/-! ### What a request can do -/

variable {s t : Vehicle} {r : Request}

/-- The checks before the transition change neither the state nor what is armed. -/
structure SameArming (s t : Vehicle) : Prop where
  arming_state : t.arming_state = s.arming_state
  hil_state : t.hil_state = s.hil_state
  armed_time : t.armed_time = s.armed_time
  armed : t.armed = s.armed
  ready_to_arm : t.ready_to_arm = s.ready_to_arm
  lockdown : t.lockdown = s.lockdown

theorem SameArming.refl (s : Vehicle) : SameArming s s := ⟨rfl, rfl, rfl, rfl, rfl, rfl⟩

theorem SameArming.trans {t u : Vehicle} (h : SameArming s t) (h' : SameArming t u) :
    SameArming s u :=
  ⟨h'.arming_state.trans h.arming_state, h'.hil_state.trans h.hil_state,
    h'.armed_time.trans h.armed_time, h'.armed.trans h.armed,
    h'.ready_to_arm.trans h.ready_to_arm, h'.lockdown.trans h.lockdown⟩

theorem sameArming_checks : SameArming s (afterRerun (afterPreflight s r) r) := by
  have hpre : SameArming s (afterPreflight s r) := by
    unfold afterPreflight
    split
    · exact ⟨rfl, rfl, rfl, rfl, rfl, rfl⟩
    · exact .refl s
  refine hpre.trans ?_
  generalize afterPreflight s r = t
  unfold afterRerun
  split
  · split
    · exact ⟨rfl, rfl, rfl, rfl, rfl, rfl⟩
    · exact .refl t
  · exact .refl t

/-- What a request that is denied leaves: everything as it was, but for the simulation. -/
structure Denied (s t : Vehicle) : Prop where
  armed_time : t.armed_time = s.armed_time
  armed : t.armed = s.armed
  ready_to_arm : t.ready_to_arm = s.ready_to_arm
  off : s.hil_state ≠ .on → t.arming_state = s.arming_state ∧ t.lockdown = s.lockdown
  on : s.hil_state = .on → t.lockdown = true ∧
    t.arming_state = if s.arming_state = .standbyError then .standby else s.arming_state

theorem denied_afterHil (h : SameArming s t) : Denied s (afterHil t) := by
  unfold afterHil
  by_cases hil : s.hil_state = .on
  · rw [if_pos (h.hil_state.trans hil)]
    refine ⟨h.armed_time, h.armed, h.ready_to_arm, fun hoff => absurd hil hoff, fun _ => ⟨rfl, ?_⟩⟩
    rw [h.arming_state]
  · rw [if_neg (by rwa [h.hil_state])]
    exact ⟨h.armed_time, h.armed, h.ready_to_arm, fun _ => ⟨h.arming_state, h.lockdown⟩,
      fun hon => absurd hon hil⟩

/-- A transition that is made. -/
structure Changed (s : Vehicle) (r : Request) (t : Vehicle) : Prop where
  arming_state : t.arming_state = r.new_arming_state
  armed : t.armed = decide (r.new_arming_state = .armed)
  armed_time : t.armed_time = if r.new_arming_state = .armed then r.armedAt else 0
  /-- To be armed, the transition must be in the table, and the checks that are run succeed. -/
  checks : r.new_arming_state = .armed → armingTransitions .armed s.arming_state = true ∧
    (s.arming_state ≠ .inAirRestore → r.fRunPreArmChecks = true →
      (s.hil_state ≠ .on → r.preflight = true) ∧ r.prearm = true)

theorem checksOk_armed {ret : Bool} (h : checksOk s r ret = true)
    (harm : r.new_arming_state = .armed) (hs : s.arming_state ≠ .inAirRestore) :
    ret = true ∧ (r.fRunPreArmChecks = true → r.prearm = true) := by
  rw [checksOk, if_pos ⟨harm, hs⟩, Bool.and_eq_true] at h
  obtain ⟨rfl, hprearm⟩ := h
  refine ⟨rfl, fun hrun => ?_⟩
  rwa [hrun, Bool.and_self, if_pos rfl] at hprearm

theorem preflight_of_ret (h : preflightCheckRet s r = true) (harm : r.new_arming_state = .armed)
    (hrun : r.fRunPreArmChecks = true) (hil : s.hil_state ≠ .on) : r.preflight = true := by
  have hruns : runsPreflight s r = true := by
    rw [runsPreflight, hrun, decide_eq_true harm, decide_eq_true hil]
    rfl
  rwa [preflightCheckRet, if_pos hruns] at h

/-- Every request is for the state that there is, or it is denied, or the transition is made. -/
theorem transition_cases (s : Vehicle) (r : Request) :
    (r.new_arming_state = s.arming_state ∧ armingStateTransition s r = (s, .notChanged, none)) ∨
      (∃ t message, armingStateTransition s r = (t, .denied, message) ∧ Denied s t) ∨
      ∃ t, armingStateTransition s r = (t, .changed, none) ∧ Changed s r t := by
  unfold armingStateTransition
  by_cases hsame : r.new_arming_state = s.arming_state
  · rw [if_pos hsame]
    exact .inl ⟨hsame, rfl⟩
  rw [if_neg hsame]
  dsimp only
  have hchecks := @sameArming_checks s r
  -- all that is used of the checks is that they leave the state as it is
  generalize hs₁ : afterRerun (afterPreflight s r) r = s₁ at hchecks ⊢
  split
  · next hvalid =>
    refine .inr (.inr ⟨_, rfl, rfl, rfl, rfl, fun harm => ?_⟩)
    simp only [Bool.and_eq_true, Bool.or_eq_true, decide_eq_true_eq] at hvalid
    obtain ⟨⟨htable, hok⟩ | ⟨-, hstandby⟩, -⟩ := hvalid
    · rw [harm, hchecks.arming_state] at htable
      refine ⟨htable, fun hs hrun => ?_⟩
      obtain ⟨hret, hprearm⟩ := checksOk_armed hok harm (by rwa [hchecks.arming_state])
      exact ⟨preflight_of_ret hret harm hrun, hprearm hrun⟩
    · rw [harm] at hstandby
      exact nomatch hstandby
  · exact .inr (.inl ⟨_, _, rfl, denied_afterHil hchecks⟩)

/-! ### Runs -/

/-- What happens: a request, or other code that sets what it owns. -/
inductive Event
  | request (r : Request)
  | environment (hil_state : HilState) (sensors_initialized lockdown : Bool)

def step (s : Vehicle) : Event → Vehicle
  | .request r => (armingStateTransition s r).1
  | .environment hil_state sensors_initialized lockdown =>
    { s with
      hil_state := hil_state
      condition_system_sensors_initialized := sensors_initialized
      lockdown := lockdown }

/-- The vehicle is armed in the armed state, and only there it has a time since when. -/
structure Coupled (s : Vehicle) : Prop where
  armed : s.armed = true ↔ s.arming_state = .armed
  armed_time : s.armed_time ≠ 0 ↔ s.arming_state = .armed

/-- The clock, when it is read for `armed_time`, is not at zero. -/
def ClockRuns : Event → Prop
  | .request r => r.armedAt ≠ 0
  | .environment _ _ _ => True

theorem coupled_init : Coupled .init := ⟨by decide, by decide⟩

theorem Coupled.transition (h : Coupled s) (hr : r.armedAt ≠ 0) :
    Coupled (armingStateTransition s r).1 := by
  rcases transition_cases s r with ⟨-, heq⟩ | ⟨t, message, heq, ht⟩ | ⟨t, heq, ht⟩
  · rwa [heq]
  · rw [heq]
    -- only STANDBY_ERROR can have become another state, and neither is the armed one
    have hstate : t.arming_state = .armed ↔ s.arming_state = .armed := by
      by_cases hil : s.hil_state = .on
      · rw [(ht.on hil).2]
        split
        · next herror => rw [herror]; decide
        · rfl
      · rw [(ht.off hil).1]
    exact ⟨by rw [ht.armed, h.armed, hstate], by rw [ht.armed_time, h.armed_time, hstate]⟩
  · rw [heq]
    constructor
    · rw [ht.armed, ht.arming_state, decide_eq_true_eq]
    · rw [ht.armed_time, ht.arming_state]
      split
      · next harm => exact iff_of_true hr harm
      · next harm => exact iff_of_false (not_not.mpr rfl) harm

theorem Coupled.step {e : Event} (h : Coupled s) (he : ClockRuns e) : Coupled (step s e) := by
  cases e with
  | request r => exact h.transition he
  | environment hil_state sensors_initialized lockdown => exact ⟨h.armed, h.armed_time⟩

theorem coupled_run {es : List Event} (hes : ∀ e ∈ es, ClockRuns e) :
    Coupled (Trace.run step .init es) :=
  Trace.run_of_invariant (fun _ _ h he => h.step he) coupled_init (Trace.always_of_forall hes)

/-- What holds of a request in a state. -/
structure Lawful (s : Vehicle) (r : Request) : Prop where
  coupled : Coupled (armingStateTransition s r).1
  checked : s.arming_state = .standby → (armingStateTransition s r).1.arming_state = .armed →
    r.fRunPreArmChecks = false ∨ s.hil_state = .on ∨ r.preflight = true ∧ r.prearm = true
  not_changed : (armingStateTransition s r).2.1 = .notChanged → (armingStateTransition s r).1 = s
  denied : (armingStateTransition s r).2.1 = .denied → Denied s (armingStateTransition s r).1

theorem Coupled.lawful (h : Coupled s) (hr : r.armedAt ≠ 0) : Lawful s r := by
  have hcoupled := h.transition hr
  rcases transition_cases s r with ⟨-, heq⟩ | ⟨t, message, heq, ht⟩ | ⟨t, heq, ht⟩
  · -- the state that there is
    refine ⟨hcoupled, fun hstandby harmed => ?_, fun _ => by rw [heq], fun hresult => ?_⟩
    · rw [heq, hstandby] at harmed
      exact ArmingState.noConfusion harmed
    · rw [heq] at hresult
      exact TransitionResult.noConfusion hresult
  · -- denied
    refine ⟨hcoupled, fun hstandby harmed => ?_, fun hresult => ?_, fun _ => by rwa [heq]⟩
    · rw [heq] at harmed
      by_cases hil : s.hil_state = .on
      · exact .inr (.inl hil)
      · rw [(ht.off hil).1, hstandby] at harmed
        exact ArmingState.noConfusion harmed
    · rw [heq] at hresult
      exact TransitionResult.noConfusion hresult
  · -- the transition is made
    refine ⟨hcoupled, fun hstandby harmed => ?_, fun hresult => ?_, fun hresult => ?_⟩
    · rw [heq, ht.arming_state] at harmed
      obtain ⟨-, hchecks⟩ := ht.checks harmed
      by_cases hrun : r.fRunPreArmChecks = true
      · obtain ⟨hpreflight, hprearm⟩ := hchecks (by rw [hstandby]; decide) hrun
        by_cases hil : s.hil_state = .on
        · exact .inr (.inl hil)
        · exact .inr (.inr ⟨hpreflight hil, hprearm⟩)
      · exact .inl (Bool.eq_false_of_not_eq_true hrun)
    · rw [heq] at hresult
      exact TransitionResult.noConfusion hresult
    · rw [heq] at hresult
      exact TransitionResult.noConfusion hresult

/-- The law of arming, for every request after any run. -/
theorem arming_law (es : List Event) (hes : ∀ e ∈ es, ClockRuns e) (r : Request)
    (hr : r.armedAt ≠ 0) : Lawful (Trace.run step .init es) r :=
  (coupled_run hes).lawful hr

def armRequest : Request := ⟨.armed, true, 1, true, true, true, 2, 2, 2⟩

/-- Standby, then armed. -/
theorem arming_law_armed :
    Lawful (Trace.run step .init [.request { armRequest with new_arming_state := .standby }])
        armRequest ∧
      (Trace.run step .init [.request { armRequest with new_arming_state := .standby },
        .request armRequest]).armed = true :=
  ⟨arming_law _ (fun e he => by
    obtain rfl := List.mem_singleton.mp he
    exact (by decide : (2 : UInt64) ≠ 0)) _ (by decide), rfl⟩

/-- In the simulation a request that is denied sets the lockdown. -/
theorem denied_request_locks_down :
    (armingStateTransition (Trace.run step .init [.environment .on true false]) armRequest).2.1 =
        .denied ∧
      (Trace.run step .init [.environment .on true false]).lockdown = false ∧
      (armingStateTransition (Trace.run step .init [.environment .on true false])
        armRequest).1.lockdown = true :=
  ⟨rfl, rfl, rfl⟩

end Commander
