/-
`ESOTakeoff`: spool-up, take-off ramp and flight.

`updateTakeoffState` is a `switch` whose cases fall through; here each case is
a function that calls the next one.  A run is any sequence of
`updateTakeoffState` and `updateRamp` calls.

* `state_disarmed_iff` — after a call the state is `disarmed` exactly when the
  vehicle is not armed;
* `armed_block_of_spunUp` — a state past the spool-up rests on a block of armed
  calls that is long enough or starts with a skip;
* `rampup_of_flight` — without a skip, flight is reached through a finished
  ramp only.
-/
import AerialManipulator.Hysteresis
import AerialManipulator.Math

open WithNaN Trace

inductive ESOTakeoffState where
  | disarmed
  | spoolup
  | ready_for_takeoff
  | rampup
  | flight
  deriving DecidableEq, Repr

/-- The values of `takeoff_status_s`. -/
def ESOTakeoffState.toNat : ESOTakeoffState → ℕ
  | disarmed => 1
  | spoolup => 2
  | ready_for_takeoff => 3
  | rampup => 4
  | flight => 5

instance : LT ESOTakeoffState := ⟨fun a b => a.toNat < b.toNat⟩
instance : LE ESOTakeoffState := ⟨fun a b => a.toNat ≤ b.toNat⟩
instance : DecidableLT ESOTakeoffState := fun a b => inferInstanceAs (Decidable (a.toNat < b.toNat))
instance : DecidableLE ESOTakeoffState := fun a b => inferInstanceAs (Decidable (a.toNat ≤ b.toNat))

structure ESOTakeoff (K : Type*) where
  takeoff_state : ESOTakeoffState
  spoolup_time_hysteresis : Hysteresis
  takeoff_ramp_time : Flt K
  takeoff_ramp_vz_init : Flt K
  takeoff_ramp_progress : Flt K

namespace ESOTakeoff

variable {K : Type*} [Field K] [LinearOrder K]

def init (K : Type*) [Zero K] : ESOTakeoff K := ⟨.disarmed, Hysteresis.init false, 0, 0, 0⟩

/-- The time is in microseconds; the source converts it from seconds. -/
def setSpoolupTime (t : ESOTakeoff K) (time_us : UInt64) : ESOTakeoff K :=
  { t with
    spoolup_time_hysteresis := t.spoolup_time_hysteresis.setHysteresisTimeFrom false time_us }

def setTakeoffRampTime (t : ESOTakeoff K) (seconds : Flt K) : ESOTakeoff K :=
  { t with takeoff_ramp_time := seconds }

/-- The vertical velocity that the velocity controller turns into zero thrust. -/
def generateInitialRampValue (t : ESOTakeoff K) (velocity_p_gain : Flt K) : ESOTakeoff K :=
  { t with
    takeoff_ramp_vz_init := -num (CONSTANTS_ONE_G K) / math.max velocity_p_gain 0.01 }

/-- The arguments of `updateTakeoffState` that it reads; `takeoff_desired_vz`
is unused. -/
structure Call where
  armed : Bool
  landed : Bool
  want_takeoff : Bool
  skip_takeoff : Bool
  now_us : UInt64
  deriving DecidableEq, Repr

/-! ### The cases of the `switch`, last to first -/

def caseFlight (t : ESOTakeoff K) (c : Call) : ESOTakeoff K :=
  if c.landed then { t with takeoff_state := .ready_for_takeoff } else t

def caseRampup (t : ESOTakeoff K) (c : Call) : ESOTakeoff K :=
  if 1 ≤ t.takeoff_ramp_progress then caseFlight { t with takeoff_state := .flight } c else t

def caseReadyForTakeoff (t : ESOTakeoff K) (c : Call) : ESOTakeoff K :=
  if c.want_takeoff then
    caseRampup { t with takeoff_state := .rampup, takeoff_ramp_progress := 0 } c
  else t

def caseSpoolup (t : ESOTakeoff K) (c : Call) : ESOTakeoff K :=
  if t.spoolup_time_hysteresis.state then
    caseReadyForTakeoff { t with takeoff_state := .ready_for_takeoff } c
  else t

def caseDisarmed (t : ESOTakeoff K) (c : Call) : ESOTakeoff K :=
  if c.armed then caseSpoolup { t with takeoff_state := .spoolup } c else t

def switchState (t : ESOTakeoff K) (c : Call) : ESOTakeoff K :=
  match t.takeoff_state with
  | .disarmed => t.caseDisarmed c
  | .spoolup => t.caseSpoolup c
  | .ready_for_takeoff => t.caseReadyForTakeoff c
  | .rampup => t.caseRampup c
  | .flight => t.caseFlight c

def updateTakeoffState (t : ESOTakeoff K) (c : Call) : ESOTakeoff K :=
  let t := { t with
    spoolup_time_hysteresis := t.spoolup_time_hysteresis.setStateAndUpdate c.armed c.now_us }
  let t := t.switchState c
  let t := if c.armed && c.skip_takeoff then { t with takeoff_state := .flight } else t
  if !c.armed then { t with takeoff_state := .disarmed } else t

/-- `updateRamp` and the upwards velocity limit it returns. -/
def updateRamp (t : ESOTakeoff K) (dt takeoff_desired_vz : Flt K) : ESOTakeoff K × Flt K :=
  let upwards_velocity_limit :=
    if t.takeoff_state < .rampup then t.takeoff_ramp_vz_init else takeoff_desired_vz
  if t.takeoff_state = .rampup then
    let t := { t with
      takeoff_ramp_progress :=
        if dt < t.takeoff_ramp_time then t.takeoff_ramp_progress + dt / t.takeoff_ramp_time
        else 1 }
    (t, if t.takeoff_ramp_progress < 1 then
        t.takeoff_ramp_vz_init
          + t.takeoff_ramp_progress * (takeoff_desired_vz - t.takeoff_ramp_vz_init)
      else upwards_velocity_limit)
  else (t, upwards_velocity_limit)

inductive Event (K : Type*) where
  | call (c : Call)
  | ramp (dt takeoff_desired_vz : Flt K)

def step (t : ESOTakeoff K) : Event K → ESOTakeoff K
  | .call c => t.updateTakeoffState c
  | .ramp dt vz => (t.updateRamp dt vz).1

/-- The `updateTakeoffState` calls of a run. -/
def calls (es : List (Event K)) : List Call :=
  es.filterMap fun
    | .call c => some c
    | .ramp _ _ => none

/-! ### One call -/

section Step

variable {t : ESOTakeoff K} {c : Call}

@[simp] theorem switchState_hysteresis :
    (t.switchState c).spoolup_time_hysteresis = t.spoolup_time_hysteresis := by
  simp only [switchState, caseDisarmed, caseSpoolup, caseReadyForTakeoff, caseRampup, caseFlight]
  split <;> split_ifs <;> rfl

@[simp] theorem updateTakeoffState_hysteresis :
    (t.updateTakeoffState c).spoolup_time_hysteresis
      = t.spoolup_time_hysteresis.setStateAndUpdate c.armed c.now_us := by
  simp only [updateTakeoffState]
  split_ifs <;> exact switchState_hysteresis

@[simp] theorem updateRamp_hysteresis (dt vz : Flt K) :
    (t.updateRamp dt vz).1.spoolup_time_hysteresis = t.spoolup_time_hysteresis := by
  simp only [updateRamp]
  split_ifs <;> rfl

@[simp] theorem updateRamp_takeoff_state (dt vz : Flt K) :
    (t.updateRamp dt vz).1.takeoff_state = t.takeoff_state := by
  simp only [updateRamp]
  split_ifs <;> rfl

@[simp] theorem switchState_ramp_vz_init :
    (t.switchState c).takeoff_ramp_vz_init = t.takeoff_ramp_vz_init := by
  simp only [switchState, caseDisarmed, caseSpoolup, caseReadyForTakeoff, caseRampup, caseFlight]
  split <;> split_ifs <;> rfl

@[simp] theorem updateTakeoffState_ramp_vz_init :
    (t.updateTakeoffState c).takeoff_ramp_vz_init = t.takeoff_ramp_vz_init := by
  simp only [updateTakeoffState]
  split_ifs <;> exact switchState_ramp_vz_init

@[simp] theorem updateRamp_ramp_vz_init (dt vz : Flt K) :
    (t.updateRamp dt vz).1.takeoff_ramp_vz_init = t.takeoff_ramp_vz_init := by
  simp only [updateRamp]
  split_ifs <;> rfl

theorem updateRamp_snd_of_lt (h : t.takeoff_state < .rampup) (dt vz : Flt K) :
    (t.updateRamp dt vz).2 = t.takeoff_ramp_vz_init := by
  have hne : t.takeoff_state ≠ .rampup := fun hc => by
    rw [hc] at h
    exact nomatch h
  simp only [updateRamp, if_neg hne, if_pos h]

/-- Past the spool-up. -/
def SpunUp (t : ESOTakeoff K) : Prop := .ready_for_takeoff ≤ t.takeoff_state

theorem spunUp_of_switchState (h : SpunUp (t.switchState c)) :
    SpunUp t ∨ t.spoolup_time_hysteresis.state = true := by
  cases hh : t.spoolup_time_hysteresis.state with
  | true => exact .inr rfl
  | false =>
    refine .inl ?_
    cases hs : t.takeoff_state with
    | disarmed =>
      refine absurd h ?_
      simp only [SpunUp, switchState, hs, caseDisarmed, caseSpoolup, hh, Bool.false_eq_true,
        if_false]
      split_ifs
      · exact (by decide : ¬ ESOTakeoffState.ready_for_takeoff ≤ .spoolup)
      · rw [hs]; decide
    | spoolup =>
      refine absurd h ?_
      simp only [SpunUp, switchState, hs, caseSpoolup, hh, Bool.false_eq_true, if_false]
      decide
    | ready_for_takeoff => rw [SpunUp, hs]; decide
    | rampup => rw [SpunUp, hs]; decide
    | flight => rw [SpunUp, hs]; decide

theorem switchState_ne_disarmed (h : c.armed = true) :
    (t.switchState c).takeoff_state ≠ .disarmed := by
  cases hs : t.takeoff_state <;>
    simp only [switchState, hs, caseDisarmed, caseSpoolup, caseReadyForTakeoff, caseRampup,
      caseFlight, h, if_true] <;>
    split_ifs <;> simp [hs]

theorem state_disarmed_iff :
    (t.updateTakeoffState c).takeoff_state = .disarmed ↔ c.armed = false := by
  cases h : c.armed with
  | false => simp [updateTakeoffState, h]
  | true =>
    simp only [updateTakeoffState, h, Bool.true_and, Bool.not_true, Bool.false_eq_true, if_false]
    refine iff_of_false ?_ nofun
    split_ifs
    · exact nofun
    · exact switchState_ne_disarmed h

/-- A call that skips nothing reaches flight only from flight or from a
finished ramp. -/
theorem rampup_of_switchState [IsStrictOrderedRing K]
    (h : (t.switchState c).takeoff_state = .flight) :
    t.takeoff_state = .flight ∨ t.takeoff_state = .rampup ∧ 1 ≤ t.takeoff_ramp_progress := by
  have h10 : ¬ (1 : Flt K) ≤ 0 := fun hc => absurd ((num_le_num (1 : K) 0).mp hc) (by norm_num)
  cases hs : t.takeoff_state with
  | disarmed =>
    simp only [switchState, hs, caseDisarmed, caseSpoolup, caseReadyForTakeoff, caseRampup, h10,
      if_false] at h
    split_ifs at h
    rw [hs] at h
    cases h
  | spoolup =>
    simp only [switchState, hs, caseSpoolup, caseReadyForTakeoff, caseRampup, h10, if_false] at h
    split_ifs at h
    rw [hs] at h
    cases h
  | ready_for_takeoff =>
    simp only [switchState, hs, caseReadyForTakeoff, caseRampup, h10, if_false] at h
    split_ifs at h
    rw [hs] at h
    cases h
  | rampup =>
    simp only [switchState, hs, caseRampup] at h
    split_ifs at h with hp
    · exact .inr ⟨rfl, hp⟩
    · rw [hs] at h; cases h
  | flight => exact .inl rfl

theorem rampup_of_updateTakeoffState [IsStrictOrderedRing K] (hskip : c.skip_takeoff = false)
    (h : (t.updateTakeoffState c).takeoff_state = .flight) :
    t.takeoff_state = .flight ∨ t.takeoff_state = .rampup ∧ 1 ≤ t.takeoff_ramp_progress := by
  simp only [updateTakeoffState, hskip, Bool.and_false, Bool.false_eq_true, if_false] at h
  split_ifs at h
  have hramp := rampup_of_switchState h
  exact hramp

end Step

/-! ### Whole runs -/

/-- What the calls made so far say about the state past the spool-up. -/
structure Spooled (T : UInt64) (cs : List Call) (t : ESOTakeoff K) : Prop where
  hysteresis : t.spoolup_time_hysteresis.Follows Call.armed Call.now_us T cs
  block : SpunUp t → ∃ first last, EndsInBlock (fun c => c.armed = true) cs first last ∧
    (first.skip_takeoff = true ∨ T ≤ last.now_us - first.now_us)

theorem Spooled.call {T : UInt64} {cs : List Call} {t : ESOTakeoff K} (h : Spooled T cs t)
    (c : Call) (hmono : (cs ++ [c]).Pairwise fun a b => a.now_us ≤ b.now_us) :
    Spooled T (cs ++ [c]) (t.updateTakeoffState c) := by
  have hhyst := h.hysteresis.snoc c hmono
  refine ⟨by rwa [updateTakeoffState_hysteresis], fun hsp => ?_⟩
  cases harmed : c.armed with
  | false =>
    rw [SpunUp, state_disarmed_iff.mpr harmed] at hsp
    exact nomatch hsp
  | true =>
    cases hskip : c.skip_takeoff with
    | true =>
      exact ⟨c, c, endsInBlock_single (P := fun c : Call => c.armed = true) harmed cs, .inl hskip⟩
    | false =>
      simp only [updateTakeoffState, harmed, hskip, Bool.and_false, Bool.not_true,
        Bool.false_eq_true, if_false] at hsp
      rcases spunUp_of_switchState hsp with hold | hstate
      · -- already spun up: the block grows by this call
        obtain ⟨first, last, hb, hspan⟩ := h.block hold
        obtain ⟨hle, hle'⟩ := hb.ordered (fun a => UInt64.le_refl a.now_us) hmono
        exact ⟨first, c, hb.snoc (P := fun c : Call => c.armed = true) harmed,
          hspan.imp_right (Hysteresis.span_mono hle hle')⟩
      · rw [harmed] at hhyst
        obtain ⟨first, last, hb, -, hspan⟩ := hhyst.held (hhyst.requested hstate)
        exact ⟨first, last, hb, .inr (hspan hstate)⟩

theorem Spooled.ramp {T : UInt64} {cs : List Call} {t : ESOTakeoff K} (h : Spooled T cs t)
    (dt vz : Flt K) : Spooled T cs (t.updateRamp dt vz).1 := by
  refine ⟨by rw [updateRamp_hysteresis]; exact h.hysteresis, fun hsp => h.block ?_⟩
  rwa [SpunUp, updateRamp_takeoff_state] at hsp

omit [Field K] [LinearOrder K] in
theorem calls_append (es fs : List (Event K)) : calls (es ++ fs) = calls es ++ calls fs :=
  List.filterMap_append

/-- A freshly constructed object with spool-up time `T` and some ramp. -/
def fresh (T : UInt64) (ramp_time vz_init : Flt K) : ESOTakeoff K :=
  { ((init K).setSpoolupTime T).setTakeoffRampTime ramp_time with takeoff_ramp_vz_init := vz_init }

theorem spooled_run (T : UInt64) (ramp_time vz_init : Flt K) (es : List (Event K))
    (hmono : (calls es).Pairwise fun a b => a.now_us ≤ b.now_us) :
    Spooled T (calls es) (run step (fresh T ramp_time vz_init) es) := by
  induction es using List.reverseRecOn with
  | nil =>
    refine ⟨⟨rfl, rfl, nofun, nofun⟩, fun h => ?_⟩
    exact absurd (show ESOTakeoffState.ready_for_takeoff ≤ .disarmed from h) (by decide)
  | append_singleton es e ih =>
    rw [calls_append] at hmono ⊢
    have ih := ih (List.pairwise_append.mp hmono).1
    rw [run_append]
    cases e with
    | call c => exact ih.call c hmono
    | ramp dt vz =>
      rw [show calls [Event.ramp dt vz] = [] from rfl, List.append_nil]
      exact ih.ramp dt vz

theorem rampup_of_flight [IsStrictOrderedRing K] {t : ESOTakeoff K} {es : List (Event K)}
    (ht : t.takeoff_state ≠ .flight) (hskip : ∀ c ∈ calls es, c.skip_takeoff = false)
    (h : (run step t es).takeoff_state = .flight) :
    ∃ pre post, es = pre ++ post ∧ (run step t pre).takeoff_state = .rampup ∧
      1 ≤ (run step t pre).takeoff_ramp_progress := by
  induction es generalizing t with
  | nil => exact absurd h ht
  | cons e es ih =>
    by_cases hs : (step t e).takeoff_state = .flight
    · refine ⟨[], e :: es, rfl, ?_⟩
      cases e with
      | call c =>
        have hc := hskip c (by simp [calls])
        exact (rampup_of_updateTakeoffState hc hs).resolve_left ht
      | ramp dt vz =>
        rw [step, updateRamp_takeoff_state] at hs
        exact absurd hs ht
    · have hskip' : ∀ c ∈ calls es, c.skip_takeoff = false := by
        intro c hc
        refine hskip c ?_
        rw [← List.singleton_append, calls_append]
        exact List.mem_append_right _ hc
      obtain ⟨pre, post, rfl, hpre⟩ := ih hs hskip' h
      exact ⟨e :: pre, post, rfl, hpre⟩

/-- The take-off law: after each call the state is `disarmed` exactly when the
vehicle is not armed; `ready_for_takeoff` and `rampup` rest on a block of armed
calls ending now that lasts the spool-up time or starts with a skip; and, from
a disarmed state on and without skips, flight is reached through a finished
ramp only. -/
theorem takeoff_law [IsStrictOrderedRing K] (T : UInt64) (ramp_time vz_init : Flt K)
    (es : List (Event K)) (c : Call)
    (hmono : (calls es ++ [c]).Pairwise fun a b => a.now_us ≤ b.now_us) :
    let t := (run step (fresh T ramp_time vz_init) es).updateTakeoffState c
    (t.takeoff_state = .disarmed ↔ c.armed = false) ∧
    (t.takeoff_state = .ready_for_takeoff ∨ t.takeoff_state = .rampup →
      ∃ first, EndsInBlock (fun c => c.armed = true) (calls es ++ [c]) first c ∧
        (first.skip_takeoff = true ∨ T ≤ c.now_us - first.now_us)) ∧
    (∀ fs : List (Event K), t.takeoff_state = .disarmed →
      (∀ c ∈ calls fs, c.skip_takeoff = false) → (run step t fs).takeoff_state = .flight →
      ∃ pre post, fs = pre ++ post ∧ (run step t pre).takeoff_state = .rampup ∧
        1 ≤ (run step t pre).takeoff_ramp_progress) := by
  intro t
  refine ⟨state_disarmed_iff, fun hready => ?_, fun fs hd hskip hf => ?_⟩
  · have hpre := spooled_run T ramp_time vz_init es (List.pairwise_append.mp hmono).1
    have hsp : SpunUp t := by
      rcases hready with h | h <;> rw [SpunUp, h] <;> decide
    obtain ⟨first, last, hb, hspan⟩ := (hpre.call c hmono).block hsp
    obtain rfl : last = c := hb.last_eq
    exact ⟨first, hb, hspan⟩
  · exact rampup_of_flight (by rw [hd]; exact nofun) hskip hf

/-- Armed for the whole spool-up time of one second. -/
theorem takeoff_law_spoolup :
    let es : List (Event ℚ) := [.call ⟨true, true, false, false, 0⟩]
    let c : Call := ⟨true, true, false, false, 1000000⟩
    ((run step (fresh 1000000 1 0) es).updateTakeoffState c).takeoff_state = .ready_for_takeoff ∧
      ∃ first, EndsInBlock (fun c => c.armed = true) (calls es ++ [c]) first c ∧
        (first.skip_takeoff = true ∨ 1000000 ≤ c.now_us - first.now_us) := by
  intro es c
  have hready : ((run step (fresh 1000000 1 0) es).updateTakeoffState c).takeoff_state
    = .ready_for_takeoff := by decide
  exact ⟨hready, (takeoff_law 1000000 1 0 es c (by decide)).2.1 (.inl hready)⟩

/-- Flight entered by a skip and landed at once: ready for take-off one
millisecond after arming, with a spool-up time of one second. -/
theorem ready_without_spoolup :
    let es : List (Event ℚ) := [.call ⟨true, false, false, true, 0⟩]
    let c : Call := ⟨true, true, false, false, 1000⟩
    ((run step (fresh 1000000 1 0) es).updateTakeoffState c).takeoff_state = .ready_for_takeoff ∧
      ¬ ∃ first, EndsInBlock (fun c => c.armed = true) (calls es ++ [c]) first c ∧
        1000000 ≤ c.now_us - first.now_us := by
  intro es c
  refine ⟨by decide, ?_⟩
  rintro ⟨first, hb, hspan⟩
  have hmem : first ∈ [(⟨true, false, false, true, 0⟩ : Call), c] := hb.last_mem.1
  rw [List.mem_cons, List.mem_singleton] at hmem
  rcases hmem with rfl | rfl
  · exact absurd hspan (by decide)
  · exact absurd hspan (by decide)

end ESOTakeoff
