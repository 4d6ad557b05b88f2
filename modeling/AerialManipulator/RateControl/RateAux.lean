/-
The auxiliary terms of the attitude loop across the two loops.

The attitude loop publishes `eso_rate_aux` messages stamped with the
publication time, the rate loop runs on gyro samples stamped with the sample
time, and a topic holds the last message that was not read yet.  A run is any
interleaving of publications and `Run` calls.

The rate loop takes the age of a message as an unsigned difference, so a message
newer than the sample looks very old.

* `always_auxLaw` — in every run in which each message is received at or after
  its own time stamp, the controller is called with the terms of the last
  received message while that is at most 100 ms old, and with zeros otherwise;
* `newer_message_dropped` — a newer message is dropped.
-/
import AerialManipulator.Lib.Trace
import AerialManipulator.RateControl.MulticopterRateControl

open WithNaN Trace

namespace ESOMulticopterRateControl

variable {inv : Matrix3f ℝ → Option (Matrix3f ℝ)} {m : ESOMulticopterRateControl ℝ}

/-! ### What the stages of a cycle leave alone -/

def auxState (m : ESOMulticopterRateControl ℝ) : (Vector3f ℝ × Vector3f ℝ × Vector3f ℝ) × UInt64 :=
  (m.rate_control.aux, m.last_eso_aux_timestamp)

theorem parametersUpdated_auxState (p : Option (Params ℝ)) :
    (p.elim m m.parametersUpdated).auxState = m.auxState := by
  cases p <;> rfl

theorem parametersUpdated_last_run (p : Option (Params ℝ)) :
    (p.elim m m.parametersUpdated).last_run = m.last_run := by
  cases p <;> rfl

theorem updateLandingGear_auxState (gear : Option LandingGear) :
    (gear.elim m m.updateLandingGear).auxState = m.auxState ∧
      (gear.elim m m.updateLandingGear).last_run = m.last_run := by
  cases gear with
  | none => exact ⟨rfl, rfl⟩
  | some gear =>
    simp only [Option.elim, updateLandingGear]
    split_ifs <;> exact ⟨rfl, rfl⟩

theorem updateRatesSetpoint_auxState (i : Inputs ℝ) (rates : Vector3f ℝ) :
    (m.updateRatesSetpoint i rates).1.auxState = m.auxState ∧
      (m.updateRatesSetpoint i rates).1.last_run = m.last_run := by
  simp only [updateRatesSetpoint]
  split_ifs
  · cases i.manual_control_setpoint <;> exact ⟨rfl, rfl⟩
  · cases i.rates_setpoint <;> exact ⟨rfl, rfl⟩

theorem beginCycle_auxState (i : Inputs ℝ) (w : VehicleAngularVelocity ℝ) :
    (m.beginCycle inv i w).1.auxState = m.auxState ∧
      (m.beginCycle inv i w).1.last_run = w.timestamp_sample := by
  simp only [beginCycle]
  rw [(updateRatesSetpoint_auxState i w.xyz).1, (updateRatesSetpoint_auxState i w.xyz).2,
    (updateLandingGear_auxState i.landing_gear).1, (updateLandingGear_auxState i.landing_gear).2]
  refine ⟨?_, rfl⟩
  cases i.inertia <;> rfl

theorem updateAux_last_run (a : Option (EsoRateAux ℝ)) (now : UInt64) :
    (m.updateAux a now).last_run = m.last_run := by
  cases a <;> simp only [updateAux] <;> split_ifs <;> rfl

theorem updateCall_last_run (i : Inputs ℝ) : (m.updateCall i).last_run = m.last_run := by
  simp only [updateCall]
  cases i.control_allocator_status <;> simp only [Option.elim, updateSaturation] <;>
    split_ifs <;> rfl

theorem updateCall_auxState_of_unguarded (h : m.groundGuard = false) (i : Inputs ℝ) :
    (m.updateCall i).auxState = m.auxState := by
  simp only [updateCall, h, Bool.false_eq_true, if_false]
  cases i.control_allocator_status <;> rfl

theorem updateCall_last_eso_aux_timestamp (i : Inputs ℝ) :
    (m.updateCall i).last_eso_aux_timestamp = m.last_eso_aux_timestamp := by
  simp only [updateCall]
  cases i.control_allocator_status <;> simp only [Option.elim, updateSaturation] <;>
    split_ifs <;> rfl

theorem updateBattery_auxState (b : Option (BatteryStatus ℝ)) :
    (m.updateBattery b).auxState = m.auxState ∧ (m.updateBattery b).last_run = m.last_run := by
  cases b with
  | none => exact ⟨rfl, rfl⟩
  | some b =>
    simp only [updateBattery]
    split_ifs <;> exact ⟨rfl, rfl⟩

theorem publish_auxState (i : Inputs ℝ) (w : VehicleAngularVelocity ℝ) (dt : Flt ℝ) :
    (m.publish i w dt).1.auxState = m.auxState ∧ (m.publish i w dt).1.last_run = m.last_run := by
  simp only [publish]
  rw [(updateBattery_auxState _).1, (updateBattery_auxState _).2]
  refine ⟨?_, rfl⟩
  rw [auxState, auxState, ESORateControl.aux_update]

/-! ### The two loops -/

/-- The rate loop, and the topic with the message it has not read yet. -/
structure Loops where
  module : ESOMulticopterRateControl ℝ
  topic : Option (EsoRateAux ℝ)

inductive Event where
  | publish (a : EsoRateAux ℝ)
  | run (i : Inputs ℝ)

namespace Loops

/-- What a `Run` call finds: the inputs `i` with the unread message. -/
def inputs (s : Loops) (i : Inputs ℝ) : Inputs ℝ := { i with eso_rate_aux := s.topic }

/-- The module of a gyro cycle with its auxiliary terms up to date. -/
noncomputable def cycle (inv : Matrix3f ℝ → Option (Matrix3f ℝ)) (s : Loops) (i : Inputs ℝ)
    (w : VehicleAngularVelocity ℝ) : ESOMulticopterRateControl ℝ :=
  (i.parameters.elim s.module s.module.parametersUpdated).cycle inv (s.inputs i) w

/-- A publication replaces an unread message; a `Run` call without a gyro
sample does not read the topic. -/
noncomputable def step (inv : Matrix3f ℝ → Option (Matrix3f ℝ)) (s : Loops) : Event → Loops
  | .publish a => { s with topic := some a }
  | .run i =>
    { module := (s.module.run inv (s.inputs i)).1
      topic := if i.angular_velocity.isSome then none else s.topic }

end Loops

/-- The two loops with their history: the last message that was received, and
whether the ground guard has been off since. -/
structure Recorded where
  loops : Loops
  received : Option (EsoRateAux ℝ)
  unguarded : Bool

namespace Recorded

def receive (r : Recorded) : Option (EsoRateAux ℝ) := r.loops.topic <|> r.received

noncomputable def unguardedAfter (inv : Matrix3f ℝ → Option (Matrix3f ℝ)) (r : Recorded)
    (i : Inputs ℝ) (w : VehicleAngularVelocity ℝ) : Bool :=
  (r.loops.topic.isSome || r.unguarded) && !(r.loops.cycle inv i w).groundGuard

noncomputable def step (inv : Matrix3f ℝ → Option (Matrix3f ℝ)) (r : Recorded) (e : Event) :
    Recorded :=
  let loops := r.loops.step inv e
  match e with
  | .publish _ => { r with loops := loops }
  | .run i =>
    match i.angular_velocity with
    | none => { r with loops := loops }
    | some w => ⟨loops, r.receive, r.unguardedAfter inv i w⟩

noncomputable def init (p : Params ℝ) : Recorded :=
  ⟨⟨ESOMulticopterRateControl.init p, none⟩, none, true⟩

end Recorded

/-- The terms that the last received message stands for at time `now`: its own,
or zeros once it is more than 100 ms old. -/
def termsAt (now : UInt64) : Option (EsoRateAux ℝ) → Vector3f ℝ × Vector3f ℝ × Vector3f ℝ
  | none => (fun _ => 0, fun _ => 0, fun _ => 0)
  | some a =>
    if a.timestamp.toNat + 100000 < now.toNat then (fun _ => 0, fun _ => 0, fun _ => 0)
    else a.terms

/-- With the ground guard off since the last message, the controller is called
with the terms of that message. -/
def AuxLaw (inv : Matrix3f ℝ → Option (Matrix3f ℝ)) (r : Recorded) : Event → Prop
  | .publish _ => True
  | .run i => ∀ w, i.angular_velocity = some w → (r.loops.cycle inv i w).enabled = true →
      r.unguardedAfter inv i w = true →
      ((r.loops.cycle inv i w).updateCall (r.loops.inputs i)).rate_control.aux
        = termsAt w.timestamp_sample r.receive

/-- The sample times do not decrease. -/
def SamplesOrdered (r : Recorded) : Event → Prop
  | .publish _ => True
  | .run i => ∀ w, i.angular_velocity = some w →
      r.loops.module.last_run ≤ w.timestamp_sample

/-- A message is received at or after its own time stamp, which is not zero. -/
def ReceivedInTime (r : Recorded) : Event → Prop
  | .publish _ => True
  | .run i => ∀ w a, i.angular_velocity = some w → r.loops.topic = some a →
      a.timestamp ≠ 0 ∧ a.timestamp ≤ w.timestamp_sample

/-! ### One cycle -/

theorem timeout_lt_iff {ts now : UInt64} (h : ts ≤ now) :
    ESO_AUX_TIMEOUT < now - ts ↔ ts.toNat + 100000 < now.toNat := by
  rw [UInt64.lt_iff_toNat_lt, UInt64.toNat_sub_of_le _ _ h]
  show 100000 < now.toNat - ts.toNat ↔ _
  omega

theorem termsAt_some {now : UInt64} (a : EsoRateAux ℝ) (h : a.timestamp ≤ now) :
    termsAt now (some a) = if ESO_AUX_TIMEOUT < now - a.timestamp
      then (fun _ => 0, fun _ => 0, fun _ => 0) else a.terms := by
  simp only [termsAt, timeout_lt_iff h]

/-- A message that is not newer than the sample is taken over or dropped
according to its age. -/
theorem updateAux_some {a : EsoRateAux ℝ} {now : UInt64} (h0 : a.timestamp ≠ 0)
    (hle : a.timestamp ≤ now) :
    (m.updateAux (some a) now).auxState = (termsAt now (some a), a.timestamp) := by
  rw [termsAt_some a hle]
  by_cases hold : ESO_AUX_TIMEOUT < now - a.timestamp
  · simp only [updateAux, UInt64.not_le.mpr hold, hold, or_true, if_true, if_false]
    rfl
  · simp only [updateAux, UInt64.not_lt.mp hold, hold, h0, or_false, if_true, if_false]
    rfl

theorem updateAux_none (now : UInt64) :
    (m.updateAux none now).auxState
      = (if m.last_eso_aux_timestamp = 0 ∨ ESO_AUX_TIMEOUT < now - m.last_eso_aux_timestamp
          then (fun _ => 0, fun _ => 0, fun _ => 0) else m.rate_control.aux,
        m.last_eso_aux_timestamp) := by
  simp only [updateAux]
  split_ifs <;> rfl

theorem termsAt_mono {last now : UInt64} (h : last ≤ now) (a : EsoRateAux ℝ)
    (hfresh : ¬ a.timestamp.toNat + 100000 < now.toNat) :
    termsAt last (some a) = termsAt now (some a) := by
  rw [UInt64.le_iff_toNat_le] at h
  have hlast : ¬ a.timestamp.toNat + 100000 < last.toNat := by omega
  simp only [termsAt, if_neg hfresh, if_neg hlast]

/-- What the history says about the stored terms. -/
structure Current (last : Option (EsoRateAux ℝ)) (unguarded : Bool)
    (m : ESOMulticopterRateControl ℝ) : Prop where
  timestamp : m.last_eso_aux_timestamp = last.elim 0 EsoRateAux.timestamp
  received : ∀ a, last = some a → a.timestamp ≠ 0 ∧ a.timestamp ≤ m.last_run
  aux : unguarded = true → m.rate_control.aux = termsAt m.last_run last

theorem Current.unread {last : Option (EsoRateAux ℝ)} {unguarded : Bool}
    (h : Current last unguarded m) {m₁ : ESOMulticopterRateControl ℝ}
    (hstate : m₁.auxState = m.auxState) {now : UInt64} (hle : m.last_run ≤ now)
    (hu : unguarded = true) : (m₁.updateAux none now).rate_control.aux = termsAt now last := by
  have haux := congrArg Prod.fst (updateAux_none (m := m₁) now)
  refine haux.trans ?_
  have hterms : m₁.rate_control.aux = m.rate_control.aux := congrArg Prod.fst hstate
  have hts : m₁.last_eso_aux_timestamp = last.elim 0 EsoRateAux.timestamp :=
    (congrArg Prod.snd hstate).trans h.timestamp
  cases last with
  | none => exact if_pos (Or.inl hts)
  | some a =>
    obtain ⟨h0, hlast⟩ := h.received a rfl
    have hiff := timeout_lt_iff (UInt64.le_trans hlast hle)
    dsimp only [Option.elim] at hts ⊢
    rw [← hts] at h0 hiff
    split_ifs with hc
    · have hold := hiff.mp (hc.resolve_left h0)
      rw [hts] at hold
      simp only [termsAt, if_pos hold]
    · have hfresh := fun hold => hc (.inr (hiff.mpr hold))
      rw [hts] at hfresh
      rw [hterms, h.aux hu, termsAt_mono hle a hfresh]

section Cycle

variable {r : Recorded} {i : Inputs ℝ} {w : VehicleAngularVelocity ℝ}

theorem cycle_last_run : (r.loops.cycle inv i w).last_run = w.timestamp_sample := by
  rw [Loops.cycle, ESOMulticopterRateControl.cycle, updateAux_last_run]
  exact (beginCycle_auxState _ w).2

theorem Current.cycle (h : Current r.received r.unguarded r.loops.module)
    (hord : r.loops.module.last_run ≤ w.timestamp_sample)
    (htime : ∀ a, r.loops.topic = some a → a.timestamp ≠ 0 ∧ a.timestamp ≤ w.timestamp_sample) :
    Current r.receive (r.loops.topic.isSome || r.unguarded) (r.loops.cycle inv i w) := by
  set m₁ := ((i.parameters.elim r.loops.module r.loops.module.parametersUpdated).beginCycle inv
    (r.loops.inputs i) w).1 with hm₁
  have hstate : m₁.auxState = r.loops.module.auxState := by
    rw [hm₁, (beginCycle_auxState _ w).1, parametersUpdated_auxState]
  have hrun : (r.loops.cycle inv i w).last_run = w.timestamp_sample := cycle_last_run
  cases htopic : r.loops.topic with
  | some a =>
    obtain ⟨h0, hle⟩ := htime a htopic
    have hcycle : (r.loops.cycle inv i w).auxState
        = (termsAt w.timestamp_sample (some a), a.timestamp) := by
      rw [← updateAux_some (m := m₁) h0 hle, ← htopic]
      rfl
    have hrec : r.receive = some a := by rw [Recorded.receive, htopic]; rfl
    rw [hrec]
    refine ⟨congrArg Prod.snd hcycle, ?_, fun _ => ?_⟩
    · rintro a' ⟨⟩
      rw [hrun]
      exact ⟨h0, hle⟩
    · rw [hrun]
      exact congrArg Prod.fst hcycle
  | none =>
    have hcycle : r.loops.cycle inv i w = m₁.updateAux none w.timestamp_sample := by
      rw [← htopic]
      rfl
    have hrec : r.receive = r.received := by rw [Recorded.receive, htopic]; rfl
    rw [hrec]
    refine ⟨?_, fun a ha => ?_, fun hu => ?_⟩
    · rw [hcycle]
      have hts := congrArg Prod.snd (updateAux_none (m := m₁) w.timestamp_sample)
      exact hts.trans ((congrArg Prod.snd hstate).trans h.timestamp)
    · rw [hrun]
      exact ⟨(h.received a ha).1, UInt64.le_trans (h.received a ha).2 hord⟩
    · rw [hrun, hcycle]
      exact h.unread hstate hord hu

theorem unguarded_of_unguardedAfter (h : r.unguardedAfter inv i w = true) :
    (r.loops.topic.isSome || r.unguarded) = true ∧ (r.loops.cycle inv i w).groundGuard = false := by
  rw [Recorded.unguardedAfter, Bool.and_eq_true, Bool.not_eq_true'] at h
  exact h

theorem run_module (hw : i.angular_velocity = some w) :
    (r.loops.step inv (.run i)).module =
      if (r.loops.cycle inv i w).enabled then
        (((r.loops.cycle inv i w).updateCall (r.loops.inputs i)).publish (r.loops.inputs i) w
          ((i.parameters.elim r.loops.module r.loops.module.parametersUpdated).loopTime
            w.timestamp_sample)).1
      else r.loops.cycle inv i w := by
  have hin : (r.loops.inputs i).angular_velocity = some w := hw
  simp only [Loops.step, run, hin]
  split_ifs with h1 h2 h2
  · rfl
  · exact absurd h1 h2
  · exact absurd h2 h1
  · rfl

/-- The module after a gyro cycle has the terms of the cycle, unless the guard
was on. -/
theorem run_auxState (hw : i.angular_velocity = some w) :
    (r.loops.step inv (.run i)).module.last_run = w.timestamp_sample ∧
    (r.loops.step inv (.run i)).module.last_eso_aux_timestamp
      = (r.loops.cycle inv i w).last_eso_aux_timestamp ∧
    ((r.loops.cycle inv i w).groundGuard = false →
      (r.loops.step inv (.run i)).module.rate_control.aux
        = (r.loops.cycle inv i w).rate_control.aux) := by
  rw [run_module hw]
  split_ifs
  · refine ⟨?_, ?_, fun hg => ?_⟩
    · rw [(publish_auxState _ w _).2, updateCall_last_run, cycle_last_run]
    · exact (congrArg Prod.snd (publish_auxState _ w _).1).trans
        (updateCall_last_eso_aux_timestamp _)
    · exact (congrArg Prod.fst (publish_auxState _ w _).1).trans
        (congrArg Prod.fst (updateCall_auxState_of_unguarded hg _))
  · exact ⟨cycle_last_run, rfl, fun _ => rfl⟩

end Cycle

/-! ### Whole runs -/

theorem Current.step {r : Recorded} (h : Current r.received r.unguarded r.loops.module) {e : Event}
    (hord : SamplesOrdered r e) (htime : ReceivedInTime r e) :
    AuxLaw inv r e ∧ Current (r.step inv e).received (r.step inv e).unguarded
      (r.step inv e).loops.module := by
  cases e with
  | publish a => exact ⟨trivial, h⟩
  | run i =>
    cases hw : i.angular_velocity with
    | none =>
      refine ⟨fun w hw' => absurd (hw.symm.trans hw') nofun, ?_⟩
      have hmod : (r.loops.step inv (.run i)).module
          = i.parameters.elim r.loops.module r.loops.module.parametersUpdated := by
        have hin : (r.loops.inputs i).angular_velocity = none := hw
        simp only [Loops.step, run, hin]
        rfl
      have hstate := parametersUpdated_auxState (m := r.loops.module) i.parameters
      have hrun := parametersUpdated_last_run (m := r.loops.module) i.parameters
      simp only [Recorded.step, hw, hmod]
      refine ⟨(congrArg Prod.snd hstate).trans h.timestamp, ?_, fun hu => ?_⟩
      · rw [hrun]
        exact h.received
      · rw [hrun]
        exact (congrArg Prod.fst hstate).trans (h.aux hu)
    | some w =>
      have hcycle : Current r.receive (r.loops.topic.isSome || r.unguarded)
          (r.loops.cycle inv i w) := h.cycle (hord w hw) fun a ha => htime w a hw ha
      have hlast : (r.loops.cycle inv i w).last_run = w.timestamp_sample := cycle_last_run
      obtain ⟨hrun, hts, haux⟩ : (r.loops.step inv (.run i)).module.last_run = _ ∧ _ ∧ _ :=
        run_auxState hw
      refine ⟨fun w' hw' _ hu => ?_, ?_⟩
      · obtain rfl : w = w' := Option.some.inj (hw.symm.trans hw')
        obtain ⟨hun, hg⟩ := unguarded_of_unguardedAfter hu
        refine (congrArg Prod.fst (updateCall_auxState_of_unguarded hg _)).trans ?_
        rw [← hlast]
        exact hcycle.aux hun
      · simp only [Recorded.step, hw]
        refine ⟨hts.trans hcycle.timestamp, ?_, fun hu => ?_⟩
        · rw [hrun, ← hlast]
          exact hcycle.received
        · obtain ⟨hun, hg⟩ := unguarded_of_unguardedAfter hu
          rw [haux hg, hcycle.aux hun, hlast, hrun]

/-- In every run from a fresh rate loop with ordered samples in which each
message is received in time, the controller is called with the terms of the
last received message, or with zeros once that is more than 100 ms old. -/
theorem always_auxLaw (p : Params ℝ) {es : List Event}
    (hord : Always (Recorded.step inv) SamplesOrdered (Recorded.init p) es)
    (htime : Always (Recorded.step inv) ReceivedInTime (Recorded.init p) es) :
    Always (Recorded.step inv) (AuxLaw inv) (Recorded.init p) es := by
  refine always_of_invariant (I := fun r => Current r.received r.unguarded r.loops.module)
    (C := fun r e => SamplesOrdered r e ∧ ReceivedInTime r e) ?_ ?_ (always_and.mpr ⟨hord, htime⟩)
  · rintro r e h ⟨ho, ht⟩
    exact h.step ho ht
  · exact ⟨rfl, nofun, fun _ => rfl⟩

/-! ### Concrete runs -/

noncomputable def tunedParams : Params ℝ where
  rate_k := fun _ => 1
  rate_p := fun _ => num 0.15
  rate_i := fun _ => num 0.2
  int_lim := fun _ => num 0.3
  static_inertia := ESORateControl.diag ![num 0.045, num 0.045, num 0.08]
  rate_bw := fun _ => num 30
  k_beta := num 0.5
  max_torque := num 1.5
  rate_i_scale := num 0.2
  taus_k := 0
  taus_k_axis := fun _ => 1
  taus_obs := fun _ => 1
  taus_ctl := fun _ => 1
  taus_lim := num 0.3
  taus_tau := num 0.1
  acro_max := fun _ => num 100
  acro_expo := 0
  acro_supexpo := 0
  acro_expo_y := 0
  acro_supexpoy := 0
  bat_scale_en := false
  cbrk_rate_ctrl := false

noncomputable def flyingInputs (now : UInt64) : Inputs ℝ where
  parameters := none
  angular_velocity := some ⟨now, fun _ => 0⟩
  inertia := none
  control_mode := some ⟨true, false, true, true, false⟩
  land_detected := some ⟨false, false, false, false⟩
  vehicle_status := none
  landing_gear := none
  manual_control_setpoint := none
  rates_setpoint := none
  eso_rate_aux := none
  control_allocator_status := none
  battery_status := none

/-- The inverse of a diagonal matrix; the arm sends no joint angles below. -/
noncomputable def diagonalInverse (M : Matrix3f ℝ) : Option (Matrix3f ℝ) :=
  some (ESORateControl.diag fun i => 1 / M i i)

noncomputable def message (timestamp : UInt64) : EsoRateAux ℝ :=
  ⟨timestamp, fun _ => 1, fun _ => 0, fun _ => 0⟩

theorem always_auxLaw_fresh :
    Always (Recorded.step diagonalInverse) (AuxLaw diagonalInverse) (Recorded.init tunedParams)
      [.publish (message 1000), .run (flyingInputs 2000)] := by
  refine always_auxLaw tunedParams ⟨trivial, ?_, trivial⟩ ⟨trivial, ?_, trivial⟩
  · rintro w ⟨⟩
    decide
  · rintro w a ⟨⟩ ⟨⟩
    exact ⟨by decide, by decide⟩

/-- A message published between the sampling and the processing of a gyro
sample is dropped. -/
theorem newer_message_dropped :
    Always (Recorded.step diagonalInverse) SamplesOrdered (Recorded.init tunedParams)
      [.publish (message 2000), .run (flyingInputs 1000)] ∧
    ¬ Always (Recorded.step diagonalInverse) (AuxLaw diagonalInverse) (Recorded.init tunedParams)
      [.publish (message 2000), .run (flyingInputs 1000)] := by
  refine ⟨⟨trivial, ?_, trivial⟩, ?_⟩
  · rintro w ⟨⟩
    decide
  · rintro ⟨-, h, -⟩
    have hterms := h ⟨1000, fun _ => 0⟩ rfl rfl rfl
    have hx := congrFun (congrArg Prod.fst hterms) 0
    exact absurd (WithNaN.num.inj hx) (by norm_num)

end ESOMulticopterRateControl
