/-
The centre of mass the position controller works with.

`parameters_update` runs at the start of every cycle.  A parameter change selects the
model profile and hands the controller the fallback centre of mass;
`update_dynamic_parameters` then replaces it by that of the last joint message, as
long as that is valid and not older than 500 ms.  Which of the two the controller
holds is nowhere written down: it follows from two flags and a timestamp.

* **`run_sys_com_pos`** — nothing else in a cycle touches the centre of mass;
* **`ComSystem.invariant_step`** — what the flags say about the one in use;
* **`ComSystem.com_law`** — the controller holds the dynamic centre of mass exactly
  while it is fresh, in every run in which no call finds a fresh one and either changes
  parameters without a new message or reads a message without a finite one;
* **`ComSystem.parameters_drop_fresh_com`** — a parameter change drops a fresh one.
-/
import AerialManipulator.Arm.ArmCom
import AerialManipulator.Arm.ArmJointBridge
import AerialManipulator.PosControl.Failsafe

open WithNaN

/-! ### Frame: who writes the centre of mass -/

namespace ESOPositionControl

variable {K : Type*} [Field K] [LinearOrder K]

theorem updateHoverThrust_sys_com_pos (c : ESOPositionControl K) (t : Flt K) :
    (c.updateHoverThrust t).sys_com_pos = c.sys_com_pos := by
  unfold updateHoverThrust
  split <;> rfl

variable [Elementary K] (dcm : Quatf K → Matrix3f K)

theorem control_sys_com_pos (c : ESOPositionControl K) (dt : Flt K) :
    (c.control dcm dt).sys_com_pos = c.sys_com_pos := by
  simp only [control, velocityControl, accelerationControl, positionControl, observe]

theorem update_sys_com_pos (c : ESOPositionControl K) (dt : Flt K) :
    (c.update dcm dt).1.sys_com_pos = c.sys_com_pos := by
  have heq : (c.update dcm dt).1.sys_com_pos =
      (if c.inputValid then c.control dcm dt else c).sys_com_pos := rfl
  rw [heq]
  by_cases h : c.inputValid = true
  · rw [if_pos h, control_sys_com_pos]
  · rw [if_neg h]

end ESOPositionControl

namespace ESOMulticopterPositionControl

variable {K : Type*} [Field K] {m : ESOMulticopterPositionControl K}

theorem retry_sys_com_pos (states : PositionControlStates K) (now : UInt64) :
    (m.retry states now).1.control.sys_com_pos = m.control.sys_com_pos := by
  show (m.failsafe now zeroSetpoint states).1.control.sys_com_pos = _
  unfold failsafe
  dsimp only
  split <;> rfl

variable [LinearOrder K]

theorem updateSubscriptions_sys_com_pos (i : Inputs K) :
    (m.updateSubscriptions i).control.sys_com_pos = m.control.sys_com_pos := by
  unfold updateSubscriptions
  rcases i.attitude with _ | _ <;> rcases i.angular_velocity with _ | _ <;>
    rcases i.hover_thrust_estimate with _ | _ <;> dsimp only [Option.elim] <;>
    first
      | rfl
      | (split
         · exact ESOPositionControl.updateHoverThrust_sys_com_pos _ _
         · rfl)

theorem handleTakeoff_sys_com_pos (b : Bool) :
    (m.handleTakeoff b).control.sys_com_pos = m.control.sys_com_pos := by
  unfold handleTakeoff
  dsimp only
  split_ifs <;> rfl

variable [Elementary K]

theorem prepare_sys_com_pos (i : Inputs K) (lp : LocalPosition K)
    (states : PositionControlStates K) (dt : Flt K) :
    (m.prepare i lp states dt).1.control.sys_com_pos = m.control.sys_com_pos := by
  have hlimits : ∀ m' : ESOMulticopterPositionControl K,
      (m'.setLimits dt).control.sys_com_pos = m'.control.sys_com_pos := fun _ => rfl
  unfold prepare
  dsimp only [ESOPositionControl.setState, ESOPositionControl.setInputSetpoint]
  rw [hlimits]
  unfold updateSetpoint
  rw [handleTakeoff_sys_com_pos]
  show (compensateResets _ lp).control.sys_com_pos = _
  unfold compensateResets
  split <;> rfl

theorem actuate_sys_com_pos (dcm : Quatf K → Matrix3f K) (states : PositionControlStates K)
    (now : UInt64) (dt : Flt K) :
    (m.actuate dcm states now dt).control.sys_com_pos = m.control.sys_com_pos := by
  have hupdate := ESOPositionControl.update_sys_com_pos dcm m.control dt
  unfold actuate
  dsimp only
  split
  · exact hupdate
  · rw [ESOPositionControl.update_sys_com_pos, retry_sys_com_pos]
    exact hupdate

theorem run_sys_com_pos (dcm : Quatf K → Matrix3f K) (i : Inputs K) :
    (m.run dcm i).1.control.sys_com_pos = i.system_com := by
  unfold run
  dsimp only
  rcases i.local_pos with _ | lp
  · rfl
  · have hbegin : ((m.parametersUpdate i.parameters i.system_com).beginCycle i
        lp).1.control.sys_com_pos = i.system_com := by
      unfold beginCycle setVehicleStates
      exact updateSubscriptions_sys_com_pos i
    dsimp only
    split
    · simp only [saveCounters, actuate_sys_com_pos, prepare_sys_com_pos]
      exact hbegin
    · exact hbegin

end ESOMulticopterPositionControl

/-! ### The profile and the two sources of the centre of mass -/

def resolveModelProfile (raw_value : ℤ) : ModelProfile :=
  if raw_value = 1 then .UamV5 else .UavArmV4

/-- What this module reads of an `eso_common::DynamicsProfile`. -/
structure DynamicsProfile (K : Type*) where
  com : Vector3f K
  use_dynamic_arm_model : Bool

def kUamV5Profile (K : Type*) [Field K] : DynamicsProfile K where
  com := ![0.00405203, 0, 0.06556744]
  use_dynamic_arm_model := true

/-- The fields of the module that select the centre of mass. -/
structure DynamicCom (K : Type*) where
  active_profile : ModelProfile
  fallback_com : Vector3f K
  use_dynamic_arm_model : Bool
  last_dynamic_com_timestamp : UInt64
  dynamic_com_valid : Bool

namespace DynamicCom

variable {K : Type*} [Field K] [LinearOrder K] [Elementary K]

def DYNAMIC_COM_TIMEOUT : UInt64 := 500000

def init (K : Type*) [Field K] : DynamicCom K where
  active_profile := .UavArmV4
  fallback_com := ![-0.015, 0, -0.164]
  use_dynamic_arm_model := true
  last_dynamic_com_timestamp := 0
  dynamic_com_valid := false

/-- The part of `parameters_update` that reads the model parameter. -/
def selectProfile (c : DynamicCom K) (arm_model : ℤ) : DynamicCom K :=
  let c := { c with active_profile := resolveModelProfile arm_model }
  if c.active_profile = .UamV5 then
    { c with
      fallback_com := (kUamV5Profile K).com
      use_dynamic_arm_model := (kUamV5Profile K).use_dynamic_arm_model }
  else { c with fallback_com := ![-0.015, 0, -0.164], use_dynamic_arm_model := true }

/-- A dynamic centre of mass was computed at most 500 ms ago (`dynamic_com_fresh`). -/
def fresh (c : DynamicCom K) (now : UInt64) : Bool :=
  c.dynamic_com_valid && decide (now - c.last_dynamic_com_timestamp ≤ DYNAMIC_COM_TIMEOUT)

/-- The end of `update_dynamic_parameters` when this call has computed none. -/
def fallBack (c : DynamicCom K) (com : Vector3f K) (now : UInt64) : DynamicCom K × Vector3f K :=
  if !c.fresh now then (c, c.fallback_com) else (c, com)

/-- `update_dynamic_parameters`: `com` is what the controller holds, `joints` what the
subscription returns. -/
def updateDynamicParameters (c : DynamicCom K) (com : Vector3f K)
    (joints : Option (ArmJointStates K)) (now : UInt64) : DynamicCom K × Vector3f K :=
  if !c.use_dynamic_arm_model then (c, c.fallback_com)
  else
    match joints with
    | none => c.fallBack com now
    | some joints =>
      if !joints.valid then ({ c with dynamic_com_valid := false }, c.fallback_com)
      else
        let dynamic_com := ArmCom.computeSystemCoM c.active_profile joints.q
        if ESOPositionControl.allFinite dynamic_com then
          -- `use_dynamic_com` keeps this one
          ({ c with last_dynamic_com_timestamp := now, dynamic_com_valid := true }, dynamic_com)
        else c.fallBack com now

/-- `parameters_update` as far as the centre of mass is concerned; `arm_model` is the
parameter, if there was a change. -/
def parametersUpdate (c : DynamicCom K) (com : Vector3f K) (arm_model : Option ℤ)
    (joints : Option (ArmJointStates K)) (now : UInt64) : DynamicCom K × Vector3f K :=
  match arm_model with
  | none => c.updateDynamicParameters com joints now
  | some arm_model =>
    let c := c.selectProfile arm_model
    c.updateDynamicParameters c.fallback_com joints now

/-! ### The last message and what it asks for -/

/-- The angles of the last processed message and when it was processed, if it was valid and
had a finite centre of mass. -/
abbrev Good (K : Type*) := Option ((Fin 4 → Flt K) × UInt64)

/-- The record after a call with profile `profile`. -/
def processed (good : Good K) (profile : ModelProfile) (joints : Option (ArmJointStates K))
    (now : UInt64) : Good K :=
  match joints with
  | none => good
  | some joints =>
    if joints.valid && ESOPositionControl.allFinite (ArmCom.computeSystemCoM profile joints.q) then
      some (joints.q, now)
    else none

/-- The record is at most 500 ms old. -/
def Recent (good : Good K) (now : UInt64) : Prop :=
  ∃ q t, good = some (q, t) ∧ now.toNat - t.toNat ≤ 500000

def expected (c : DynamicCom K) (good : Good K) (now : UInt64) : Vector3f K :=
  match good with
  | none => c.fallback_com
  | some (q, t) =>
    if c.use_dynamic_arm_model ∧ now.toNat - t.toNat ≤ 500000 then
      ArmCom.computeSystemCoM c.active_profile q
    else c.fallback_com

/-- The flags describe what the controller holds. -/
structure Invariant (c : DynamicCom K) (com : Vector3f K) (good : Good K) (clock : UInt64) :
    Prop where
  use : c.use_dynamic_arm_model = true
  stamp : c.last_dynamic_com_timestamp ≤ clock
  dynamic : ∀ q t, good = some (q, t) → c.dynamic_com_valid = true ∧
    c.last_dynamic_com_timestamp = t ∧
    (clock.toNat - t.toNat ≤ 500000 → com = ArmCom.computeSystemCoM c.active_profile q)
  fallback : good = none → c.fresh clock = true → com = c.fallback_com

omit [Field K] [LinearOrder K] [Elementary K] in
theorem fresh_iff {c : DynamicCom K} {now : UInt64} (h : c.last_dynamic_com_timestamp ≤ now) :
    c.fresh now = true ↔ c.dynamic_com_valid = true ∧
      now.toNat - c.last_dynamic_com_timestamp.toNat ≤ 500000 := by
  unfold fresh
  rw [Bool.and_eq_true, decide_eq_true_eq, UInt64.le_iff_toNat_le, UInt64.toNat_sub_of_le _ _ h]
  rfl

omit [Field K] [LinearOrder K] [Elementary K] in
theorem fresh_of_le {c : DynamicCom K} {clock now : UInt64}
    (h : c.last_dynamic_com_timestamp ≤ clock) (hle : clock ≤ now) (hf : c.fresh now = true) :
    c.fresh clock = true := by
  rw [fresh_iff (UInt64.le_trans h hle)] at hf
  rw [fresh_iff h]
  refine ⟨hf.1, ?_⟩
  have := UInt64.le_iff_toNat_le.mp hle
  omega

/-! ### One call -/

/-- The call leaves what it should, and the flags describe it. -/
def Holds (r : DynamicCom K × Vector3f K) (good : Good K) (now : UInt64) : Prop :=
  r.2 = r.1.expected good now ∧ Invariant r.1 r.2 good now

theorem holds_of_finite {c : DynamicCom K} (huse : c.use_dynamic_arm_model = true)
    (q : Fin 4 → Flt K) (now : UInt64) :
    Holds ({ c with last_dynamic_com_timestamp := now, dynamic_com_valid := true },
      ArmCom.computeSystemCoM c.active_profile q) (some (q, now)) now := by
  refine ⟨?_, huse, UInt64.le_refl now, ?_, fun h => absurd h (by simp)⟩
  · unfold expected
    simp [huse]
  · intro q' t h
    rw [Option.some.injEq, Prod.mk.injEq] at h
    exact ⟨rfl, h.2, fun _ => h.1 ▸ rfl⟩

theorem holds_of_invalid {c : DynamicCom K} (huse : c.use_dynamic_arm_model = true)
    {now : UInt64} (hstamp : c.last_dynamic_com_timestamp ≤ now) :
    Holds ({ c with dynamic_com_valid := false }, c.fallback_com) none now :=
  ⟨rfl, huse, hstamp, fun q t h => absurd h (by simp), fun _ _ => rfl⟩

theorem holds_of_fallback {c : DynamicCom K} (huse : c.use_dynamic_arm_model = true)
    {now : UInt64} (hstamp : c.last_dynamic_com_timestamp ≤ now) {good : Good K}
    (hgood : ∀ q t, good = some (q, t) → c.dynamic_com_valid = true ∧
      c.last_dynamic_com_timestamp = t)
    (hold : ¬ Recent good now) : Holds (c, c.fallback_com) good now := by
  refine ⟨?_, huse, hstamp, ?_, fun _ _ => rfl⟩
  · rcases good with _ | ⟨q, t⟩
    · rfl
    · have hlate : ¬ now.toNat - t.toNat ≤ 500000 := fun h => hold ⟨q, t, rfl, h⟩
      simp [expected, hlate]
  · intro q t h
    obtain ⟨hvalid, htime⟩ := hgood q t h
    exact ⟨hvalid, htime, fun hrecent => absurd ⟨q, t, h, hrecent⟩ hold⟩

theorem Invariant.fallBack {c : DynamicCom K} {com : Vector3f K} {good : Good K}
    {clock now : UInt64} (h : Invariant c com good clock) (hle : clock ≤ now) :
    Holds (c.fallBack com now) good now := by
  have hstamp := UInt64.le_trans h.stamp hle
  have hnat := UInt64.le_iff_toNat_le.mp hle
  unfold DynamicCom.fallBack
  by_cases hf : c.fresh now = true
  · have hfresh := (fresh_iff hstamp).mp hf
    rw [hf, Bool.not_true, if_neg (by simp)]
    refine ⟨?_, h.use, hstamp, ?_, ?_⟩
    · rcases good with _ | ⟨q, t⟩
      · exact h.fallback rfl (fresh_of_le h.stamp hle hf)
      · obtain ⟨-, htime, hcom⟩ := h.dynamic q t rfl
        rw [htime] at hfresh
        simp only [expected, h.use, hfresh.2, and_self, if_true]
        exact hcom (by omega)
    · intro q t hqt
      obtain ⟨hvalid, htime, hcom⟩ := h.dynamic q t hqt
      exact ⟨hvalid, htime, fun hrecent => hcom (by omega)⟩
    · intro hnone _
      exact h.fallback hnone (fresh_of_le h.stamp hle hf)
  · rw [Bool.not_eq_true] at hf
    rw [hf, Bool.not_false, if_pos rfl]
    refine holds_of_fallback h.use hstamp ?_ ?_
    · intro q t hqt
      obtain ⟨hvalid, htime, -⟩ := h.dynamic q t hqt
      exact ⟨hvalid, htime⟩
    · rintro ⟨q, t, hqt, hrecent⟩
      obtain ⟨hvalid, htime, -⟩ := h.dynamic q t hqt
      have hfresh : c.fresh now = true := by
        rw [fresh_iff hstamp, htime]
        exact ⟨hvalid, hrecent⟩
      rw [hf] at hfresh
      exact absurd hfresh (by simp)

omit [Field K] [LinearOrder K] [Elementary K] in
theorem fallBack_self (c : DynamicCom K) (now : UInt64) :
    c.fallBack c.fallback_com now = (c, c.fallback_com) := by
  unfold DynamicCom.fallBack
  split <;> rfl

omit [LinearOrder K] [Elementary K] in
theorem selectProfile_use (c : DynamicCom K) (arm_model : ℤ) :
    (c.selectProfile arm_model).use_dynamic_arm_model = true := by
  unfold selectProfile
  dsimp only
  split <;> rfl

omit [LinearOrder K] [Elementary K] in
theorem selectProfile_flags (c : DynamicCom K) (arm_model : ℤ) :
    (c.selectProfile arm_model).dynamic_com_valid = c.dynamic_com_valid ∧
    (c.selectProfile arm_model).last_dynamic_com_timestamp = c.last_dynamic_com_timestamp := by
  unfold selectProfile
  dsimp only
  split <;> exact ⟨rfl, rfl⟩

/-- A call that finds a recent dynamic centre of mass reads a message when it changes
parameters, and no valid message without a finite one when it does not. -/
def Keeps (c : DynamicCom K) (good : Good K) (arm_model : Option ℤ)
    (joints : Option (ArmJointStates K)) (now : UInt64) : Prop :=
  Recent good now →
    (arm_model ≠ none → joints ≠ none) ∧
    (arm_model = none → ∀ j ∈ joints, j.valid = true →
      ESOPositionControl.allFinite (ArmCom.computeSystemCoM c.active_profile j.q) = true)

theorem updateDynamicParameters_profile (c : DynamicCom K) (com : Vector3f K)
    (joints : Option (ArmJointStates K)) (now : UInt64) :
    (c.updateDynamicParameters com joints now).1.active_profile = c.active_profile := by
  unfold updateDynamicParameters DynamicCom.fallBack
  split
  · rfl
  · rcases joints with _ | j
    · dsimp only
      split <;> rfl
    · dsimp only
      split_ifs <;> rfl

/-- A call that reads a message, if one without a finite centre of mass leaves the
fallback. -/
theorem holds_of_message {c : DynamicCom K} (huse : c.use_dynamic_arm_model = true)
    {now : UInt64} (hstamp : c.last_dynamic_com_timestamp ≤ now) {com : Vector3f K}
    (good : Good K) (j : ArmJointStates K)
    (hfall : j.valid = true →
      ESOPositionControl.allFinite (ArmCom.computeSystemCoM c.active_profile j.q) = false →
      c.fallBack com now = (c, c.fallback_com)) :
    Holds (c.updateDynamicParameters com (some j) now)
      (processed good c.active_profile (some j) now) now := by
  unfold updateDynamicParameters processed
  dsimp only
  rw [if_neg (by simp [huse])]
  by_cases hvalid : j.valid = true
  · rw [if_neg (by simp [hvalid])]
    by_cases hfin :
        ESOPositionControl.allFinite (ArmCom.computeSystemCoM c.active_profile j.q) = true
    · rw [if_pos hfin, if_pos (by simp [hvalid, hfin])]
      exact holds_of_finite huse j.q now
    · rw [if_neg hfin, if_neg (by simp [hfin]),
        hfall hvalid (by rwa [Bool.not_eq_true] at hfin)]
      refine holds_of_fallback huse hstamp (fun q t h => absurd h (by simp)) ?_
      rintro ⟨q, t, h, -⟩
      exact absurd h (by simp)
  · rw [if_pos (by simp [hvalid]), if_neg (by simp [hvalid])]
    exact holds_of_invalid huse hstamp

theorem Invariant.parametersUpdate {c : DynamicCom K} {com : Vector3f K} {good : Good K}
    {clock now : UInt64} (h : Invariant c com good clock) (hle : clock ≤ now)
    {arm_model : Option ℤ} {joints : Option (ArmJointStates K)}
    (hk : Keeps c good arm_model joints now) :
    Holds (c.parametersUpdate com arm_model joints now)
      (processed good (c.parametersUpdate com arm_model joints now).1.active_profile joints now)
      now := by
  have hstamp := UInt64.le_trans h.stamp hle
  unfold DynamicCom.parametersUpdate
  rcases arm_model with _ | arm_model
  · dsimp only
    rw [updateDynamicParameters_profile]
    rcases joints with _ | j
    · have heq : c.updateDynamicParameters com none now = c.fallBack com now := by
        simp [updateDynamicParameters, h.use]
      rw [heq]
      exact h.fallBack hle
    · refine holds_of_message h.use hstamp good j ?_
      intro hvalid hfin
      have hold : ¬ Recent good now := by
        intro hrecent
        rw [(hk hrecent).2 rfl j rfl hvalid] at hfin
        exact absurd hfin (by simp)
      unfold DynamicCom.fallBack
      by_cases hf : c.fresh now = true
      · -- the flags are fresh but the last message was not good: the fallback is in use
        have hnone : good = none := by
          rcases good with _ | ⟨q, t⟩
          · rfl
          · obtain ⟨-, htime, -⟩ := h.dynamic q t rfl
            have hfresh := ((fresh_iff hstamp).mp hf).2
            rw [htime] at hfresh
            exact absurd ⟨q, t, rfl, hfresh⟩ hold
        rw [hf, Bool.not_true, if_neg (by simp), h.fallback hnone (fresh_of_le h.stamp hle hf)]
      · rw [Bool.not_eq_true] at hf
        rw [hf, Bool.not_false, if_pos rfl]
  · have huse := c.selectProfile_use arm_model
    obtain ⟨hvalid, htime⟩ := c.selectProfile_flags arm_model
    rw [← htime] at hstamp
    dsimp only
    rw [updateDynamicParameters_profile]
    rcases joints with _ | j
    · have heq : (c.selectProfile arm_model).updateDynamicParameters
          (c.selectProfile arm_model).fallback_com none now =
          (c.selectProfile arm_model, (c.selectProfile arm_model).fallback_com) := by
        simp [updateDynamicParameters, huse, fallBack_self]
      rw [heq]
      refine holds_of_fallback huse hstamp ?_ ?_
      · intro q t hqt
        obtain ⟨hv, ht, -⟩ := h.dynamic q t hqt
        rw [hvalid, htime]
        exact ⟨hv, ht⟩
      · intro hrecent
        exact (hk hrecent).1 (by simp) rfl
    · exact holds_of_message huse hstamp good j fun _ _ => fallBack_self _ _

end DynamicCom

/-! ### Whole runs -/

open ESOMulticopterPositionControl in
/-- One cycle: what `Run` finds, the value of the model parameter, the joint message if
there is a new one, and the time at which `update_dynamic_parameters` reads the clock. -/
structure ComCall (K : Type*) where
  inputs : Inputs K
  arm_model : ℤ
  joints : Option (ArmJointStates K)
  now : UInt64

/-- The module with the fields that select its centre of mass; `good` and `clock` record
the last message and the last time. -/
structure ComSystem (K : Type*) where
  module : ESOMulticopterPositionControl K
  dyn : DynamicCom K
  good : DynamicCom.Good K
  clock : UInt64

namespace ComSystem

variable {K : Type*} [Field K] [LinearOrder K] [Elementary K]

def changed (call : ComCall K) : Option ℤ :=
  if call.inputs.parameters.isSome then some call.arm_model else none

/-- The fields and the centre of mass after `parameters_update`. -/
def updated (s : ComSystem K) (call : ComCall K) : DynamicCom K × Vector3f K :=
  s.dyn.parametersUpdate s.module.control.sys_com_pos (changed call) call.joints call.now

/-- The module after `parameters_update`. -/
def parametersUpdated (s : ComSystem K) (call : ComCall K) : ESOMulticopterPositionControl K :=
  s.module.parametersUpdate call.inputs.parameters (s.updated call).2

variable (dcm : Quatf K → Matrix3f K)

def step (s : ComSystem K) (call : ComCall K) : ComSystem K where
  module := (s.module.run dcm { call.inputs with system_com := (s.updated call).2 }).1
  dyn := (s.updated call).1
  good := DynamicCom.processed s.good (s.updated call).1.active_profile call.joints call.now
  clock := call.now

theorem step_good (s : ComSystem K) (call : ComCall K) : (step dcm s call).good =
    DynamicCom.processed s.good (s.updated call).1.active_profile call.joints call.now := rfl

open ESOMulticopterPositionControl in
/-- The constructor, with its forced `parameters_update`. -/
def construct (parameters : Params K) (arm_model : ℤ) (joints : Option (ArmJointStates K))
    (now init_now : UInt64) : ComSystem K :=
  let r := (DynamicCom.init K).parametersUpdate (fun _ => 0) (some arm_model) joints now
  { module := ESOMulticopterPositionControl.init parameters r.2 init_now
    dyn := r.1
    good := DynamicCom.processed none r.1.active_profile joints now
    clock := now }

/-- The controller holds the centre of mass it should after `parameters_update`. -/
def Law (s : ComSystem K) (call : ComCall K) : Prop :=
  (s.parametersUpdated call).control.sys_com_pos =
    (step dcm s call).dyn.expected (step dcm s call).good call.now

/-- The clock does not run backwards. -/
def Timed (s : ComSystem K) (call : ComCall K) : Prop := s.clock ≤ call.now

def Keeps (s : ComSystem K) (call : ComCall K) : Prop :=
  s.dyn.Keeps s.good (changed call) call.joints call.now

def Invariant (s : ComSystem K) : Prop :=
  s.dyn.Invariant s.module.control.sys_com_pos s.good s.clock

theorem invariant_step {s : ComSystem K} (hs : Invariant s) {call : ComCall K}
    (ht : Timed s call) (hk : Keeps s call) : Law dcm s call ∧ Invariant (step dcm s call) := by
  have hholds := DynamicCom.Invariant.parametersUpdate hs ht hk
  refine ⟨hholds.1, ?_⟩
  have hcom : (step dcm s call).module.control.sys_com_pos = (s.updated call).2 :=
    ESOMulticopterPositionControl.run_sys_com_pos dcm _
  unfold Invariant
  rw [hcom]
  exact hholds.2

open ESOMulticopterPositionControl in
theorem construct_holds (parameters : Params K) (arm_model : ℤ)
    (joints : Option (ArmJointStates K)) (now init_now : UInt64) :
    (construct parameters arm_model joints now init_now).module.control.sys_com_pos =
      (construct parameters arm_model joints now init_now).dyn.expected
        (construct parameters arm_model joints now init_now).good now ∧
    Invariant (construct parameters arm_model joints now init_now) := by
  have hfresh : (DynamicCom.init K).Invariant (fun _ => 0) none 0 :=
    ⟨rfl, UInt64.le_refl 0, fun q t h => absurd h (by simp),
      fun _ h => absurd h (by simp [DynamicCom.fresh, DynamicCom.init])⟩
  have hk : (DynamicCom.init K).Keeps none (some arm_model) joints now := by
    rintro ⟨q, t, h, -⟩
    exact absurd h (by simp)
  exact DynamicCom.Invariant.parametersUpdate hfresh (UInt64.le_iff_toNat_le.mpr (Nat.zero_le _)) hk

open ESOMulticopterPositionControl in
/-- In every run with a clock that does not run backwards, in which no call finds a fresh
dynamic centre of mass and either changes parameters without a new message or reads a valid
message without a finite one, the controller holds the dynamic centre of mass exactly while
it is fresh. -/
theorem com_law (parameters : Params K) (arm_model : ℤ) (joints : Option (ArmJointStates K))
    (now init_now : UInt64) (calls : List (ComCall K))
    (h : Trace.Always (step dcm) (fun s call => Timed s call ∧ Keeps s call)
      (construct parameters arm_model joints now init_now) calls) :
    (construct parameters arm_model joints now init_now).module.control.sys_com_pos =
      (construct parameters arm_model joints now init_now).dyn.expected
        (construct parameters arm_model joints now init_now).good now ∧
    Trace.Always (step dcm) (Law dcm) (construct parameters arm_model joints now init_now)
      calls := by
  obtain ⟨hlaw, hinv⟩ := construct_holds parameters arm_model joints now init_now
  exact ⟨hlaw, Trace.always_of_invariant (I := Invariant)
    (fun _ _ hs hc => invariant_step dcm hs hc.1 hc.2) hinv h⟩

/-! ### A parameter change between two messages -/

open ESOMulticopterPositionControl in
/-- A cycle without a position, in which nothing else has changed. -/
noncomputable def quiet : Inputs ℝ := { positionInputs (localPosition 0 0 true true 0) with
  local_pos := none }

noncomputable def message : ComCall ℝ := ⟨quiet, 0, some ⟨100, fun _ => 0, fun _ => 0, true⟩, 100⟩

open ESOMulticopterPositionControl in
noncomputable def change : ComCall ℝ :=
  ⟨{ quiet with parameters := some tunedParams }, 0, none, 200⟩

noncomputable def started : ComSystem ℝ :=
  construct ESOMulticopterPositionControl.tunedParams 0 none 1 1

theorem com_law_message :
    started.module.control.sys_com_pos = started.dyn.expected started.good 1 ∧
    Trace.Always (step ESOPositionControl.rotationMatrix) (Law ESOPositionControl.rotationMatrix)
      started [message] := by
  refine com_law ESOPositionControl.rotationMatrix _ _ _ _ _ _ ⟨⟨?_, ?_⟩, trivial⟩
  · exact (by decide : (1 : UInt64) ≤ 100)
  · rintro ⟨q, t, h, -⟩
    exact absurd h (by simp [construct, DynamicCom.processed])

theorem rest_com : ArmCom.computeSystemCoM .UavArmV4 (fun _ => (0 : Flt ℝ)) =
    numVec (ArmKinematics.positions_UavArmV4 (0 : Fin 4 → ℝ)).com :=
  ArmCom.computeSystemCoM_UavArmV4_numVec 0

theorem rest_com_pos : 0 < (ArmKinematics.positions_UavArmV4 (0 : Fin 4 → ℝ)).com 0 := by
  simp only [ArmKinematics.positions_UavArmV4, Pi.smul_apply, Pi.add_apply, smul_eq_mul,
    ArmCom.elementary_cos, ArmCom.elementary_sin, Pi.zero_apply, add_zero, Real.cos_zero,
    Real.sin_zero]
  norm_num

theorem message_good (dcm : Quatf ℝ → Matrix3f ℝ) :
    (step dcm started message).good = some (fun _ => 0, 100) := by
  have hprofile : (started.updated message).1.active_profile = .UavArmV4 :=
    DynamicCom.updateDynamicParameters_profile _ _ _ _
  rw [step_good, hprofile]
  unfold DynamicCom.processed message
  dsimp only
  rw [rest_com]
  exact if_pos rfl

theorem change_updated (s : ComSystem ℝ) :
    s.updated change = (s.dyn.selectProfile 0, (s.dyn.selectProfile 0).fallback_com) := by
  have hchanged : changed change = some 0 := rfl
  rw [updated, hchanged]
  show (s.dyn.selectProfile 0).updateDynamicParameters (s.dyn.selectProfile 0).fallback_com none
    200 = _
  unfold DynamicCom.updateDynamicParameters
  rw [if_neg (by simp [DynamicCom.selectProfile_use])]
  exact DynamicCom.fallBack_self _ _

/-- A fresh dynamic centre of mass is dropped by a parameter change that leaves the model as
it is. -/
theorem parameters_drop_fresh_com :
    Trace.Always (step ESOPositionControl.rotationMatrix) Timed started [message, change] ∧
    ¬ Trace.Always (step ESOPositionControl.rotationMatrix)
      (Law ESOPositionControl.rotationMatrix) started [message, change] := by
  refine ⟨⟨(by decide : (1 : UInt64) ≤ 100), (by decide : (100 : UInt64) ≤ 200), trivial⟩, ?_⟩
  rintro ⟨-, hlaw, -⟩
  have hgood := message_good ESOPositionControl.rotationMatrix
  generalize step ESOPositionControl.rotationMatrix started message = s at hlaw hgood
  have hcom : (s.parametersUpdated change).control.sys_com_pos = ![-0.015, 0, -0.164] := by
    show (s.updated change).2 = _
    rw [change_updated]
    rfl
  have hexpected : (step ESOPositionControl.rotationMatrix s change).dyn.expected
      (step ESOPositionControl.rotationMatrix s change).good change.now =
      ArmCom.computeSystemCoM .UavArmV4 (fun _ => (0 : Flt ℝ)) := by
    have hdyn : (step ESOPositionControl.rotationMatrix s change).dyn = s.dyn.selectProfile 0 :=
      congrArg Prod.fst (change_updated s)
    have hkept : (step ESOPositionControl.rotationMatrix s change).good = s.good := rfl
    rw [hdyn, hkept, hgood]
    rfl
  unfold Law at hlaw
  rw [hcom, hexpected, rest_com] at hlaw
  have hx : (-0.015 : ℝ) = (ArmKinematics.positions_UavArmV4 (0 : Fin 4 → ℝ)).com 0 :=
    num.inj (congrFun hlaw 0)
  have hpos := rest_com_pos
  rw [← hx] at hpos
  norm_num at hpos

end ComSystem
