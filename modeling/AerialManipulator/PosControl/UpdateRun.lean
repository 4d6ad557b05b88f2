/-
Whole runs of the controller object.

A run is any sequence of the calls `setState`, `setInputSetpoint`,
`setESOUpdateEnabled`, `resetIntegral` and `update`.  Two properties of runs
are decided here:

* recovery — no cycle leaves the observer, the position integral or the cached
  observer input non-finite, and a cycle whose inputs are all known succeeds
  (`always_recovers_iff`, exactly the runs without a poisoning cycle);
* initialisation — the first integration of the observer, and the first one after
  it was disabled or reset, starts from the measurement (`always_initialised`, for
  the runs in which every enabling edge falls into an accepted cycle, and the
  observer is disabled or reset before the first cycle).
-/
import AerialManipulator.Lib.Trace
import AerialManipulator.PosControl.UpdateSpec

open WithNaN ControlMath Trace

namespace ESOPositionControl

inductive Call (K : Type*) where
  | setState (states : PositionControlStates K)
  | setInputSetpoint (setpoint : LocalPositionSetpoint K)
  | setESOUpdateEnabled (enabled : Bool)
  | resetIntegral
  | update (dt : K)

def call {K : Type*} [Field K] [LinearOrder K] [Elementary K] (dcm : Quatf K → Matrix3f K)
    (c : ESOPositionControl K) : Call K → ESOPositionControl K
  | .setState states => c.setState states
  | .setInputSetpoint setpoint => c.setInputSetpoint setpoint
  | .setESOUpdateEnabled enabled => c.setESOUpdateEnabled enabled
  | .resetIntegral => c.resetIntegral
  | .update dt => (c.update dcm (num dt)).1

variable {dcm : Quatf ℝ → Matrix3f ℝ} {c : ESOPositionControl ℝ}

/-! ### What an `update` call changes -/

@[simp] theorem control_eso_update_enabled (dt : Flt ℝ) :
    (c.control dcm dt).eso_update_enabled = c.eso_update_enabled := by
  simp only [control, velocityControl, accelerationControl, positionControl, observe]

theorem update_fst_of_valid {dt : Flt ℝ} (hv : c.inputValid = true) :
    (c.update dcm dt).1
      = { c.control dcm dt with eso_update_enabled_prev := c.eso_update_enabled } := by
  simp only [update, hv, if_true, control_eso_update_enabled]

theorem update_fst_of_invalid {dt : Flt ℝ} (hv : c.inputValid = false) :
    (c.update dcm dt).1 = { c with eso_update_enabled_prev := c.eso_update_enabled } := by
  simp [update, hv]

@[simp] theorem update_eso_update_enabled (dt : Flt ℝ) :
    (c.update dcm dt).1.eso_update_enabled = c.eso_update_enabled := by
  cases hv : c.inputValid with
  | false => rw [update_fst_of_invalid hv]
  | true => rw [update_fst_of_valid hv, control_eso_update_enabled]

@[simp] theorem update_eso_update_enabled_prev (dt : Flt ℝ) :
    (c.update dcm dt).1.eso_update_enabled_prev = c.eso_update_enabled := by
  cases hv : c.inputValid with
  | false => rw [update_fst_of_invalid hv]
  | true => rw [update_fst_of_valid hv]

theorem control_eso (dt : Flt ℝ) : (c.control dcm dt).eso = c.observedESO dt := by
  simp only [control, velocityControl, accelerationControl, positionControl, observe]

theorem update_eso_of_valid {dt : Flt ℝ} (hv : c.inputValid = true) :
    (c.update dcm dt).1.eso = c.observedESO dt := by
  rw [update_fst_of_valid hv, control_eso]

theorem Configured.observe (hc : Configured c) (dt : Flt ℝ) : Configured (c.observe dt) := by
  cases h : c.eso_update_enabled <;> cases h' : c.eso_update_enabled_prev <;>
    simp only [ESOPositionControl.observe, observedESO, h, h'] <;>
    exact { hc with }

theorem Configured.positionControl (hc : Configured c) (dt : Flt ℝ) :
    Configured (c.positionControl dt) := { hc with }

theorem Configured.velocityControl (hc : Configured c) : Configured (c.velocityControl dcm) :=
  { hc with }

theorem Configured.control (hc : Configured c) (dt : Flt ℝ) : Configured (c.control dcm dt) := by
  have hvel : Configured (((c.observe dt).positionControl dt).velocityControl dcm) :=
    ((hc.observe dt).positionControl dt).velocityControl
  exact { hvel with }

theorem Body.control (hb : Body c) (dt : Flt ℝ) : Body (c.control dcm dt) := by
  have hobs : Body (c.observe dt) := { hb with }
  have hpos : Body ((c.observe dt).positionControl dt) := { hobs with }
  have hvel : Body (((c.observe dt).positionControl dt).velocityControl dcm) := { hpos with }
  exact { hvel with }

theorem Configured.call (hc : Configured c) (e : Call ℝ) : Configured (c.call dcm e) := by
  cases e with
  | setState states => exact hc.setState states
  | setInputSetpoint setpoint => exact hc.setInputSetpoint setpoint
  | setESOUpdateEnabled enabled => exact { hc with }
  | resetIntegral => exact { hc with }
  | update dt =>
    show Configured (c.update dcm (num dt)).1
    cases hv : c.inputValid with
    | false => rw [update_fst_of_invalid hv]; exact { hc with }
    | true =>
      have hctl : Configured (c.control dcm (num dt)) := hc.control (num dt)
      rw [update_fst_of_valid hv]
      exact { hctl with }

theorem Body.call (hb : Body c) (e : Call ℝ) : Body (c.call dcm e) := by
  cases e with
  | setState states => exact hb.setState states
  | setInputSetpoint setpoint => exact hb.setInputSetpoint setpoint
  | setESOUpdateEnabled enabled => exact { hb with }
  | resetIntegral => exact { hb with }
  | update dt =>
    show Body (c.update dcm (num dt)).1
    cases hv : c.inputValid with
    | false => rw [update_fst_of_invalid hv]; exact { hb with }
    | true =>
      have hctl : Body (c.control dcm (num dt)) := hb.control (num dt)
      rw [update_fst_of_valid hv]
      exact { hctl with }

/-! ### Poisoning cycles -/

theorem control_pos_int (dt : Flt ℝ) : (c.control dcm dt).pos_int = c.posIntegral dt := by
  simp only [control, velocityControl, accelerationControl, positionControl]
  rfl

theorem control_eso_input (dt : Flt ℝ) :
    (c.control dcm dt).eso_input = feasibleAcc c.hover_thrust (c.control dcm dt).thr_sp
      + ![0, 0, num (CONSTANTS_ONE_G ℝ)] + c.centrifugal dcm := by
  simp only [control, velocityControl, accelerationControl, positionControl, observe]
  rfl

theorem isFinite_observedESO (hc : Configured c) (hl : Loop c) (hen : c.eso_update_enabled = true)
    (dt : ℝ) (i : Fin 3) :
    ((c.observedESO (num dt)).z1 i).isFinite
        = ((c.pos i).isFinite && (c.eso_update_enabled_prev || (c.vel i).isFinite)) ∧
      ((c.observedESO (num dt)).z2 i).isFinite
        = ((c.pos i).isFinite && (c.eso_update_enabled_prev || (c.vel i).isFinite)) ∧
      ((c.observedESO (num dt)).z3 i).isFinite = (c.pos i).isFinite := by
  simp only [observedESO, hen]
  cases c.eso_update_enabled_prev <;> cases hv : (c.vel i).isFinite <;>
    cases hp : (c.pos i).isFinite <;>
    simp [PositionESO.update, PositionESO.resetTo, emult, scale, isFinite_add, isFinite_mul,
      isFinite_sub, hl.z1 i, hl.z2 i, hl.z3 i, hl.eso_input i, hc.beta1 i, hc.beta2 i,
      hc.beta3 i, hv, hp]

/-- The position integral stays a number: it only moves in cycles with a
position error on every axis, and then by a number. -/
theorem finiteVec_posIntegral (hc : Configured c) (hl : Loop c) (ha : Accepted c)
    (hhor : HorizontalDefined c) (dt : ℝ) : FiniteVec (c.posIntegral (num dt)) := by
  obtain ⟨lim, hlim⟩ := isFinite_iff.mp hc.lim_pos_int
  simp only [posIntegral]
  split_ifs with h
  · intro i
    have herr : ((c.pos_sp - c.pos) i).isFinite = true := (allFinite_iff _).mp h i
    have hest := herr
    rw [Pi.sub_apply, isFinite_sub, Bool.and_eq_true] at hest
    obtain ⟨p, f, x, -, -, -, hunc⟩ := velSpUnc_of_position hc hl hest.1 hest.2
    have harw : (if num (FLT_EPSILON ℝ) < c.gain_pos_p i then 2.0 / c.gain_pos_p i
        else 0).isFinite = true := by
      obtain ⟨k, hk⟩ := isFinite_iff.mp (hc.gain_pos_p i)
      rw [hk]
      split_ifs with hlt
      · have hk0 : k ≠ 0 := (FLT_EPSILON_pos.trans ((num_lt_num _ _).mp hlt)).ne'
        rw [ofScientific_def, num_div_of_ne hk0]
        rfl
      · rfl
    rw [hlim, neg_num, math.isFinite_constrain]
    simp only [Pi.add_apply, Pi.sub_apply, scale, emult, isFinite_add, isFinite_sub, isFinite_mul,
      hl.pos_int i, hunc, finiteVec_velSpLimited hc hl ha hhor i, harw]
    rw [← isFinite_sub, ← Pi.sub_apply, herr]
    rfl
  · exact hl.pos_int

theorem isFinite_feasibleAcc {h : Flt ℝ} (hh : h.isFinite = true) (thr : Vector3f ℝ) (i : Fin 3) :
    (feasibleAcc h thr i).isFinite = (thr i).isFinite := by
  obtain ⟨k, rfl⟩ := isFinite_iff.mp hh
  simp only [feasibleAcc]
  split_ifs with hlt
  · have hk0 : k ≠ 0 := (FLT_EPSILON_pos.trans ((num_lt_num _ _).mp hlt)).ne'
    rw [num_div_of_ne hk0, scale, isFinite_mul, isFinite_num, Bool.and_true]
  · rw [scale, isFinite_mul, isFinite_num, Bool.and_true]

theorem isFinite_control_eso_input (hd : DcmFinite dcm) (hc : Configured c) (hb : Body c)
    (dt : Flt ℝ) (i : Fin 3) :
    ((c.control dcm dt).eso_input i).isFinite = ((c.control dcm dt).thr_sp i).isFinite := by
  have hg : ((![0, 0, num (CONSTANTS_ONE_G ℝ)] : Vector3f ℝ) i).isFinite = true := by
    fin_cases i <;> rfl
  rw [control_eso_input, Pi.add_apply, Pi.add_apply, isFinite_add, isFinite_add,
    isFinite_feasibleAcc hc.hover_thrust, hg, finiteVec_centrifugal hd hb i, Bool.and_true,
    Bool.and_true]

/-- The inputs on which an accepted cycle hands only numbers to the next one. -/
structure Harmless (c : ESOPositionControl ℝ) : Prop where
  pos : c.eso_update_enabled = true → FiniteVec c.pos
  vel : c.eso_update_enabled = true → c.eso_update_enabled_prev = false → FiniteVec c.vel
  vel_xy : FiniteVec (xy c.vel)
  horizontal : HorizontalDefined c

theorem acc_sp_of_eso_input (hd : DcmFinite dcm) (hc : Configured c) (hb : Body c) {dt : Flt ℝ}
    (h : ((c.control dcm dt).eso_input 0).isFinite = true) :
    ((c.control dcm dt).acc_sp 0).isFinite = true ∧
      ((c.control dcm dt).acc_sp 1).isFinite = true := by
  rw [isFinite_control_eso_input hd hc hb, control_thr_sp] at h
  refine not_imp_not.mp (fun hn => ?_) h
  have hnan : (c.control dcm dt).acc_sp 0 = nan ∨ (c.control dcm dt).acc_sp 1 = nan := by
    rw [not_and_or] at hn
    refine hn.imp (fun h0 => ?_) fun h1 => ?_
    · exact not_isFinite_iff.mp (Bool.not_eq_true _ ▸ h0)
    · exact not_isFinite_iff.mp (Bool.not_eq_true _ ▸ h1)
  obtain ⟨z, hz⟩ := thrustFor_nan hc hnan
  rw [hz]
  exact Bool.noConfusion

theorem Harmless.of_loop (hd : DcmFinite dcm) (hc : Configured c) (hl : Loop c) (hb : Body c)
    (ha : Accepted c) {dt : ℝ} (h : Loop (c.control dcm (num dt))) : Harmless c := by
  have hz1 := h.z1
  have hz3 := h.z3
  rw [control_eso] at hz1 hz3
  obtain ⟨h0, h1⟩ := acc_sp_of_eso_input hd hc hb (h.eso_input 0)
  rw [isFinite_control_acc_sp hd hc hl hb, Bool.and_eq_true, Bool.and_eq_true] at h0 h1
  refine ⟨fun hen i => ?_, fun hen hprev i => ?_, fun i => ?_, ?_⟩
  · rw [← (isFinite_observedESO hc hl hen dt i).2.2]
    exact hz3 i
  · have hi := (isFinite_observedESO hc hl hen dt i).1.symm.trans (hz1 i)
    rw [hprev, Bool.false_or, Bool.and_eq_true] at hi
    exact hi.2
  · fin_cases i
    exacts [h0.1.2, h1.1.2]
  · by_contra hn
    have hlim := h0.1.1
    rw [velSpLimited_nan hc hl ha hn] at hlim
    exact nomatch hlim

theorem Harmless.loop_control (hd : DcmFinite dcm) (hc : Configured c) (hl : Loop c) (hb : Body c)
    (ha : Accepted c) (h : Harmless c) (dt : ℝ) : Loop (c.control dcm (num dt)) := by
  have hpos : ∀ i, (!c.eso_update_enabled || (c.pos i).isFinite) = true := by
    intro i
    cases hen : c.eso_update_enabled
    · rfl
    · exact h.pos hen i
  -- the observer states, when they move at all
  have heso : ∀ i, ((c.observedESO (num dt)).z1 i).isFinite = true ∧
      ((c.observedESO (num dt)).z2 i).isFinite = true ∧
      ((c.observedESO (num dt)).z3 i).isFinite = true := by
    intro i
    cases hen : c.eso_update_enabled with
    | false =>
      simp only [observedESO, hen]
      exact ⟨hl.z1 i, hl.z2 i, hl.z3 i⟩
    | true =>
      obtain ⟨e1, e2, e3⟩ := isFinite_observedESO hc hl hen dt i
      have hvel : (c.eso_update_enabled_prev || (c.vel i).isFinite) = true := by
        cases hprev : c.eso_update_enabled_prev
        · exact h.vel hen hprev i
        · rfl
      rw [e1, e2, e3, h.pos hen i, hvel]
      exact ⟨rfl, rfl, rfl⟩
  have hacc : ∀ i : Fin 3, (c.vel i).isFinite = true →
      ((c.control dcm (num dt)).acc_sp i).isFinite = true := by
    intro i hv
    rw [isFinite_control_acc_sp hd hc hl hb, finiteVec_velSpLimited hc hl ha h.horizontal i, hv,
      hpos i]
    rfl
  refine ⟨?_, ?_, ?_, ?_, fun i => ?_⟩
  · rw [control_eso]; exact fun i => (heso i).1
  · rw [control_eso]; exact fun i => (heso i).2.1
  · rw [control_eso]; exact fun i => (heso i).2.2
  · rw [control_pos_int]
    exact finiteVec_posIntegral hc hl ha h.horizontal dt
  · rw [isFinite_control_eso_input hd hc hb, control_thr_sp]
    exact finiteVec_thrustFor hc (hacc 0 (h.vel_xy 0)) (hacc 1 (h.vel_xy 1)) i

/-- One cycle keeps the loop states finite exactly when it is rejected or harmless. -/
theorem loop_update_iff (hd : DcmFinite dcm) (hc : Configured c) (hl : Loop c) (hb : Body c)
    (dt : ℝ) :
    Loop (c.update dcm (num dt)).1 ↔ (c.inputValid = true → Harmless c) := by
  cases hv : c.inputValid with
  | false =>
    rw [update_fst_of_invalid hv]
    exact ⟨nofun, fun _ => { hl with }⟩
  | true =>
    rw [update_fst_of_valid hv]
    have ha := inputValid_iff.mp hv
    constructor
    · intro h _
      have hloop : Loop (c.control dcm (num dt)) := { h with }
      exact Harmless.of_loop hd hc hl hb ha hloop
    · intro h
      exact { (h rfl).loop_control hd hc hl hb ha dt with }

/-! ### Recovery -/

/-- Every estimate and every setpoint is a number. -/
structure Known (c : ESOPositionControl ℝ) : Prop where
  pos : FiniteVec c.pos
  vel : FiniteVec c.vel
  vel_dot : FiniteVec c.vel_dot
  pos_sp : FiniteVec c.pos_sp
  vel_sp : FiniteVec c.vel_sp
  acc_sp : FiniteVec c.acc_sp

theorem Known.inputValid (h : Known c) : c.inputValid = true := by
  refine inputValid_iff.mpr ⟨fun i => .inl (h.pos_sp i), ?_, ?_, ?_, fun i _ => h.pos i,
    fun i _ => ⟨h.vel i, h.vel_dot i⟩⟩
  · rw [h.pos_sp 0, h.pos_sp 1]
  · rw [h.vel_sp 0, h.vel_sp 1]
  · rw [h.acc_sp 0, h.acc_sp 1]

/-- The call leaves the loop states finite, and succeeds if it is an `update`
whose inputs are all known. -/
def Recovers (dcm : Quatf ℝ → Matrix3f ℝ) (c : ESOPositionControl ℝ) (e : Call ℝ) : Prop :=
  Loop (c.call dcm e) ∧ ∀ dt, e = .update dt → Known c → (c.update dcm (num dt)).2 = true

/-- The call is not an accepted `update` on poisonous inputs. -/
def Unpoisoned (c : ESOPositionControl ℝ) (e : Call ℝ) : Prop :=
  ∀ dt, e = .update dt → c.inputValid = true → Harmless c

theorem recovers_iff (hd : DcmFinite dcm) (hc : Configured c) (hl : Loop c) (hb : Body c)
    (e : Call ℝ) : Recovers dcm c e ↔ Unpoisoned c e := by
  cases e with
  | setState states => exact ⟨fun _ => nofun, fun _ => ⟨hl.setState states, nofun⟩⟩
  | setInputSetpoint setpoint =>
    exact ⟨fun _ => nofun, fun _ => ⟨hl.setInputSetpoint setpoint, nofun⟩⟩
  | setESOUpdateEnabled enabled => exact ⟨fun _ => nofun, fun _ => ⟨{ hl with }, nofun⟩⟩
  | resetIntegral =>
    refine ⟨fun _ => nofun, fun _ => ⟨?_, nofun⟩⟩
    exact ⟨fun _ => rfl, fun _ => rfl, fun _ => rfl, fun _ => rfl, fun _ => rfl⟩
  | update dt =>
    have hloop := loop_update_iff hd hc hl hb dt
    constructor
    · intro h dt' he
      cases he
      exact hloop.mp h.1
    · intro h
      refine ⟨hloop.mpr (h dt rfl), ?_⟩
      intro dt' he hk
      cases he
      have hv := hk.inputValid
      exact (update_snd_iff hd hc hl hb dt).mpr
        ⟨hv, hk.vel, fun _ => hk.pos, (h dt rfl hv).horizontal⟩

/-- The controller recovers in a run if and only if no accepted cycle of the
run had poisonous inputs. -/
theorem always_recovers_iff (hd : DcmFinite dcm) (hc : Configured c) (hl : Loop c) (hb : Body c)
    (es : List (Call ℝ)) :
    Always (call dcm) (Recovers dcm) c es ↔ Always (call dcm) Unpoisoned c es := by
  refine always_iff_of_invariant (I := fun s => Configured s ∧ Loop s ∧ Body s)
    (fun s e hI => recovers_iff hd hI.1 hI.2.1 hI.2.2 e) (fun s e hI hC => ?_) ⟨hc, hl, hb⟩
  exact ⟨hI.1.call e, ((recovers_iff hd hI.1 hI.2.1 hI.2.2 e).mpr hC).1, hI.2.2.call e⟩

theorem always_recovers_iff_hover :
    Always (call rotationMatrix) (Recovers rotationMatrix) tuned
      [.setState atRest, .setInputSetpoint (positionSetpoint fun _ => 0), .update 0.01] := by
  refine (always_recovers_iff dcmFinite_rotationMatrix configured_tuned loop_tuned body_tuned
    _).mpr ⟨nofun, nofun, fun dt _ _ => ?_, trivial⟩
  refine ⟨fun _ _ => rfl, fun _ _ _ => rfl, fun i => ?_, ?_⟩
  · fin_cases i <;> rfl
  · exact horizontalDefined_of_position (m := 10) rfl (by norm_num) rfl

/-- A non-finite observer state is fed back: while the observer stays enabled
every cycle fails. -/
theorem update_refused_of_z1 (hen : c.eso_update_enabled = true)
    (hprev : c.eso_update_enabled_prev = true) (hz : c.eso.z1 0 = nan) (dt : Flt ℝ) :
    (c.update dcm dt).2 = false := by
  have hdist : (c.observe dt).eso_disturbance 0 = nan := by
    simp [observe, observedESO, hen, hprev, PositionESO.update, emult, scale, hz]
  refine update_refused_of_acc_sp ?_
  show ((c.observe dt).positionControl dt).accCmd dcm 0 = nan
  have hdist' : ((c.observe dt).positionControl dt).eso_disturbance 0 = nan := hdist
  simp only [accCmd, Pi.sub_apply, hdist', sub_nan, nan_sub]

/-- One velocity-controlled cycle without a position estimate. -/
noncomputable def positionLoss : List (Call ℝ) :=
  [.setState { atRest with position := fun _ => nan },
    .setInputSetpoint (velocitySetpoint ![num 20, 0, 0]), .update 0.01]

noncomputable def positionRegained : List (Call ℝ) :=
  [.setState atRest, .setInputSetpoint ⟨0, 0, 0, 0, 0, 0, 0, 0, 0, fun _ => 0, fun _ => 0⟩]

/-- After one bad sample the controller does not recover. -/
theorem position_loss_not_recovered :
    let c := run (call rotationMatrix) tuned (positionLoss ++ positionRegained)
    (Configured tuned ∧ Loop tuned ∧ Body tuned) ∧ Known c ∧ ¬ Loop c ∧
      (c.update rotationMatrix (num 0.01)).2 = false := by
  intro c
  set c₁ := (tuned.setState { atRest with position := fun _ => nan }).setInputSetpoint
    (velocitySetpoint ![num 20, 0, 0]) with hc₁
  have hc : Configured c₁ := (configured_tuned.setState _).setInputSetpoint _
  have hl : Loop c₁ := (loop_tuned.setState _).setInputSetpoint _
  obtain ⟨d, hd⟩ : ∃ d, d = (c₁.update rotationMatrix (num 0.01)).1 := ⟨_, rfl⟩
  have hz : d.eso.z1 0 = nan := by
    rw [hd, update_eso_of_valid rfl]
    exact not_isFinite_iff.mp (isFinite_observedESO hc hl rfl 0.01 0).1
  have hen : d.eso_update_enabled = true := by
    rw [hd, update_eso_update_enabled]
    rfl
  have hprev : d.eso_update_enabled_prev = true := by
    rw [hd, update_eso_update_enabled_prev]
    rfl
  have hrun : c = (d.setState atRest).setInputSetpoint
      ⟨0, 0, 0, 0, 0, 0, 0, 0, 0, fun _ => 0, fun _ => 0⟩ := by
    rw [hd]
    rfl
  rw [hrun]
  refine ⟨⟨configured_tuned, loop_tuned, body_tuned⟩, ?_, fun h => ?_, ?_⟩
  · exact ⟨fun _ => rfl, fun _ => rfl, fun _ => rfl, finiteVec_three rfl rfl rfl,
      finiteVec_three rfl rfl rfl, fun _ => rfl⟩
  · have h0 : (d.eso.z1 0).isFinite = true := h.z1 0
    rw [hz] at h0
    exact nomatch h0
  · exact update_refused_of_z1 (c := (d.setState atRest).setInputSetpoint _) hen hprev hz _

/-! ### Initialisation of the observer -/

/-- A controller with the obligation to initialise its observer before the next
integration; it is fresh until the observer is disabled or reset. -/
structure Tracked (K : Type*) where
  ctrl : ESOPositionControl K
  pending : Bool
  fresh : Bool

def Tracked.start {K : Type*} (c : ESOPositionControl K) : Tracked K := ⟨c, true, true⟩

/-- The obligation arises when the observer is disabled, runs a disabled cycle
or is reset; an integration settles it. -/
def Tracked.pendingAfter {K : Type*} (s : Tracked K) : Call K → Bool
  | .setESOUpdateEnabled enabled => s.pending || !enabled
  | .resetIntegral => true
  | .update _ => !s.ctrl.eso_update_enabled || (s.pending && !s.ctrl.inputValid)
  | _ => s.pending

def Tracked.freshAfter {K : Type*} (s : Tracked K) : Call K → Bool
  | .setESOUpdateEnabled enabled => s.fresh && enabled
  | .resetIntegral => false
  | _ => s.fresh

def Tracked.call {K : Type*} [Field K] [LinearOrder K] [Elementary K]
    (dcm : Quatf K → Matrix3f K) (s : Tracked K) (e : Call K) : Tracked K :=
  ⟨s.ctrl.call dcm e, s.pendingAfter e, s.freshAfter e⟩

/-- An `update` that integrates an observer with a pending obligation starts it
from `z1 = pos`, `z2 = vel`, `z3 = 0`. -/
def Initialised (dcm : Quatf ℝ → Matrix3f ℝ) (s : Tracked ℝ) (e : Call ℝ) : Prop :=
  ∀ dt, e = .update dt → s.pending = true → s.ctrl.inputValid = true →
    s.ctrl.eso_update_enabled = true →
      (s.ctrl.call dcm e).eso
        = (s.ctrl.eso.resetTo s.ctrl.pos s.ctrl.vel).update s.ctrl.pos s.ctrl.eso_input (num dt)

/-- The cycle of an enabling edge is accepted, a disabled observer is not enabled
again before a cycle has seen it disabled, and a cycle that is accepted while the
observer is enabled does not come before the observer was disabled or reset once. -/
def EdgeSeen (s : Tracked ℝ) (e : Call ℝ) : Prop :=
  (∀ dt, e = .update dt → s.ctrl.eso_update_enabled = true →
    s.ctrl.eso_update_enabled_prev = false → s.ctrl.inputValid = true) ∧
  (e = .setESOUpdateEnabled true → s.ctrl.eso_update_enabled = false →
    s.ctrl.eso_update_enabled_prev = false) ∧
  (∀ dt, e = .update dt → s.ctrl.eso_update_enabled = true → s.fresh = true →
    s.ctrl.inputValid = false)

/-- A pending obligation is visible to the edge detection, but at the start. -/
def PendingVisible (s : Tracked ℝ) : Prop :=
  s.fresh = false → s.pending = true → s.ctrl.eso_update_enabled = true →
    s.ctrl.eso_update_enabled_prev = false

theorem PendingVisible.call {s : Tracked ℝ} (h : PendingVisible s) {e : Call ℝ}
    (hC : EdgeSeen s e) : PendingVisible (s.call dcm e) := by
  cases e with
  | setState states => exact h
  | setInputSetpoint setpoint => exact h
  | setESOUpdateEnabled enabled =>
    intro hf hp hen
    have hen' : enabled = true := hen
    subst hen'
    have hf' : s.fresh = false := by simpa [Tracked.call, Tracked.freshAfter] using hf
    have hp' : s.pending = true := by simpa [Tracked.call, Tracked.pendingAfter] using hp
    cases hs : s.ctrl.eso_update_enabled with
    | false => exact hC.2.1 rfl hs
    | true => exact h hf' hp' hs
  | resetIntegral => exact fun _ _ _ => rfl
  | update dt =>
    intro hf hp hen
    have hen' : s.ctrl.eso_update_enabled = true :=
      (update_eso_update_enabled (num dt)).symm.trans hen
    have hp' : s.pending = true ∧ s.ctrl.inputValid = false := by
      simpa [Tracked.call, Tracked.pendingAfter, hen'] using hp
    -- the edge is still pending, so its cycle was not rejected
    have hv := hC.1 dt rfl hen' (h hf hp'.1 hen')
    rw [hp'.2] at hv
    exact nomatch hv

theorem PendingVisible.initialised {s : Tracked ℝ} (h : PendingVisible s) {e : Call ℝ}
    (hC : EdgeSeen s e) : Initialised dcm s e := by
  intro dt he hp hv hen
  have hf : s.fresh = false := by
    by_contra hfresh
    have hrejected := hC.2.2 dt he hen ((Bool.not_eq_false _).mp hfresh)
    exact Bool.noConfusion (hv.symm.trans hrejected)
  subst he
  show (s.ctrl.update dcm (num dt)).1.eso = _
  rw [update_eso_of_valid hv]
  simp [observedESO, hen, h hf hp hen]

/-- In a run whose enabling edges are all seen by an accepted cycle, and in which
the observer is disabled or reset first, it never starts integrating from zero or
stale states. -/
theorem always_initialised {es : List (Call ℝ)}
    (h : Always (Tracked.call dcm) EdgeSeen (.start c) es) :
    Always (Tracked.call dcm) (Initialised dcm) (.start c) es :=
  always_of_invariant (I := PendingVisible)
    (fun _ _ hI hC => ⟨hI.initialised hC, hI.call hC⟩) nofun h

theorem always_initialised_hover :
    Always (Tracked.call rotationMatrix) (Initialised rotationMatrix) (.start tuned)
      [.setESOUpdateEnabled false, .update 0.01, .setESOUpdateEnabled true, .setState atRest,
        .setInputSetpoint (positionSetpoint fun _ => 0), .update 0.01] := by
  refine always_initialised ⟨⟨nofun, nofun, nofun⟩, ⟨fun _ _ _ _ => rfl, nofun, nofun⟩,
    ⟨nofun, fun _ _ => ?_, nofun⟩, ⟨nofun, nofun, nofun⟩, ⟨nofun, nofun, nofun⟩,
    ⟨fun _ _ _ _ => rfl, nofun, nofun⟩, trivial⟩
  exact update_eso_update_enabled_prev (num 0.01)

/-- The enabling edge falls into a cycle without a setpoint; a vehicle 1 m from
the origin is controlled afterwards. -/
noncomputable def edgeMissed : List (Call ℝ) :=
  [.setInputSetpoint (velocitySetpoint fun _ => nan), .setESOUpdateEnabled false, .update 0.01,
    .setESOUpdateEnabled true, .update 0.01, .setState { atRest with position := ![1, 0, 0] },
    .setInputSetpoint (positionSetpoint ![1, 0, 0])]

/-- The observer then integrates from the zero state of its construction. -/
theorem edge_missed_not_initialised :
    ¬ Always (Tracked.call rotationMatrix) (Initialised rotationMatrix) (.start tuned)
      (edgeMissed ++ [.update 0.01]) := by
  intro h
  rw [always_append] at h
  set s := run (Tracked.call rotationMatrix) (.start tuned) edgeMissed with hs
  have heso := h.2.1 0.01 rfl rfl rfl rfl
  have hcall : (s.ctrl.call rotationMatrix (.update 0.01)).eso
      = s.ctrl.eso.update s.ctrl.pos s.ctrl.eso_input (num 0.01) :=
    update_eso_of_valid rfl
  have hz1 : s.ctrl.eso.z1 0 = num 0 := rfl
  have hz2 : s.ctrl.eso.z2 0 = num 0 := rfl
  have hbeta : s.ctrl.eso.beta1 0 = num (8.0 * 3.0) := rfl
  have hpos : s.ctrl.pos 0 = num 1 := rfl
  have hvel : s.ctrl.vel 0 = num 0 := rfl
  have h0 := congrArg (fun e => e.z1 0) (hcall.symm.trans heso)
  simp only [PositionESO.update, PositionESO.resetTo, Pi.add_apply, Pi.sub_apply, scale, emult,
    hz1, hz2, hbeta, hpos, hvel, num_sub, num_mul, num_add, WithNaN.num.injEq] at h0
  norm_num at h0

end ESOPositionControl
