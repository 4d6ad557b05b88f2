/-
The torque and the states of the rate controller stay bounded.

`update` keeps five states: the observer, the integral, the last torque, and the filtered
compensation torque with its flag.  A landed cycle clears them, a cycle without a time step leaves
the integral alone, and the filter takes its input over as it is until it is valid.  A run is any
order of such cycles and of the calls that bring new inputs.

* `integralAxis_spec` — one axis of the integral;
* `filterTauS_spec` — the compensation torque;
* **`always_bounded`** — every cycle of every run is in its bounds.
-/
import AerialManipulator.Lib.Trace
import AerialManipulator.RateControl.RateControl

open WithNaN Trace

namespace ESORateControl

structure Limits where
  gain_i : Fin 3 → ℝ
  lim_int : Fin 3 → ℝ
  max_torque : ℝ
  tau_s_scale : ℝ
  tau_s_axis_scale : Fin 3 → ℝ
  tau_s_limit_nm : ℝ
  tau_s_filter_tau : ℝ
  gain_i_nonneg : ∀ i, 0 ≤ gain_i i
  lim_int_nonneg : ∀ i, 0 ≤ lim_int i
  tau_s_scale_nonneg : 0 ≤ tau_s_scale
  tau_s_limit_nm_nonneg : 0 ≤ tau_s_limit_nm
  tau_s_filter_tau_nonneg : 0 ≤ tau_s_filter_tau

namespace Limits

variable (l : Limits)

noncomputable def torque : ℝ := max l.max_torque 1e-3

def tauS (i : Fin 3) : ℝ := l.tau_s_limit_nm * l.tau_s_scale * |l.tau_s_axis_scale i|

theorem torque_pos : 0 < l.torque := lt_max_of_lt_right (by norm_num)

theorem tauS_nonneg (i : Fin 3) : 0 ≤ l.tauS i :=
  mul_nonneg (mul_nonneg l.tau_s_limit_nm_nonneg l.tau_s_scale_nonneg) (abs_nonneg _)

end Limits

/-- The controller is configured with these limits; its other gains are numbers. -/
structure Configured (l : Limits) (c : ESORateControl ℝ) : Prop where
  gain_i : c.gain_i = numVec l.gain_i
  lim_int : c.lim_int = numVec l.lim_int
  max_torque : c.max_torque = num l.max_torque
  tau_s_scale : c.tau_s_scale = num l.tau_s_scale
  tau_s_axis_scale : c.tau_s_axis_scale = numVec l.tau_s_axis_scale
  tau_s_limit_nm : c.tau_s_limit_nm = num l.tau_s_limit_nm
  tau_s_filter_tau : c.tau_s_filter_tau = num l.tau_s_filter_tau
  gain_p : FiniteVec c.gain_p
  k_beta : c.k_beta.isFinite = true
  integral_scale : c.integral_scale.isFinite = true
  tau_s_obs_axis_scale : FiniteVec c.tau_s_obs_axis_scale
  tau_s_ctrl_axis_scale : FiniteVec c.tau_s_ctrl_axis_scale
  beta1 : FiniteVec c.eso.beta1
  beta2 : FiniteVec c.eso.beta2

/-- A vector of numbers in the bounds `m`. -/
def VecWithin (m : Fin 3 → ℝ) (v : Vector3f ℝ) : Prop := ∃ x, v = numVec x ∧ ∀ i, |x i| ≤ m i

/-- What a cycle hands to the next one. -/
structure Within (l : Limits) (c : ESORateControl ℝ) : Prop extends Configured l c where
  inertia : ∀ i, FiniteVec (c.inertia i)
  inertia_inv : ∀ i, FiniteVec (c.inertia_inv i)
  z1 : FiniteVec c.eso.z1_est_omega
  z2 : FiniteVec c.eso.z2_est_dist
  last_torque : FiniteVec c.last_torque
  rate_int : VecWithin l.lim_int c.rate_int
  tau_s_filtered : VecWithin l.tauS c.tau_s_filtered

variable {l : Limits} {c : ESORateControl ℝ}

theorem vecWithin_zero {m : Fin 3 → ℝ} (h : ∀ i, 0 ≤ m i) : VecWithin m fun _ => 0 :=
  ⟨0, rfl, fun i => by
    rw [Pi.zero_apply, abs_zero]
    exact h i⟩

theorem VecWithin.finite {m : Fin 3 → ℝ} {v : Vector3f ℝ} (h : VecWithin m v) : FiniteVec v := by
  obtain ⟨x, rfl, -⟩ := h
  exact finiteVec_numVec x

theorem finiteVec_keepFinite {v w : Vector3f ℝ} (h : FiniteVec w) : FiniteVec (keepFinite v w) := by
  intro i
  by_cases hv : (v i).isFinite = true
  · rw [keepFinite, if_pos hv, hv]
  · rw [keepFinite, if_neg hv, h i]

/-! ### The compensation torque -/

theorem vecWithin_tauSBase (h : Configured l c) : VecWithin l.tauS c.tauSBase := by
  have hfin : FiniteVec (keepFinite c.tau_s fun _ => 0) := finiteVec_keepFinite fun _ => rfl
  obtain ⟨t, ht⟩ := exists_numVec hfin
  have hm := l.tau_s_limit_nm_nonneg
  set x : Fin 3 → ℝ := fun i => max (-l.tau_s_limit_nm) (min (t i) l.tau_s_limit_nm) with hx
  set s : ℝ := max 0 (min l.tau_s_scale 1) with hs
  have hbase : c.tauSBase = numVec fun i => x i * s * l.tau_s_axis_scale i := by
    simp only [tauSBase]
    rw [ht, h.tau_s_scale, h.tau_s_limit_nm, h.tau_s_axis_scale, zero_def, one_def, math.max_num,
      max_eq_left hm, neg_num, math.constrain_num_of_le zero_le_one]
    funext i
    simp only [emult, scale, numVec_apply, math.constrain_num_of_le (neg_le_self hm), num_mul]
    rfl
  refine ⟨_, hbase, fun i => ?_⟩
  have hxi : |x i| ≤ l.tau_s_limit_nm :=
    abs_le.mpr ⟨le_max_left _ _, max_le (neg_le_self hm) (min_le_right _ _)⟩
  have hs0 : 0 ≤ s := le_max_left _ _
  have hs1 : s ≤ l.tau_s_scale := max_le l.tau_s_scale_nonneg (min_le_left _ _)
  rw [abs_mul, abs_mul, abs_of_nonneg hs0]
  exact mul_le_mul_of_nonneg_right (mul_le_mul hxi hs1 hs0 hm) (abs_nonneg _)

theorem abs_lowpass_le {x y k m : ℝ} (hx : |x| ≤ m) (hy : |y| ≤ m) (hk0 : 0 ≤ k) (hk1 : k ≤ 1) :
    |x + (y - x) * k| ≤ m :=
  calc |x + (y - x) * k| = |x * (1 - k) + y * k| := by ring_nf
    _ ≤ |x| * (1 - k) + |y| * k := by
      refine (abs_add_le _ _).trans_eq ?_
      rw [abs_mul, abs_mul, abs_of_nonneg hk0, abs_of_nonneg (sub_nonneg.mpr hk1)]
    _ ≤ m * (1 - k) + m * k := by gcongr
    _ = m := by ring

/-- The filter changes its own two states only; it and what it injects are in the bounds. -/
theorem filterTauS_spec (h : Within l c) (dt : ℝ) (landed : Bool) :
    ∃ (f b : Vector3f ℝ) (valid : Bool), c.filterTauS (num dt) landed
        = ({ c with tau_s_filtered := f, tau_s_filter_valid := valid }, b) ∧
      VecWithin l.tauS f ∧ FiniteVec b := by
  have hbase := vecWithin_tauSBase h.toConfigured
  have hzero := vecWithin_zero l.tauS_nonneg
  simp only [filterTauS]
  split_ifs with hoff hthrough
  · exact ⟨_, _, _, rfl, hzero, fun _ => rfl⟩
  · exact ⟨_, _, _, rfl, hbase, hbase.finite⟩
  · push Not at hthrough
    obtain ⟨-, -, hdt, htau⟩ := hthrough
    obtain ⟨x, hx, hxl⟩ := h.tau_s_filtered
    obtain ⟨y, hy, hyl⟩ := hbase
    rw [h.tau_s_filter_tau] at htau ⊢
    have hdt0 : 0 < dt := by
      have hlt : ¬ dt ≤ (1e-6 : ℝ) := hdt
      linarith [not_le.mp hlt]
    have hden : l.tau_s_filter_tau + dt ≠ 0 :=
      (add_pos_of_nonneg_of_pos l.tau_s_filter_tau_nonneg hdt0).ne'
    have hf : VecWithin l.tauS (c.tau_s_filtered + scale (c.tauSBase - c.tau_s_filtered)
        (math.constrain (num dt / (num l.tau_s_filter_tau + num dt)) 0 1)) := by
      rw [hx, hy, num_add, num_div_of_ne hden, zero_def, one_def,
        math.constrain_num_of_le zero_le_one, numVec_sub, scale_numVec, numVec_add]
      exact ⟨_, rfl, fun i => abs_lowpass_le (hxl i) (hyl i) (le_max_left _ _)
        (max_le zero_le_one (min_le_right _ _))⟩
    exact ⟨_, _, _, rfl, hf, hf.finite⟩

/-! ### The integral -/

theorem antiWindup_num (positive negative : Bool) (e : ℝ) :
    ∃ e' : ℝ, (if negative then math.max (if positive then math.min (num e) 0 else num e) 0
        else if positive then math.min (num e) 0 else num e) = num e' ∧
      (positive = true → e' ≤ 0) ∧ (negative = true → 0 ≤ e') := by
  rw [zero_def, math.min_num]
  cases positive <;> cases negative <;> simp

/-- One axis of the integral: it is in its limit and does not grow in a saturated direction. -/
theorem integralAxis_spec (hl : Configured l c) {i : Fin 3} {x : ℝ} (hx : c.rate_int i = num x)
    (hxl : |x| ≤ l.lim_int i) (e : ℝ) {dt : ℝ} (hdt : 0 < dt) :
    ∃ y, c.integralAxis (num e) (num dt) i = num y ∧ |y| ≤ l.lim_int i ∧
      (c.saturation_positive i = true → y ≤ x) ∧ (c.saturation_negative i = true → x ≤ y) := by
  obtain ⟨e', he, hpos, hneg⟩ :=
    antiWindup_num (c.saturation_positive i) (c.saturation_negative i) e
  have hrad : (400 * (Real.pi / 180) : ℝ) ≠ 0 := by positivity
  set k : ℝ := max 0 (1 - e' / (400 * (Real.pi / 180)) * (e' / (400 * (Real.pi / 180)))) with hk
  have hk0 : 0 ≤ k * l.gain_i i * dt :=
    mul_nonneg (mul_nonneg (le_max_left _ _) (l.gain_i_nonneg i)) hdt.le
  have hlim := l.lim_int_nonneg i
  refine ⟨max (-l.lim_int i) (min (x + k * l.gain_i i * e' * dt) (l.lim_int i)), ?_, ?_, ?_, ?_⟩
  · dsimp only [integralAxis]
    rw [he, math.radians_num, num_div_of_ne hrad, hl.gain_i, hl.lim_int, hx, zero_def, one_def,
      num_mul, num_sub, math.max_num, ← hk]
    exact math.constrain_num_of_le (neg_le_self hlim) _
  · exact abs_le.mpr ⟨le_max_left _ _, max_le (neg_le_self hlim) (min_le_right _ _)⟩
  · intro hsat
    have hstep : k * l.gain_i i * e' * dt ≤ 0 := by
      rw [mul_right_comm]
      exact mul_nonpos_of_nonneg_of_nonpos hk0 (hpos hsat)
    exact max_le (abs_le.mp hxl).1 ((min_le_left _ _).trans (add_le_of_nonpos_right hstep))
  · intro hsat
    have hstep : 0 ≤ k * l.gain_i i * e' * dt := by
      rw [mul_right_comm]
      exact mul_nonneg hk0 (hneg hsat)
    exact le_max_of_le_right (le_min (le_add_of_nonneg_right hstep) (abs_le.mp hxl).2)

/-! ### One cycle -/

theorem finiteVec_torquePhysical (h : Within l c) (rate rate_sp : Fin 3 → ℝ) {tau : Vector3f ℝ}
    (htau : FiniteVec tau) (landed : Bool) :
    FiniteVec (c.torquePhysical (numVec rate) (numVec rate_sp) tau landed) := by
  have hdist : FiniteVec (if landed then fun _ => 0 else c.eso.z2_est_dist) := by
    cases landed
    · exact h.z2
    · exact fun _ => rfl
  have hrate := finiteVec_numVec rate
  have hcoriolis := finiteVec_cross hrate (finiteVec_mulVec h.inertia hrate)
  have homega : FiniteVec (keepFinite c.omega_r_dot fun _ => 0) := finiteVec_keepFinite fun _ => rfl
  have hbeta : FiniteVec fun i => -keepFinite c.beta_v (fun _ => 0) i := by
    obtain ⟨b, hb⟩ := exists_numVec (finiteVec_keepFinite (v := c.beta_v) (w := fun _ => 0) fun _ =>
      rfl)
    rw [hb]
    exact fun _ => rfl
  have hinertia := finiteVec_mulVec h.inertia (homega.sub hdist)
  have hfeedback := h.gain_p.emult ((finiteVec_numVec rate_sp).sub hrate)
  have hintegral := h.rate_int.finite.scale h.integral_scale
  exact ((((hinertia.add hcoriolis).add hfeedback).add
    (hbeta.scale h.k_beta)).add hintegral).sub htau

section Observe

variable (rate rate_sp : Fin 3 → ℝ) {tau : Vector3f ℝ} {dt : ℝ}

theorem Within.observer (h : Within l c) (htau : FiniteVec tau) (dt : ℝ) :
    Within l { c with eso := c.eso.update (numVec rate) (mulVec c.inertia_inv
      (c.last_torque - cross (numVec rate) (mulVec c.inertia (numVec rate)) + tau)) (num dt) } := by
  have hrate := finiteVec_numVec rate
  have hcoriolis := finiteVec_cross hrate (finiteVec_mulVec h.inertia hrate)
  have hu := finiteVec_mulVec h.inertia_inv ((h.last_torque.sub hcoriolis).add htau)
  have herr := hrate.sub h.z1
  exact { h with
    z1 := h.z1.add (((hu.add h.z2).add (h.beta1.emult herr)).scale rfl)
    z2 := h.z2.add ((h.beta2.emult herr).scale rfl) }

theorem Within.resetLanded (h : Within l c) : Within l c.resetLanded :=
  { h with
    z1 := fun _ => rfl
    z2 := fun _ => rfl
    last_torque := fun _ => rfl
    rate_int := vecWithin_zero l.lim_int_nonneg
    tau_s_filtered := vecWithin_zero l.tauS_nonneg }

theorem updateIntegral_spec (h : Within l c) (e : Fin 3 → ℝ) (hdt : 0 < dt) :
    ∃ x y, c.rate_int = numVec x ∧ (c.updateIntegral (numVec e) (num dt)).rate_int = numVec y ∧
      ∀ i, |y i| ≤ l.lim_int i ∧ (c.saturation_positive i = true → y i ≤ x i) ∧
        (c.saturation_negative i = true → x i ≤ y i) := by
  obtain ⟨x, hx, hxl⟩ := h.rate_int
  choose y hy hyl using fun i =>
    integralAxis_spec h.toConfigured (congrFun hx i) (hxl i) (e i) hdt
  exact ⟨x, y, hx, funext hy, hyl⟩

/-- Flying, the integral is in its limit and does not grow in a saturated direction. -/
theorem observe_spec (h : Within l c) (htau : FiniteVec tau) (dt : ℝ) :
    Within l (c.observe (numVec rate) (numVec rate_sp) tau (num dt) false) ∧
    ∃ x y, c.rate_int = numVec x ∧
      (c.observe (numVec rate) (numVec rate_sp) tau (num dt) false).rate_int = numVec y ∧
      ∀ i, |y i| ≤ l.lim_int i ∧ (c.saturation_positive i = true → y i ≤ x i) ∧
        (c.saturation_negative i = true → x i ≤ y i) := by
  have hobs : Within l _ := h.observer rate htau dt
  simp only [observe, Bool.false_eq_true, if_false, isFinite_num, true_and]
  split_ifs with hdt
  · have hdt0 : 0 < dt := by
      have hlt : (1e-6 : ℝ) < dt := hdt
      linarith
    obtain ⟨x, y, hx, hy, hyl⟩ := updateIntegral_spec hobs (rate_sp - rate) hdt0
    exact ⟨{ hobs with rate_int := ⟨y, hy, fun i => (hyl i).1⟩ }, x, y, hx, hy, hyl⟩
  · obtain ⟨x, hx, hxl⟩ := h.rate_int
    exact ⟨hobs, x, x, hx, hx, fun i => ⟨hxl i, fun _ => le_rfl, fun _ => le_rfl⟩⟩

theorem observe_kept (rate rate_sp tau : Vector3f ℝ) (dt : Flt ℝ) :
    (c.observe rate rate_sp tau dt false).tau_s_filtered = c.tau_s_filtered := by
  simp only [observe, Bool.false_eq_true, if_false]
  split_ifs <;> rfl

end Observe

/-- What a cycle keeps to. -/
structure Bounded (l : Limits) (c : ESORateControl ℝ) (rate rate_sp : Fin 3 → ℝ) (dt : ℝ)
    (landed : Bool) : Prop where
  torque : ∃ t, (c.update (numVec rate) (numVec rate_sp) (num dt) landed).2 = numVec t ∧
    (∀ i, -1 ≤ t i ∧ t i ≤ 1) ∧
    (c.update (numVec rate) (numVec rate_sp) (num dt) landed).1.last_torque
      = numVec fun i => if landed then 0 else t i * l.torque
  integral : ∃ x y, c.rate_int = numVec x ∧
    (c.update (numVec rate) (numVec rate_sp) (num dt) landed).1.rate_int = numVec y ∧
    ∀ i, |y i| ≤ l.lim_int i ∧ (landed = false →
      (c.saturation_positive i = true → y i ≤ x i) ∧ (c.saturation_negative i = true → x i ≤ y i))
  tau_s_filtered :
    VecWithin l.tauS (c.update (numVec rate) (numVec rate_sp) (num dt) landed).1.tau_s_filtered
  reset : landed = true →
    (c.update (numVec rate) (numVec rate_sp) (num dt) landed).1 = c.resetLanded

theorem update_torque {c' : ESORateControl ℝ} (h : Within l c')
    (hmax : c.max_torque = num l.max_torque) (rate rate_sp : Fin 3 → ℝ) {tau : Vector3f ℝ}
    (htau : FiniteVec tau) (landed : Bool) :
    ∃ t : Fin 3 → ℝ, (fun i => math.constrain
        (c'.torquePhysical (numVec rate) (numVec rate_sp) tau landed i / math.max c.max_torque 1e-3)
        (-1) 1) = numVec t ∧ (∀ i, -1 ≤ t i ∧ t i ≤ 1) ∧
      scale (numVec t) (math.max c.max_torque 1e-3) = numVec fun i => t i * l.torque := by
  obtain ⟨p, hp⟩ := exists_numVec (finiteVec_torquePhysical h rate rate_sp htau landed)
  have hm : math.max c.max_torque 1e-3 = num l.torque := by
    rw [hmax, ofScientific_def, math.max_num]
    rfl
  have hone : (-1 : ℝ) ≤ 1 := by norm_num
  rw [hp, hm, one_def, neg_num]
  refine ⟨fun i => max (-1) (min (p i / l.torque) 1), funext fun i => ?_,
    fun i => ⟨le_max_left _ _, max_le hone (min_le_right _ _)⟩, rfl⟩
  rw [numVec_apply, num_div_of_ne l.torque_pos.ne', math.constrain_num_of_le hone]
  rfl

theorem update_landed (rate rate_sp : Fin 3 → ℝ) (dt : ℝ) :
    (c.update (numVec rate) (numVec rate_sp) (num dt) true).1 = c.resetLanded := by
  have hfilter : c.filterTauS (num dt) true
      = ({ c with tau_s_filtered := fun _ => 0, tau_s_filter_valid := false }, fun _ => 0) := by
    dsimp only [filterTauS]
    rw [if_pos (Or.inl rfl)]
  simp only [update, hfilter]
  rfl

theorem Within.update (h : Within l c) (rate rate_sp : Fin 3 → ℝ) (dt : ℝ) (landed : Bool) :
    Bounded l c rate rate_sp dt landed ∧
      Within l (c.update (numVec rate) (numVec rate_sp) (num dt) landed).1 := by
  obtain ⟨f, b, valid, hfilter, hf, hb⟩ := filterTauS_spec h dt landed
  have hfiltered : Within l { c with tau_s_filtered := f, tau_s_filter_valid := valid } :=
    { h with tau_s_filtered := hf }
  have hobs := hb.emult h.tau_s_obs_axis_scale
  cases landed with
  | true =>
    have hreset := update_landed (c := c) rate rate_sp dt
    have hwithin := h.resetLanded
    obtain ⟨t, ht, htb, -⟩ := update_torque hfiltered.resetLanded h.max_torque rate rate_sp
      (hb.emult h.tau_s_ctrl_axis_scale) true
    obtain ⟨x, hx, -⟩ := h.rate_int
    refine ⟨⟨⟨t, ?_, htb, ?_⟩, ⟨x, 0, hx, ?_, fun i => ⟨?_, nofun⟩⟩, ?_, fun _ => hreset⟩, ?_⟩
    · simp only [ESORateControl.update, hfilter]
      exact ht
    · rw [hreset]
      rfl
    · rw [hreset]
      rfl
    · rw [Pi.zero_apply, abs_zero]
      exact l.lim_int_nonneg i
    · rw [hreset]
      exact hwithin.tau_s_filtered
    · rwa [hreset]
  | false =>
    obtain ⟨hwithin, x, y, hx, hy, hyl⟩ :=
      observe_spec rate rate_sp hfiltered hobs dt
    obtain ⟨t, ht, htb, htorque⟩ := update_torque hwithin h.max_torque rate rate_sp
      (hb.emult hwithin.tau_s_ctrl_axis_scale) false
    have hkept := observe_kept (c := { c with tau_s_filtered := f, tau_s_filter_valid := valid })
      (numVec rate) (numVec rate_sp) (emult b c.tau_s_obs_axis_scale) (num dt)
    refine ⟨⟨⟨t, ?_, htb, ?_⟩, ⟨x, y, hx, ?_, fun i => ⟨(hyl i).1, fun _ => (hyl i).2⟩⟩, ?_, nofun⟩,
      ?_⟩
    · simp only [ESORateControl.update, hfilter]
      exact ht
    · simp only [ESORateControl.update, hfilter]
      exact (congrArg (scale · _) ht).trans htorque
    · simp only [ESORateControl.update, hfilter]
      exact hy
    · simp only [ESORateControl.update, hfilter, hkept]
      exact hf
    · have hlast := (congrArg (scale · (math.max c.max_torque 1e-3)) ht).trans htorque
      simp only [ESORateControl.update, hfilter]
      refine { hwithin with last_torque := fun i => ?_ }
      exact congrArg isFinite (congrFun hlast i)

/-! ### Runs -/

inductive Call where
  | setAttitudeAux (omega_r_dot beta_v tau_s : Vector3f ℝ)
  | setSaturationStatus (positive negative : Fin 3 → Bool)
  | setInertiaMatrix (inertia : Matrix (Fin 3) (Fin 3) ℝ)
  | resetIntegral
  | resetESO
  | update (rate rate_sp : Fin 3 → ℝ) (dt : ℝ) (landed : Bool)

section Run

variable (inv : Matrix3f ℝ → Option (Matrix3f ℝ))

noncomputable def step (c : ESORateControl ℝ) : Call → ESORateControl ℝ
  | .setAttitudeAux omega_r_dot beta_v tau_s => c.setAttitudeAux omega_r_dot beta_v tau_s
  | .setSaturationStatus positive negative => c.setSaturationStatus positive negative
  | .setInertiaMatrix inertia => c.setInertiaMatrix inv (numMat inertia)
  | .resetIntegral => c.resetIntegral
  | .resetESO => c.resetESO
  | .update rate rate_sp dt landed => (c.update (numVec rate) (numVec rate_sp) (num dt) landed).1

/-- The matrix library inverts a matrix of numbers to a matrix of numbers. -/
def InvFinite : Prop := ∀ M N, inv (numMat M) = some N → ∀ i, FiniteVec (N i)

/-- The bounds, where the call is an update. -/
def CallBounded (l : Limits) (c : ESORateControl ℝ) : Call → Prop
  | .update rate rate_sp dt landed => Bounded l c rate rate_sp dt landed
  | .setAttitudeAux _ _ _ | .setSaturationStatus _ _ | .setInertiaMatrix _ | .resetIntegral
  | .resetESO => True

variable {inv}

theorem Within.setInertiaMatrix (hinv : InvFinite inv) (h : Within l c)
    (M : Matrix (Fin 3) (Fin 3) ℝ) : Within l (c.setInertiaMatrix inv (numMat M)) := by
  have hM : ∀ i, FiniteVec (numMat M i) := fun i => finiteVec_numVec (M i)
  simp only [ESORateControl.setInertiaMatrix]
  refine { h with inertia := hM, inertia_inv := ?_ }
  cases hN : inv (numMat M) with
  | some N => exact hinv M N hN
  | none =>
    dsimp only
    split_ifs with hdiag
    · intro i j
      have hi : (1e-6 : Flt ℝ) < fabsf (numMat M i i) :=
        of_decide_eq_true (List.all_eq_true.mp hdiag i (List.mem_finRange i))
      have hne : M i i ≠ 0 := by
        intro hzero
        have habs : (1e-6 : ℝ) < |M i i| := hi
        rw [hzero, abs_zero] at habs
        norm_num at habs
      rw [diag]
      split_ifs
      · exact congrArg isFinite (num_div_of_ne (x := (1 : ℝ)) hne)
      · rfl
    · exact h.inertia_inv

theorem Within.step (hinv : InvFinite inv) (h : Within l c) (call : Call) :
    CallBounded l c call ∧ Within l (c.step inv call) := by
  cases call with
  | setAttitudeAux _ _ _ => exact ⟨trivial, { h with }⟩
  | setSaturationStatus _ _ => exact ⟨trivial, { h with }⟩
  | setInertiaMatrix M => exact ⟨trivial, h.setInertiaMatrix hinv M⟩
  | resetIntegral => exact ⟨trivial, { h with rate_int := vecWithin_zero l.lim_int_nonneg }⟩
  | resetESO =>
    exact ⟨trivial, { h with
      z1 := fun _ => rfl
      z2 := fun _ => rfl
      last_torque := fun _ => rfl }⟩
  | update rate rate_sp dt landed => exact h.update rate rate_sp dt landed

/-- The states are as constructed. -/
structure Fresh (l : Limits) (c : ESORateControl ℝ) : Prop extends Configured l c where
  inertia : ∀ i, FiniteVec (c.inertia i)
  inertia_inv : ∀ i, FiniteVec (c.inertia_inv i)
  z1 : c.eso.z1_est_omega = fun _ => 0
  z2 : c.eso.z2_est_dist = fun _ => 0
  last_torque : c.last_torque = fun _ => 0
  rate_int : c.rate_int = fun _ => 0
  tau_s_filtered : c.tau_s_filtered = fun _ => 0

theorem Fresh.within (h : Fresh l c) : Within l c :=
  { h with
    z1 := h.z1 ▸ fun _ => rfl
    z2 := h.z2 ▸ fun _ => rfl
    last_torque := h.last_torque ▸ fun _ => rfl
    rate_int := h.rate_int ▸ vecWithin_zero l.lim_int_nonneg
    tau_s_filtered := h.tau_s_filtered ▸ vecWithin_zero l.tauS_nonneg }

/-- **Every cycle of every run is in its bounds.** -/
theorem always_bounded (hinv : InvFinite inv) (h : Fresh l c) (calls : List Call) :
    Always (step inv) (CallBounded l) c calls :=
  always_of_invariant (I := Within l) (fun _ call hw _ => hw.step hinv call) h.within
    (always_true c calls)

end Run

/-! ### A landing -/

noncomputable def tunedLimits : Limits where
  gain_i _ := 0.2
  lim_int _ := 0.3
  max_torque := 1.5
  tau_s_scale := 1
  tau_s_axis_scale _ := 1
  tau_s_limit_nm := 0.3
  tau_s_filter_tau := 0.1
  gain_i_nonneg _ := by norm_num
  lim_int_nonneg _ := by norm_num
  tau_s_scale_nonneg := zero_le_one
  tau_s_limit_nm_nonneg := by norm_num
  tau_s_filter_tau_nonneg := by norm_num

noncomputable def tuned : ESORateControl ℝ :=
  (init ℝ).setGains (fun _ => num 0.15) (fun _ => num 0.2)
    |>.setIntegratorLimit (fun _ => num 0.3)
    |>.setTauSScale 1

theorem finiteVec_diag {d : Vector3f ℝ} (h : FiniteVec d) (i : Fin 3) : FiniteVec (diag d i) := by
  intro j
  rw [diag]
  split_ifs
  · exact h i
  · rfl

theorem fresh_tuned : Fresh tunedLimits tuned where
  gain_i := rfl
  lim_int := rfl
  max_torque := rfl
  tau_s_scale := if_pos (show (0 : ℝ) ≤ 1 from zero_le_one)
  tau_s_axis_scale := rfl
  tau_s_limit_nm := rfl
  tau_s_filter_tau := rfl
  gain_p _ := rfl
  k_beta := rfl
  integral_scale := rfl
  tau_s_obs_axis_scale _ := rfl
  tau_s_ctrl_axis_scale _ := rfl
  beta1 _ := rfl
  beta2 _ := rfl
  inertia := finiteVec_diag (finiteVec_three rfl rfl rfl)
  inertia_inv := finiteVec_diag (finiteVec_three rfl rfl rfl)
  z1 := rfl
  z2 := rfl
  last_torque := rfl
  rate_int := rfl
  tau_s_filtered := rfl

/-- A saturated cycle in flight, and a landing. -/
theorem always_bounded_landing :
    Always (step fun _ => none) (CallBounded tunedLimits) tuned
      [.setAttitudeAux (fun _ => 0) (fun _ => nan) (fun _ => 1),
        .setSaturationStatus (fun _ => true) (fun _ => false),
        .update (fun _ => 0) (fun _ => 1) 0.01 false,
        .update (fun _ => 0) (fun _ => 1) 0.01 true] :=
  always_bounded (fun _ _ h => absurd h (Option.some_ne_none _).symm) fresh_tuned _

end ESORateControl
