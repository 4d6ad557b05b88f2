/-
What the attitude controller guarantees.

* `qTilde_spec`, `betaV_of_qTilde` — the error is the vector part of the quaternion from the
  setpoint to the attitude, with the sign that makes its scalar part non-negative;
* `omegaR_within`, `Kept.step` — the rate and its derivative are bounded, whatever happens;
* **`attitudeLaw`** — all of it, over runs.
-/
import AerialManipulator.AttControl.AttitudeControl
import AerialManipulator.Lib.Mealy
import AerialManipulator.Lib.Trace
import AerialManipulator.Lib.UnitQuaternion

open WithNaN UnitQuaternion

namespace ESOAttitudeControl

/-- The conversions of the matrix library: a quaternion comes back up to its sign. -/
structure Conversions (dcm : Quatf ℝ → Matrix3f ℝ) (quat : Matrix3f ℝ → Quatf ℝ) : Prop where
  dcm : ∀ p, normSq p = 1 → dcm (numVec p) = numMat (rotation p)
  quat : ∀ p, normSq p = 1 →
    quat (numMat (rotation p)) = numVec p ∨ quat (numMat (rotation p)) = numVec (-p)

/-! ### Normalisation -/

noncomputable def unit (q : Fin 4 → ℝ) : Fin 4 → ℝ := (√(normSq q))⁻¹ • q

theorem normSq_pos {q : Fin 4 → ℝ} (hq : q ≠ 0) : 0 < normSq q :=
  lt_of_le_of_ne (normSq_nonneg q) fun h => hq (normSq_eq_zero.mp h.symm)

theorem normSq_unit {q : Fin 4 → ℝ} (hq : q ≠ 0) : normSq (unit q) = 1 := by
  rw [unit, normSq_smul, ← mul_inv, Real.mul_self_sqrt (normSq_nonneg q),
    inv_mul_cancel₀ (normSq_pos hq).ne']

theorem unit_smul {c : ℝ} (hc : c ≠ 0) (q : Fin 4 → ℝ) :
    unit (c • q) = unit q ∨ unit (c • q) = -unit q := by
  have hroot : √(c * c * normSq q) = |c| * √(normSq q) := by
    rw [Real.sqrt_mul (mul_self_nonneg c), Real.sqrt_mul_self_eq_abs]
  rw [unit, normSq_smul, hroot, smul_smul, mul_inv, mul_right_comm]
  rcases lt_or_gt_of_ne hc with hneg | hpos
  · refine .inr ?_
    rw [abs_of_neg hneg, inv_neg, neg_mul, inv_mul_cancel₀ hc, neg_mul, one_mul, neg_smul, unit]
  · refine .inl ?_
    rw [abs_of_pos hpos, inv_mul_cancel₀ hc, one_mul, unit]

theorem dot_self (q : Fin 4 → ℝ) : dot (numVec q) (numVec q) = num (normSq q) := dot_numVec q q

theorem normalized_numVec {q : Fin 4 → ℝ} (hq : q ≠ 0) :
    normalized (numVec q) = numVec (unit q) := by
  have hroot : √(normSq q) ≠ 0 := (Real.sqrt_pos.mpr (normSq_pos hq)).ne'
  funext i
  rw [normalized, length, dot_self, sqrtf_num (normSq_nonneg q), numVec_apply,
    num_div_of_ne hroot, numVec_apply, unit, Pi.smul_apply, smul_eq_mul, div_eq_inv_mul]

theorem normalizedOr_numVec {q : Fin 4 → ℝ} (hq : q ≠ 0) (other : Quatf ℝ) :
    normalizedOr (numVec q) other = numVec (unit q) := by
  have hpos : (0 : Flt ℝ) < num (normSq q) := normSq_pos hq
  rw [normalizedOr, dot_self, if_pos hpos, normalized_numVec hq]

theorem unit_of_normSq_eq_one {q : Fin 4 → ℝ} (hq : normSq q = 1) : unit q = q := by
  rw [unit, hq, Real.sqrt_one, inv_one, one_smul]

theorem ne_zero_of_normSq_eq_one {q : Fin 4 → ℝ} (hq : normSq q = 1) : q ≠ 0 := by
  rintro rfl
  exact zero_ne_one ((normSq_eq_zero.mpr rfl).symm.trans hq)

/-! ### The error of the attitude -/

variable {dcm : Quatf ℝ → Matrix3f ℝ} {quat : Matrix3f ℝ → Quatf ℝ} {c : ESOAttitudeControl ℝ}

/-- The setpoint is a rotation. -/
def HasSetpoint (c : ESOAttitudeControl ℝ) (d : Fin 4 → ℝ) : Prop :=
  c.attitude_setpoint_q = numVec d ∧ normSq d = 1

theorem hasSetpoint_setAttitudeSetpoint {d : Fin 4 → ℝ} (hd : d ≠ 0) (yawspeed : Flt ℝ) :
    (c.setAttitudeSetpoint (numVec d) yawspeed).HasSetpoint (unit d) :=
  ⟨normalized_numVec hd, normSq_unit hd⟩

def errorQuat (d p : Fin 4 → ℝ) : Fin 4 → ℝ := mul (conj d) p

theorem normSq_errorQuat {d p : Fin 4 → ℝ} (hd : normSq d = 1) (hp : normSq p = 1) :
    normSq (errorQuat d p) = 1 := by
  rw [errorQuat, normSq_mul, normSq_conj, hd, hp, one_mul]

/-- The error is the quaternion from the setpoint to the attitude, of the two that stand for one
rotation the one that turns by at most 180 degrees. -/
def IsError (d p e : Fin 4 → ℝ) : Prop := (e = errorQuat d p ∨ e = -errorQuat d p) ∧ 0 ≤ e 0

theorem qTilde_spec (h : Conversions dcm quat) {d p : Fin 4 → ℝ} (hd : c.HasSetpoint d)
    (hp : normSq p = 1) :
    ∃ e, c.qTilde dcm quat (numMat (rotation p)) = numVec e ∧ IsError d p e := by
  have htarget : c.qTarget = numVec d := by
    rw [qTarget, hd.1, normalizedOr_numVec (ne_zero_of_normSq_eq_one hd.2),
      unit_of_normSq_eq_one hd.2]
  have hmat : mulMat (transpose (dcm c.qTarget)) (numMat (rotation p)) =
      numMat (rotation (errorQuat d p)) := by
    rw [htarget, h.dcm d hd.2, errorQuat, rotation_mul, rotation_conj]
    exact mulMat_numMat _ _
  obtain ⟨e, he, hsign⟩ : ∃ e, quat (numMat (rotation (errorQuat d p))) = numVec e ∧
      (e = errorQuat d p ∨ e = -errorQuat d p) := by
    rcases h.quat _ (normSq_errorQuat hd.2 hp) with he | he
    · exact ⟨_, he, .inl rfl⟩
    · exact ⟨_, he, .inr rfl⟩
  have hlt : numVec e 0 < 0 ↔ e 0 < 0 := num_lt_num _ _
  rw [qTilde, hmat, he]
  split_ifs with hneg
  · refine ⟨-e, funext fun i => congrArg num (mul_neg_one (e i)), ?_, ?_⟩
    · rcases hsign with rfl | rfl
      · exact .inr rfl
      · exact .inl (neg_neg _)
    · exact neg_nonneg.mpr (hlt.mp hneg).le
  · exact ⟨e, rfl, hsign, not_lt.mp (mt hlt.mpr hneg)⟩

noncomputable def weight (w : ℝ) : ℝ := if 1e-4 < w then w else 1

theorem weight_pos (w : ℝ) : 0 < weight w := by
  rw [weight]
  split_ifs with hw
  · exact lt_trans (by norm_num) hw
  · exact one_pos

theorem qTilde_congr {c' : ESOAttitudeControl ℝ} (h : dcm c'.qTarget = dcm c.qTarget)
    (R : Matrix3f ℝ) :
    c'.qTilde dcm quat R = c.qTilde dcm quat R := by
  unfold qTilde
  rw [h]

theorem betaV_of_qTilde {R : Matrix3f ℝ} {e : Fin 4 → ℝ} (he : c.qTilde dcm quat R = numVec e)
    {w : ℝ} (hw : c.yaw_w = num w) : c.betaV dcm quat R = numVec ![e 1, e 2, e 3 * weight w] := by
  rw [betaV, he, hw, weight]
  have hlt : (1e-4 : Flt ℝ) < num w ↔ (1e-4 : ℝ) < w := num_lt_num _ _
  by_cases hc : (1e-4 : ℝ) < w
  · rw [if_pos (hlt.mpr hc), if_pos hc]
    exact numVec_three _ _ _
  · rw [if_neg (fun h => hc (hlt.mp h)), if_neg hc, mul_one]
    exact numVec_three _ _ _

/-! ### Bounds -/

noncomputable def maxDot (lim : Fin 3 → ℝ) (i : Fin 3) : ℝ := max (lim i / 0.1) 1

theorem maxDot_pos (lim : Fin 3 → ℝ) (i : Fin 3) : 0 < maxDot lim i :=
  lt_max_of_lt_right one_pos

/-- A vector of numbers in these bounds. -/
def VecBounded (m : Fin 3 → ℝ) (v : Vector3f ℝ) : Prop := ∃ x, v = numVec x ∧ ∀ i, |x i| ≤ m i

theorem vecBounded_iff {m : Fin 3 → ℝ} {v : Vector3f ℝ} :
    VecBounded m v ↔ ∀ i, ∃ x, v i = num x ∧ |x| ≤ m i := by
  constructor
  · rintro ⟨x, rfl, hx⟩ i
    exact ⟨x i, rfl, hx i⟩
  · intro h
    choose x hx hm using h
    exact ⟨x, funext hx, hm⟩

theorem vecBounded_zero {m : Fin 3 → ℝ} (hm : ∀ i, 0 ≤ m i) : VecBounded m fun _ => 0 :=
  vecBounded_iff.mpr fun i => ⟨0, rfl, by rw [abs_zero]; exact hm i⟩

theorem constrain_abs_le {m : ℝ} (hm : 0 ≤ m) (x : ℝ) :
    math.constrain (num x) (-num m) (num m) = num (max (-m) (min x m)) ∧
      |max (-m) (min x m)| ≤ m :=
  ⟨math.constrain_num_of_le (neg_le_self hm) x,
    abs_le.mpr ⟨le_max_left _ _, max_le (neg_le_self hm) (min_le_right _ _)⟩⟩

variable {lim : Fin 3 → ℝ}

theorem omegaR_bounded (hc : c.rate_limit = numVec lim) (hlim : ∀ i, 0 ≤ lim i) (R : Matrix3f ℝ)
    (beta_v : Vector3f ℝ) : VecBounded lim (c.omegaR R beta_v) := by
  refine vecBounded_iff.mpr fun i => ?_
  rw [omegaR, hc]
  dsimp only
  split_ifs with hfin
  · obtain ⟨x, hx⟩ := isFinite_iff.mp hfin
    obtain ⟨heq, hle⟩ := constrain_abs_le (hlim i) x
    rw [hx]
    exact ⟨_, heq, hle⟩
  · exact ⟨0, rfl, by rw [abs_zero]; exact hlim i⟩

theorem abs_filter_le {m a x l : ℝ} (ha : 0 ≤ a) (ha' : a ≤ 1) (hx : |x| ≤ m) (hl : |l| ≤ m) :
    |x + a * (l - x)| ≤ m := by
  rw [abs_le] at hx hl ⊢
  constructor <;> nlinarith

theorem omegaRDot_bounded (hc : c.rate_limit = numVec lim) {o v x : Fin 3 → ℝ}
    (hprev : c.omega_r_prev = numVec v) (hdot : c.omega_r_dot = numVec x)
    (hx : ∀ i, |x i| ≤ maxDot lim i) {t : ℝ} (ht : 1e-4 < t) :
    VecBounded (maxDot lim) (c.omegaRDot (numVec o) (num t)) := by
  refine vecBounded_iff.mpr fun i => ?_
  have htpos : 0 < t := lt_trans (by norm_num) ht
  have halpha : math.constrain (num t / (0.02 + num t)) 0 1 =
      num (max 0 (min (t / (0.02 + t)) 1)) := by
    have hne : (0.02 : ℝ) + t ≠ 0 := by positivity
    have hdiv : (num t : Flt ℝ) / (0.02 + num t) = num (t / (0.02 + t)) := num_div_of_ne hne
    rw [hdiv]
    exact math.constrain_num_of_le zero_le_one _
  have hmax : math.max (num (lim i) / 0.1) 1 = num (maxDot lim i) := by
    have hdiv : (num (lim i) : Flt ℝ) / 0.1 = num (lim i / 0.1) := num_div_of_ne (by norm_num)
    rw [hdiv]
    exact math.max_num _ _
  have hraw : (num (o i) - num (v i)) / num t = (num ((o i - v i) / t) : Flt ℝ) :=
    num_div_of_ne htpos.ne'
  obtain ⟨heq, hle⟩ := constrain_abs_le (maxDot_pos lim i).le ((o i - v i) / t)
  simp only [omegaRDot, hc, hprev, hdot, numVec_apply, hraw, halpha, hmax, heq, isFinite_num,
    if_true]
  exact ⟨_, rfl, abs_filter_le (le_max_left _ _) (max_le zero_le_one (min_le_right _ _)) (hx i) hle⟩

/-- What a call hands to the next one. -/
structure Kept (lim : Fin 3 → ℝ) (c : ESOAttitudeControl ℝ) : Prop where
  rate_limit : c.rate_limit = numVec lim
  omega_r_prev : ∃ v, c.omega_r_prev = numVec v
  omega_r_dot : VecBounded (maxDot lim) c.omega_r_dot

theorem Kept.updateDerivative (h : Kept lim c) (o : Fin 3 → ℝ) (dt : Flt ℝ) :
    Kept lim (c.updateDerivative (numVec o) dt) := by
  have hzero := vecBounded_zero fun i => (maxDot_pos lim i).le
  rw [ESOAttitudeControl.updateDerivative]
  split_ifs with hvalid hdt
  · exact ⟨h.rate_limit, ⟨o, rfl⟩, hzero⟩
  · obtain ⟨t, rfl⟩ := isFinite_iff.mp hdt.1
    obtain ⟨v, hv⟩ := h.omega_r_prev
    obtain ⟨x, hx, hbound⟩ := h.omega_r_dot
    exact ⟨h.rate_limit, ⟨o, rfl⟩, omegaRDot_bounded h.rate_limit hv hx hbound hdt.2⟩
  · exact ⟨h.rate_limit, ⟨o, rfl⟩, hzero⟩

theorem Kept.update (h : Kept lim c) (hlim : ∀ i, 0 ≤ lim i) (q : Quatf ℝ) (dt : Flt ℝ) :
    Kept lim (c.update dcm quat q dt).1 ∧ VecBounded lim (c.update dcm quat q dt).2 := by
  have hrate := omegaR_bounded h.rate_limit hlim (dcm (qCurr q)) (c.betaV dcm quat (dcm (qCurr q)))
  refine ⟨?_, hrate⟩
  obtain ⟨o, ho, -⟩ := hrate
  have hkept : Kept lim { c with
      beta_v := c.betaV dcm quat (dcm (qCurr q))
      tau_s := c.tauS (dcm (qCurr q)) } := ⟨h.rate_limit, h.omega_r_prev, h.omega_r_dot⟩
  rw [ESOAttitudeControl.update, ho]
  exact hkept.updateDerivative o dt

/-- What is published is bounded. -/
def Output.Bounded (lim : Fin 3 → ℝ) (out : Output ℝ) : Prop :=
  VecBounded lim out.omega_r ∧ VecBounded (maxDot lim) out.omega_r_dot

theorem Kept.step (h : Kept lim c) (hlim : ∀ i, 0 ≤ lim i) (o : Op ℝ) :
    Kept lim (c.step dcm quat o).1 ∧ ∀ out, (c.step dcm quat o).2 = some out → out.Bounded lim := by
  cases o with
  | update q dt =>
    have hupdate : Kept lim (c.update dcm quat q dt).1 ∧
        VecBounded lim (c.update dcm quat q dt).2 :=
      h.update hlim q dt
    obtain ⟨hkept, hrate⟩ := hupdate
    refine ⟨hkept, ?_⟩
    rintro out hout
    rw [← Option.some.inj hout]
    exact ⟨hrate, hkept.omega_r_dot⟩
  | resetOmegaRDerivative =>
    refine ⟨⟨h.rate_limit, ⟨0, rfl⟩, vecBounded_zero fun i => (maxDot_pos lim i).le⟩, ?_⟩
    exact fun out hout => absurd hout (Option.some_ne_none out).symm
  | _ =>
    refine ⟨⟨h.rate_limit, h.omega_r_prev, h.omega_r_dot⟩, ?_⟩
    exact fun out hout => absurd hout (Option.some_ne_none out).symm

/-! ### Signs and norms of quaternions -/

/-- The same quaternion, or a multiple of it. -/
def Alike (q q' : Quatf ℝ) : Prop :=
  q' = q ∨ ∃ (x : Fin 4 → ℝ) (k : ℝ), k ≠ 0 ∧ q = numVec x ∧ q' = numVec (k • x)

variable {q q' : Quatf ℝ}

theorem Alike.cases (h : Alike q q') : q' = q ∨
    ∃ (x : Fin 4 → ℝ) (k : ℝ), x ≠ 0 ∧ k ≠ 0 ∧ q = numVec x ∧ q' = numVec (k • x) := by
  rcases h with h | ⟨x, k, hk, hq, hq'⟩
  · exact .inl h
  · by_cases hx : x = 0
    · rw [hx] at hq hq'
      exact .inl (by rw [hq', hq, smul_zero])
    · exact .inr ⟨x, k, hx, hk, hq, hq'⟩

theorem Alike.dcm_eq (h : Conversions dcm quat) (hq : Alike q q') :
    dcm (normalizedOr q' q') = dcm (normalizedOr q q) ∧ dcm (qCurr q') = dcm (qCurr q) := by
  rcases hq.cases with rfl | ⟨x, k, hx, hk, rfl, rfl⟩
  · exact ⟨rfl, rfl⟩
  · have hkx : k • x ≠ 0 := smul_ne_zero hk hx
    have hrot : dcm (numVec (unit (k • x))) = dcm (numVec (unit x)) := by
      rw [h.dcm _ (normSq_unit hkx), h.dcm _ (normSq_unit hx)]
      rcases unit_smul hk x with heq | heq
      · rw [heq]
      · rw [heq, rotation_neg]
    rw [qCurr, qCurr, normalizedOr_numVec hkx, normalizedOr_numVec hx, normalizedOr_numVec hkx,
      normalizedOr_numVec hx]
    exact ⟨hrot, hrot⟩

theorem Alike.normalized (hq : Alike q q') : Alike (normalized q) (normalized q') := by
  rcases hq.cases with rfl | ⟨x, k, hx, hk, rfl, rfl⟩
  · exact .inl rfl
  · rw [normalized_numVec hx, normalized_numVec (smul_ne_zero hk hx)]
    rcases unit_smul hk x with heq | heq
    · exact .inl (by rw [heq])
    · exact .inr ⟨unit x, -1, by norm_num, rfl, by rw [heq, neg_one_smul]⟩

theorem quatMul_numVec (p x : Fin 4 → ℝ) : quatMul (numVec p) (numVec x) = numVec (mul p x) := by
  funext i
  fin_cases i <;> rfl

theorem mul_smul (k : ℝ) (p x : Fin 4 → ℝ) : mul p (k • x) = k • mul p x := by
  funext i
  fin_cases i <;> simp [mul] <;> ring

theorem quatMul_of_nan {p : Quatf ℝ} {i : Fin 4} (hp : p i = nan) (q : Quatf ℝ) :
    quatMul p q = fun _ => nan := by
  funext j
  fin_cases i <;> fin_cases j <;> simp_all [quatMul]

theorem Alike.quatMul (p : Quatf ℝ) (hq : Alike q q') : Alike (quatMul p q) (quatMul p q') := by
  rcases hq with rfl | ⟨x, k, hk, rfl, rfl⟩
  · exact .inl rfl
  · by_cases hp : FiniteVec p
    · obtain ⟨e, rfl⟩ := exists_numVec hp
      exact .inr ⟨mul e x, k, hk, quatMul_numVec e x, by rw [quatMul_numVec, mul_smul]⟩
    · obtain ⟨i, hi⟩ := not_forall.mp hp
      have hnan := not_isFinite_iff.mp (Bool.eq_false_iff.mpr hi)
      exact .inl (by rw [quatMul_of_nan hnan, quatMul_of_nan hnan])

/-- Two controllers that differ in the sign or the norm of the setpoint. -/
def Twin (c c' : ESOAttitudeControl ℝ) : Prop :=
  ∃ q', c' = { c with attitude_setpoint_q := q' } ∧ Alike c.attitude_setpoint_q q'

theorem updateDerivative_setpoint (c : ESOAttitudeControl ℝ) (q : Quatf ℝ) (o : Vector3f ℝ)
    (dt : Flt ℝ) :
    ({ c with attitude_setpoint_q := q } : ESOAttitudeControl ℝ).updateDerivative o dt =
      { c.updateDerivative o dt with attitude_setpoint_q := q } ∧
    (c.updateDerivative o dt).attitude_setpoint_q = c.attitude_setpoint_q ∧
    (c.updateDerivative o dt).beta_v = c.beta_v := by
  simp only [updateDerivative]
  split_ifs <;> exact ⟨rfl, rfl, rfl⟩

theorem Twin.update (h : Conversions dcm quat) {c' : ESOAttitudeControl ℝ} (hc : Twin c c')
    (hq : Alike q q') (dt : Flt ℝ) :
    Twin (c.update dcm quat q dt).1 (c'.update dcm quat q' dt).1 ∧
      (c'.step dcm quat (.update q' dt)).2 = (c.step dcm quat (.update q dt)).2 := by
  obtain ⟨s, rfl, hs⟩ := hc
  have hcurr : dcm (qCurr q') = dcm (qCurr q) := (hq.dcm_eq h).2
  have htarget : dcm (normalizedOr s s) =
      dcm (normalizedOr c.attitude_setpoint_q c.attitude_setpoint_q) := (hs.dcm_eq h).1
  have hbeta : ∀ R, betaV dcm quat { c with attitude_setpoint_q := s } R = c.betaV dcm quat R := by
    intro R
    unfold betaV
    rw [qTilde_congr htarget]
  have hupdate : ESOAttitudeControl.update dcm quat { c with attitude_setpoint_q := s } q' dt =
      ({ (c.update dcm quat q dt).1 with attitude_setpoint_q := s },
        (c.update dcm quat q dt).2) := by
    simp only [ESOAttitudeControl.update, hcurr, hbeta]
    exact Prod.ext (updateDerivative_setpoint { c with
      beta_v := c.betaV dcm quat (dcm (qCurr q))
      tau_s := c.tauS (dcm (qCurr q)) } s _ dt).1 rfl
  have hsame : (c.update dcm quat q dt).1.attitude_setpoint_q = c.attitude_setpoint_q :=
    (updateDerivative_setpoint _ s _ dt).2.1
  refine ⟨⟨s, by rw [hupdate], hsame ▸ hs⟩, ?_⟩
  simp only [ESOAttitudeControl.step, hupdate]

/-- The same calls, but for the signs and norms of attitudes and setpoints. -/
inductive AlikeOp : Op ℝ → Op ℝ → Prop
  | same (o : Op ℝ) : AlikeOp o o
  | setAttitudeSetpoint {qd qd' : Quatf ℝ} (h : Alike qd qd') (yawspeed_setpoint : Flt ℝ) :
      AlikeOp (.setAttitudeSetpoint qd yawspeed_setpoint)
        (.setAttitudeSetpoint qd' yawspeed_setpoint)
  | update {q q' : Quatf ℝ} (h : Alike q q') (dt : Flt ℝ) : AlikeOp (.update q dt) (.update q' dt)

theorem Twin.setAttitudeSetpoint {c' : ESOAttitudeControl ℝ} (hc : Twin c c') (hq : Alike q q')
    (yawspeed : Flt ℝ) :
    Twin (c.setAttitudeSetpoint q yawspeed) (c'.setAttitudeSetpoint q' yawspeed) := by
  obtain ⟨s, rfl, -⟩ := hc
  exact ⟨_, rfl, hq.normalized⟩

theorem Twin.step (h : Conversions dcm quat) {c' : ESOAttitudeControl ℝ} (hc : Twin c c')
    {o o' : Op ℝ} (ho : AlikeOp o o') :
    Twin (c.step dcm quat o).1 (c'.step dcm quat o').1 ∧
      (c'.step dcm quat o').2 = (c.step dcm quat o).2 := by
  cases ho with
  | setAttitudeSetpoint hq yawspeed => exact ⟨hc.setAttitudeSetpoint hq yawspeed, rfl⟩
  | update hq dt => exact hc.update h hq dt
  | same =>
    cases o with
    | setAttitudeSetpoint qd yawspeed => exact ⟨hc.setAttitudeSetpoint (.inl rfl) yawspeed, rfl⟩
    | update q dt => exact hc.update h (.inl rfl) dt
    | adaptAttitudeSetpoint q_delta =>
      obtain ⟨s, rfl, hs⟩ := hc
      exact ⟨⟨_, rfl, (hs.quatMul q_delta).normalized⟩, rfl⟩
    | setTauSParameters mass_total com_offset =>
      obtain ⟨s, rfl, hs⟩ := hc
      exact ⟨⟨s, rfl, hs⟩, rfl⟩
    | resetOmegaRDerivative =>
      obtain ⟨s, rfl, hs⟩ := hc
      exact ⟨⟨s, rfl, hs⟩, rfl⟩

theorem Twin.feed (h : Conversions dcm quat) {c' : ESOAttitudeControl ℝ} (hc : Twin c c')
    {os os' : List (Op ℝ)} (hos : List.Forall₂ AlikeOp os os') :
    (Mealy.feed (ESOAttitudeControl.step dcm quat) c' os').2 =
      (Mealy.feed (ESOAttitudeControl.step dcm quat) c os).2 := by
  induction hos generalizing c c' with
  | nil => rfl
  | cons ho _ ih =>
    obtain ⟨htwin, hout⟩ := hc.step h ho
    rw [Mealy.feed_cons, Mealy.feed_cons, hout, ih htwin]

/-! ### The direction of the rate -/

/-- The gains, the limits and the weight of the yaw component. -/
structure Configured (g lim : Fin 3 → ℝ) (w : ℝ) (c : ESOAttitudeControl ℝ) : Prop where
  proportional_gain : c.proportional_gain = numVec g
  rate_limit : c.rate_limit = numVec lim
  yaw_w : c.yaw_w = num w

variable {g : Fin 3 → ℝ} {w : ℝ}

theorem Configured.updateDerivative (h : Configured g lim w c) (o : Vector3f ℝ) (dt : Flt ℝ) :
    Configured g lim w (c.updateDerivative o dt) := by
  rw [ESOAttitudeControl.updateDerivative]
  split_ifs <;> exact ⟨h.proportional_gain, h.rate_limit, h.yaw_w⟩

theorem Configured.step (h : Configured g lim w c) (o : Op ℝ) :
    Configured g lim w (c.step dcm quat o).1 := by
  cases o with
  | update q dt =>
    have hconf : Configured g lim w { c with
        beta_v := c.betaV dcm quat (dcm (qCurr q))
        tau_s := c.tauS (dcm (qCurr q)) } := ⟨h.proportional_gain, h.rate_limit, h.yaw_w⟩
    exact hconf.updateDerivative _ dt
  | _ => exact ⟨h.proportional_gain, h.rate_limit, h.yaw_w⟩

theorem omegaR_numVec (h : Configured g lim w c) (hlim : ∀ i, 0 ≤ lim i)
    (hyaw : c.yawspeed_setpoint = 0) (A : Matrix (Fin 3) (Fin 3) ℝ) (b : Fin 3 → ℝ) :
    c.omegaR (numMat A) (numVec b) =
      numVec fun i => max (-lim i) (min (-(2 * (g i * b i))) (lim i)) := by
  have htarget : c.targetOmegaWorld = numVec 0 := by
    rw [targetOmegaWorld, hyaw, isFinite_zero, if_pos rfl]
    funext i
    fin_cases i <;> rfl
  have hworld : mulVec (transpose (numMat A)) (numVec 0) = numVec 0 := by
    have hmul := mulVec_numMat A.transpose 0
    simp only [Pi.zero_apply, mul_zero, Finset.sum_const_zero] at hmul
    exact hmul
  have hrate : (numVec 0 : Vector3f ℝ) - scale (emult (numVec g) (numVec b)) (1 + 1) =
      numVec fun i => -(2 * (g i * b i)) := funext fun i => congrArg num (by
    rw [Pi.zero_apply]
    ring)
  funext i
  simp only [omegaR, htarget, hworld, h.proportional_gain, h.rate_limit, hrate, numVec_apply,
    isFinite_num, if_true]
  exact (constrain_abs_le (hlim i) _).1

/-- The number points the other way. -/
def Opposite (o b : ℝ) : Prop := (0 < b → o < 0) ∧ (b < 0 → 0 < o) ∧ (b = 0 → o = 0)

theorem opposite_limited {k m : ℝ} (hk : 0 < k) (hm : 0 < m) (b : ℝ) :
    Opposite (max (-m) (min (-(2 * (k * b))) m)) b := by
  refine ⟨fun hb => ?_, fun hb => ?_, fun hb => ?_⟩
  · have hkb := mul_pos hk hb
    exact max_lt (neg_lt_zero.mpr hm) (min_lt_of_left_lt (by linarith))
  · have hkb := mul_neg_of_pos_of_neg hk hb
    exact lt_max_of_lt_right (lt_min (by linarith) hm)
  · rw [hb, mul_zero, mul_zero, neg_zero, min_eq_left hm.le, max_eq_right (neg_nonpos.mpr hm.le)]

theorem Opposite.eq_zero_iff {o b : ℝ} (h : Opposite o b) : o = 0 ↔ b = 0 := by
  refine ⟨fun ho => ?_, h.2.2⟩
  rcases lt_trichotomy b 0 with hb | hb | hb
  · exact absurd ho (h.2.1 hb).ne'
  · exact hb
  · exact absurd ho (h.1 hb).ne

theorem Opposite.of_mul {o b k : ℝ} (h : Opposite o (b * k)) (hk : 0 < k) : Opposite o b :=
  ⟨fun hb => h.1 (mul_pos hb hk), fun hb => h.2.1 (mul_neg_of_neg_of_pos hb hk),
    fun hb => h.2.2 (mul_eq_zero_of_left hb k)⟩

theorem errorQuat_vec_eq_zero {d p e : Fin 4 → ℝ} (hd : normSq d = 1) (hp : normSq p = 1)
    (he : e = errorQuat d p ∨ e = -errorQuat d p) :
    (e 1 = 0 ∧ e 2 = 0 ∧ e 3 = 0) ↔ rotation d = rotation p := by
  have hunit : normSq e = 1 := by
    rcases he with rfl | rfl
    · exact normSq_errorQuat hd hp
    · rw [normSq_neg, normSq_errorQuat hd hp]
  have hrot : rotation e = (rotation d).transpose * rotation p := by
    rcases he with rfl | rfl
    · rw [errorQuat, rotation_mul, rotation_conj]
    · rw [rotation_neg, errorQuat, rotation_mul, rotation_conj]
  have horth : ∀ {q : Fin 4 → ℝ}, normSq q = 1 → (rotation q).transpose * rotation q = 1 := by
    intro q hq
    have hone : mul (conj q) q = ![1, 0, 0, 0] := by
      rw [normSq_eq] at hq
      funext i
      fin_cases i <;> simp [mul, conj] <;> linarith
    rw [← rotation_conj, ← rotation_mul, hone, rotation_one]
  rw [← rotation_eq_one_iff hunit, hrot]
  constructor
  · intro h
    calc rotation d = rotation d * ((rotation d).transpose * rotation p) := by rw [h,
      Matrix.mul_one]
      _ = (rotation d * (rotation d).transpose) * rotation p := (Matrix.mul_assoc _ _ _).symm
      _ = rotation p := by rw [mul_eq_one_comm.mp (horth hd), Matrix.one_mul]
  · intro h
    rw [h, horth hp]

/-- **The direction of the rate**: against the error in each axis, and zero only if the setpoint is
reached. -/
theorem update_direction (h : Conversions dcm quat) (hconf : Configured g lim w c)
    (hg : ∀ i, 0 < g i) (hlim : ∀ i, 0 < lim i) {d q : Fin 4 → ℝ} (hd : c.HasSetpoint d)
    (hq : q ≠ 0) (hyaw : c.yawspeed_setpoint = 0) (dt : Flt ℝ) :
    ∃ (e : Fin 4 → ℝ) (o : Fin 3 → ℝ), IsError d (unit q) e ∧
      (c.update dcm quat (numVec q) dt).1.beta_v = numVec ![e 1, e 2, e 3 * weight w] ∧
      (c.update dcm quat (numVec q) dt).2 = numVec o ∧ (∀ i, Opposite (o i) (e i.succ)) ∧
      (o = 0 ↔ rotation d = rotation (unit q)) := by
  have hp := normSq_unit hq
  obtain ⟨e, hqTilde, hsign⟩ := qTilde_spec h hd hp
  have he := betaV_of_qTilde hqTilde hconf.yaw_w
  have hR : dcm (qCurr (numVec q)) = numMat (rotation (unit q)) := by
    rw [qCurr, normalizedOr_numVec hq, h.dcm _ hp]
  have hrate := omegaR_numVec hconf (fun i => (hlim i).le) hyaw (rotation (unit q))
    ![e 1, e 2, e 3 * weight w]
  have hopposite := fun i => opposite_limited (hg i) (hlim i) (![e 1, e 2, e 3 * weight w] i)
  refine ⟨e, fun i => max (-lim i) (min (-(2 * (g i * ![e 1, e 2, e 3 * weight w] i))) (lim i)),
    hsign, ?_, ?_, fun i => ?_, ?_⟩
  · rw [ESOAttitudeControl.update, hR, he]
    exact (updateDerivative_setpoint _ c.attitude_setpoint_q _ dt).2.2
  · rw [ESOAttitudeControl.update, hR, he]
    exact hrate
  · fin_cases i
    exacts [hopposite 0, hopposite 1, (hopposite 2).of_mul (weight_pos w)]
  · rw [← errorQuat_vec_eq_zero hd.2 hp hsign.1]
    have hzero := fun i => (hopposite i).eq_zero_iff
    constructor
    · intro ho
      refine ⟨(hzero 0).mp (congrFun ho 0), (hzero 1).mp (congrFun ho 1), ?_⟩
      exact (mul_eq_zero.mp ((hzero 2).mp (congrFun ho 2))).resolve_right (weight_pos w).ne'
    · rintro ⟨h1, h2, h3⟩
      funext i
      refine (hzero i).mpr ?_
      fin_cases i
      exacts [h1, h2, mul_eq_zero_of_left h3 _]

/-! ### Runs -/

noncomputable def configured (P lim : Fin 3 → ℝ) (yaw_weight : ℝ) : ESOAttitudeControl ℝ :=
  ((init ℝ).setProportionalGain (numVec P) (num yaw_weight)).setRateLimit (numVec lim)

noncomputable def clampWeight (yaw_weight : ℝ) : ℝ := max 0 (min yaw_weight 1)

theorem configured_spec (P lim : Fin 3 → ℝ) (yaw_weight : ℝ) :
    Configured ![P 0, P 1, P 2 / weight (clampWeight yaw_weight)] lim (clampWeight yaw_weight)
      (configured P lim yaw_weight) := by
  have hw : math.constrain (num yaw_weight) 0 1 = (num (clampWeight yaw_weight) : Flt ℝ) :=
    math.constrain_num_of_le zero_le_one _
  have hgain : (if 1e-4 < (num (clampWeight yaw_weight) : Flt ℝ) then
      setZ (numVec P) (numVec P 2 / num (clampWeight yaw_weight)) else numVec P) =
      numVec ![P 0, P 1, P 2 / weight (clampWeight yaw_weight)] := by
    have hlt : (1e-4 : Flt ℝ) < num (clampWeight yaw_weight) ↔
        (1e-4 : ℝ) < clampWeight yaw_weight :=
      num_lt_num _ _
    rw [weight]
    by_cases hc : (1e-4 : ℝ) < clampWeight yaw_weight
    · have hne : clampWeight yaw_weight ≠ 0 := (lt_trans (by norm_num) hc).ne'
      rw [if_pos (hlt.mpr hc), if_pos hc, numVec_apply, num_div_of_ne hne]
      exact numVec_three _ _ _
    · rw [if_neg (fun h => hc (hlt.mp h)), if_neg hc, div_one]
      funext i
      fin_cases i <;> rfl
  refine ⟨?_, rfl, hw⟩
  rw [configured, setRateLimit, setProportionalGain, hw]
  exact hgain

/-- The laws of the attitude controller, over any calls: what is published is bounded; the signs and
norms of the quaternions do not matter; and if nothing is fed forward, each component of the rate is
opposite to that of the error, which is the vector part of the quaternion from the setpoint to the
attitude that has a non-negative scalar part (with the yaw component weighted), and there is no rate
only where setpoint and attitude are the same rotation. -/
structure AttitudeLaw (dcm : Quatf ℝ → Matrix3f ℝ) (quat : Matrix3f ℝ → Quatf ℝ) (P lim : Fin 3 → ℝ)
    (yaw_weight : ℝ) : Prop where
  bounded : ∀ os : List (Op ℝ), Trace.Always (fun c o => (step dcm quat c o).1)
    (fun c o => ∀ out, (step dcm quat c o).2 = some out → out.Bounded lim)
    (configured P lim yaw_weight) os
  signs : ∀ os os', List.Forall₂ AlikeOp os os' →
    (Mealy.feed (step dcm quat) (configured P lim yaw_weight) os').2 =
      (Mealy.feed (step dcm quat) (configured P lim yaw_weight) os).2
  direction : (∀ i, 0 < P i) → (∀ i, 0 < lim i) →
    ∀ (os : List (Op ℝ)) (d q : Fin 4 → ℝ) (dt : Flt ℝ),
    d ≠ 0 → q ≠ 0 → ∃ (e : Fin 4 → ℝ) (o : Fin 3 → ℝ), IsError (unit d) (unit q) e ∧
      (((Trace.run (fun c o => (step dcm quat c o).1) (configured P lim yaw_weight)
        os).setAttitudeSetpoint (numVec d) 0).update dcm quat (numVec q) dt).1.beta_v =
          numVec ![e 1, e 2, e 3 * weight (clampWeight yaw_weight)] ∧
      (((Trace.run (fun c o => (step dcm quat c o).1) (configured P lim yaw_weight)
        os).setAttitudeSetpoint (numVec d) 0).update dcm quat (numVec q) dt).2 = numVec o ∧
      (∀ i, Opposite (o i) (e i.succ)) ∧ (o = 0 ↔ rotation (unit d) = rotation (unit q))

/-- **The attitude controller**, with conversions that are correct. -/
theorem attitudeLaw (h : Conversions dcm quat) (P : Fin 3 → ℝ) (hlim : ∀ i, 0 ≤ lim i)
    (yaw_weight : ℝ) : AttitudeLaw dcm quat P lim yaw_weight := by
  have hconf := configured_spec P lim yaw_weight
  refine ⟨fun os => ?_, fun os os' hos => ?_, fun hP hlimpos os d q dt hd hq => ?_⟩
  · have hkept : Kept lim (configured P lim yaw_weight) :=
      ⟨rfl, ⟨0, rfl⟩, vecBounded_zero fun i => (maxDot_pos lim i).le⟩
    refine Trace.always_of_invariant (I := Kept lim) (C := fun _ _ => True)
      (fun c o hc _ => ?_) hkept
      (Trace.always_true _ _)
    exact (hc.step hlim o).symm
  · have htwin : Twin (configured P lim yaw_weight) (configured P lim yaw_weight) :=
      ⟨(configured P lim yaw_weight).attitude_setpoint_q, rfl, .inl rfl⟩
    exact htwin.feed h hos
  · have hrun := Trace.run_of_invariant (I := Configured _ lim (clampWeight yaw_weight))
      (C := fun _ _ => True) (fun c o hc _ =>
        (hc.step o : Configured _ lim _ (c.step dcm quat o).1)) hconf
      (Trace.always_true _ os)
    have hgain : ∀ i, 0 < ![P 0, P 1, P 2 / weight (clampWeight yaw_weight)] i := by
      intro i
      fin_cases i
      exacts [hP 0, hP 1, div_pos (hP 2) (weight_pos _)]
    have hset : Configured _ lim (clampWeight yaw_weight)
        ((Trace.run (fun c o => (step dcm quat c o).1) (configured P lim yaw_weight)
          os).setAttitudeSetpoint (numVec d) 0) :=
      ⟨hrun.proportional_gain, hrun.rate_limit, hrun.yaw_w⟩
    exact update_direction h hset hgain hlimpos (hasSetpoint_setAttitudeSetpoint hd 0) hq rfl dt

/-! ### The conversions -/

def toNum : Flt ℝ → ℝ
  | num x => x
  | nan => 0

def standardDcm (q : Quatf ℝ) : Matrix3f ℝ := numMat (rotation fun i => toNum (q i))

noncomputable def standardQuat (A : Matrix3f ℝ) : Quatf ℝ :=
  numVec (ofRotation (Matrix.of fun i j => toNum (A i j)))

theorem conversions_standard : Conversions standardDcm standardQuat := by
  refine ⟨fun p _ => rfl, fun p hp => ?_⟩
  have hsame : standardQuat (numMat (rotation p)) = numVec (ofRotation (rotation p)) := rfl
  rw [hsame]
  rcases ofRotation_rotation hp with heq | heq
  · exact .inl (by rw [heq])
  · exact .inr (by rw [heq])

theorem attitudeLaw_standard : AttitudeLaw standardDcm standardQuat ![6, 6, 3] ![3, 3, 2] 0.4 :=
  attitudeLaw conversions_standard _ (fun i => by fin_cases i <;> simp) _

end ESOAttitudeControl
