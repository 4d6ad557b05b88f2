/-
`ControlMath`: vector helpers of the position controller.

`addIfNotNan` and `setZeroIfNanVector3f` treat a `nan` setpoint as "not
commanded".  `constrainXY` limits a sum of two horizontal vectors, `limitTilt`
limits the angle of the thrust direction, and `thrustToAttitude` turns a thrust
vector into an attitude setpoint.

Over the reals this file decides when the limiters return numbers:

* `constrainXY_numVec`, `constrainXY_degenerate` — on numbers the result is a
  number unless the first vector is zero and the limit is tiny;
* `constrainXY_of_nan` — a `nan` second vector poisons the result unless the
  first vector alone already reaches the limit;
* `limitTilt_spec` — a limited unit vector is a unit vector pointing up.
-/
import AerialManipulator.Math

open WithNaN

namespace ControlMath

variable {K : Type*} [Field K]

/-! ### `nan` as "not commanded" -/

def addIfNotNan (setpoint addition : Flt K) : Flt K :=
  if setpoint.isFinite && addition.isFinite then setpoint + addition
  else if !setpoint.isFinite then addition
  else setpoint

def addIfNotNanVector3f (setpoint addition : Vector3f K) : Vector3f K :=
  fun i => addIfNotNan (setpoint i) (addition i)

def setZeroIfNanVector3f (vector : Vector3f K) : Vector3f K :=
  addIfNotNanVector3f vector fun _ => 0

@[simp] theorem addIfNotNan_num (x y : K) : addIfNotNan (num x) (num y) = num (x + y) := rfl

@[simp] theorem addIfNotNan_nan_left (b : Flt K) : addIfNotNan nan b = b := by
  cases b <;> rfl

@[simp] theorem addIfNotNan_nan_right (x : K) : addIfNotNan (num x) nan = num x := rfl

@[simp] theorem setZeroIfNan_num (v : Vector3f K) (i : Fin 3) (x : K) (h : v i = num x) :
    setZeroIfNanVector3f v i = num x := by
  rw [setZeroIfNanVector3f, addIfNotNanVector3f, h, zero_def, addIfNotNan_num, add_zero]

theorem setZeroIfNan_nan (v : Vector3f K) (i : Fin 3) (h : v i = nan) :
    setZeroIfNanVector3f v i = num 0 := by
  rw [setZeroIfNanVector3f, addIfNotNanVector3f, h, addIfNotNan_nan_left, zero_def]

theorem finiteVec_setZeroIfNan (v : Vector3f K) : FiniteVec (setZeroIfNanVector3f v) := by
  intro i
  cases h : v i with
  | num x => rw [setZeroIfNan_num v i x h]; rfl
  | nan => rw [setZeroIfNan_nan v i h]; rfl

/-! ### The vector functions -/

variable [LinearOrder K] [Elementary K]

def limitTilt (body_unit world_unit : Vector3f K) (max_angle : Flt K) : Vector3f K :=
  let dot_product_unit := dot body_unit world_unit
  let angle := math.min (acosf dot_product_unit) max_angle
  let rejection := body_unit - scale world_unit dot_product_unit
  -- corner case exactly parallel vectors
  let rejection :=
    if dot rejection rejection < num (FLT_EPSILON K) then ![1, rejection 1, rejection 2]
    else rejection
  scale world_unit (cosf angle) + scale (normalized rejection) (sinf angle)

def constrainXY (v0 v1 : Vector2f K) (max : Flt K) : Vector2f K :=
  if length (v0 + v1) ≤ max then v0 + v1
  else if max ≤ length v0 then scale (normalized v0) max
  else if fabsf (length (v1 - v0)) < 0.001 then scale (normalized v0) max
  else if length v0 < 0.001 then scale (normalized v1) max
  else
    let u1 := normalized v1
    let m := dot u1 v0
    let c := dot v0 v0 - max * max
    let s := -m + sqrtf (m * m - c)
    v0 + scale u1 s

/-- The rotation matrix `R_sp` of the desired attitude; its columns are the
desired body axes. -/
def bodyzToAttitude (body_z : Vector3f K) (yaw_sp : Flt K) : Matrix3f K :=
  -- zero vector, no direction, set safe level value
  let body_z := if dot body_z body_z < num (FLT_EPSILON K) then setZ body_z 1 else body_z
  let body_z := normalized body_z
  let y_C : Vector3f K := ![-sinf yaw_sp, cosf yaw_sp, 0]
  let body_x := cross y_C body_z
  -- keep nose to front while inverted upside down
  let body_x := if body_z 2 < 0 then fun i => -body_x i else body_x
  let body_x := if fabsf (body_z 2) < 0.000001 then ![0, 0, 1] else body_x
  let body_x := normalized body_x
  let body_y := cross body_z body_x
  fun i => ![body_x i, body_y i, body_z i]

/-- What the position controller publishes for the attitude loop.  The
quaternion `q_d` and the Euler angles of the message are the matrix library's
conversions of `R_sp`. -/
structure AttitudeSetpoint (K : Type*) where
  R_sp : Matrix3f K
  thrust_body : Vector3f K
  yaw_sp_move_rate : Flt K

def thrustToAttitude (thr_sp : Vector3f K) (yaw_sp : Flt K) (att_sp : AttitudeSetpoint K) :
    AttitudeSetpoint K :=
  { att_sp with
    R_sp := bodyzToAttitude (fun i => -thr_sp i) yaw_sp
    thrust_body := setZ att_sp.thrust_body (-length thr_sp) }

/-! ### The horizontal limiter -/

/-- The inputs on which `constrainXY` divides zero by zero. -/
def Degenerate (a b : Fin 2 → ℝ) (m : ℝ) : Prop :=
  a = 0 ∧ m < len b ∧ (m ≤ 0 ∨ len b < 0.001)

theorem constrainXY_numVec {a b : Fin 2 → ℝ} {m : ℝ} (h : ¬ Degenerate a b m) :
    ∃ w, constrainXY (numVec a) (numVec b) (num m) = numVec w := by
  simp only [constrainXY, numVec_add, numVec_sub, length_numVec, fabsf_num, num_le_num]
  by_cases h1 : len (a + b) ≤ m
  · exact ⟨_, if_pos h1⟩
  rw [if_neg h1]
  -- a zero second vector would have stopped in one of the first two branches
  have hb : ¬ m ≤ len a → b ≠ 0 := by
    rintro h2 rfl
    rw [add_zero] at h1
    exact h2 (not_le.mp h1).le
  by_cases h2 : m ≤ len a
  · rw [if_pos h2]
    by_cases ha : a = 0
    · subst ha
      rw [zero_add] at h1
      rw [len_zero] at h2
      exact absurd ⟨rfl, not_le.mp h1, .inl h2⟩ h
    · exact ⟨_, by rw [normalized_numVec ha, scale_numVec]⟩
  rw [if_neg h2]
  by_cases h3 : num |len (b - a)| < (0.001 : Flt ℝ)
  · rw [if_pos h3]
    by_cases ha : a = 0
    · subst ha
      rw [zero_add] at h1
      rw [sub_zero, abs_of_nonneg (len_nonneg b)] at h3
      exact absurd ⟨rfl, not_le.mp h1, .inr h3⟩ h
    · exact ⟨_, by rw [normalized_numVec ha, scale_numVec]⟩
  rw [if_neg h3]
  by_cases h4 : num (len a) < (0.001 : Flt ℝ)
  · exact ⟨_, by rw [if_pos h4, normalized_numVec (hb h2), scale_numVec]⟩
  rw [if_neg h4, normalized_numVec (hb h2), dot_numVec, dot_numVec, num_mul, num_mul, num_sub,
    num_sub, neg_num, sqrtf_num]
  · exact ⟨_, by rw [num_add, scale_numVec, numVec_add]⟩
  · -- the limit exceeds the first vector, so the discriminant is positive
    have h5 : len a * len a ≤ m * m :=
      mul_self_le_mul_self (len_nonneg a) (not_le.mp h2).le
    rw [len_mul_self] at h5
    linarith [mul_self_nonneg (∑ i, b i / len b * a i)]

theorem constrainXY_degenerate {a b : Fin 2 → ℝ} {m : ℝ} (h : Degenerate a b m) (i : Fin 2) :
    constrainXY (numVec a) (numVec b) (num m) i = nan := by
  obtain ⟨rfl, h1, h2⟩ := h
  have hsum : length (numVec 0 + numVec b) = num (len b) := by
    rw [numVec_add, zero_add, length_numVec]
  have hdiff : fabsf (length (numVec b - numVec 0)) = num (len b) := by
    rw [numVec_sub, sub_zero, length_numVec, fabsf_num, abs_of_nonneg (len_nonneg b)]
  simp only [constrainXY, hsum, hdiff, length_numVec, len_zero, num_le_num]
  rw [if_neg (not_le.mpr h1)]
  by_cases h3 : m ≤ 0
  · rw [if_pos h3, scale, normalized_zero, nan_mul]
  · have h4 : num (len b) < (0.001 : Flt ℝ) := h2.resolve_left h3
    rw [if_neg h3, if_pos h4, scale, normalized_zero, nan_mul]

theorem constrainXY_of_nan {a : Fin 2 → ℝ} {v1 : Vector2f ℝ} {m : ℝ} (hv : ∀ i, v1 i = nan) :
    (a ≠ 0 ∧ m ≤ len a → ∃ w, constrainXY (numVec a) v1 (num m) = numVec w) ∧
    (¬ (a ≠ 0 ∧ m ≤ len a) → ∀ i, constrainXY (numVec a) v1 (num m) i = nan) := by
  have hsum : length (numVec a + v1) = nan :=
    length_eq_nan 0 (by rw [Pi.add_apply, hv, add_nan])
  have hdiff : length (v1 - numVec a) = nan :=
    length_eq_nan 0 (by rw [Pi.sub_apply, hv, nan_sub])
  simp only [constrainXY, hsum, hdiff, length_numVec, fabsf_nan, not_nan_le, not_nan_lt,
    if_false, num_le_num]
  constructor
  · rintro ⟨ha, hm⟩
    exact ⟨_, by rw [if_pos hm, normalized_numVec ha, scale_numVec]⟩
  · intro h i
    by_cases hm : m ≤ len a
    · have ha : a = 0 := by
        by_contra ha
        exact h ⟨ha, hm⟩
      rw [if_pos hm, ha, scale, normalized_zero, nan_mul]
    · rw [if_neg hm]
      have hu : normalized v1 i = nan := normalized_eq_nan 0 (hv 0) i
      by_cases h4 : num (len a) < (0.001 : Flt ℝ)
      · rw [if_pos h4, scale, hu, nan_mul]
      · rw [if_neg h4, Pi.add_apply, scale, hu, nan_mul, add_nan]

/-! ### The tilt limiter -/

theorem limitTilt_nan {v : Vector3f ℝ} (hv : ∀ i, v i = nan) (t : Flt ℝ) (i : Fin 3) :
    limitTilt v ![0, 0, 1] t i = nan := by
  have hrej : (v - scale ![0, 0, 1] (dot v ![0, 0, 1])) 0 = nan := by
    rw [Pi.sub_apply, hv, nan_sub]
  have hdot : dot (v - scale ![0, 0, 1] (dot v ![0, 0, 1]))
      (v - scale ![0, 0, 1] (dot v ![0, 0, 1])) = nan :=
    sum_eq_nan 0 (by rw [hrej, nan_mul])
  simp only [limitTilt]
  rw [hdot, if_neg (not_nan_lt _), Pi.add_apply, scale, scale, normalized_eq_nan 0 hrej i,
    nan_mul, add_nan]

/-- The rejection used by `limitTilt`, corner case included: a non-zero
horizontal vector. -/
theorem limitTilt_rejection (b : Fin 3 → ℝ) :
    ∃ r : Fin 3 → ℝ, r ≠ 0 ∧ r 2 = 0 ∧
      (if dot (numVec ![b 0, b 1, 0]) (numVec ![b 0, b 1, 0]) < num (FLT_EPSILON ℝ)
        then ![1, numVec ![b 0, b 1, 0] 1, numVec ![b 0, b 1, 0] 2]
        else numVec ![b 0, b 1, 0]) = numVec r := by
  simp only [dot_numVec, num_lt_num]
  split_ifs with h
  · refine ⟨![1, b 1, 0], fun hc => ?_, rfl, ?_⟩
    · exact one_ne_zero (congrFun hc 0)
    · funext i
      fin_cases i <;> rfl
  · refine ⟨![b 0, b 1, 0], fun hc => h ?_, rfl, rfl⟩
    rw [hc]
    simpa using FLT_EPSILON_pos

theorem limitTilt_num {b r : Fin 3 → ℝ} (hz : -1 ≤ b 2) (hz' : b 2 ≤ 1) (hr0 : r ≠ 0)
    (hr2 : r 2 = 0)
    (hr : (if dot (numVec ![b 0, b 1, 0]) (numVec ![b 0, b 1, 0]) < num (FLT_EPSILON ℝ)
      then ![1, numVec ![b 0, b 1, 0] 1, numVec ![b 0, b 1, 0] 2]
      else numVec ![b 0, b 1, 0]) = numVec r) (t : ℝ) :
    limitTilt (numVec b) ![0, 0, 1] (num t) =
      numVec ![r 0 / len r * Real.sin (min (Real.arccos (b 2)) t),
        r 1 / len r * Real.sin (min (Real.arccos (b 2)) t),
        Real.cos (min (Real.arccos (b 2)) t)] := by
  have hw : (![0, 0, 1] : Vector3f ℝ) = numVec ![0, 0, 1] := by
    funext i
    fin_cases i <;> rfl
  have hdot : dot (numVec b) (numVec ![0, 0, 1]) = num (b 2) := by
    rw [dot_numVec, Fin.sum_univ_three]
    simp
  have hrej : numVec b - scale (numVec ![0, 0, 1]) (num (b 2)) = numVec ![b 0, b 1, 0] := by
    funext i
    fin_cases i <;> simp
  simp only [limitTilt]
  rw [hw, hdot, hrej, hr, acosf_num hz hz', math.min_num, cosf_num, sinf_num, normalized_numVec hr0]
  funext i
  fin_cases i <;> simp [hr2]

theorem abs_le_one_of_unit {b : Fin 3 → ℝ} (hb : ∑ i, b i * b i = 1) : -1 ≤ b 2 ∧ b 2 ≤ 1 := by
  rw [Fin.sum_univ_three] at hb
  refine abs_le_of_sq_le_sq' ?_ zero_le_one
  nlinarith [mul_self_nonneg (b 0), mul_self_nonneg (b 1)]

/-- Limiting the tilt of a unit vector that does not point down gives a unit
vector that points up. -/
theorem limitTilt_spec {b : Fin 3 → ℝ} (hb : ∑ i, b i * b i = 1) {t : ℝ}
    (ht : 0 ≤ t) (ht' : t < Real.pi / 2) :
    ∃ c : Fin 3 → ℝ, limitTilt (numVec b) ![0, 0, 1] (num t) = numVec c ∧
      ∑ i, c i * c i = 1 ∧ 0 < c 2 := by
  obtain ⟨hz, hz'⟩ := abs_le_one_of_unit hb
  obtain ⟨r, hr0, hr2, hr⟩ := limitTilt_rejection b
  set θ := min (Real.arccos (b 2)) t with hθ
  have hθ0 : 0 ≤ θ := le_min (Real.arccos_nonneg _) ht
  have hθ1 : θ < Real.pi / 2 := lt_of_le_of_lt (min_le_right _ _) ht'
  have hlen : 0 < len r := len_pos hr0
  have hunit : r 0 / len r * (r 0 / len r) + r 1 / len r * (r 1 / len r) = 1 := by
    have hsq := len_mul_self r
    rw [Fin.sum_univ_three, hr2] at hsq
    field_simp
    linarith
  refine ⟨_, limitTilt_num hz hz' hr0 hr2 hr t, ?_, ?_⟩
  · rw [Fin.sum_univ_three]
    simp only [Matrix.cons_val_zero, Matrix.cons_val_one, Matrix.cons_val]
    have := Real.sin_sq_add_cos_sq θ
    calc r 0 / len r * Real.sin θ * (r 0 / len r * Real.sin θ)
          + r 1 / len r * Real.sin θ * (r 1 / len r * Real.sin θ) + Real.cos θ * Real.cos θ
        = (r 0 / len r * (r 0 / len r) + r 1 / len r * (r 1 / len r)) * Real.sin θ ^ 2
          + Real.cos θ ^ 2 := by ring
      _ = 1 := by rw [hunit, one_mul, this]
  · exact Real.cos_pos_of_mem_Ioo ⟨by linarith [Real.pi_pos], hθ1⟩

theorem limitTilt_of_le {b : Fin 3 → ℝ} (hb : ∑ i, b i * b i = 1)
    (hrej : FLT_EPSILON ℝ ≤ b 0 * b 0 + b 1 * b 1) {t : ℝ} (ht : Real.arccos (b 2) ≤ t) :
    limitTilt (numVec b) ![0, 0, 1] (num t) = numVec b := by
  obtain ⟨hz, hz'⟩ := abs_le_one_of_unit hb
  have hdot : ∑ i, ![b 0, b 1, 0] i * ![b 0, b 1, 0] i = b 0 * b 0 + b 1 * b 1 := by
    rw [Fin.sum_univ_three]
    simp
  have hr0 : ![b 0, b 1, 0] ≠ 0 := by
    intro hzero
    rw [hzero] at hdot
    simp only [Pi.zero_apply, mul_zero, Finset.sum_const_zero] at hdot
    linarith [FLT_EPSILON_pos]
  have hlen := len_pos hr0
  have hsin : Real.sin (Real.arccos (b 2)) = len ![b 0, b 1, 0] := by
    rw [Fin.sum_univ_three] at hb
    rw [Real.sin_arccos, len, hdot]
    congr 1
    linarith
  rw [limitTilt_num hz hz' hr0 rfl (if_neg ?_) t, min_eq_left ht, hsin, Real.cos_arccos hz hz']
  · funext i
    fin_cases i
    · exact congrArg num (div_mul_cancel₀ _ hlen.ne')
    · exact congrArg num (div_mul_cancel₀ _ hlen.ne')
    · rfl
  · rw [dot_numVec, num_lt_num, hdot]
    exact not_lt.mpr hrej

end ControlMath
