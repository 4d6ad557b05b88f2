/-
The attitude of a thrust vector.

`bodyzToAttitude` takes the normalized vector as third body axis, and turns the other two to the
yaw.  On numbers its matrix is the `frame` of two vectors.

* `bodyzToAttitude_num` — the two vectors;
* **`attitude_law`** — the axes, the rotation and the heading, and what is left of it where the
  vector is nearly, but not quite, horizontal.
-/
import AerialManipulator.Lib.Frame
import AerialManipulator.PosControl.ControlMath

open Matrix WithNaN

namespace ControlMath

theorem cross_numVec (a b : Fin 3 → ℝ) :
    cross (numVec a) (numVec b) = numVec (crossProduct a b) := by
  funext i
  fin_cases i <;> simp [cross, cross_apply]

/-! ### The axes -/

noncomputable def upright (b : Fin 3 → ℝ) : Fin 3 → ℝ :=
  if ∑ i, b i * b i < FLT_EPSILON ℝ then ![b 0, b 1, 1] else b

noncomputable def bodyZ (b : Fin 3 → ℝ) : Fin 3 → ℝ := fun i => upright b i / len (upright b)

/-- A horizontal vector across the yaw, turned to be orthogonal to the third axis; it points to the
front while inverted. -/
noncomputable def nose (u : Fin 3 → ℝ) (yaw : ℝ) : Fin 3 → ℝ :=
  if u 2 < 0 then -crossProduct ![-Real.sin yaw, Real.cos yaw, 0] u
  else crossProduct ![-Real.sin yaw, Real.cos yaw, 0] u

/-- The thrust is in the horizontal plane, up to the tolerance. -/
def Horizontal (u : Fin 3 → ℝ) : Prop := |u 2| < 0.000001

open Classical in
noncomputable def bodyX (u : Fin 3 → ℝ) (yaw : ℝ) : Fin 3 → ℝ :=
  if Horizontal u then ![0, 0, 1] else fun i => nose u yaw i / len (nose u yaw)

theorem upright_ne_zero (b : Fin 3 → ℝ) : upright b ≠ 0 := by
  unfold upright
  split_ifs with h
  · intro hzero
    exact one_ne_zero (congrFun hzero 2)
  · rintro rfl
    refine h ?_
    simpa using FLT_EPSILON_pos

theorem bodyZ_unit (b : Fin 3 → ℝ) : bodyZ b ⬝ᵥ bodyZ b = 1 :=
  sum_div_len_mul_self (upright_ne_zero b)

section Axes

variable {u : Fin 3 → ℝ} {yaw : ℝ}

theorem nose_apply (u : Fin 3 → ℝ) (yaw : ℝ) :
    nose u yaw 0 = |u 2| * Real.cos yaw ∧ nose u yaw 1 = |u 2| * Real.sin yaw := by
  unfold nose
  split_ifs with h
  · rw [abs_of_neg h]
    constructor <;> simp [cross_apply] <;> ring
  · rw [abs_of_nonneg (not_lt.mp h)]
    constructor <;> simp [cross_apply] <;> ring

theorem nose_dotProduct (u : Fin 3 → ℝ) (yaw : ℝ) : nose u yaw ⬝ᵥ u = 0 := by
  have hcross : crossProduct ![-Real.sin yaw, Real.cos yaw, 0] u ⬝ᵥ u = 0 := by
    rw [dotProduct_comm]
    exact dot_cross_self _ _
  unfold nose
  split_ifs
  · rw [neg_dotProduct, hcross, neg_zero]
  · exact hcross

theorem abs_pos_of_not_horizontal (h : ¬ Horizontal u) : 0 < |u 2| := by
  have hle : 0.000001 ≤ |u 2| := not_lt.mp h
  exact lt_of_lt_of_le (by norm_num) hle

theorem nose_ne_zero (h : ¬ Horizontal u) : nose u yaw ≠ 0 := by
  intro hzero
  obtain ⟨h0, h1⟩ := nose_apply u yaw
  rw [hzero, Pi.zero_apply] at h0 h1
  have hpos := abs_pos_of_not_horizontal h
  have hsq := Real.sin_sq_add_cos_sq yaw
  rw [eq_comm, mul_eq_zero] at h0 h1
  rw [h0.resolve_left hpos.ne', h1.resolve_left hpos.ne'] at hsq
  norm_num at hsq

theorem bodyX_unit (u : Fin 3 → ℝ) (yaw : ℝ) : bodyX u yaw ⬝ᵥ bodyX u yaw = 1 := by
  unfold bodyX
  split_ifs with h
  · simp
  · exact sum_div_len_mul_self (nose_ne_zero h)

theorem bodyX_dotProduct (h : ¬ Horizontal u) : bodyX u yaw ⬝ᵥ u = 0 := by
  have hnose := nose_dotProduct u yaw
  unfold dotProduct at hnose
  unfold bodyX dotProduct
  rw [if_neg h]
  simp only [div_mul_eq_mul_div, ← Finset.sum_div]
  rw [hnose, zero_div]

theorem bodyX_of_horizontal (h : Horizontal u) : bodyX u yaw = ![0, 0, 1] := if_pos h

end Axes

/-! ### What the code computes -/

theorem body_z_num (b : Fin 3 → ℝ) :
    normalized (if dot (numVec b) (numVec b) < num (FLT_EPSILON ℝ) then setZ (numVec b) 1
      else numVec b) = numVec (bodyZ b) := by
  have hupright : (if dot (numVec b) (numVec b) < num (FLT_EPSILON ℝ) then setZ (numVec b) 1
      else numVec b) = numVec (upright b) := by
    rw [dot_numVec]
    unfold upright
    by_cases h : ∑ i, b i * b i < FLT_EPSILON ℝ
    · rw [if_pos h, if_pos ((num_lt_num _ _).mpr h)]
      exact numVec_three (b 0) (b 1) 1
    · rw [if_neg h, if_neg fun hc => h ((num_lt_num _ _).mp hc)]
  rw [hupright, normalized_numVec (upright_ne_zero b)]
  rfl

theorem nose_num (u : Fin 3 → ℝ) (yaw : ℝ) :
    (if numVec u 2 < 0 then
      fun i => -cross ![-sinf (num yaw), cosf (num yaw), 0] (numVec u) i
      else cross ![-sinf (num yaw), cosf (num yaw), 0] (numVec u)) = numVec (nose u yaw) := by
  have hy : ![-sinf (num yaw), cosf (num yaw), 0] = numVec ![-Real.sin yaw, Real.cos yaw, 0] :=
    numVec_three _ _ _
  rw [hy, cross_numVec]
  unfold nose
  by_cases h : u 2 < 0
  · have hlt : numVec u 2 < 0 := h
    rw [if_pos h, if_pos hlt]
    rfl
  · have hlt : ¬ numVec u 2 < 0 := h
    rw [if_neg h, if_neg hlt]

theorem body_x_num (u : Fin 3 → ℝ) (yaw : ℝ) :
    normalized (if fabsf (numVec u 2) < 0.000001 then ![0, 0, 1] else numVec (nose u yaw))
      = numVec (bodyX u yaw) := by
  unfold bodyX
  by_cases h : Horizontal u
  · have hunit : len ![(0 : ℝ), 0, 1] = 1 := by simp [len, Fin.sum_univ_three]
    have hne : ![(0 : ℝ), 0, 1] ≠ 0 := fun hzero => one_ne_zero (congrFun hzero 2)
    have hlt : fabsf (numVec u 2) < 0.000001 := h
    rw [if_pos h, if_pos hlt]
    refine (congrArg normalized (numVec_three 0 0 1)).trans ?_
    rw [normalized_numVec hne, hunit]
    simp only [div_one]
  · have hlt : ¬ fabsf (numVec u 2) < 0.000001 := h
    rw [if_neg h, if_neg hlt, normalized_numVec (nose_ne_zero h)]

theorem bodyzToAttitude_num (b : Fin 3 → ℝ) (yaw : ℝ) :
    bodyzToAttitude (numVec b) (num yaw) = numMat (frame (bodyX (bodyZ b) yaw) (bodyZ b)) := by
  unfold bodyzToAttitude
  dsimp only
  rw [body_z_num, nose_num, body_x_num, cross_numVec]
  exact funext fun i => numVec_three _ _ _

/-! ### The attitude -/

theorem bodyZ_of_long {b : Fin 3 → ℝ} (h : FLT_EPSILON ℝ ≤ ∑ i, b i * b i) (i : Fin 3) :
    bodyZ b i = b i / len b := by
  unfold bodyZ upright
  rw [if_neg (not_lt.mpr h)]

theorem bodyZ_of_short {b : Fin 3 → ℝ} (h : ∑ i, b i * b i < FLT_EPSILON ℝ) :
    (∀ i, bodyZ b i = ![b 0, b 1, 1] i / len ![b 0, b 1, 1]) ∧
      ∑ i, (bodyZ b i - ![0, 0, 1] i) * (bodyZ b i - ![0, 0, 1] i) < FLT_EPSILON ℝ := by
  have hup : upright b = ![b 0, b 1, 1] := if_pos h
  refine ⟨fun i => by rw [bodyZ, hup], ?_⟩
  have hunit := bodyZ_unit b
  have hpos := len_pos (upright_ne_zero b)
  have hz : bodyZ b 2 * len (upright b) = 1 := by
    unfold bodyZ
    rw [div_mul_cancel₀ _ hpos.ne', hup]
    rfl
  have hsq : len (upright b) * len (upright b) = b 0 * b 0 + b 1 * b 1 + 1 := by
    rw [len_mul_self, hup, Fin.sum_univ_three]
    simp
  -- the squared distance is `2 - 2 / L` for the length `L`, and that is `L * L - 1` at most
  have hL : 1 ≤ len (upright b) := by
    nlinarith [mul_self_nonneg (b 0), mul_self_nonneg (b 1)]
  have hdist : 0 ≤ len (upright b) * len (upright b) - 1 - (2 - 2 * bodyZ b 2) := by
    refine nonneg_of_mul_nonneg_left ?_ hpos
    have hfactor : (len (upright b) * len (upright b) - 1 - (2 - 2 * bodyZ b 2)) * len (upright b)
        = (len (upright b) - 1) * (len (upright b) - 1) * (len (upright b) + 2) := by
      linear_combination 2 * hz
    rw [hfactor]
    exact mul_nonneg (mul_self_nonneg _) (by linarith)
  rw [dotProduct, Fin.sum_univ_three] at hunit
  rw [Fin.sum_univ_three] at h ⊢
  simp only [Matrix.cons_val_zero, Matrix.cons_val_one, Matrix.cons_val]
  linarith [mul_self_nonneg (b 2)]

theorem bodyX_dotProduct_of_horizontal {u : Fin 3 → ℝ} {yaw : ℝ} (h : Horizontal u) :
    bodyX u yaw ⬝ᵥ u = u 2 := by
  rw [bodyX_of_horizontal h, vec3_dotProduct]
  simp

theorem det_of_horizontal {b : Fin 3 → ℝ} {yaw : ℝ} (h : Horizontal (bodyZ b)) :
    (frame (bodyX (bodyZ b) yaw) (bodyZ b)).det = 1 - bodyZ b 2 * bodyZ b 2 := by
  rw [det_frame, bodyX_unit, bodyZ_unit, bodyX_dotProduct_of_horizontal h, one_mul]

/-- **The attitude of a vector.**  The third axis is the direction of the vector, or nearly upwards
where it is too short.  The matrix is a rotation with the yaw as heading, where the vector is not
nearly horizontal; it is one where the vector is horizontal, and almost one in between. -/
theorem attitude_law (b : Fin 3 → ℝ) (yaw : ℝ) :
    ∃ R : Matrix (Fin 3) (Fin 3) ℝ, bodyzToAttitude (numVec b) (num yaw) = numMat R ∧
      (FLT_EPSILON ℝ ≤ ∑ i, b i * b i → ∀ i, R i 2 = b i / len b) ∧
      (∑ i, b i * b i < FLT_EPSILON ℝ →
        (∀ i, R i 2 = ![b 0, b 1, 1] i / len ![b 0, b 1, 1]) ∧
          ∑ i, (R i 2 - ![0, 0, 1] i) * (R i 2 - ![0, 0, 1] i) < FLT_EPSILON ℝ) ∧
      (R 2 2 = 0 ∨ 0.000001 ≤ |R 2 2| → R ∈ specialOrthogonalGroup (Fin 3) ℝ) ∧
      (0.000001 ≤ |R 2 2| → ∃ k > 0, R 0 0 = k * Real.cos yaw ∧ R 1 0 = k * Real.sin yaw) ∧
      (|R 2 2| < 0.000001 → (∀ i, R i 0 = ![0, 0, 1] i) ∧
        (∀ i j, |(Rᵀ * R) i j - (1 : Matrix (Fin 3) (Fin 3) ℝ) i j| < 0.000001) ∧
        |R.det - 1| < 0.000001) := by
  have hunit := bodyX_unit (bodyZ b) yaw
  have hz : ∀ i, frame (bodyX (bodyZ b) yaw) (bodyZ b) i 2 = bodyZ b i := fun i => rfl
  have hx : ∀ i, frame (bodyX (bodyZ b) yaw) (bodyZ b) i 0 = bodyX (bodyZ b) yaw i := fun i => rfl
  refine ⟨_, bodyzToAttitude_num b yaw, fun h i => bodyZ_of_long h i, bodyZ_of_short, ?_, ?_, ?_⟩
  · rintro (hzero | hsteep)
    · have hhor : Horizontal (bodyZ b) := by
        unfold Horizontal
        rw [← hz, hzero, abs_zero]
        norm_num
      refine frame_mem_specialOrthogonalGroup hunit (bodyZ_unit b) ?_
      rw [bodyX_dotProduct_of_horizontal hhor, ← hz, hzero]
    · exact frame_mem_specialOrthogonalGroup hunit (bodyZ_unit b)
        (bodyX_dotProduct (not_lt.mpr hsteep))
  · intro hsteep
    have hnot : ¬ Horizontal (bodyZ b) := not_lt.mpr hsteep
    obtain ⟨h0, h1⟩ := nose_apply (bodyZ b) yaw
    refine ⟨|bodyZ b 2| / len (nose (bodyZ b) yaw),
      div_pos (abs_pos_of_not_horizontal hnot) (len_pos (nose_ne_zero hnot)), ?_, ?_⟩
    · rw [hx, bodyX, if_neg hnot, h0]
      ring
    · rw [hx, bodyX, if_neg hnot, h1]
      ring
  · intro hflat
    have hhor : Horizontal (bodyZ b) := hflat
    rw [hz] at hflat
    have hsmall : |bodyZ b 2 * bodyZ b 2| < 0.000001 := by
      rw [abs_mul]
      nlinarith [abs_nonneg (bodyZ b 2)]
    refine ⟨fun i => by rw [hx, bodyX_of_horizontal hhor], fun i j => ?_, ?_⟩
    · rw [frame_transpose_mul, hunit, bodyZ_unit, bodyX_dotProduct_of_horizontal hhor]
      have hpos : (0 : ℝ) < 0.000001 := by norm_num
      have hsquare := (le_abs_self _).trans_lt hsmall
      fin_cases i <;> fin_cases j <;> simp [hflat, hpos, hsquare]
    · rw [det_of_horizontal hhor, sub_sub_cancel_left, abs_neg]
      exact hsmall

/-- A vector that is nearly horizontal, for which the matrix is not a rotation; and a short one
whose third axis is not upright. -/
theorem attitude_off :
    (∃ R : Matrix (Fin 3) (Fin 3) ℝ,
      bodyzToAttitude (numVec ![1, 0, 1 / 2000000]) (num 0) = numMat R ∧
        R ∉ specialOrthogonalGroup (Fin 3) ℝ) ∧
    ∃ R : Matrix (Fin 3) (Fin 3) ℝ,
      bodyzToAttitude (numVec ![1 / 10000, 0, 0]) (num 0) = numMat R ∧ R 0 2 ≠ 0 := by
  refine ⟨⟨_, bodyzToAttitude_num _ 0, fun hmem => ?_⟩, _, bodyzToAttitude_num _ 0, ?_⟩
  · have hlong : FLT_EPSILON ℝ ≤ ∑ i, ![(1 : ℝ), 0, 1 / 2000000] i * ![1, 0, 1 / 2000000] i := by
      rw [Fin.sum_univ_three, FLT_EPSILON]
      simp only [Matrix.cons_val_zero, Matrix.cons_val_one, Matrix.cons_val]
      norm_num
    have hlen : 1 ≤ len ![(1 : ℝ), 0, 1 / 2000000] := by
      rw [len, Fin.sum_univ_three, Real.one_le_sqrt]
      simp only [Matrix.cons_val_zero, Matrix.cons_val_one, Matrix.cons_val]
      norm_num
    have hz : bodyZ ![1, 0, 1 / 2000000] 2 = 1 / 2000000 / len ![(1 : ℝ), 0, 1 / 2000000] :=
      bodyZ_of_long hlong 2
    have hpos : 0 < bodyZ ![1, 0, 1 / 2000000] 2 := by
      rw [hz]
      exact div_pos (by norm_num) (by linarith)
    have hhor : Horizontal (bodyZ ![1, 0, 1 / 2000000]) := by
      unfold Horizontal
      rw [abs_of_pos hpos, hz, div_lt_iff₀ (by linarith)]
      norm_num
      linarith
    have hdet := (mem_specialOrthogonalGroup_iff.mp hmem).2
    rw [det_of_horizontal hhor] at hdet
    nlinarith
  · have hshort : ∑ i, ![(1 / 10000 : ℝ), 0, 0] i * ![1 / 10000, 0, 0] i < FLT_EPSILON ℝ := by
      rw [Fin.sum_univ_three, FLT_EPSILON]
      simp only [Matrix.cons_val_zero, Matrix.cons_val_one, Matrix.cons_val]
      norm_num
    show upright _ 0 / len (upright _) ≠ 0
    refine div_ne_zero ?_ (len_pos (upright_ne_zero _)).ne'
    rw [upright, if_pos hshort]
    norm_num

end ControlMath
