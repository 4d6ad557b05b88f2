/-
The horizontal limiter gives its first vector priority.

`constrainXY` adds two vectors, the second one with a weight: the greatest one with which the sum
does not exceed the limit.  Two shortcuts stand for cases that the quadratic equation does not like:
where the vectors are nearly equal the result points along the first one, and where the first vector
is nearly zero it points along the second one.  There the result is on the limit, but a little off.

* `constrainXY_quadratic` — the root of the quadratic equation;
* **`constrainXY_law`** — the norm, the weight and the priority.
-/
import AerialManipulator.Lib.Reach
import AerialManipulator.PosControl.ControlMath

open WithNaN

namespace ControlMath

/-! ### Lengths are norms -/

theorem len_eq_norm {n : ℕ} (a : Fin n → ℝ) :
    len a = ‖(WithLp.toLp 2 a : EuclideanSpace ℝ (Fin n))‖ := by
  rw [EuclideanSpace.norm_eq, len]
  refine congrArg Real.sqrt (Finset.sum_congr rfl fun i _ => ?_)
  rw [Real.norm_eq_abs, sq_abs, sq]

theorem toLp_ne_zero {n : ℕ} {a : Fin n → ℝ} (h : a ≠ 0) :
    (WithLp.toLp 2 a : EuclideanSpace ℝ (Fin n)) ≠ 0 :=
  fun hzero => h (congrArg WithLp.ofLp hzero)

theorem len_smul {n : ℕ} (k : ℝ) (a : Fin n → ℝ) : len (k • a) = |k| * len a := by
  rw [len_eq_norm, len_eq_norm, WithLp.toLp_smul, norm_smul, Real.norm_eq_abs]

theorem len_scaled {n : ℕ} {a : Fin n → ℝ} (h : a ≠ 0) {m : ℝ} (hm : 0 ≤ m) :
    len ((m / len a) • a) = m := by
  have hpos := len_pos h
  rw [len_smul, abs_of_nonneg (div_nonneg hm hpos.le), div_mul_cancel₀ _ hpos.ne']

def Weights (a b : Fin 2 → ℝ) (m : ℝ) : Set ℝ := {s | 0 ≤ s ∧ s ≤ 1 ∧ len (a + s • b) ≤ m}

theorem weights_eq (a b : Fin 2 → ℝ) (m : ℝ) :
    Weights a b m = Reach.weights (WithLp.toLp 2 a : EuclideanSpace ℝ (Fin 2))
      (WithLp.toLp 2 b) m := by
  unfold Weights Reach.weights
  simp only [len_eq_norm, WithLp.toLp_add, WithLp.toLp_smul]

/-- One of the two shortcuts is taken. -/
def Shortcut (a b : Fin 2 → ℝ) (m : ℝ) : Prop :=
  m < len (a + b) ∧ (len (b - a) < 0.001 ∨ len a < 0.001)

/-- There the result is one of the two vectors, scaled to the limit. -/
def Shortened (a b : Fin 2 → ℝ) (m : ℝ) (w : Fin 2 → ℝ) : Prop :=
  len (b - a) < 0.001 ∧ w = (m / len a) • a ∨ ¬ len (b - a) < 0.001 ∧ w = (m / len b) • b

/-! ### The branches -/

section Branches

variable {a b : Fin 2 → ℝ} {m : ℝ}

theorem constrainXY_inside (h : len (a + b) ≤ m) :
    constrainXY (numVec a) (numVec b) (num m) = numVec (a + b) := by
  simp only [constrainXY, numVec_add, numVec_sub, length_numVec, fabsf_num, num_le_num]
  exact if_pos h

theorem scale_normalized (ha : a ≠ 0) :
    scale (normalized (numVec a)) (num m) = numVec ((m / len a) • a) := by
  rw [normalized_numVec ha, scale_numVec]
  refine congrArg numVec (funext fun i => ?_)
  rw [Pi.smul_apply, smul_eq_mul]
  ring

theorem constrainXY_priority (ha : a ≠ 0) (hm : m ≤ len a) (h : m < len (a + b)) :
    constrainXY (numVec a) (numVec b) (num m) = numVec ((m / len a) • a) := by
  simp only [constrainXY, numVec_add, numVec_sub, length_numVec, fabsf_num, num_le_num]
  rw [if_neg (not_le.mpr h), if_pos hm, scale_normalized ha]

theorem constrainXY_near (ha : a ≠ 0) (hm : len a < m) (h : m < len (a + b))
    (hnear : len (b - a) < 0.001) :
    constrainXY (numVec a) (numVec b) (num m) = numVec ((m / len a) • a) := by
  simp only [constrainXY, numVec_add, numVec_sub, length_numVec, fabsf_num, num_le_num]
  have habs : num |len (b - a)| < (0.001 : Flt ℝ) := by
    rw [abs_of_nonneg (len_nonneg _)]
    exact hnear
  rw [if_neg (not_le.mpr h), if_neg (not_le.mpr hm), if_pos habs, scale_normalized ha]

theorem constrainXY_small (hb : b ≠ 0) (hm : len a < m) (h : m < len (a + b))
    (hfar : ¬ len (b - a) < 0.001) (hsmall : len a < 0.001) :
    constrainXY (numVec a) (numVec b) (num m) = numVec ((m / len b) • b) := by
  simp only [constrainXY, numVec_add, numVec_sub, length_numVec, fabsf_num, num_le_num]
  have habs : ¬ num |len (b - a)| < (0.001 : Flt ℝ) := by
    rw [abs_of_nonneg (len_nonneg _)]
    exact hfar
  rw [if_neg (not_le.mpr h), if_neg (not_le.mpr hm), if_neg habs]
  exact (if_pos hsmall).trans (scale_normalized hb)

noncomputable def root (a b : Fin 2 → ℝ) (m : ℝ) : ℝ :=
  -(∑ i, b i / len b * a i) + Real.sqrt
    ((∑ i, b i / len b * a i) * (∑ i, b i / len b * a i) - (∑ i, a i * a i - m * m))

theorem discriminant_nonneg (hm : len a < m) :
    0 ≤ (∑ i, b i / len b * a i) * (∑ i, b i / len b * a i) - (∑ i, a i * a i - m * m) := by
  have hsq : len a * len a ≤ m * m := mul_self_le_mul_self (len_nonneg a) hm.le
  rw [len_mul_self] at hsq
  linarith [mul_self_nonneg (∑ i, b i / len b * a i)]

theorem root_nonneg (hm : len a < m) : 0 ≤ root a b m := by
  have hsq : len a * len a ≤ m * m := mul_self_le_mul_self (len_nonneg a) hm.le
  rw [len_mul_self] at hsq
  have hle : |∑ i, b i / len b * a i| ≤
      Real.sqrt ((∑ i, b i / len b * a i) * (∑ i, b i / len b * a i)
        - (∑ i, a i * a i - m * m)) := by
    refine Real.abs_le_sqrt ?_
    rw [sq]
    linarith
  have habs := le_abs_self (∑ i, b i / len b * a i)
  unfold root
  linarith

theorem constrainXY_quadratic (hb : b ≠ 0) (hm : len a < m) (h : m < len (a + b))
    (hfar : ¬ len (b - a) < 0.001) (hlarge : ¬ len a < 0.001) :
    constrainXY (numVec a) (numVec b) (num m) = numVec (a + (root a b m / len b) • b) := by
  simp only [constrainXY, numVec_add, numVec_sub, length_numVec, fabsf_num, num_le_num]
  have habs : ¬ num |len (b - a)| < (0.001 : Flt ℝ) := by
    rw [abs_of_nonneg (len_nonneg _)]
    exact hfar
  have hlarge' : ¬ num (len a) < (0.001 : Flt ℝ) := hlarge
  rw [if_neg (not_le.mpr h), if_neg (not_le.mpr hm), if_neg habs, if_neg hlarge',
    normalized_numVec hb, dot_numVec, dot_numVec, num_mul, num_mul, num_sub, num_sub, neg_num,
    sqrtf_num (discriminant_nonneg hm), num_add, scale_numVec, numVec_add]
  refine congrArg numVec (funext fun i => ?_)
  rw [Pi.add_apply, Pi.add_apply, Pi.smul_apply, smul_eq_mul, root]
  ring

theorem sum_mul_self_along (hb : b ≠ 0) (r : ℝ) :
    ∑ i, (a + (r / len b) • b) i * (a + (r / len b) • b) i
      = ∑ i, a i * a i + 2 * r * (∑ i, b i / len b * a i) + r * r := by
  have hunit := sum_div_len_mul_self hb
  rw [Fin.sum_univ_two] at hunit ⊢
  rw [Fin.sum_univ_two, Fin.sum_univ_two]
  simp only [Pi.add_apply, Pi.smul_apply, smul_eq_mul]
  linear_combination r * r * hunit

theorem len_root (hb : b ≠ 0) (hm : len a < m) : len (a + (root a b m / len b) • b) = m := by
  have hm0 : 0 ≤ m := (len_nonneg a).trans hm.le
  have hsq := Real.mul_self_sqrt (discriminant_nonneg (b := b) hm)
  have hsum : ∑ i, (a + (root a b m / len b) • b) i * (a + (root a b m / len b) • b) i = m * m := by
    rw [sum_mul_self_along hb, root]
    linear_combination hsq
  rw [len, hsum, Real.sqrt_mul_self hm0]

theorem ne_zero_of_exceeds (hm : len a < m) (h : m < len (a + b)) : b ≠ 0 := by
  rintro rfl
  rw [add_zero] at h
  exact lt_asymm hm h

end Branches

/-- Below the limit, the result is that with the greatest weight, or near it; it is on the limit if
the sum is not inside. -/
theorem constrainXY_below (a b : Fin 2 → ℝ) (m : ℝ) (hm : len a < m) (hd : ¬ Degenerate a b m) :
    ∃ w, constrainXY (numVec a) (numVec b) (num m) = numVec w ∧ len w ≤ m ∧
      (m < len (a + b) → len w = m) ∧
      ∃ s, IsGreatest (Weights a b m) s ∧ len (w - (a + s • b)) < 0.002 ∧
        (¬ Shortcut a b m → w = a + s • b) ∧ (Shortcut a b m → Shortened a b m w) := by
  have hm0 : 0 ≤ m := (len_nonneg a).trans hm.le
  have hnorm := hm
  rw [len_eq_norm] at hnorm
  rcases le_or_gt (len (a + b)) m with hin | hout
  · refine ⟨a + b, constrainXY_inside hin, hin, fun hout => absurd hin (not_le.mpr hout), 1, ?_, ?_,
      fun _ => by rw [one_smul], fun hcut => absurd hin (not_le.mpr hcut.1)⟩
    · rw [weights_eq]
      refine Reach.isGreatest_one ?_
      rwa [← WithLp.toLp_add, ← len_eq_norm]
    · rw [one_smul, sub_self, len_eq_norm, WithLp.toLp_zero, norm_zero]
      norm_num
  have hb := ne_zero_of_exceeds hm hout
  have hbpos := len_pos hb
  have hout' := hout
  rw [len_eq_norm, WithLp.toLp_add] at hout'
  by_cases hshort : len (b - a) < 0.001 ∨ len a < 0.001
  · -- the shortcuts end on the limit too, so the weight is that of the sphere
    obtain ⟨s, hs0, hs1, hs⟩ := Reach.exists_norm_eq hnorm hout'
    have hgreat := Reach.isGreatest_of_norm_eq hnorm hs0 hs1 hs
    rw [← weights_eq] at hgreat
    by_cases hnear : len (b - a) < 0.001
    · have ha : a ≠ 0 := by
        rintro rfl
        rw [zero_add] at hout
        rw [sub_zero] at hnear
        exact hd ⟨rfl, hout, .inr hnear⟩
      refine ⟨_, constrainXY_near ha hm hout hnear, (len_scaled ha hm0).le,
        fun _ => len_scaled ha hm0, s, hgreat, ?_, fun hno => absurd ⟨hout, hshort⟩ hno,
        fun _ => .inl ⟨hnear, rfl⟩⟩
      rw [len_eq_norm, WithLp.toLp_sub] at hnear
      have hlt := Reach.norm_sub_lt_of_near (toLp_ne_zero ha) hnear hs0 hs1 hs
      rw [len_eq_norm, WithLp.toLp_sub, WithLp.toLp_add, WithLp.toLp_smul, WithLp.toLp_smul,
        len_eq_norm]
      exact hlt.trans_eq (by norm_num)
    · have hsmall : len a < 0.001 := hshort.resolve_left hnear
      refine ⟨_, constrainXY_small hb hm hout hnear hsmall, (len_scaled hb hm0).le,
        fun _ => len_scaled hb hm0, s, hgreat, ?_, fun hno => absurd ⟨hout, hshort⟩ hno,
        fun _ => .inr ⟨hnear, rfl⟩⟩
      rw [len_eq_norm] at hsmall
      have hlt := Reach.norm_sub_lt_of_small (toLp_ne_zero hb) hsmall hs0 hs
      rw [len_eq_norm, WithLp.toLp_sub, WithLp.toLp_add, WithLp.toLp_smul, WithLp.toLp_smul,
        len_eq_norm]
      exact hlt.trans_eq (by norm_num)
  · have hroot := len_root hb hm
    have hs0 : 0 ≤ root a b m / len b := div_nonneg (root_nonneg hm) hbpos.le
    refine ⟨_, constrainXY_quadratic hb hm hout (fun h => hshort (.inl h))
      (fun h => hshort (.inr h)), hroot.le, fun _ => hroot, root a b m / len b, ?_, ?_,
      fun _ => rfl, fun hcut => absurd hcut.2 hshort⟩
    · rw [len_eq_norm, WithLp.toLp_add, WithLp.toLp_smul] at hroot
      rw [weights_eq]
      exact Reach.isGreatest_of_norm_eq hnorm hs0 (Reach.le_one_of_norm_eq hnorm hout' hroot) hroot
    · rw [sub_self, len_eq_norm, WithLp.toLp_zero, norm_zero]
      norm_num

/-- **The first vector has priority.**  The result is in the limit, it is the sum with the greatest
weight of the second vector up to the shortcuts, and the first vector alone at the limit where that
is too long. -/
theorem constrainXY_law (a b : Fin 2 → ℝ) (m : ℝ) (hm : 0 < m) (hd : ¬ Degenerate a b m) :
    ∃ w, constrainXY (numVec a) (numVec b) (num m) = numVec w ∧ len w ≤ m ∧
      (len a < m → ∃ s, IsGreatest (Weights a b m) s ∧ len (w - (a + s • b)) < 0.002 ∧
        (¬ Shortcut a b m → w = a + s • b) ∧ (Shortcut a b m → Shortened a b m w)) ∧
      (m ≤ len a → m < len (a + b) → w = (m / len a) • a) := by
  rcases lt_or_ge (len a) m with hlt | hge
  · obtain ⟨w, hw, hlen, -, hs⟩ := constrainXY_below a b m hlt hd
    exact ⟨w, hw, hlen, fun _ => hs, fun hge => absurd hge (not_le.mpr hlt)⟩
  · rcases le_or_gt (len (a + b)) m with hin | hout
    · exact ⟨a + b, constrainXY_inside hin, hin, fun hlt => absurd hge (not_le.mpr hlt),
        fun _ hout => absurd hin (not_le.mpr hout)⟩
    · have ha : a ≠ 0 := by
        rintro rfl
        rw [len_eq_norm, WithLp.toLp_zero, norm_zero] at hge
        exact absurd hm (not_lt.mpr hge)
      exact ⟨_, constrainXY_priority ha hge hout, (len_scaled ha hm.le).le,
        fun hlt => absurd hge (not_le.mpr hlt), fun _ _ => rfl⟩

/-- A long second vector, across the first one. -/
theorem constrainXY_law_across :
    len ![(1 : ℝ), 0] < 2 ∧ ∃ w, constrainXY (numVec ![(1 : ℝ), 0]) (numVec ![0, 3]) (num 2) =
      numVec w ∧
      len w ≤ 2 := by
  have hlen : len ![(1 : ℝ), 0] = 1 := by
    rw [len, Fin.sum_univ_two]
    norm_num
  have hd : ¬ Degenerate ![(1 : ℝ), 0] ![0, 3] 2 := by
    rintro ⟨hzero, -⟩
    have h0 := congrFun hzero 0
    norm_num at h0
  obtain ⟨w, hw, hle, -⟩ := constrainXY_law ![1, 0] ![0, 3] 2 (by norm_num) hd
  exact ⟨by rw [hlen]; norm_num, w, hw, hle⟩

/-- Two vectors that are nearly equal, with the sum over the limit.  The result points along the
first one, where no weight of the second one leads. -/
theorem constrainXY_off :
    len ![(1 : ℝ), 0] < 1.5 ∧ ¬ ∃ s : ℝ, 0 ≤ s ∧ s ≤ 1 ∧
      constrainXY (numVec ![(1 : ℝ), 0]) (numVec ![1, 0.0005]) (num 1.5)
        = numVec (![1, 0] + s • ![1, 0.0005]) := by
  have hlen : len ![(1 : ℝ), 0] = 1 := by
    rw [len, Fin.sum_univ_two]
    norm_num
  have ha : ![(1 : ℝ), 0] ≠ 0 := fun hzero => by
    have h0 := congrFun hzero 0
    norm_num at h0
  have hnear : len (![(1 : ℝ), 0.0005] - ![1, 0]) < 0.001 := by
    rw [len, Fin.sum_univ_two, Real.sqrt_lt' (by norm_num)]
    norm_num
  have hout : 1.5 < len (![(1 : ℝ), 0] + ![1, 0.0005]) := by
    rw [len, Fin.sum_univ_two, Real.lt_sqrt (by norm_num)]
    norm_num
  have hlt : len ![(1 : ℝ), 0] < 1.5 := by
    rw [hlen]
    norm_num
  refine ⟨hlt, ?_⟩
  rintro ⟨s, -, -, hs⟩
  rw [constrainXY_near ha hlt hout hnear, hlen] at hs
  have h0 := congrFun (numVec_injective hs) 0
  have h1 := congrFun (numVec_injective hs) 1
  norm_num at h0 h1
  rw [h1] at h0
  norm_num at h0

end ControlMath
