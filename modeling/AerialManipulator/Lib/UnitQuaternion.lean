/-
Quaternions and the rotations that they describe.

A quaternion is a vector of four numbers, the scalar part first.  `rotation q` is the matrix of the
rotation, if `q` has the norm 1; `q` and `-q` describe the same one.

* `rotation_mul`, `rotation_conj` — products and transposes;
* `rotation_eq_one_iff` — the quaternions without a rotation have no vector part;
* **`ofRotation_rotation`** — a quaternion is found from the matrix, up to its sign.
-/
import AerialManipulator.Lib.Literals

open Matrix

namespace UnitQuaternion

section Ring

variable {R : Type*} [CommRing R]

def mul (p q : Fin 4 → R) : Fin 4 → R :=
  ![p 0 * q 0 - p 1 * q 1 - p 2 * q 2 - p 3 * q 3,
    p 0 * q 1 + p 1 * q 0 + p 2 * q 3 - p 3 * q 2,
    p 0 * q 2 - p 1 * q 3 + p 2 * q 0 + p 3 * q 1,
    p 0 * q 3 + p 1 * q 2 - p 2 * q 1 + p 3 * q 0]

def conj (q : Fin 4 → R) : Fin 4 → R := ![q 0, -q 1, -q 2, -q 3]

def normSq (q : Fin 4 → R) : R := ∑ i, q i * q i

theorem normSq_eq (q : Fin 4 → R) :
    normSq q = q 0 * q 0 + q 1 * q 1 + q 2 * q 2 + q 3 * q 3 := Fin.sum_univ_four _

def rotation (q : Fin 4 → R) : Matrix (Fin 3) (Fin 3) R :=
  !![q 0 * q 0 + q 1 * q 1 - q 2 * q 2 - q 3 * q 3, 2 * (q 1 * q 2 - q 0 * q 3),
      2 * (q 0 * q 2 + q 1 * q 3);
    2 * (q 1 * q 2 + q 0 * q 3), q 0 * q 0 - q 1 * q 1 + q 2 * q 2 - q 3 * q 3,
      2 * (q 2 * q 3 - q 0 * q 1);
    2 * (q 1 * q 3 - q 0 * q 2), 2 * (q 0 * q 1 + q 2 * q 3),
      q 0 * q 0 - q 1 * q 1 - q 2 * q 2 + q 3 * q 3]

theorem rotation_mul (p q : Fin 4 → R) : rotation (mul p q) = rotation p * rotation q := by
  ext i j
  rw [mul_apply, Fin.sum_univ_three]
  fin_cases i <;> fin_cases j <;> simp [rotation, mul] <;> ring

theorem rotation_conj (q : Fin 4 → R) : rotation (conj q) = (rotation q)ᵀ := by
  ext i j
  fin_cases i <;> fin_cases j <;> simp [rotation, conj] <;> ring

theorem rotation_smul (c : R) (q : Fin 4 → R) : rotation (c • q) = (c * c) • rotation q := by
  ext i j
  fin_cases i <;> fin_cases j <;> simp [rotation] <;> ring

@[simp] theorem rotation_neg (q : Fin 4 → R) : rotation (-q) = rotation q := by
  rw [← neg_one_smul R q, rotation_smul, neg_one_mul, neg_neg, one_smul]

theorem normSq_mul (p q : Fin 4 → R) : normSq (mul p q) = normSq p * normSq q := by
  simp only [normSq_eq, mul]
  simp
  ring

@[simp] theorem normSq_conj (q : Fin 4 → R) : normSq (conj q) = normSq q := by
  simp only [normSq_eq, conj]
  simp

@[simp] theorem normSq_neg (q : Fin 4 → R) : normSq (-q) = normSq q := by
  simp only [normSq_eq, Pi.neg_apply, neg_mul_neg]

theorem normSq_smul (c : R) (q : Fin 4 → R) : normSq (c • q) = c * c * normSq q := by
  simp only [normSq_eq, Pi.smul_apply, smul_eq_mul]
  ring

theorem rotation_one : rotation ![1, 0, 0, 0] = (1 : Matrix (Fin 3) (Fin 3) R) := by
  ext i j
  fin_cases i <;> fin_cases j <;> simp [rotation]

end Ring

section Real

variable {p q : Fin 4 → ℝ}

theorem normSq_nonneg (q : Fin 4 → ℝ) : 0 ≤ normSq q :=
  Finset.sum_nonneg fun i _ => mul_self_nonneg (q i)

theorem normSq_eq_zero : normSq q = 0 ↔ q = 0 := by
  rw [normSq, Finset.sum_eq_zero_iff_of_nonneg fun i _ => mul_self_nonneg (q i)]
  exact ⟨fun h => funext fun i => mul_self_eq_zero.mp (h i (Finset.mem_univ i)),
    fun h i _ => by rw [h, Pi.zero_apply, mul_zero]⟩

theorem rotation_eq_one_iff (hq : normSq q = 1) : rotation q = 1 ↔ q 1 = 0 ∧ q 2 = 0 ∧ q 3 = 0 := by
  rw [normSq_eq] at hq
  constructor
  · intro h
    have h0 : rotation q 0 0 = 1 := by rw [h]; rfl
    have h1 : rotation q 1 1 = 1 := by rw [h]; rfl
    have h2 : rotation q 2 2 = 1 := by rw [h]; rfl
    simp only [rotation, of_apply, cons_val', cons_val_zero, cons_val_one, cons_val_fin_one,
      cons_val] at h0 h1 h2
    refine ⟨?_, ?_, ?_⟩ <;> rw [← mul_self_eq_zero] <;> linarith
  · rintro ⟨h1, h2, h3⟩
    rw [h1, h2, h3] at hq
    ext i j
    fin_cases i <;> fin_cases j <;> simp [rotation, h1, h2, h3] <;> linarith

/-! ### The quaternion of a matrix -/

/-- The quaternion of a rotation matrix, from the one of its components that is large. -/
noncomputable def ofRotation (A : Matrix (Fin 3) (Fin 3) ℝ) : Fin 4 → ℝ :=
  if 0 < A 0 0 + A 1 1 + A 2 2 then
    let t := √(1 + A 0 0 + A 1 1 + A 2 2)
    ![t / 2, (A 2 1 - A 1 2) / (2 * t), (A 0 2 - A 2 0) / (2 * t), (A 1 0 - A 0 1) / (2 * t)]
  else if A 1 1 < A 0 0 ∧ A 2 2 < A 0 0 then
    let t := √(1 + A 0 0 - A 1 1 - A 2 2)
    ![(A 2 1 - A 1 2) / (2 * t), t / 2, (A 1 0 + A 0 1) / (2 * t), (A 0 2 + A 2 0) / (2 * t)]
  else if A 2 2 < A 1 1 then
    let t := √(1 - A 0 0 + A 1 1 - A 2 2)
    ![(A 0 2 - A 2 0) / (2 * t), (A 1 0 + A 0 1) / (2 * t), t / 2, (A 2 1 + A 1 2) / (2 * t)]
  else
    let t := √(1 - A 0 0 - A 1 1 + A 2 2)
    ![(A 1 0 - A 0 1) / (2 * t), (A 0 2 + A 2 0) / (2 * t), (A 2 1 + A 1 2) / (2 * t), t / 2]

theorem eq_or_eq_neg_of_pivot {k : Fin 4} (hk : q k ≠ 0) (hp : ∀ i, p i = q i * q k / |q k|) :
    p = q ∨ p = -q := by
  rcases lt_or_gt_of_ne hk with hneg | hpos
  · refine .inr (funext fun i => ?_)
    rw [hp, abs_of_neg hneg, Pi.neg_apply, div_neg, mul_div_assoc, div_self hk, mul_one]
  · refine .inl (funext fun i => ?_)
    rw [hp, abs_of_pos hpos, mul_div_assoc, div_self hk, mul_one]

theorem sqrt_pivot {x : ℝ} {k : Fin 4} (h : x = 4 * (q k * q k)) : √x = 2 * |q k| := by
  have hsq : 4 * (q k * q k) = (2 * |q k|) ^ 2 := by
    rw [mul_pow, sq_abs]
    ring
  rw [h, hsq]
  exact Real.sqrt_sq (by positivity)

theorem half_pivot {k : Fin 4} (hk : q k ≠ 0) : 2 * |q k| / 2 = q k * q k / |q k| := by
  rw [mul_div_cancel_left₀ _ two_ne_zero, ← abs_mul_abs_self, mul_div_assoc,
    div_self (abs_ne_zero.mpr hk), mul_one]

theorem div_pivot {x : ℝ} {i k : Fin 4} (h : x = 4 * (q i * q k)) :
    x / (2 * (2 * |q k|)) = q i * q k / |q k| := by
  rw [h, ← mul_assoc 2 2, mul_div_mul_comm]
  norm_num

/-- **A unit quaternion is found from its matrix**, up to its sign. -/
theorem ofRotation_rotation (hq : normSq q = 1) :
    ofRotation (rotation q) = q ∨ ofRotation (rotation q) = -q := by
  rw [normSq_eq] at hq
  rw [ofRotation]
  split_ifs with htrace hx hy
  · have hk : q 0 ≠ 0 := by
      intro h
      simp [rotation, h] at htrace
      nlinarith [mul_self_nonneg (q 1), mul_self_nonneg (q 2), mul_self_nonneg (q 3)]
    refine eq_or_eq_neg_of_pivot hk fun i => ?_
    rw [sqrt_pivot (q := q) (k := 0) (by simp [rotation]; linarith)]
    fin_cases i
    · exact half_pivot hk
    all_goals exact div_pivot (by simp [rotation]; ring)
  · have hk : q 1 ≠ 0 := by
      intro h
      simp [rotation, h] at hx
      nlinarith [mul_self_nonneg (q 2), mul_self_nonneg (q 3)]
    refine eq_or_eq_neg_of_pivot hk fun i => ?_
    rw [sqrt_pivot (q := q) (k := 1) (by simp [rotation]; linarith)]
    fin_cases i
    · exact div_pivot (by simp [rotation]; ring)
    · exact half_pivot hk
    all_goals exact div_pivot (by simp [rotation]; ring)
  · have hk : q 2 ≠ 0 := by
      intro h
      simp [rotation, h] at hy
      nlinarith [mul_self_nonneg (q 3)]
    refine eq_or_eq_neg_of_pivot hk fun i => ?_
    rw [sqrt_pivot (q := q) (k := 2) (by simp [rotation]; linarith)]
    fin_cases i
    · exact div_pivot (by simp [rotation]; ring)
    · exact div_pivot (by simp [rotation]; ring)
    · exact half_pivot hk
    · exact div_pivot (by simp [rotation]; ring)
  · have hk : q 3 ≠ 0 := by
      intro h
      simp [rotation, h] at htrace hx hy
      have h2 : q 2 * q 2 ≤ 0 := by linarith
      have h1 : q 1 * q 1 ≤ 0 := by
        by_contra hpos
        have hle := hx (by linarith)
        linarith
      rw [h, mul_zero] at hq
      linarith [mul_self_nonneg (q 1), mul_self_nonneg (q 2)]
    refine eq_or_eq_neg_of_pivot hk fun i => ?_
    rw [sqrt_pivot (q := q) (k := 3) (by simp [rotation]; linarith)]
    fin_cases i
    all_goals first | exact half_pivot hk | exact div_pivot (by simp [rotation]; ring)

end Real

end UnitQuaternion
