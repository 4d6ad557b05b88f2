/-
Exact arithmetic with one absorbing non-finite value.

`WithNaN K` is a number type `K` extended by a single value `nan` that absorbs
every arithmetic operation and compares false with everything.  It stands for
machine floating point in which rounding is ignored and all non-finite values
(`NaN`, `±∞`) are identified: a division by zero, the square root of a
negative number and the arc cosine outside `[-1, 1]` all give `nan`.

* `isFinite` is the usual finiteness test; each operation has a lemma that
  says when its result is finite;
* `numVec` embeds a vector of numbers; `exists_numVec` recovers the numbers
  from a vector all of whose components are finite.
-/
import AerialManipulator.Lib.Literals

/-! ### Elementary functions -/

/-- The elementary functions a number type has to provide.  No law is assumed
of them; over `ℝ` they are the real functions. -/
class Elementary (K : Type*) where
  sqrt : K → K
  sin : K → K
  cos : K → K
  acos : K → K
  pi : K

noncomputable instance : Elementary ℝ := ⟨Real.sqrt, Real.sin, Real.cos, Real.arccos, Real.pi⟩

/-- `K` with one absorbing non-finite value. -/
inductive WithNaN (K : Type*) where
  | num (x : K)
  | nan
  deriving DecidableEq

namespace WithNaN

variable {K : Type*}

def isFinite : WithNaN K → Bool
  | num _ => true
  | nan => false

def map (f : K → K) : WithNaN K → WithNaN K
  | num x => num (f x)
  | nan => nan

def map₂ (f : K → K → K) : WithNaN K → WithNaN K → WithNaN K
  | num x, num y => num (f x y)
  | _, _ => nan

/-- A comparison; false as soon as one side is `nan`. -/
def compare (r : K → K → Prop) : WithNaN K → WithNaN K → Prop
  | num x, num y => r x y
  | _, _ => False

instance (r : K → K → Prop) [DecidableRel r] : DecidableRel (compare r)
  | num x, num y => inferInstanceAs (Decidable (r x y))
  | num _, nan => inferInstanceAs (Decidable False)
  | nan, _ => inferInstanceAs (Decidable False)

instance [Zero K] : Zero (WithNaN K) := ⟨num 0⟩
instance [One K] : One (WithNaN K) := ⟨num 1⟩
instance [OfScientific K] : OfScientific (WithNaN K) :=
  ⟨fun m s e => num (OfScientific.ofScientific m s e)⟩
instance [Add K] : Add (WithNaN K) := ⟨map₂ (· + ·)⟩
instance [Sub K] : Sub (WithNaN K) := ⟨map₂ (· - ·)⟩
instance [Mul K] : Mul (WithNaN K) := ⟨map₂ (· * ·)⟩
instance [Neg K] : Neg (WithNaN K) := ⟨map (- ·)⟩
instance [LT K] : LT (WithNaN K) := ⟨compare (· < ·)⟩
instance [LE K] : LE (WithNaN K) := ⟨compare (· ≤ ·)⟩

instance [LT K] [DecidableLT K] : DecidableLT (WithNaN K) :=
  inferInstanceAs (DecidableRel (compare (· < ·)))
instance [LE K] [DecidableLE K] : DecidableLE (WithNaN K) :=
  inferInstanceAs (DecidableRel (compare (· ≤ ·)))

/-- Division; a zero divisor gives `nan`. -/
instance [Div K] [Zero K] [DecidableEq K] : Div (WithNaN K) where
  div
    | num x, num y => if y = 0 then nan else num (x / y)
    | _, _ => nan

instance [AddCommMonoid K] : AddCommMonoid (WithNaN K) where
  add_assoc a b c := by
    cases a <;> cases b <;> cases c <;> first | rfl | exact congrArg num (add_assoc _ _ _)
  zero_add a := by cases a <;> first | rfl | exact congrArg num (zero_add _)
  add_zero a := by cases a <;> first | rfl | exact congrArg num (add_zero _)
  add_comm a b := by cases a <;> cases b <;> first | rfl | exact congrArg num (add_comm _ _)
  nsmul := nsmulRec

def fabsf [Lattice K] [AddGroup K] : WithNaN K → WithNaN K := map (|·|)

def sinf [Elementary K] : WithNaN K → WithNaN K := map Elementary.sin
def cosf [Elementary K] : WithNaN K → WithNaN K := map Elementary.cos

def sqrtf [Elementary K] [Zero K] [LT K] [DecidableLT K] : WithNaN K → WithNaN K
  | num x => if x < 0 then nan else num (Elementary.sqrt x)
  | nan => nan

def acosf [Elementary K] [One K] [Neg K] [LE K] [DecidableLE K] : WithNaN K → WithNaN K
  | num x => if -1 ≤ x ∧ x ≤ 1 then num (Elementary.acos x) else nan
  | nan => nan

/-- The C library minimum, which ignores a `nan` argument. -/
def fminf [LT K] [DecidableLT K] : WithNaN K → WithNaN K → WithNaN K
  | num x, num y => if x < y then num x else num y
  | num x, nan => num x
  | nan, b => b

/-! ### Evaluation -/

theorem zero_def [Zero K] : (0 : WithNaN K) = num 0 := rfl
theorem one_def [One K] : (1 : WithNaN K) = num 1 := rfl

theorem ofScientific_def [OfScientific K] (m : ℕ) (s : Bool) (e : ℕ) :
    (OfScientific.ofScientific m s e : WithNaN K) = num (OfScientific.ofScientific m s e) := rfl

@[simp] theorem isFinite_num (x : K) : (num x).isFinite = true := rfl
@[simp] theorem isFinite_nan : (nan : WithNaN K).isFinite = false := rfl
@[simp] theorem isFinite_zero [Zero K] : (0 : WithNaN K).isFinite = true := rfl

theorem isFinite_iff {a : WithNaN K} : a.isFinite = true ↔ ∃ x, a = num x := by
  cases a <;> simp

theorem not_isFinite_iff {a : WithNaN K} : a.isFinite = false ↔ a = nan := by
  cases a <;> simp

@[simp] theorem num_add [Add K] (x y : K) : num x + num y = num (x + y) := rfl
@[simp] theorem num_sub [Sub K] (x y : K) : num x - num y = num (x - y) := rfl
@[simp] theorem num_mul [Mul K] (x y : K) : num x * num y = num (x * y) := rfl
@[simp] theorem neg_num [Neg K] (x : K) : -num x = num (-x) := rfl
@[simp] theorem num_lt_num [LT K] (x y : K) : num x < num y ↔ x < y := Iff.rfl
@[simp] theorem num_le_num [LE K] (x y : K) : num x ≤ num y ↔ x ≤ y := Iff.rfl

@[simp] theorem nan_add [Add K] (a : WithNaN K) : nan + a = nan := rfl
@[simp] theorem add_nan [Add K] (a : WithNaN K) : a + nan = nan := by cases a <;> rfl
@[simp] theorem nan_sub [Sub K] (a : WithNaN K) : nan - a = nan := rfl
@[simp] theorem sub_nan [Sub K] (a : WithNaN K) : a - nan = nan := by cases a <;> rfl
@[simp] theorem nan_mul [Mul K] (a : WithNaN K) : nan * a = nan := rfl
@[simp] theorem mul_nan [Mul K] (a : WithNaN K) : a * nan = nan := by cases a <;> rfl
@[simp] theorem neg_nan [Neg K] : -(nan : WithNaN K) = nan := rfl
@[simp] theorem not_nan_lt [LT K] (a : WithNaN K) : ¬ nan < a := id
@[simp] theorem not_lt_nan [LT K] (a : WithNaN K) : ¬ a < nan := by cases a <;> exact id
@[simp] theorem not_nan_le [LE K] (a : WithNaN K) : ¬ nan ≤ a := id
@[simp] theorem not_le_nan [LE K] (a : WithNaN K) : ¬ a ≤ nan := by cases a <;> exact id

theorem isFinite_add [Add K] (a b : WithNaN K) :
    (a + b).isFinite = (a.isFinite && b.isFinite) := by cases a <;> cases b <;> rfl

theorem isFinite_sub [Sub K] (a b : WithNaN K) :
    (a - b).isFinite = (a.isFinite && b.isFinite) := by cases a <;> cases b <;> rfl

theorem isFinite_mul [Mul K] (a b : WithNaN K) :
    (a * b).isFinite = (a.isFinite && b.isFinite) := by cases a <;> cases b <;> rfl

section Field

variable [Field K] [LinearOrder K]

@[simp] theorem nan_div (a : WithNaN K) : nan / a = nan := rfl
@[simp] theorem div_nan (a : WithNaN K) : a / nan = nan := by cases a <;> rfl

theorem num_div_of_ne {x y : K} (h : y ≠ 0) : num x / num y = num (x / y) :=
  if_neg h

@[simp] theorem num_div_zero (x : K) : num x / num 0 = nan := if_pos rfl

@[simp] theorem fabsf_num (x : K) : fabsf (num x) = num |x| := rfl
@[simp] theorem fabsf_nan : fabsf (nan : WithNaN K) = nan := rfl

end Field

@[simp] theorem sqrtf_nan : sqrtf (nan : WithNaN ℝ) = nan := rfl

theorem sqrtf_num {x : ℝ} (h : 0 ≤ x) : sqrtf (num x) = num (Real.sqrt x) :=
  if_neg (not_lt.mpr h)

@[simp] theorem acosf_nan : acosf (nan : WithNaN ℝ) = nan := rfl

theorem acosf_num {x : ℝ} (h₁ : -1 ≤ x) (h₂ : x ≤ 1) : acosf (num x) = num (Real.arccos x) :=
  if_pos ⟨h₁, h₂⟩

@[simp] theorem cosf_num (x : ℝ) : cosf (num x) = num (Real.cos x) := rfl
@[simp] theorem sinf_num (x : ℝ) : sinf (num x) = num (Real.sin x) := rfl

/-! ### Vectors -/

section Vec

variable {ι : Type*} {n : ℕ}

/-- All components are finite. -/
def FiniteVec (v : ι → WithNaN K) : Prop := ∀ i, (v i).isFinite = true

def numVec (w : ι → K) : ι → WithNaN K := fun i => num (w i)

@[simp] theorem numVec_apply (w : ι → K) (i : ι) : numVec w i = num (w i) := rfl

theorem numVec_injective {a b : ι → K} (h : numVec a = numVec b) : a = b :=
  funext fun i => num.inj (congrFun h i)

theorem finiteVec_numVec (w : ι → K) : FiniteVec (numVec w) := fun _ => rfl

theorem exists_numVec {v : ι → WithNaN K} (h : FiniteVec v) : ∃ w : ι → K, v = numVec w := by
  choose w hw using fun i => isFinite_iff.mp (h i)
  exact ⟨w, funext hw⟩

def emult [Mul K] (u v : ι → WithNaN K) : ι → WithNaN K := fun i => u i * v i

def scale [Mul K] (v : ι → WithNaN K) (c : WithNaN K) : ι → WithNaN K := fun i => v i * c

def dot [Mul K] [AddCommMonoid K] (u v : Fin n → WithNaN K) : WithNaN K := ∑ i, u i * v i

def cross [Mul K] [Sub K] (u v : Fin 3 → WithNaN K) : Fin 3 → WithNaN K :=
  ![u 1 * v 2 - u 2 * v 1, u 2 * v 0 - u 0 * v 2, u 0 * v 1 - u 1 * v 0]

def mulVec [Mul K] [AddCommMonoid K] (M : Fin n → Fin n → WithNaN K) (v : Fin n → WithNaN K) :
    Fin n → WithNaN K := fun i => ∑ j, M i j * v j

def mulMat [Mul K] [AddCommMonoid K] (A B : Fin n → Fin n → WithNaN K) :
    Fin n → Fin n → WithNaN K := fun i j => ∑ k, A i k * B k j

def numMat (A : Matrix (Fin n) (Fin n) K) : Fin n → Fin n → WithNaN K := fun i => numVec (A i)

def length [Elementary K] [Mul K] [AddCommMonoid K] [LT K] [DecidableLT K]
    (v : Fin n → WithNaN K) : WithNaN K := sqrtf (dot v v)

/-- The vector divided by its norm; a vector of `nan`s for the zero vector. -/
def normalized [Elementary K] [Field K] [LinearOrder K] (v : Fin n → WithNaN K) :
    Fin n → WithNaN K := fun i => v i / length v

def xy (v : Fin 3 → WithNaN K) : Fin 2 → WithNaN K := ![v 0, v 1]

def setXY (v : Fin 3 → WithNaN K) (u : Fin 2 → WithNaN K) : Fin 3 → WithNaN K :=
  ![u 0, u 1, v 2]

def setZ (v : Fin 3 → WithNaN K) (z : WithNaN K) : Fin 3 → WithNaN K := ![v 0, v 1, z]

theorem finiteVec_three {v : Fin 3 → WithNaN K} (h0 : (v 0).isFinite = true)
    (h1 : (v 1).isFinite = true) (h2 : (v 2).isFinite = true) : FiniteVec v := by
  intro i
  fin_cases i
  exacts [h0, h1, h2]

theorem vec_eq_three {v : Fin 3 → WithNaN K} {w : Fin 3 → K} (h0 : v 0 = num (w 0))
    (h1 : v 1 = num (w 1)) (h2 : v 2 = num (w 2)) : v = numVec w := by
  funext i
  fin_cases i
  exacts [h0, h1, h2]

@[simp] theorem xy_zero (v : Fin 3 → WithNaN K) : xy v 0 = v 0 := rfl
@[simp] theorem xy_one (v : Fin 3 → WithNaN K) : xy v 1 = v 1 := rfl

theorem finiteVec_xy {v : Fin 3 → WithNaN K} (h : FiniteVec v) : FiniteVec (xy v) := by
  intro i
  fin_cases i
  exacts [h 0, h 1]

theorem sum_num [AddCommMonoid K] (f : Fin n → K) : ∑ i, num (f i) = num (∑ i, f i) := by
  induction n with
  | zero => rfl
  | succ n ih =>
    rw [Fin.sum_univ_succ, Fin.sum_univ_succ, ih fun i => f i.succ, num_add]

theorem sum_eq_nan [AddCommMonoid K] {f : Fin n → WithNaN K} (i : Fin n) (h : f i = nan) :
    ∑ j, f j = nan := by
  rw [← Finset.add_sum_erase _ _ (Finset.mem_univ i), h, nan_add]

theorem mulMat_numMat [Mul K] [AddCommMonoid K] (A B : Matrix (Fin n) (Fin n) K) :
    mulMat (numMat A) (numMat B) = numMat (A * B) :=
  funext fun i => funext fun j => sum_num fun k => A i k * B k j

theorem mulVec_numMat [Mul K] [AddCommMonoid K] (A : Matrix (Fin n) (Fin n) K) (v : Fin n → K) :
    mulVec (numMat A) (numVec v) = numVec (fun i => ∑ j, A i j * v j) :=
  funext fun i => sum_num fun j => A i j * v j

theorem numVec_three (x y z : K) : ![num x, num y, num z] = numVec ![x, y, z] :=
  vec_eq_three rfl rfl rfl

theorem dot_numVec [Mul K] [AddCommMonoid K] (a b : Fin n → K) :
    dot (numVec a) (numVec b) = num (∑ i, a i * b i) :=
  sum_num fun i => a i * b i

theorem FiniteVec.add [Add K] {u v : ι → WithNaN K} (hu : FiniteVec u) (hv : FiniteVec v) :
    FiniteVec (u + v) := fun i => by
  rw [Pi.add_apply, isFinite_add, hu i, hv i]
  rfl

theorem FiniteVec.sub [Sub K] {u v : ι → WithNaN K} (hu : FiniteVec u) (hv : FiniteVec v) :
    FiniteVec (u - v) := fun i => by
  rw [Pi.sub_apply, isFinite_sub, hu i, hv i]
  rfl

theorem FiniteVec.emult [Mul K] {u v : ι → WithNaN K} (hu : FiniteVec u) (hv : FiniteVec v) :
    FiniteVec (emult u v) := fun i => by
  rw [WithNaN.emult, isFinite_mul, hu i, hv i]
  rfl

theorem FiniteVec.scale [Mul K] {u : ι → WithNaN K} {x : WithNaN K} (hu : FiniteVec u)
    (hx : x.isFinite = true) : FiniteVec (scale u x) := fun i => by
  rw [WithNaN.scale, isFinite_mul, hu i, hx]
  rfl

theorem finiteVec_cross [Mul K] [Sub K] {u v : Fin 3 → WithNaN K} (hu : FiniteVec u)
    (hv : FiniteVec v) : FiniteVec (cross u v) := by
  intro i
  fin_cases i <;> simp [cross, isFinite_sub, isFinite_mul, hu _, hv _]

theorem finiteVec_mulVec [Mul K] [AddCommMonoid K] {M : Fin n → Fin n → WithNaN K}
    {v : Fin n → WithNaN K} (hM : ∀ i, FiniteVec (M i)) (hv : FiniteVec v) :
    FiniteVec (mulVec M v) := by
  intro i
  obtain ⟨m, hm⟩ := exists_numVec (hM i)
  obtain ⟨w, rfl⟩ := exists_numVec hv
  show (∑ j, M i j * numVec w j).isFinite = true
  rw [hm]
  exact congrArg isFinite (sum_num fun j => m j * w j)

end Vec

@[simp] theorem numVec_add [Add K] {ι : Type*} (a b : ι → K) :
    numVec a + numVec b = numVec (a + b) := rfl

@[simp] theorem numVec_sub [Sub K] {ι : Type*} (a b : ι → K) :
    numVec a - numVec b = numVec (a - b) := rfl

@[simp] theorem emult_numVec [Mul K] {ι : Type*} (a b : ι → K) :
    emult (numVec a) (numVec b) = numVec (a * b) := rfl

@[simp] theorem scale_numVec [Mul K] {ι : Type*} (a : ι → K) (c : K) :
    scale (numVec a) (num c) = numVec fun i => a i * c := rfl

/-! ### Norms over the reals -/

section Real

variable {n : ℕ}

noncomputable def len (a : Fin n → ℝ) : ℝ := Real.sqrt (∑ i, a i * a i)

theorem len_nonneg (a : Fin n → ℝ) : 0 ≤ len a := Real.sqrt_nonneg _

theorem sum_mul_self_nonneg (a : Fin n → ℝ) : 0 ≤ ∑ i, a i * a i :=
  Finset.sum_nonneg fun i _ => mul_self_nonneg (a i)

theorem len_mul_self (a : Fin n → ℝ) : len a * len a = ∑ i, a i * a i :=
  Real.mul_self_sqrt (sum_mul_self_nonneg a)

@[simp] theorem len_zero : len (0 : Fin n → ℝ) = 0 := by simp [len]

theorem len_pos {a : Fin n → ℝ} (h : a ≠ 0) : 0 < len a := by
  rw [len, Real.sqrt_pos]
  obtain ⟨i, hi⟩ := Function.ne_iff.mp h
  exact Finset.sum_pos' (fun j _ => mul_self_nonneg (a j))
    ⟨i, Finset.mem_univ i, mul_self_pos.mpr hi⟩

theorem sum_mul_mul_self (a : Fin n → ℝ) (k : ℝ) :
    ∑ i, a i * k * (a i * k) = (∑ i, a i * a i) * (k * k) := by
  rw [Finset.sum_mul]
  exact Finset.sum_congr rfl fun i _ => mul_mul_mul_comm _ _ _ _

theorem sum_div_len_mul_self {a : Fin n → ℝ} (h : a ≠ 0) :
    ∑ i, a i / len a * (a i / len a) = 1 := by
  have hlen := len_pos h
  calc ∑ i, a i / len a * (a i / len a)
      = (∑ i, a i * a i) / (len a * len a) := by
        rw [Finset.sum_div]
        exact Finset.sum_congr rfl fun i _ => div_mul_div_comm _ _ _ _
    _ = 1 := by rw [← len_mul_self a, div_self (mul_pos hlen hlen).ne']

theorem length_numVec (a : Fin n → ℝ) : length (numVec a) = num (len a) := by
  rw [length, dot_numVec, sqrtf_num (sum_mul_self_nonneg a), len]

theorem length_eq_nan {v : Fin n → WithNaN ℝ} (i : Fin n) (h : v i = nan) : length v = nan := by
  rw [length, dot, sum_eq_nan i (by rw [h, nan_mul]), sqrtf_nan]

theorem normalized_eq_nan {v : Fin n → WithNaN ℝ} (i : Fin n) (h : v i = nan) (j : Fin n) :
    normalized v j = nan := by
  rw [normalized, length_eq_nan i h, div_nan]

theorem normalized_numVec {a : Fin n → ℝ} (h : a ≠ 0) :
    normalized (numVec a) = numVec fun i => a i / len a := by
  funext i
  rw [normalized, length_numVec, numVec_apply, num_div_of_ne (len_pos h).ne', numVec_apply]

theorem normalized_zero (i : Fin n) : normalized (numVec (0 : Fin n → ℝ)) i = nan := by
  rw [normalized, length_numVec, len_zero, numVec_apply, num_div_zero]

end Real

end WithNaN
