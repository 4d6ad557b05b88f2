/-
A chain of decaying quantities, each driven by the next one.

In a step of length `h` the quantity `y i` decays by `1 - a * h` and gets `h * y (i + 1)`; the last
of `m` quantities gets nothing.  This is what an observer with all its poles at one place makes of
its error.  Under weights that fall along the chain each step shrinks the largest quantity.

* `Within.next` — one step;
* `Within.run` — many steps of any lengths, with disturbances;
* `Within.run_exp` — the decay in terms of the time that has passed.
-/
import Mathlib.Analysis.Complex.Exponential
import Mathlib.Tactic.Positivity

namespace DecayChain

def next (a h : ℝ) (y : ℕ → ℝ) (i : ℕ) : ℝ := (1 - a * h) * y i + h * y (i + 1)

/-- Each of the `m` quantities is at most `b` under its weight, and there are no others. -/
structure Within (m : ℕ) (ε b : ℝ) (y : ℕ → ℝ) : Prop where
  bound : ∀ i < m, ε ^ (m - 1 - i) * |y i| ≤ b
  zero : ∀ i, m ≤ i → y i = 0

variable {m : ℕ} {a ε b b' h S : ℝ} {y w : ℕ → ℝ}

theorem Within.mono (hy : Within m ε b y) (hb : b ≤ b') : Within m ε b' y :=
  ⟨fun i hi => (hy.bound i hi).trans hb, hy.zero⟩

theorem Within.nonneg (hy : Within m ε b y) (hε : 0 < ε) (hm : 0 < m) : 0 ≤ b :=
  (by positivity : 0 ≤ ε ^ (m - 1 - 0) * |y 0|).trans (hy.bound 0 hm)

theorem Within.bound_succ (hy : Within m ε b y) (hε : 0 < ε) {i : ℕ} (hi : i < m) :
    ε ^ (m - 1 - i) * |y (i + 1)| ≤ ε * b := by
  rcases Nat.lt_or_ge (i + 1) m with hlt | hge
  · have hexp : m - 1 - i = (m - 1 - (i + 1)) + 1 := by omega
    calc ε ^ (m - 1 - i) * |y (i + 1)|
        = ε * (ε ^ (m - 1 - (i + 1)) * |y (i + 1)|) := by rw [hexp, pow_succ]; ring
      _ ≤ ε * b := mul_le_mul_of_nonneg_left (hy.bound (i + 1) hlt) hε.le
  · -- there is no next one
    rw [hy.zero (i + 1) hge, abs_zero, mul_zero]
    exact mul_nonneg hε.le (hy.nonneg hε (by omega))

theorem Within.next (hy : Within m ε b y) (hw : Within m ε b' w) (hε : 0 < ε) (hh : 0 ≤ h)
    (hah : a * h ≤ 1) :
    Within m ε ((1 - (a - ε) * h) * b + b') fun i => DecayChain.next a h y i + w i := by
  constructor
  · intro i hi
    have hdecay : 0 ≤ 1 - a * h := by linarith
    have hpow : 0 ≤ ε ^ (m - 1 - i) := pow_nonneg hε.le _
    calc ε ^ (m - 1 - i) * |DecayChain.next a h y i + w i|
        ≤ ε ^ (m - 1 - i) * ((1 - a * h) * |y i| + h * |y (i + 1)| + |w i|) := by
          refine mul_le_mul_of_nonneg_left ?_ hpow
          refine (abs_add_le _ _).trans (add_le_add_left ((abs_add_le _ _).trans ?_) _)
          rw [abs_mul, abs_mul, abs_of_nonneg hdecay, abs_of_nonneg hh]
      _ = (1 - a * h) * (ε ^ (m - 1 - i) * |y i|) + h * (ε ^ (m - 1 - i) * |y (i + 1)|) +
            ε ^ (m - 1 - i) * |w i| := by ring
      _ ≤ (1 - a * h) * b + h * (ε * b) + b' :=
          add_le_add (add_le_add (mul_le_mul_of_nonneg_left (hy.bound i hi) hdecay)
            (mul_le_mul_of_nonneg_left (hy.bound_succ hε hi) hh)) (hw.bound i hi)
      _ = (1 - (a - ε) * h) * b + b' := by ring
  · intro i hi
    show (1 - a * h) * y i + h * y (i + 1) + w i = 0
    rw [hy.zero i hi, hy.zero (i + 1) (by omega), hw.zero i hi]
    ring

/-- After `n` steps the start has decayed, and the disturbances have left at most `S / (a - ε)`. -/
theorem Within.run {n : ℕ} {y w : ℕ → ℕ → ℝ} {h : ℕ → ℝ} (hε : 0 < ε) (hεa : ε < a)
    (hstep : ∀ k < n, ∀ i, y (k + 1) i = DecayChain.next a (h k) (y k) i + w k i)
    (hh : ∀ k < n, 0 ≤ h k ∧ a * h k ≤ 1) (h0 : Within m ε b (y 0))
    (hw : ∀ k < n, Within m ε (h k * S) (w k)) (hS : 0 ≤ S) :
    Within m ε ((∏ k ∈ Finset.range n, (1 - (a - ε) * h k)) * b + S / (a - ε)) (y n) := by
  have hrate : 0 < a - ε := by linarith
  induction n with
  | zero =>
    rw [Finset.prod_range_zero, one_mul]
    have hrest : 0 ≤ S / (a - ε) := by positivity
    exact h0.mono (by linarith)
  | succ n ih =>
    have hn := ih (fun k hk => hstep k (by omega)) (fun k hk => hh k (by omega))
      fun k hk => hw k (by omega)
    obtain ⟨hh0, hh1⟩ := hh n (by omega)
    have heq : y (n + 1) = fun i => DecayChain.next a (h n) (y n) i + w n i :=
      funext fun i => hstep n (by omega) i
    rw [heq]
    refine (hn.next (hw n (by omega)) hε hh0 hh1).mono (le_of_eq ?_)
    rw [Finset.prod_range_succ]
    field_simp
    ring

theorem prod_one_sub_le_exp {n : ℕ} {c : ℝ} {h : ℕ → ℝ} (hh : ∀ k < n, c * h k ≤ 1) :
    ∏ k ∈ Finset.range n, (1 - c * h k) ≤ Real.exp (-(c * ∑ k ∈ Finset.range n, h k)) := by
  have hexp : Real.exp (-(c * ∑ k ∈ Finset.range n, h k)) =
      ∏ k ∈ Finset.range n, Real.exp (-(c * h k)) := by
    rw [← Real.exp_sum, Finset.sum_neg_distrib, Finset.mul_sum]
  rw [hexp]
  refine Finset.prod_le_prod ?_ ?_
  · intro k hk
    have hle := hh k (Finset.mem_range.mp hk)
    linarith
  · intro k _
    exact Real.one_sub_le_exp_neg (c * h k)

theorem Within.run_exp {n : ℕ} {y w : ℕ → ℕ → ℝ} {h : ℕ → ℝ} (ha : 0 < a)
    (hstep : ∀ k < n, ∀ i, y (k + 1) i = DecayChain.next a (h k) (y k) i + w k i)
    (hh : ∀ k < n, 0 ≤ h k ∧ a * h k ≤ 1) (h0 : Within m (a / 2) b (y 0)) (hb : 0 ≤ b)
    (hw : ∀ k < n, Within m (a / 2) (h k * S) (w k)) (hS : 0 ≤ S) :
    Within m (a / 2) (Real.exp (-(a / 2 * ∑ k ∈ Finset.range n, h k)) * b + S / (a / 2)) (y n) := by
  have hrun := Within.run (by linarith) (by linarith) hstep hh h0 hw hS
  have hhalf : a - a / 2 = a / 2 := by ring
  rw [hhalf] at hrun
  have hexp := prod_one_sub_le_exp (n := n) (c := a / 2) (h := h) fun k hk => by
    have hpos := mul_nonneg ha.le (hh k hk).1
    linarith [(hh k hk).2]
  exact hrun.mono (add_le_add_left (mul_le_mul_of_nonneg_right hexp hb) _)

end DecayChain
