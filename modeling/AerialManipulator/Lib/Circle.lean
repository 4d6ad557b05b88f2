/-
Angles on a circle, and scans that go round it.

`Wraps p wrap` says that `wrap` brings a number into one turn, of length `p`; then `wrap (y - x)` is
the way forward from the direction `x` to the direction `y`.

A scan measures the directions `0`, `d`, `2 * d`, ….  `wrap_ceil_le` and
`interleaved_of_wrap_ceil_le` say when the first multiple at or after an angle is also the first
direction after it on the circle.
-/
import AerialManipulator.Lib.Literals

namespace Circle

variable {K : Type*} [Field K] [LinearOrder K] [IsStrictOrderedRing K]

/-- A function that brings a number into one turn. -/
structure Wraps (p : K) (wrap : K → K) : Prop where
  nonneg : ∀ x, 0 ≤ wrap x
  lt : ∀ x, wrap x < p
  turns : ∀ x, ∃ t : ℤ, wrap x = x + t * p

namespace Wraps

variable {p : K} {wrap : K → K}

theorem eq_of_mem (h : Wraps p wrap) {x : K} (t : ℤ) (h₀ : 0 ≤ x + t * p) (h₁ : x + t * p < p) :
    wrap x = x + t * p := by
  obtain ⟨s, hs⟩ := h.turns x
  have hp : 0 < p := (h.nonneg x).trans_lt (h.lt x)
  have hlow := h.nonneg x
  have hhigh := h.lt x
  rw [hs] at hlow hhigh
  have hlt : s < t + 1 := by
    have hmul : (s : K) * p < (t + 1) * p := by linarith
    exact_mod_cast lt_of_mul_lt_mul_right hmul hp.le
  have hgt : t < s + 1 := by
    have hmul : (t : K) * p < (s + 1) * p := by linarith
    exact_mod_cast lt_of_mul_lt_mul_right hmul hp.le
  rw [hs, show s = t by omega]

theorem eq_self (h : Wraps p wrap) {x : K} (h₀ : 0 ≤ x) (h₁ : x < p) : wrap x = x := by
  have heq := h.eq_of_mem (x := x) 0
  rw [Int.cast_zero, zero_mul, add_zero] at heq
  exact heq h₀ h₁

theorem add_turns (h : Wraps p wrap) (x : K) (t : ℤ) : wrap (x + t * p) = wrap x := by
  obtain ⟨s, hs⟩ := h.turns x
  have hx : x + t * p + (s - t : ℤ) * p = wrap x := by
    rw [hs]
    push_cast
    ring
  rw [h.eq_of_mem (s - t) (hx ▸ h.nonneg x) (hx ▸ h.lt x), hx]

theorem le_of_nonneg (h : Wraps p wrap) {x : K} (hx : 0 ≤ x) : wrap x ≤ x := by
  rcases lt_or_ge x p with hlt | hge
  · exact (h.eq_self hx hlt).le
  · exact (h.lt x).le.trans hge

theorem sub_wrap (h : Wraps p wrap) (y x : K) : wrap (y - wrap x) = wrap (y - x) := by
  obtain ⟨t, ht⟩ := h.turns x
  have hsub : y - wrap x = y - x + (-t : ℤ) * p := by
    rw [ht]
    push_cast
    ring
  rw [hsub, h.add_turns]

end Wraps

variable [FloorRing K]

def reduce (p x : K) : K := x - ⌊x / p⌋ * p

theorem wraps_reduce {p : K} (hp : 0 < p) : Wraps p (reduce p) := by
  refine ⟨fun x => ?_, fun x => ?_, fun x => ⟨-⌊x / p⌋, ?_⟩⟩
  · exact sub_nonneg.mpr ((le_div_iff₀ hp).mp (Int.floor_le (x / p)))
  · have hlt := (div_lt_iff₀ hp).mp (Int.lt_floor_add_one (x / p))
    rw [reduce]
    linarith
  · rw [reduce]
    push_cast
    ring

/-- In front of the way to a direction of another turn there is a multiple of `d`. -/
def Interleaved (p d : K) (n : ℤ) (r : K) : Prop :=
  ∀ k : ℤ, 0 ≤ k → k ≤ n → ∀ t : ℤ, t ≠ 0 → r ≤ k * d + t * p →
    ∃ j : ℤ, r ≤ j * d ∧ j * d ≤ k * d + t * p

omit [IsStrictOrderedRing K] [FloorRing K] in
theorem interleaved_of_dvd {p d r : K} (n m : ℤ) (hm : m * d = p) : Interleaved p d n r := by
  intro k _ _ t _ hrt
  have hsum : ((k + t * m : ℤ) : K) * d = k * d + t * p := by
    rw [← hm]
    push_cast
    ring
  exact ⟨k + t * m, by rw [hsum]; exact hrt, hsum.le⟩

variable {p : K} {wrap : K → K}

theorem ceil_div_le_iff {d : K} (hd : 0 < d) (r : K) (j : ℤ) : ⌈r / d⌉ ≤ j ↔ r ≤ j * d := by
  rw [Int.ceil_le, div_le_iff₀ hd]

theorem le_ceil_mul {d : K} (hd : 0 < d) (r : K) : r ≤ ⌈r / d⌉ * d :=
  (ceil_div_le_iff hd r _).mp le_rfl

theorem ceil_mul_lt {d : K} (hd : 0 < d) (r : K) : ⌈r / d⌉ * d < r + d := by
  have hlt := mul_lt_mul_of_pos_right (Int.ceil_lt_add_one (r / d)) hd
  rwa [add_mul, one_mul, div_mul_cancel₀ r hd.ne'] at hlt

theorem wrap_ceil_le (h : Wraps p wrap) {d : K} (hd : 0 < d) {n : ℤ} {r : K}
    (hint : Interleaved p d n r) {k : ℤ} (hk : 0 ≤ k) (hkn : k ≤ n) :
    wrap (⌈r / d⌉ * d - r) ≤ wrap (k * d - r) := by
  have hmono : ∀ j : ℤ, r ≤ j * d → (⌈r / d⌉ : K) * d ≤ j * d := fun j hj =>
    mul_le_mul_of_nonneg_right (by exact_mod_cast (ceil_div_le_iff hd r j).mpr hj) hd.le
  refine (h.le_of_nonneg (sub_nonneg.mpr (le_ceil_mul hd r))).trans ?_
  obtain ⟨t, ht⟩ := h.turns (k * d - r)
  have hnonneg := h.nonneg (k * d - r)
  rw [ht] at hnonneg ⊢
  by_cases hzero : t = 0
  · rw [hzero, Int.cast_zero, zero_mul, add_zero] at hnonneg ⊢
    exact sub_le_sub_right (hmono k (sub_nonneg.mp hnonneg)) r
  · obtain ⟨j, hrj, hjk⟩ := hint k hk hkn t hzero (by linarith)
    linarith [hmono j hrj]

theorem interleaved_of_wrap_ceil_le (h : Wraps p wrap) {d : K} (hd : 0 < d) (hdp : d ≤ p) {n : ℤ}
    {r : K} (hfirst : ∀ k : ℤ, 0 ≤ k → k ≤ n → wrap (⌈r / d⌉ * d - r) ≤ wrap (k * d - r)) :
    Interleaved p d n r := by
  intro k hk hkn t _ hrt
  refine ⟨⌈r / d⌉, le_ceil_mul hd r, ?_⟩
  have hself : wrap (⌈r / d⌉ * d - r) = ⌈r / d⌉ * d - r :=
    h.eq_self (sub_nonneg.mpr (le_ceil_mul hd r)) (by linarith [ceil_mul_lt hd r])
  have hway : wrap (k * d - r) ≤ k * d - r + t * p := by
    rw [← h.add_turns _ t]
    exact h.le_of_nonneg (by linarith)
  have hle := (hself ▸ hfirst k hk hkn).trans hway
  linarith

end Circle
