/-
The bits of a sequence of words.

The words of `w` bits each, the low bit of each one first, make a sequence of bits.  Words of
another width that make the same bits are the same data.

* `eq_of_bitAt` — words are equal if their bits are;
* `bitAt_concat` — the bits of one more word;
* `SameBits.repack` — words that go into words of another width and come back are the same.
-/
import Mathlib.Data.Nat.Bitwise

namespace WordStream

variable {w v : ℕ} {xs ys : ℕ → ℕ}

/-- Bit `k` of a sequence of words of `w` bits each. -/
def bitAt (w : ℕ) (xs : ℕ → ℕ) (k : ℕ) : Bool := (xs (k / w)).testBit (k % w)

theorem bitAt_mul_add {b : ℕ} (hb : b < w) (i : ℕ) : bitAt w xs (w * i + b) = (xs i).testBit b := by
  rw [bitAt, Nat.mul_add_div (by omega), Nat.div_eq_of_lt hb, Nat.add_zero, Nat.mul_add_mod,
    Nat.mod_eq_of_lt hb]

theorem eq_of_bitAt {i : ℕ} (hx : xs i < 2 ^ w) (hy : ys i < 2 ^ w)
    (h : ∀ b < w, bitAt w xs (w * i + b) = bitAt w ys (w * i + b)) : xs i = ys i := by
  apply Nat.eq_of_testBit_eq
  intro b
  rcases Nat.lt_or_ge b w with hb | hb
  · have hbit := h b hb
    rwa [bitAt_mul_add hb, bitAt_mul_add hb] at hbit
  · have hpow : 2 ^ w ≤ 2 ^ b := Nat.pow_le_pow_right (by omega) hb
    rw [Nat.testBit_lt_two_pow (by omega), Nat.testBit_lt_two_pow (by omega)]

theorem bitAt_concat (l : List ℕ) {x : ℕ} (hx : x < 2 ^ w) (hw : 0 < w) (k : ℕ) :
    bitAt w ((l ++ [x]).getD · 0) k =
      (bitAt w (l.getD · 0) k || (decide (w * l.length ≤ k) && x.testBit (k - w * l.length))) := by
  obtain ⟨i, b, hb, rfl⟩ : ∃ i b, b < w ∧ k = w * i + b :=
    ⟨k / w, k % w, Nat.mod_lt k hw, (Nat.div_add_mod k w).symm⟩
  rw [bitAt_mul_add hb, bitAt_mul_add hb]
  rcases Nat.lt_trichotomy i l.length with hlt | rfl | hgt
  · have hle : w * (i + 1) ≤ w * l.length := Nat.mul_le_mul_left w hlt
    rw [Nat.mul_add] at hle
    rw [List.getD_append _ _ _ _ hlt, decide_eq_false (by omega), Bool.false_and, Bool.or_false]
  · rw [List.getD_append_right _ _ _ _ (Nat.le_refl _), Nat.sub_self, List.getD_cons_zero,
      List.getD_eq_default _ _ (Nat.le_refl _), Nat.zero_testBit, Bool.false_or,
      decide_eq_true (Nat.le_add_right _ _), Bool.true_and, Nat.add_sub_cancel_left]
  · -- behind the last word there are only zeros
    have hle : w * (l.length + 1) ≤ w * i := Nat.mul_le_mul_left w hgt
    rw [Nat.mul_add] at hle
    have hpow : 2 ^ w ≤ 2 ^ (w * i + b - w * l.length) := Nat.pow_le_pow_right (by omega) (by omega)
    rw [List.getD_eq_default _ _ (by simp; omega), List.getD_eq_default _ _ (by omega),
      Nat.testBit_lt_two_pow (lt_of_lt_of_le hx hpow), Bool.and_false, Bool.or_false]

/-- The first `n` bits of words of one width and of words of another one agree. -/
def SameBits (w : ℕ) (xs : ℕ → ℕ) (v : ℕ) (ys : ℕ → ℕ) (n : ℕ) : Prop :=
  ∀ k < n, bitAt w xs k = bitAt v ys k

theorem SameBits.repack {zs : ℕ → ℕ} {n i : ℕ} (h : SameBits w xs v ys n)
    (h' : SameBits v ys w zs n) (hi : w * (i + 1) ≤ n) (hx : xs i < 2 ^ w) (hz : zs i < 2 ^ w) :
    xs i = zs i := by
  refine eq_of_bitAt hx hz fun b hb => ?_
  have hk : w * i + b < n := by
    rw [Nat.mul_add] at hi
    omega
  exact (h _ hk).trans (h' _ hk)

end WordStream
