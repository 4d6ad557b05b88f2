/-
Ring buffers read through wrapping counters.

A ring of `q` slots is written at the position of the message number modulo
`q`.  `Holds q slots hist` says that the slots hold the last `q` entries of the
history `hist` of everything ever written; it is kept by `Holds.push` and, for
several entries at once, by `Holds.extend`.  Message
numbers are kept in 32-bit counters: `UInt32.ofNat` of the true number, so that
differences and slots can be read off the true numbers as long as they are small
(`toNat_ofNat_sub`) or `q` divides `2 ^ 32` (`toNat_ofNat_mod`).
-/
import Mathlib.Data.UInt

namespace Ring

variable {α : Type*} {q : ℕ} {slots : ℕ → α} {hist : List α}

/-- The slots of a ring of size `q` hold the last `q` entries of the history. -/
def Holds (q : ℕ) (slots : ℕ → α) (hist : List α) : Prop :=
  ∀ k (hk : k < hist.length), hist.length ≤ k + q → slots (k % q) = hist[k]

theorem holds_nil (q : ℕ) (slots : ℕ → α) : Holds q slots [] := by
  intro k hk
  simp at hk

theorem mod_ne_mod {k m : ℕ} (hlt : k < m) (hle : m < k + q) : k % q ≠ m % q := by
  intro heq
  have hmod := Nat.div_add_mod k q
  have hmod' := Nat.div_add_mod m q
  have hdiv : k / q < m / q := by
    by_contra hge
    have := Nat.mul_le_mul_left q (Nat.le_of_not_lt hge)
    omega
  have := Nat.mul_le_mul_left q (Nat.succ_le_of_lt hdiv)
  rw [Nat.mul_succ] at this
  omega

theorem Holds.push (h : Holds q slots hist) (a : α) :
    Holds q (Function.update slots (hist.length % q) a) (hist ++ [a]) := by
  intro k hk hlast
  rw [List.length_append, List.length_singleton] at hk hlast
  rcases Nat.lt_or_eq_of_le (Nat.lt_succ_iff.mp hk) with hlt | rfl
  · -- an older entry: fewer than `q` positions back, so its slot is another one
    have hne : k % q ≠ hist.length % q := mod_ne_mod hlt (by omega)
    rw [Function.update_of_ne hne, List.getElem_append_left hlt]
    exact h k hlt (by omega)
  · simp

theorem Holds.extend {slots' : ℕ → α} {new : List α} (h : Holds q slots hist)
    (hnew : ∀ j (hj : j < new.length), slots' ((hist.length + j) % q) = new[j])
    (hold : ∀ a, (∀ j < new.length, a ≠ (hist.length + j) % q) → slots' a = slots a) :
    Holds q slots' (hist ++ new) := by
  intro k hk hlast
  rw [List.length_append] at hk hlast
  rcases Nat.lt_or_ge k hist.length with hlt | hge
  · rw [List.getElem_append_left hlt, hold _ fun j hj => mod_ne_mod (by omega) (by omega)]
    exact h k hlt (by omega)
  · obtain ⟨j, rfl⟩ := Nat.exists_eq_add_of_le hge
    rw [List.getElem_append_right hge, hnew j (by omega)]
    simp

theorem Holds.window (h : Holds q slots hist) {lo i : ℕ} (hlo : hist.length ≤ lo + q)
    (hwrap : lo % q + i < q) (hi : lo + i < hist.length) :
    slots (lo % q + i) = hist[lo + i] := by
  have hmod : (lo + i) % q = lo % q + i := by
    rw [Nat.add_mod, Nat.mod_eq_of_lt (show i < q by omega), Nat.mod_eq_of_lt hwrap]
  rw [← hmod]
  exact h (lo + i) hi (by omega)

theorem mod_back {n c : ℕ} (hq : c ≤ q) (hn : c ≤ n) (k : ℕ) :
    (n % q + q - c + k) % q = (n - c + k) % q := by
  have hmod := Nat.div_add_mod n q
  have hsum : n % q + q - c + k + q * (n / q) = n - c + k + q := by omega
  rw [← Nat.add_mul_mod_self_left _ q (n / q), hsum, Nat.add_mod_right]

/-! ### 32-bit message numbers -/

theorem toNat_ofNat_sub {a b : ℕ} (h : b ≤ a) :
    (UInt32.ofNat a - UInt32.ofNat b).toNat = (a - b) % 2 ^ 32 := by
  rw [UInt32.toNat_sub, UInt32.toNat_ofNat', UInt32.toNat_ofNat']
  omega

theorem ofNat_sub {a b : ℕ} (h : b ≤ a) :
    UInt32.ofNat a - UInt32.ofNat b = UInt32.ofNat (a - b) := by
  apply UInt32.toNat_inj.mp
  rw [toNat_ofNat_sub h, UInt32.toNat_ofNat']

theorem toNat_ofNat_mod {a : ℕ} {q : UInt32} (hq : q.toNat ∣ 2 ^ 32) :
    (UInt32.ofNat a % q).toNat = a % q.toNat := by
  rw [UInt32.toNat_mod, UInt32.toNat_ofNat']
  exact Nat.mod_mod_of_dvd a hq

end Ring
