/-
Flags in a 16-bit register.

A mask has the bits of some flags.  `has r m` says that one of them is set in the register.

* `has_or` — setting bits;
* `has_and`, `has_and_of_disjoint` — keeping the bits of a mask;
* `has_clear`, `has_clear_of_disjoint` — clearing them.
-/
import Mathlib.Data.UInt

namespace Flags

variable {r s m : UInt16}

def has (r m : UInt16) : Bool := r &&& m != 0

theorem has_iff :
    has r m = true ↔ ∃ i, r.toBitVec.getLsbD i = true ∧ m.toBitVec.getLsbD i = true := by
  rw [has, bne_iff_ne, ne_eq, ← UInt16.toBitVec_inj, UInt16.toBitVec_and]
  constructor
  · intro h
    by_contra hnone
    refine h (BitVec.eq_of_getLsbD_eq fun i hi => ?_)
    rw [BitVec.getLsbD_and, UInt16.toBitVec_ofNat, BitVec.getLsbD_zero, Bool.and_eq_false_imp]
    intro hr
    by_contra hm
    exact hnone ⟨i, hr, Bool.eq_true_of_not_eq_false hm⟩
  · rintro ⟨i, hr, hm⟩ h
    have hbit := congrArg (fun b => BitVec.getLsbD b i) h
    simp only [BitVec.getLsbD_and, hr, hm, Bool.and_self, UInt16.toBitVec_ofNat,
      BitVec.getLsbD_zero, Bool.true_eq_false] at hbit

theorem has_or : has (r ||| s) m = (has r m || has s m) := by
  rw [Bool.eq_iff_iff, Bool.or_eq_true, has_iff, has_iff, has_iff]
  simp only [UInt16.toBitVec_or, BitVec.getLsbD_or, Bool.or_eq_true, or_and_right, exists_or]

theorem has_comm : has r m = has m r := by rw [has, has, UInt16.and_comm]

theorem has_or_mask : has r (s ||| m) = (has r s || has r m) := by
  rw [has_comm, has_or, has_comm, has_comm (r := m)]

theorem has_and (h : s &&& m = m) : has (r &&& s) m = has r m := by
  rw [has, has, UInt16.and_assoc, h]

theorem has_and_of_disjoint (h : s &&& m = 0) : has (r &&& s) m = false := by
  rw [has, UInt16.and_assoc, h, UInt16.and_zero]
  rfl

theorem has_clear (h : ~~~s &&& m = 0) : has (r &&& ~~~s) m = false := has_and_of_disjoint h

theorem has_clear_of_disjoint (h : ~~~s &&& m = m) : has (r &&& ~~~s) m = has r m := has_and h

def put (r m : UInt16) (b : Bool) : UInt16 := if b then r ||| m else r &&& ~~~m

theorem has_self (h : m ≠ 0) : has m m = true := by
  rw [has, UInt16.and_self, bne_iff_ne]
  exact h

theorem has_put (hm : m ≠ 0) (b : Bool) : has (put r m b) m = b := by
  cases b with
  | true => rw [put, if_pos rfl, has_or, has_self hm, Bool.or_true]
  | false =>
    rw [put, if_neg Bool.false_ne_true]
    apply has_clear
    rw [UInt16.and_comm, UInt16.and_not_self]

theorem has_put_of_disjoint (h : ~~~s &&& m = m) (b : Bool) : has (put r s b) m = has r m := by
  cases b with
  | true =>
    have hs : s &&& m = 0 := by
      rw [← h, ← UInt16.and_assoc, UInt16.and_not_self, UInt16.zero_and]
    rw [put, if_pos rfl, has_or, has, has, hs]
    exact Bool.or_false _
  | false => rw [put, if_neg Bool.false_ne_true, has_clear_of_disjoint h]

/-- Keeping the bits of a mask and clearing them is the same only where there are none. -/
theorem and_eq_clear_iff : r &&& m = r &&& ~~~m ↔ r = 0 := by
  constructor
  · intro h
    apply UInt16.toBitVec_inj.mp
    refine BitVec.eq_of_getLsbD_eq fun i hi => ?_
    have hbit := congrArg (fun b : UInt16 => b.toBitVec.getLsbD i) h
    simp only [UInt16.toBitVec_and, UInt16.toBitVec_not, BitVec.getLsbD_and, BitVec.getLsbD_not, hi,
      decide_true, Bool.true_and] at hbit
    rw [UInt16.toBitVec_ofNat, BitVec.getLsbD_zero]
    cases hr : r.toBitVec.getLsbD i with
    | false => rfl
    | true =>
      rw [hr, Bool.true_and, Bool.true_and] at hbit
      cases hm : m.toBitVec.getLsbD i <;> simp [hm] at hbit
  · rintro rfl
    rw [UInt16.zero_and, UInt16.zero_and]

end Flags
