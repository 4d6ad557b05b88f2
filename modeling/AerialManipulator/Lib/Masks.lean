/-
Masked comparison of words.

`(a ^^^ b) &&& m = 0` says that two words agree where the mask is set.

* `agree_iff` — so they do if they are equal under the mask;
* `agree_insert` — a word into which the bits of another one have been put under a mask agrees with
  it there too.
-/
import Mathlib.Tactic.Common

namespace Masks

/-- `a` with the bits of `b` under the mask. -/
def insert {w : ℕ} (a m b : BitVec w) : BitVec w := (a &&& ~~~m) ||| (b &&& m)

theorem agree_iff {w : ℕ} {a b m : BitVec w} : (a ^^^ b) &&& m = 0#w ↔ a &&& m = b &&& m := by
  constructor
  · intro h
    ext i hi
    have hbit := congrArg (·[i]) h
    simp only [BitVec.getElem_and, BitVec.getElem_xor, BitVec.getElem_zero] at hbit ⊢
    revert hbit
    cases a[i] <;> cases b[i] <;> cases m[i] <;> simp
  · intro h
    ext i hi
    have hbit := congrArg (·[i]) h
    simp only [BitVec.getElem_and, BitVec.getElem_xor, BitVec.getElem_zero] at hbit ⊢
    revert hbit
    cases a[i] <;> cases b[i] <;> cases m[i] <;> simp

theorem agree_insert {w : ℕ} {a b m n : BitVec w} (h : a &&& m = b &&& m) :
    insert a n b &&& (m ||| n) = b &&& (m ||| n) := by
  ext i hi
  have hbit := congrArg (·[i]) h
  simp only [insert, BitVec.getElem_and, BitVec.getElem_or, BitVec.getElem_not] at hbit ⊢
  revert hbit
  cases a[i] <;> cases b[i] <;> cases m[i] <;> cases n[i] <;> simp

end Masks
