/-
Strings that end with a zero byte.

Memory is a function; `strncpy` copies a string of it, and stops at its end or after a number of
bytes.  `strncpyReads` are the bytes that it looks at, the terminator among them.

* `strncpy_eq`, `length_strncpy_le` — a zero byte ends the string;
* `reads_lt_iff` — how far is looked.
-/
import Mathlib.Data.List.TakeWhile

namespace CString

variable (mem : ℕ → UInt8) (a n : ℕ)

/-- The string at an address, of which at most `n` bytes are copied. -/
def strncpy : List UInt8 := ((List.range n).map fun i => mem (a + i)).takeWhile (· ≠ 0)

def strncpyReads : List ℕ := (List.range (min n ((strncpy mem a n).length + 1))).map (a + ·)

variable {mem a n}

theorem isPrefix_strncpy : strncpy mem a n <+: (List.range n).map fun i => mem (a + i) :=
  List.takeWhile_prefix _

theorem length_strncpy_le_bound : (strncpy mem a n).length ≤ n := by
  have hle : (strncpy mem a n).length ≤ _ := isPrefix_strncpy.length_le
  rwa [List.length_map, List.length_range] at hle

theorem strncpy_getElem {i : ℕ} (hi : i < (strncpy mem a n).length) :
    (strncpy mem a n)[i] = mem (a + i) := by
  rw [isPrefix_strncpy.getElem hi, List.getElem_map, List.getElem_range]

theorem mem_ne_zero {i : ℕ} (hi : i < (strncpy mem a n).length) : mem (a + i) ≠ 0 := by
  have hall : ∀ x ∈ strncpy mem a n, x ≠ 0 := fun x hx =>
    of_decide_eq_true (List.mem_takeWhile_imp (p := fun x => decide (x ≠ 0)) hx)
  rw [← strncpy_getElem hi]
  exact hall _ (List.getElem_mem hi)

theorem length_strncpy_le {k : ℕ} (hk : mem (a + k) = 0) : (strncpy mem a n).length ≤ k :=
  Nat.le_of_not_lt fun hlt => mem_ne_zero hlt hk

theorem le_length_strncpy {k : ℕ} (hkn : k ≤ n) (hne : ∀ i < k, mem (a + i) ≠ 0) :
    k ≤ (strncpy mem a n).length := by
  obtain ⟨rest, rfl⟩ := Nat.exists_eq_add_of_le hkn
  unfold strncpy
  rw [List.range_add, List.map_append, List.takeWhile_append_of_pos, List.length_append,
    List.length_map, List.length_range]
  · exact Nat.le_add_right _ _
  · intro x hx
    obtain ⟨i, hi, rfl⟩ := List.mem_map.mp hx
    exact decide_eq_true (hne i (List.mem_range.mp hi))

theorem strncpy_eq {k : ℕ} (hkn : k ≤ n) (hne : ∀ i < k, mem (a + i) ≠ 0)
    (hend : k = n ∨ mem (a + k) = 0) :
    strncpy mem a n = (List.range k).map fun i => mem (a + i) := by
  obtain ⟨rest, rfl⟩ := Nat.exists_eq_add_of_le hkn
  unfold strncpy
  rw [List.range_add, List.map_append, List.takeWhile_append_of_pos]
  · refine List.append_right_eq_self.mpr ?_
    cases rest with
    | zero => rfl
    | succ rest =>
      have hzero : mem (a + k) = 0 := hend.resolve_left (by omega)
      rw [List.range_succ_eq_map, List.map_cons, List.map_cons, List.takeWhile_cons_of_neg]
      rw [Nat.add_zero, hzero]
      decide
  · intro x hx
    obtain ⟨i, hi, rfl⟩ := List.mem_map.mp hx
    exact decide_eq_true (hne i (List.mem_range.mp hi))

theorem reads_lt_iff {b : ℕ} (hn : 0 < n) : (∀ i ∈ strncpyReads mem a n, i < b) ↔
    a + min n ((strncpy mem a n).length + 1) ≤ b := by
  unfold strncpyReads
  constructor
  · intro h
    have hlast := h (a + (min n ((strncpy mem a n).length + 1) - 1))
      (List.mem_map.mpr ⟨_, List.mem_range.mpr (by omega), rfl⟩)
    omega
  · intro h i hi
    obtain ⟨j, hj, rfl⟩ := List.mem_map.mp hi
    have hlt := List.mem_range.mp hj
    omega

end CString
