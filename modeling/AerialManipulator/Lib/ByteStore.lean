/-
Byte memories, sparse files and tables of fixed-size slots.

A memory is a function from addresses to bytes; a file is a memory with a length
behind which every byte is zero, so that a hole reads as zeros and a read stops at
the end.  A `Layout` places the slots of several keys one after the other.

* `slice_add`, `slice_take`, `slice_drop` — parts of a range;
* `slice_put_self`, `put_of_lt`, `put_of_ge` — what a written range and the rest of the
  memory hold afterwards;
* `foldl_update` — cells that are set one after the other.
-/
import Mathlib.Data.List.Range
import Mathlib.Data.UInt
import Mathlib.Tactic.Ring

namespace ByteStore

/-- The contents of a memory. -/
abbrev Mem := ℕ → UInt8

/-- `bs` copied to the address `off`. -/
def put (m : Mem) (off : ℕ) (bs : List UInt8) : Mem := fun a =>
  if off ≤ a then bs[a - off]?.getD (m a) else m a

/-- The `n` bytes from `off` on. -/
def slice (m : Mem) (off n : ℕ) : List UInt8 := (List.range n).map fun i => m (off + i)

@[simp] theorem length_slice (m : Mem) (off n : ℕ) : (slice m off n).length = n := by
  simp [slice]

theorem put_of_lt {m : Mem} {off : ℕ} {bs : List UInt8} {a : ℕ} (h : a < off) :
    put m off bs a = m a := by
  rw [put, if_neg (by omega)]

theorem put_of_ge {m : Mem} {off : ℕ} {bs : List UInt8} {a : ℕ} (h : off + bs.length ≤ a) :
    put m off bs a = m a := by
  rw [put, if_pos (by omega), List.getElem?_eq_none (by omega), Option.getD_none]

theorem put_nil (m : Mem) (off : ℕ) : put m off [] = m := by
  funext a
  simp [put]

theorem put_add {m : Mem} {off : ℕ} {bs : List UInt8} {i : ℕ} (h : i < bs.length) :
    put m off bs (off + i) = bs[i] := by
  rw [put, if_pos (by omega), Nat.add_sub_cancel_left, List.getElem?_eq_getElem h, Option.getD_some]

theorem put_singleton (m : Mem) (off : ℕ) (x : UInt8) :
    put m off [x] = Function.update m off x := by
  funext a
  rcases Nat.lt_trichotomy a off with hlt | rfl | hgt
  · rw [put_of_lt hlt, Function.update_of_ne (by omega)]
  · rw [Function.update_self]
    exact @put_add m a [x] 0 Nat.zero_lt_one
  · rw [put_of_ge (by simp; omega), Function.update_of_ne (by omega)]

theorem foldl_update {α : Type} (f : ℕ → α) (is : List ℕ) (c : ℕ → α) (j : ℕ) :
    (j ∈ is → is.foldl (fun c i => Function.update c i (f i)) c j = f j) ∧
      (j ∉ is → is.foldl (fun c i => Function.update c i (f i)) c j = c j) := by
  induction is generalizing c with
  | nil => exact ⟨fun h => absurd h List.not_mem_nil, fun _ => rfl⟩
  | cons i is ih =>
    obtain ⟨hmem, hnot⟩ := ih (Function.update c i (f i))
    rw [List.foldl_cons]
    refine ⟨fun h => ?_, fun h => ?_⟩
    · by_cases hj : j ∈ is
      · exact hmem hj
      · obtain rfl : j = i := (List.mem_cons.mp h).resolve_right hj
        rw [hnot hj, Function.update_self]
    · rw [hnot (List.not_mem_of_not_mem_cons h), Function.update_of_ne (List.ne_of_not_mem_cons h)]

theorem slice_congr {m m' : Mem} {off n : ℕ} (h : ∀ i < n, m (off + i) = m' (off + i)) :
    slice m off n = slice m' off n := by
  apply List.map_congr_left
  intro i hi
  exact h i (List.mem_range.mp hi)

theorem slice_cons (m : Mem) (off n : ℕ) : slice m off (n + 1) = m off :: slice m (off + 1) n := by
  unfold slice
  rw [List.range_succ_eq_map, List.map_cons, List.map_map, Nat.add_zero]
  congr 1
  apply List.map_congr_left
  intro i _
  show m (off + (i + 1)) = m (off + 1 + i)
  congr 1
  omega

theorem slice_add (m : Mem) (off a b : ℕ) :
    slice m off (a + b) = slice m off a ++ slice m (off + a) b := by
  induction a generalizing off with
  | zero =>
    rw [Nat.zero_add, Nat.add_zero]
    rfl
  | succ a ih =>
    rw [Nat.succ_add, slice_cons, slice_cons, ih, List.cons_append]
    congr 3
    omega

theorem slice_take (m : Mem) (off : ℕ) {k n : ℕ} (h : k ≤ n) :
    (slice m off n).take k = slice m off k := by
  obtain ⟨j, rfl⟩ := Nat.exists_eq_add_of_le h
  rw [slice_add]
  exact List.take_left' (length_slice m off k)

theorem slice_drop (m : Mem) (off : ℕ) {k n : ℕ} (h : k ≤ n) :
    (slice m off n).drop k = slice m (off + k) (n - k) := by
  obtain ⟨j, rfl⟩ := Nat.exists_eq_add_of_le h
  rw [slice_add, Nat.add_sub_cancel_left]
  exact List.drop_left' (length_slice m off k)

theorem getElem?_slice (m : Mem) (off : ℕ) {i n : ℕ} (h : i < n) :
    (slice m off n)[i]? = some (m (off + i)) := by
  rw [slice, List.getElem?_map, List.getElem?_range h, Option.map_some]

theorem slice_put_self (m : Mem) (off : ℕ) (bs : List UInt8) :
    slice (put m off bs) off bs.length = bs := by
  apply List.ext_getElem
  · simp
  · intro i h₁ h₂
    simp only [slice, List.getElem_map, List.getElem_range]
    exact put_add h₂

theorem slice_put_append (m : Mem) (off : ℕ) (hd bs : List UInt8) :
    slice (put m off (hd ++ bs)) (off + hd.length) bs.length = bs := by
  apply List.ext_getElem
  · simp
  · intro i h₁ h₂
    simp only [slice, List.getElem_map, List.getElem_range, Nat.add_assoc]
    rw [put_add (by simp; omega)]
    simp

/-! ### Sparse files -/

/-- A file: every byte behind its length is zero. -/
structure File where
  bytes : Mem
  length : ℕ
  hole : ∀ a, length ≤ a → bytes a = 0

namespace File

def empty : File := ⟨fun _ => 0, 0, fun _ _ => rfl⟩

/-- `lseek` and `write`: the file grows as far as the last byte written. -/
def pwrite (f : File) (off : ℕ) (bs : List UInt8) : File where
  bytes := put f.bytes off bs
  length := if bs = [] then f.length else max f.length (off + bs.length)
  hole a h := by
    split at h
    · next hnil =>
      rw [hnil, put_nil]
      exact f.hole a h
    · rw [put_of_ge (le_trans (le_max_right _ _) h)]
      exact f.hole a (le_trans (le_max_left _ _) h)

/-- `lseek` and `read`: the bytes that are there, at most `n`. -/
def pread (f : File) (off n : ℕ) : List UInt8 := slice f.bytes off (min n (f.length - off))

@[simp] theorem bytes_pwrite (f : File) (off : ℕ) (bs : List UInt8) :
    (f.pwrite off bs).bytes = put f.bytes off bs := rfl

theorem length_le_pwrite (f : File) (off : ℕ) (bs : List UInt8) :
    f.length ≤ (f.pwrite off bs).length := by
  show f.length ≤ if bs = [] then f.length else max f.length (off + bs.length)
  split
  · exact le_refl _
  · exact le_max_left _ _

theorem le_length_pwrite {f : File} {off : ℕ} {bs : List UInt8} (h : bs ≠ []) :
    off + bs.length ≤ (f.pwrite off bs).length := by
  show off + bs.length ≤ if bs = [] then f.length else max f.length (off + bs.length)
  rw [if_neg h]
  exact le_max_right _ _

theorem pread_eq_slice {f : File} {off n : ℕ} (h : off + n ≤ f.length) :
    f.pread off n = slice f.bytes off n := by
  rw [pread, Nat.min_eq_left (by omega)]

end File

/-! ### Slots -/

/-- Keys with their slots: the size of a slot and the number of slots of each key. -/
structure Layout where
  keys : ℕ
  size : ℕ → ℕ
  count : ℕ → ℕ

namespace Layout

variable (L : Layout)

def keyOffset : ℕ → ℕ
  | 0 => 0
  | k + 1 => keyOffset k + L.count k * L.size k

def slot (k i : ℕ) : ℕ := L.keyOffset k + i * L.size k

/-- The slots there are. -/
def Valid (k i : ℕ) : Prop := k < L.keys ∧ i < L.count k

instance decidableValid (k i : ℕ) : Decidable (L.Valid k i) :=
  inferInstanceAs (Decidable (k < L.keys ∧ i < L.count k))

variable {L}

theorem keyOffset_mono {k l : ℕ} (h : k ≤ l) : L.keyOffset k ≤ L.keyOffset l := by
  induction l, h using Nat.le_induction with
  | base => exact le_refl _
  | succ l _ ih => exact le_trans ih (Nat.le_add_right _ _)

theorem slot_succ (k i : ℕ) : L.slot k (i + 1) = L.slot k i + L.size k := by
  unfold slot
  ring

theorem slot_mono {k i j : ℕ} (h : i ≤ j) : L.slot k i ≤ L.slot k j :=
  Nat.add_le_add_left (Nat.mul_le_mul_right _ h) _

theorem slot_add_size_le {k i : ℕ} (h : i < L.count k) :
    L.slot k i + L.size k ≤ L.keyOffset (k + 1) := by
  rw [← slot_succ]
  exact Nat.add_le_add_left (Nat.mul_le_mul_right _ h) _

theorem slot_add_size_le_of_lt {k l i j : ℕ} (hi : i < L.count k) (hkl : k < l) :
    L.slot k i + L.size k ≤ L.slot l j :=
  le_trans (slot_add_size_le hi) (le_trans (keyOffset_mono hkl) (Nat.le_add_right _ _))

theorem Valid.slot_add_size_le {k i : ℕ} (h : L.Valid k i) :
    L.slot k i + L.size k ≤ L.keyOffset L.keys :=
  le_trans (Layout.slot_add_size_le h.2) (keyOffset_mono h.1)

theorem slot_disjoint {k l i j : ℕ} (hi : L.Valid k i) (hj : L.Valid l j)
    (hne : k ≠ l ∨ i ≠ j) :
    L.slot k i + L.size k ≤ L.slot l j ∨ L.slot l j + L.size l ≤ L.slot k i := by
  rcases Nat.lt_trichotomy k l with hkl | rfl | hlk
  · exact .inl (slot_add_size_le_of_lt hi.2 hkl)
  · have hij : i ≠ j := hne.resolve_left fun h => h rfl
    rcases Nat.lt_or_gt_of_ne hij with hlt | hgt
    · left
      rw [← slot_succ]
      exact slot_mono hlt
    · right
      rw [← slot_succ]
      exact slot_mono hgt
  · exact .inr (slot_add_size_le_of_lt hj.2 hlk)

variable (L) in
/-- The starts of `n` slots of a key from slot `i` on. -/
def keySlots (k i n : ℕ) : List ℕ := (List.range n).map fun j => L.slot k (i + j)

theorem keySlots_succ (k i n : ℕ) :
    L.keySlots k i (n + 1) = L.slot k i :: L.keySlots k (i + 1) n := by
  unfold keySlots
  rw [List.range_succ_eq_map, List.map_cons, List.map_map, Nat.add_zero]
  congr 1
  apply List.map_congr_left
  intro j _
  show L.slot k (i + (j + 1)) = L.slot k (i + 1 + j)
  congr 1
  omega

theorem mem_keySlots {k i n a : ℕ} :
    a ∈ L.keySlots k i n ↔ ∃ j, i ≤ j ∧ j < i + n ∧ a = L.slot k j := by
  unfold keySlots
  rw [List.mem_map]
  constructor
  · rintro ⟨j, hj, rfl⟩
    exact ⟨i + j, by omega, by have := List.mem_range.mp hj; omega, rfl⟩
  · rintro ⟨j, hle, hlt, rfl⟩
    exact ⟨j - i, List.mem_range.mpr (by omega), by congr 1; omega⟩

theorem keySlots_pairwise {k w : ℕ} (hw : w ≤ L.size k) (i n : ℕ) :
    (L.keySlots k i n).Pairwise fun a b => a + w ≤ b := by
  induction n generalizing i with
  | zero => exact List.Pairwise.nil
  | succ n ih =>
    rw [keySlots_succ]
    refine List.pairwise_cons.mpr ⟨?_, ih (i + 1)⟩
    intro b hb
    obtain ⟨j, hle, -, rfl⟩ := mem_keySlots.mp hb
    have hnext := slot_mono (L := L) (k := k) hle
    rw [slot_succ] at hnext
    omega

variable (L) in
/-- The starts of all slots of the first `n` keys. -/
def slots : ℕ → List ℕ
  | 0 => []
  | n + 1 => slots n ++ L.keySlots n 0 (L.count n)

theorem mem_slots {n a : ℕ} : a ∈ L.slots n ↔ ∃ k < n, ∃ i < L.count k, a = L.slot k i := by
  induction n with
  | zero => simp [slots]
  | succ n ih =>
    rw [slots, List.mem_append, ih, mem_keySlots]
    constructor
    · rintro (⟨k, hk, hi⟩ | ⟨j, -, hlt, rfl⟩)
      · exact ⟨k, by omega, hi⟩
      · exact ⟨n, by omega, j, by omega, rfl⟩
    · rintro ⟨k, hk, i, hi, rfl⟩
      rcases Nat.lt_succ_iff_lt_or_eq.mp hk with hlt | rfl
      · exact .inl ⟨k, hlt, i, hi, rfl⟩
      · exact .inr ⟨i, Nat.zero_le i, by omega, rfl⟩

theorem slots_pairwise {n w : ℕ} (hw : ∀ k < n, w ≤ L.size k) :
    (L.slots n).Pairwise fun a b => a + w ≤ b := by
  induction n with
  | zero => exact List.Pairwise.nil
  | succ n ih =>
    refine List.pairwise_append.mpr ⟨ih fun k hk => hw k (by omega),
      keySlots_pairwise (hw n (by omega)) 0 _, ?_⟩
    intro a ha b hb
    obtain ⟨k, hk, i, hi, rfl⟩ := mem_slots.mp ha
    obtain ⟨j, -, -, rfl⟩ := mem_keySlots.mp hb
    exact le_trans (Nat.add_le_add_left (hw k (by omega)) _) (slot_add_size_le_of_lt hi hk)

end Layout

/-! ### Passes over slots -/

/-- Clears the first byte at `off` if its first two bytes say so. -/
def sweepAt (p : UInt8 → UInt8 → Bool) (m : Mem) (off : ℕ) : Mem :=
  if p (m off) (m (off + 1)) then Function.update m off 0 else m

/-- What a pass leaves in the memory: no later step reads what an earlier one wrote. -/
theorem foldl_sweepAt (p : UInt8 → UInt8 → Bool) {offs : List ℕ}
    (hoffs : offs.Pairwise fun a b => a + 2 ≤ b) (m : Mem) (a : ℕ) :
    offs.foldl (sweepAt p) m a = if a ∈ offs ∧ p (m a) (m (a + 1)) then 0 else m a := by
  induction offs generalizing m with
  | nil => simp
  | cons off offs ih =>
    obtain ⟨hfar, htail⟩ := List.pairwise_cons.mp hoffs
    have hsame : ∀ b, b ≠ off → sweepAt p m off b = m b := by
      intro b hb
      unfold sweepAt
      split
      · exact Function.update_of_ne hb _ _
      · rfl
    rw [List.foldl_cons, ih htail]
    by_cases ha : a = off
    · subst ha
      have hnot : a ∉ offs := fun h => by have := hfar a h; omega
      simp only [hnot, false_and, if_false, List.mem_cons_self, true_and]
      unfold sweepAt
      split
      · rw [Function.update_self]
      · rfl
    · simp only [hsame a ha, List.mem_cons, ha, false_or]
      by_cases hmem : a ∈ offs
      · rw [hsame (a + 1) (by have := hfar a hmem; omega)]
      · simp only [hmem, false_and, if_false]

end ByteStore
