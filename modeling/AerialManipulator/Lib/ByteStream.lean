/-
Numbers as bytes, and files that are written from a position on.

`littleEndian n v` are the lowest `n` bytes of a number.  A file has a content and a position;
a call of `write` may write less than it should, which is up to the list of limits that the
file comes with, and `read` gives what there is.

* `ofLittleEndian_littleEndian` — the bytes of a number give the number;
* `toInt_toInt32` — so do its bits, if it is small enough, as those of a signed number;
* `File.Wrote.write` — what has been written one piece after the other is in the file.
-/
import Mathlib.Data.UInt
import Mathlib.Tactic.Ring

namespace ByteStream

/-- The lowest `n` bytes of a number, the lowest of them first. -/
def littleEndian : ℕ → ℕ → List UInt8
  | 0, _ => []
  | n + 1, v => UInt8.ofNat v :: littleEndian n (v / 256)

def ofLittleEndian : List UInt8 → ℕ
  | [] => 0
  | b :: bs => b.toNat + 256 * ofLittleEndian bs

@[simp] theorem length_littleEndian (n v : ℕ) : (littleEndian n v).length = n := by
  induction n generalizing v with
  | zero => rfl
  | succ n ih => rw [littleEndian, List.length_cons, ih]

theorem ofLittleEndian_littleEndian_mod (n v : ℕ) :
    ofLittleEndian (littleEndian n v) = v % 256 ^ n := by
  induction n generalizing v with
  | zero =>
    rw [pow_zero, Nat.mod_one]
    rfl
  | succ n ih =>
    have hsplit : v % 256 ^ (n + 1) = v % 256 + 256 * (v / 256 % 256 ^ n) := by
      rw [Nat.pow_succ', Nat.mod_mul]
    rw [littleEndian, ofLittleEndian, ih, UInt8.toNat_ofNat', hsplit]

theorem ofLittleEndian_littleEndian {n v : ℕ} (hv : v < 256 ^ n) :
    ofLittleEndian (littleEndian n v) = v := by
  rw [ofLittleEndian_littleEndian_mod, Nat.mod_eq_of_lt hv]

theorem toInt_toInt32 {x : UInt32} (hlt : x.toNat < 2 ^ 31) : x.toInt32.toInt = x.toNat := by
  refine BitVec.toInt_eq_toNat_of_lt ?_
  change 2 * x.toNat < 2 ^ 32
  omega

/-- A file with the position in it; the limits say how much the next calls of `write` can
write, where one is missing all of it. -/
structure File where
  content : List UInt8
  pos : ℕ
  limits : List ℕ

namespace File

/-- `write`, and how much has been written. -/
def write (f : File) (data : List UInt8) : File × ℕ :=
  let n := min data.length (f.limits.headD data.length)
  (⟨f.content.take f.pos ++ data.take n ++ f.content.drop (f.pos + n), f.pos + n, f.limits.tail⟩, n)

def read (f : File) (n : ℕ) : File × List UInt8 :=
  let data := (f.content.drop f.pos).take n
  ({ f with pos := f.pos + data.length }, data)

/-- `lseek` to the beginning. -/
def rewind (f : File) : File := { f with pos := 0 }

/-- The file begins with the data, and the position is behind it. -/
def Wrote (f : File) (data : List UInt8) : Prop :=
  f.content.take f.pos = data ∧ f.pos = data.length

theorem wrote_nil {f : File} (hpos : f.pos = 0) : f.Wrote [] := by
  rw [Wrote, hpos]
  exact ⟨rfl, rfl⟩

theorem Wrote.write {f : File} {old data : List UInt8} (hf : f.Wrote old)
    (hall : (f.write data).2 = data.length) : (f.write data).1.Wrote (old ++ data) := by
  obtain ⟨htake, hpos⟩ := hf
  unfold File.write at hall ⊢
  dsimp only at hall ⊢
  rw [Wrote]
  dsimp only
  rw [hall, List.take_length, htake, hpos]
  refine ⟨?_, (List.length_append).symm⟩
  rw [← List.length_append, List.take_left]

/-- After the first bytes of a file have been written again, the rest is still there. -/
theorem content_overwrite {f : File} {old data : List UInt8} (hf : f.Wrote old)
    (hle : data.length ≤ old.length) (hall : (f.rewind.write data).2 = data.length) :
    (f.rewind.write data).1.content =
      data ++ old.drop data.length ++ f.content.drop old.length := by
  obtain ⟨htake, hpos⟩ := hf
  unfold File.write rewind at hall ⊢
  dsimp only at hall ⊢
  rw [hall, List.take_zero, List.nil_append, List.take_length, Nat.zero_add, List.append_assoc]
  congr 1
  nth_rewrite 1 [← List.take_append_drop f.pos f.content]
  rw [htake, List.drop_append_of_le_length hle, hpos]

theorem write_of_limits_nil {f : File} (hlimits : f.limits = []) (data : List UInt8) :
    (f.write data).2 = data.length ∧ (f.write data).1.limits = [] := by
  unfold File.write
  rw [hlimits]
  exact ⟨min_self _, rfl⟩

/-- From some position on the file is as it was before. -/
def Behind (f : File) (old : List UInt8) (n : ℕ) : Prop :=
  n ≤ f.content.length ∧ f.content.drop n = old.drop n

theorem Behind.write {f : File} {old : List UInt8} (hf : f.Behind old f.pos) (data : List UInt8) :
    (f.write data).1.Behind old (f.write data).1.pos := by
  obtain ⟨hle, hdrop⟩ := hf
  unfold File.write Behind
  dsimp only
  generalize hn : min data.length (f.limits.headD data.length) = n
  have hn' : n ≤ data.length := hn ▸ min_le_left _ _
  have hlen : (f.content.take f.pos ++ data.take n).length = f.pos + n := by
    rw [List.length_append, List.length_take, List.length_take, min_eq_left hle, min_eq_left hn']
  constructor
  · rw [List.length_append, hlen]
    exact Nat.le_add_right _ _
  · rw [List.drop_left' hlen, ← List.drop_drop, hdrop, List.drop_drop]

theorem Behind.write_before {f : File} {old data : List UInt8} {n : ℕ} (hf : f.Behind old n)
    (hn : f.pos + data.length ≤ n) : (f.write data).1.Behind old n := by
  obtain ⟨hle, hdrop⟩ := hf
  unfold File.write Behind
  dsimp only
  generalize hk : min data.length (f.limits.headD data.length) = k
  have hk' : k ≤ data.length := hk ▸ min_le_left _ _
  have hlen : (f.content.take f.pos ++ data.take k).length = f.pos + k := by
    rw [List.length_append, List.length_take, List.length_take, min_eq_left hk']
    omega
  constructor
  · rw [List.length_append, hlen, List.length_drop]
    omega
  · rw [List.drop_append, List.drop_of_length_le (by omega), List.nil_append, hlen, List.drop_drop,
      show f.pos + k + (n - (f.pos + k)) = n by omega, hdrop]

end File

end ByteStream
