/-
NOR flash.

Memory that is read like any other.  Writing can only clear bits; a block is erased as a whole,
which sets all of its bits.  The driver is a parameter: `Works` says what a write does that asks
for nothing else than clearing bits, and `HasBlock` what erasing a block does.

* `Blank.clears` — blank memory takes any data;
* `At.put`, `Blank.put` — data that is written, and what is outside of it.
-/
import AerialManipulator.Lib.ByteStore
import AerialManipulator.Lib.ByteStream

open ByteStore ByteStream

namespace NorFlash

/-- The driver: the block that an address is in, erasing a block, and writing. -/
structure Progmem where
  getpage : ℕ → ℤ
  eraseblock : Mem → ℤ → Mem × ℤ
  write : Mem → ℕ → List UInt8 → Mem × ℤ

/-- Bits are only cleared. -/
def Clears (m : Mem) (a : ℕ) (data : List UInt8) : Prop :=
  ∀ i (hi : i < data.length), m (a + i) &&& data[i] = data[i]

/-- Half words can be written where bits are only cleared. -/
def Progmem.Works (dev : Progmem) : Prop :=
  ∀ m a data, 2 ∣ a → 2 ∣ data.length → Clears m a data →
    dev.write m a data = (put m a data, (data.length : ℤ))

/-- The device has a block of that number, with these addresses. -/
structure Progmem.HasBlock (dev : Progmem) (page address size : ℕ) : Prop where
  getpage : dev.getpage address = page
  erase : ∀ m, dev.eraseblock m page = (put m address (List.replicate size 255), (size : ℤ))

/-- All bits are set. -/
def Blank (m : Mem) (a b : ℕ) : Prop := ∀ x, a ≤ x → x < b → m x = 255

/-- The data is at that address. -/
def At (m : Mem) (a : ℕ) (data : List UInt8) : Prop := slice m a data.length = data

def half (m : Mem) (a : ℕ) : ℕ := ofLittleEndian (slice m a 2)

def word (m : Mem) (a : ℕ) : ℕ := ofLittleEndian (slice m a 4)

variable {m m' : Mem} {a b : ℕ} {data data' : List UInt8}

theorem at_iff : At m a data ↔ ∀ i (hi : i < data.length), m (a + i) = data[i] := by
  unfold At slice
  constructor
  · intro h i hi
    have hget := congrArg (fun l => l[i]?) h
    simpa [hi] using hget
  · intro h
    refine List.ext_getElem (by simp) fun i h₁ h₂ => ?_
    rw [List.getElem_map, List.getElem_range]
    exact h i h₂

theorem at_append : At m a (data ++ data') ↔ At m a data ∧ At m (a + data.length) data' := by
  rw [at_iff, at_iff, at_iff]
  constructor
  · intro h
    refine ⟨fun i hi => ?_, fun i hi => ?_⟩
    · rw [h i (by rw [List.length_append]; omega), List.getElem_append_left hi]
    · rw [Nat.add_assoc, h _ (by rw [List.length_append]; omega),
        List.getElem_append_right (Nat.le_add_right _ _)]
      simp only [Nat.add_sub_cancel_left]
  · rintro ⟨h, h'⟩ i hi
    rw [List.length_append] at hi
    rcases Nat.lt_or_ge i data.length with hlt | hge
    · rw [h i hlt, List.getElem_append_left hlt]
    · have hnext := h' (i - data.length) (by omega)
      rw [List.getElem_append_right hge, ← hnext]
      congr 1
      omega

theorem At.congr (h : At m a data) (heq : ∀ x, a ≤ x → x < a + data.length → m' x = m x) :
    At m' a data := by
  rw [at_iff] at h ⊢
  exact fun i hi => (heq _ (by omega) (by omega)).trans (h i hi)

theorem At.put (m : Mem) (a : ℕ) (data : List UInt8) : At (put m a data) a data :=
  slice_put_self m a data

theorem At.put_of_disjoint (h : At m a data) (hdisj : a + data.length ≤ b ∨ b + data'.length ≤ a) :
    At (ByteStore.put m b data') a data := by
  refine h.congr fun x hx₁ hx₂ => ?_
  rcases hdisj with hle | hle
  · exact put_of_lt (by omega)
  · exact put_of_ge (by omega)

theorem Blank.congr (h : Blank m a b) (heq : ∀ x, a ≤ x → x < b → m' x = m x) : Blank m' a b :=
  fun x hx₁ hx₂ => (heq x hx₁ hx₂).trans (h x hx₁ hx₂)

theorem Blank.put_of_disjoint {c : ℕ} (h : Blank m a b) (hdisj : b ≤ c ∨ c + data.length ≤ a) :
    Blank (put m c data) a b := by
  refine h.congr fun x hx₁ hx₂ => ?_
  rcases hdisj with hle | hle
  · exact put_of_lt (by omega)
  · exact put_of_ge (by omega)

theorem Blank.mono {c d : ℕ} (h : Blank m a b) (hac : a ≤ c) (hdb : d ≤ b) : Blank m c d :=
  fun x hx₁ hx₂ => h x (by omega) (by omega)

theorem blank_erased (m : Mem) (a n : ℕ) : Blank (put m a (List.replicate n 255)) a (a + n) := by
  intro x hx₁ hx₂
  obtain ⟨i, rfl⟩ := Nat.exists_eq_add_of_le hx₁
  rw [put_add (by rw [List.length_replicate]; omega), List.getElem_replicate]

theorem Blank.clears (h : Blank m a b) (hle : a + data.length ≤ b) : Clears m a data := by
  intro i hi
  rw [h (a + i) (by omega) (by omega)]
  exact UInt8.toBitVec_inj.mp (BitVec.allOnes_and)

theorem At.word (h : At m a data) {n : ℕ} (hdata : data = littleEndian 4 n) (hn : n < 2 ^ 32) :
    word m a = n := by
  subst hdata
  have hslice : slice m a 4 = littleEndian 4 n := h
  rw [NorFlash.word, hslice, ofLittleEndian_littleEndian hn]

theorem At.half (h : At m a data) {n : ℕ} (hdata : data = littleEndian 2 n) (hn : n < 2 ^ 16) :
    half m a = n := by
  subst hdata
  have hslice : slice m a 2 = littleEndian 2 n := h
  rw [NorFlash.half, hslice, ofLittleEndian_littleEndian hn]

theorem Blank.at_replicate (h : Blank m a b) {n : ℕ} (hle : a + n ≤ b) :
    At m a (List.replicate n 255) := by
  rw [at_iff]
  intro i hi
  rw [List.length_replicate] at hi
  rw [List.getElem_replicate]
  exact h _ (by omega) (by omega)

theorem Blank.word_eq (h : Blank m a b) (hle : a + 4 ≤ b) : word m a = 2 ^ 32 - 1 := by
  have hslice : slice m a 4 = List.replicate 4 255 := h.at_replicate hle
  rw [word, hslice]
  rfl

theorem Blank.half_eq (h : Blank m a b) (hle : a + 2 ≤ b) : half m a = 2 ^ 16 - 1 := by
  have hslice : slice m a 2 = List.replicate 2 255 := h.at_replicate hle
  rw [half, hslice]
  rfl

/-! ### Blocks of one size -/

/-- A flash whose blocks all have the same size, and whose bytes can be written at any time. -/
def Progmem.uniform (size : ℕ) : Progmem where
  getpage a := (a / size : ℕ)
  eraseblock m page := (put m (page.toNat * size) (List.replicate size 255), (size : ℤ))
  write m a data :=
    (put m a (List.zipWith (· &&& ·) (slice m a data.length) data), (data.length : ℤ))

theorem Progmem.uniform_works (size : ℕ) : (Progmem.uniform size).Works := by
  intro m a data _ _ hclears
  have hdata : List.zipWith (· &&& ·) (slice m a data.length) data = data := by
    refine List.ext_getElem (by simp [slice]) fun i h₁ h₂ => ?_
    simpa [slice] using hclears i h₂
  simp only [uniform, hdata]

theorem Progmem.uniform_hasBlock {size : ℕ} (hsize : 0 < size) (page : ℕ) :
    (Progmem.uniform size).HasBlock page (page * size) size := by
  refine ⟨?_, fun m => rfl⟩
  exact congrArg Nat.cast (Nat.mul_div_cancel page hsize)

end NorFlash
