/-
The message queue of a uORB topic.

`uORB::DeviceNode` keeps the last `_queue_size` messages of a topic in a ring and
counts all messages ever written in the 32-bit `_generation`.  A subscriber holds
a generation of its own, taken from `getInitialGeneration` and moved on by
`copy`; the number of messages it has not seen is the difference of the two
counters.

`System` puts the node together with any number of subscribers and with two
records that the code does not have: the list of all messages written so far, and
for each subscriber the number of the message its generation stands for.

* **`copy_spec`** — what `copy` reads and returns, by the difference of the
  counters alone: the queue of one message, the empty lag, the in-order branch and
  the overrun branch in one statement;
* **`System.invariant_step`** — the counters are the true numbers modulo `2 ^ 32`
  and the ring holds the last messages, in every reachable state;
* **`System.copy_delivers`** — each call of `copy` in each run delivers the oldest
  undelivered message, or the oldest one still queued.
-/
import AerialManipulator.Lib.Ring
import AerialManipulator.Lib.Trace

namespace uORB

/-- `isInRange`: `value` lies between `left` and `right`, or the range wraps. -/
def isInRange (left value right : UInt32) : Bool :=
  if left < right then decide (left ≤ value) && decide (value ≤ right)
  else decide (left ≤ value) || decide (value ≤ right)

/-- `roundPowOfTwo8`: 0 ↦ 1, then the next power of two, at most 128. -/
def roundPowOfTwo8 (n : UInt8) : UInt8 :=
  if n = 0 then 1
  else
    let value := n - 1
    let value := value ||| value >>> 1
    let value := value ||| value >>> 2
    let value := value ||| value >>> 4
    let value := if value = 255 then value >>> 1 else value
    value + 1

theorem roundPowOfTwo8_pow (n : UInt8) : ∃ k < 8, (roundPowOfTwo8 n).toNat = 2 ^ k := by
  obtain ⟨n⟩ := n
  revert n
  decide

def ENOMEM : ℤ := 12
def EIO : ℤ := 5
def PX4_OK : ℤ := 0
def PX4_ERROR : ℤ := -1

/-- The queue of `uORB::DeviceNode`, for messages of type `M`.  `data` is `none`
until the first write allocates it. -/
structure DeviceNode (M : Type*) where
  o_size : ℕ
  queue_size : UInt8
  generation : UInt32 := 0
  data : Option (ℕ → M) := none
  data_valid : Bool := false
  queue_size_pow : ∃ k < 8, queue_size.toNat = 2 ^ k

namespace DeviceNode

variable {M : Type*}

def init (o_size : ℕ) (queue_size : UInt8) : DeviceNode M where
  o_size := o_size
  queue_size := roundPowOfTwo8 queue_size
  queue_size_pow := roundPowOfTwo8_pow queue_size

/-- `_queue_size` as an operand of unsigned arithmetic. -/
def q (n : DeviceNode M) : UInt32 := n.queue_size.toUInt32

/-- `copy`: the message and the new generation, or nothing before the first
allocation. -/
def copy (n : DeviceNode M) (generation : UInt32) : Option (M × UInt32) :=
  match n.data with
  | none => none
  | some data =>
    if n.queue_size = 1 then some (data 0, n.generation)
    else
      let current_generation := n.generation
      let generation := if current_generation = generation then generation - 1 else generation
      let generation :=
        if isInRange (current_generation - n.q) generation (current_generation - 1) then
          generation
        else current_generation - n.q
      some (data (generation % n.q).toNat, generation + 1)

/-- `write`.  `alloc` is what `new` returns if the queue has to be allocated:
`none` when it fails or may not be called. -/
def write (n : DeviceNode M) (alloc : Option (ℕ → M)) (buffer : M) (buflen : ℕ) :
    DeviceNode M × ℤ :=
  match n.data <|> alloc with
  | none => (n, -ENOMEM)
  | some data =>
    if n.o_size ≠ buflen then ({ n with data := some data }, - EIO)
    else
      ({ n with
          generation := n.generation + 1
          data := some (Function.update data (n.generation % n.q).toNat buffer)
          data_valid := true },
        n.o_size)

/-- `getInitialGeneration`: a new subscriber may read the previous publication. -/
def getInitialGeneration (n : DeviceNode M) : UInt32 :=
  n.generation - (if n.data_valid then 1 else 0)

def updatesAvailable (n : DeviceNode M) (generation : UInt32) : UInt32 :=
  n.generation - generation

/-- `updateQueueSize`: the size may only grow, and only before the queue is allocated. -/
def updateQueueSize (n : DeviceNode M) (queue_size : ℕ) : DeviceNode M × ℤ :=
  if n.queue_size.toNat = queue_size then (n, PX4_OK)
  else if n.data.isSome ∨ n.queue_size.toNat > queue_size ∨ queue_size > 255 then (n, PX4_ERROR)
  else
    ({ n with
        queue_size := roundPowOfTwo8 (UInt8.ofNat queue_size)
        queue_size_pow := roundPowOfTwo8_pow _ },
      PX4_OK)

/-! ### The queue size -/

theorem q_toNat (n : DeviceNode M) : n.q.toNat = n.queue_size.toNat :=
  UInt8.toNat_toUInt32 _

theorem q_dvd (n : DeviceNode M) : n.q.toNat ∣ 2 ^ 32 := by
  obtain ⟨k, hk, hq⟩ := n.queue_size_pow
  rw [q_toNat, hq]
  exact Nat.pow_dvd_pow 2 (by omega)

theorem q_pos (n : DeviceNode M) : 0 < n.q.toNat :=
  Nat.pos_of_dvd_of_pos n.q_dvd (by decide)

theorem q_le (n : DeviceNode M) : n.q.toNat ≤ 128 := by
  obtain ⟨k, hk, hq⟩ := n.queue_size_pow
  rw [q_toNat, hq]
  calc 2 ^ k ≤ 2 ^ 7 := Nat.pow_le_pow_right (by decide) (by omega)
    _ = 128 := by decide

/-! ### What `copy` returns -/

/-- The range test of `copy` says how far the reader is behind, also across the
wrap-around of the counters. -/
theorem isInRange_iff (current generation q : UInt32) (hq : 2 ≤ q.toNat) :
    isInRange (current - q) generation (current - 1) = true ↔
      1 ≤ (current - generation).toNat ∧ (current - generation).toNat ≤ q.toNat := by
  have hc := current.toNat_lt
  have hg := generation.toNat_lt
  have hq' := q.toNat_lt
  unfold isInRange
  by_cases hwrap : current - q < current - 1
  · rw [if_pos hwrap, Bool.and_eq_true, decide_eq_true_eq, decide_eq_true_eq]
    simp only [UInt32.lt_iff_toNat_lt, UInt32.le_iff_toNat_le, UInt32.toNat_sub,
      UInt32.toNat_one] at hwrap ⊢
    omega
  · rw [if_neg hwrap, Bool.or_eq_true, decide_eq_true_eq, decide_eq_true_eq]
    simp only [UInt32.lt_iff_toNat_lt, UInt32.le_iff_toNat_le, UInt32.toNat_sub,
      UInt32.toNat_one] at hwrap ⊢
    omega

theorem updatesAvailable_eq_zero {n : DeviceNode M} {g : UInt32} :
    (n.updatesAvailable g).toNat = 0 ↔ n.generation = g := by
  unfold updatesAvailable
  rw [← UInt32.toNat_inj, UInt32.toNat_sub]
  have hc := n.generation.toNat_lt
  have hg := g.toNat_lt
  omega

theorem eq_add_of_sub_toNat {a b : UInt32} {k : UInt32} (h : (a - b).toNat = k.toNat) :
    a = b + k := by
  have hab : a - b = k := UInt32.toNat_inj.mp h
  rw [← hab, UInt32.add_comm, UInt32.sub_add_cancel]

theorem copy_spec {n : DeviceNode M} {data : ℕ → M} (hdata : n.data = some data) (g : UInt32) :
    n.copy g =
      if (n.updatesAvailable g).toNat = 0 then
        some (data ((n.generation - 1) % n.q).toNat, g)
      else if (n.updatesAvailable g).toNat ≤ n.q.toNat then
        some (data (g % n.q).toNat, g + 1)
      else some (data ((n.generation - n.q) % n.q).toNat, n.generation - n.q + 1) := by
  unfold copy
  rw [hdata]
  by_cases hone : n.queue_size = 1
  · -- the queue of one message: every index is 0, and the reader catches up
    have hq : n.q = 1 := by rw [q, hone]; decide
    have hslot : ∀ x : UInt32, (x % n.q).toNat = 0 := by
      intro x
      rw [hq, UInt32.toNat_mod, UInt32.toNat_one, Nat.mod_one]
    simp only [hone, if_true, hslot]
    split
    · next h0 => rw [updatesAvailable_eq_zero.mp h0]
    · next h0 =>
      split
      · next h1 =>
        have hlag : (n.generation - g).toNat = (1 : UInt32).toNat := by
          rw [hq, UInt32.toNat_one] at h1
          rw [UInt32.toNat_one]
          unfold updatesAvailable at h0 h1
          omega
        rw [eq_add_of_sub_toNat hlag]
      · rw [hq, UInt32.sub_add_cancel]
  · have hq2 : 2 ≤ n.q.toNat := by
      have hpos := n.q_pos
      have hne : n.q.toNat ≠ 1 := by
        rw [q_toNat]
        intro h
        exact hone (UInt8.toNat_inj.mp h)
      omega
    simp only [if_neg hone]
    by_cases h0 : n.generation = g
    · -- nothing new: the previous message once more
      have hin : isInRange (g - n.q) (g - 1) (g - 1) = true := by
        rw [isInRange_iff _ _ _ hq2]
        have hlag : (g - (g - 1)).toNat = 1 := by
          have hg := g.toNat_lt
          simp only [UInt32.toNat_sub, UInt32.toNat_one]
          omega
        omega
      simp only [updatesAvailable_eq_zero.mpr h0, h0, if_true, hin, UInt32.sub_add_cancel]
    · have hlag : (n.updatesAvailable g).toNat ≠ 0 := fun h => h0 (updatesAvailable_eq_zero.mp h)
      simp only [if_neg h0, if_neg hlag]
      by_cases hin : isInRange (n.generation - n.q) g (n.generation - 1) = true
      · have hnear : (n.updatesAvailable g).toNat ≤ n.q.toNat :=
          ((isInRange_iff _ _ _ hq2).mp hin).2
        rw [if_pos hin, if_pos hnear]
      · have hfar : ¬ (n.updatesAvailable g).toNat ≤ n.q.toNat := by
          intro hle
          exact hin ((isInRange_iff _ _ _ hq2).mpr ⟨Nat.one_le_iff_ne_zero.mpr hlag, hle⟩)
        rw [if_neg hin, if_neg hfar]

theorem allocated_of_copy {n : DeviceNode M} {g g' : UInt32} {m : M}
    (h : n.copy g = some (m, g')) : ∃ data, n.data = some data := by
  rcases hdata : n.data with _ | data
  · rw [copy, hdata] at h
    exact absurd h (by simp)
  · exact ⟨data, rfl⟩

/-! ### What `write` does -/

/-- The three outcomes of `write`: no memory, the wrong size, or one message more.  The
slots it finds are those it had, if it had any. -/
theorem write_cases (n : DeviceNode M) (alloc : Option (ℕ → M)) (buffer : M) (buflen : ℕ) :
    (n.write alloc buffer buflen = (n, -ENOMEM)) ∨
    (∃ data, (n.data = some data ∨ n.data = none) ∧
      n.write alloc buffer buflen = ({ n with data := some data }, - EIO)) ∨
    (∃ data, (n.data = some data ∨ n.data = none) ∧
      n.write alloc buffer buflen =
        ({ n with
            generation := n.generation + 1
            data := some (Function.update data (n.generation % n.q).toNat buffer)
            data_valid := true },
          (n.o_size : ℤ))) := by
  unfold DeviceNode.write
  rcases hdata : (n.data <|> alloc) with _ | data
  · exact .inl rfl
  · have hold : n.data = some data ∨ n.data = none := by
      rcases h : n.data with _ | d
      · exact .inr rfl
      · rw [h] at hdata
        exact .inl hdata
    by_cases hlen : n.o_size ≠ buflen
    · exact .inr (.inl ⟨data, hold, by simp [hlen]⟩)
    · exact .inr (.inr ⟨data, hold, by simp [hlen]⟩)

end DeviceNode

/-! ### A node, its subscribers and what has been written -/

/-- A subscriber's `_last_generation`; `next` is the number of the first message it
has not been given, `start` what that was when it subscribed, and `received` the
messages that `copy` has returned to it as new. -/
structure Subscriber (M : Type*) where
  generation : UInt32
  next : ℕ
  start : ℕ
  received : List M

inductive Event (ι M : Type*)
  | write (alloc : Option (ℕ → M)) (buffer : M) (buflen : ℕ)
  | updateQueueSize (queue_size : ℕ)
  | subscribe (i : ι)
  | copy (i : ι)

structure System (ι M : Type*) where
  node : DeviceNode M
  written : List M := []
  sub : ι → Option (Subscriber M) := fun _ => none

namespace System

variable {ι M : Type*}

/-- The message that generation `g` stands for: as many places before the end as the
counters differ. -/
def next (s : System ι M) (g : UInt32) : ℕ :=
  s.written.length - (s.node.updatesAvailable g).toNat

theorem next_generation (s : System ι M) : s.next s.node.generation = s.written.length := by
  rw [System.next, DeviceNode.updatesAvailable_eq_zero.mpr rfl, Nat.sub_zero]

/-- The number of messages subscriber `u` has not been given. -/
def lag (s : System ι M) (u : Subscriber M) : ℕ := s.written.length - u.next

theorem last_of_lag {s : System ι M} {u : Subscriber M} (hpos : 0 < s.lag u) :
    ∃ m, s.written.getLast? = some m := by
  have hw : s.written ≠ [] := by
    intro hnil
    rw [lag, hnil] at hpos
    simp at hpos
  exact ⟨_, List.getLast?_eq_some_getLast hw⟩

/-- The counters are the true numbers modulo `2 ^ 32` and the ring holds the last
messages. -/
structure Invariant (s : System ι M) : Prop where
  generation : s.node.generation = UInt32.ofNat s.written.length
  empty : s.node.data = none → s.written = []
  holds : ∀ data, s.node.data = some data → Ring.Holds s.node.q.toNat data s.written
  valid : s.node.data_valid = true ↔ s.written ≠ []
  next_le : ∀ i u, s.sub i = some u → u.next ≤ s.written.length
  sub_generation : ∀ i u, s.sub i = some u → u.generation = UInt32.ofNat u.next

def init (o_size : ℕ) (queue_size : UInt8) : System ι M where
  node := DeviceNode.init o_size queue_size

theorem invariant_init (o_size : ℕ) (queue_size : UInt8) :
    Invariant (init o_size queue_size : System ι M) where
  generation := rfl
  empty := fun _ => rfl
  holds := fun _ h => absurd h (by simp [init, DeviceNode.init])
  valid := by simp [init, DeviceNode.init]
  next_le := fun _ _ h => absurd h (by simp [init])
  sub_generation := fun _ _ h => absurd h (by simp [init])

namespace Invariant

variable {s : System ι M} (hs : Invariant s)

include hs

/-- A counter `k` behind the last message has the true number of unseen messages,
modulo the size of the counters. -/
theorem updatesAvailable {k : ℕ} (hk : k ≤ s.written.length) :
    (s.node.updatesAvailable (UInt32.ofNat k)).toNat = (s.written.length - k) % 2 ^ 32 := by
  rw [DeviceNode.updatesAvailable, hs.generation]
  exact Ring.toNat_ofNat_sub hk

theorem next_ofNat {k : ℕ} (hk : k ≤ s.written.length) (hlt : s.written.length - k < 2 ^ 32) :
    s.next (UInt32.ofNat k) = k := by
  rw [System.next, hs.updatesAvailable hk, Nat.mod_eq_of_lt hlt]
  omega

theorem slot {data : ℕ → M} (hdata : s.node.data = some data) {k : ℕ}
    (hk : k < s.written.length) (hlast : s.written.length ≤ k + s.node.q.toNat) :
    data (UInt32.ofNat k % s.node.q).toNat = s.written[k] := by
  rw [Ring.toNat_ofNat_mod s.node.q_dvd]
  exact hs.holds data hdata k hk hlast

theorem generation_sub_q (hq : s.node.q.toNat ≤ s.written.length) :
    s.node.generation - s.node.q = UInt32.ofNat (s.written.length - s.node.q.toNat) := by
  rw [hs.generation, ← Ring.ofNat_sub hq, UInt32.ofNat_toNat]

theorem allocated (hw : s.written ≠ []) : ∃ data, s.node.data = some data := by
  rcases hdata : s.node.data with _ | data
  · exact absurd (hs.empty hdata) hw
  · exact ⟨data, rfl⟩

theorem copy_of_queue_one (hq : s.node.queue_size = 1) (hw : s.written ≠ []) (g : UInt32) :
    s.node.copy g = some (s.written.getLast hw, s.node.generation) := by
  obtain ⟨data, hdata⟩ := hs.allocated hw
  have hpos : 0 < s.written.length := List.length_pos_iff.mpr hw
  have hone : s.node.q.toNat = 1 := by
    rw [DeviceNode.q_toNat, hq]
    rfl
  have hslot := hs.holds data hdata (s.written.length - 1) (by omega) (by omega)
  rw [hone, Nat.mod_one] at hslot
  rw [DeviceNode.copy, hdata, List.getLast_eq_getElem, ← hslot]
  simp [hq]

theorem next_initial_generation : s.next s.node.getInitialGeneration = s.written.length - 1 := by
  rw [System.next, DeviceNode.updatesAvailable, DeviceNode.getInitialGeneration]
  by_cases hv : s.node.data_valid = true
  · have hone : (s.node.generation - (s.node.generation - 1)).toNat = 1 := by
      have hg := s.node.generation.toNat_lt
      simp only [UInt32.toNat_sub, UInt32.toNat_one]
      omega
    rw [if_pos hv, hone]
  · have hw : s.written = [] := by
      by_contra hne
      exact hv (hs.valid.mpr hne)
    rw [hw]
    simp

variable {k : ℕ} (hk : k ≤ s.written.length) (hlt : s.written.length - k < 2 ^ 32)

include hk hlt

theorem copy_of_eq (heq : s.written.length = k) (hw : s.written ≠ []) :
    s.node.copy (UInt32.ofNat k) = some (s.written.getLast hw, UInt32.ofNat k) := by
  obtain ⟨data, hdata⟩ := hs.allocated hw
  have hpos : 0 < s.written.length := List.length_pos_iff.mpr hw
  have hlag := hs.updatesAvailable hk
  rw [Nat.mod_eq_of_lt hlt] at hlag
  have hprev : s.node.generation - 1 = UInt32.ofNat (s.written.length - 1) := by
    rw [hs.generation, ← Ring.ofNat_sub (by omega : 1 ≤ s.written.length)]
    rfl
  have hq := s.node.q_pos
  rw [DeviceNode.copy_spec hdata, if_pos (by omega), hprev,
    hs.slot hdata (by omega) (by omega), List.getLast_eq_getElem]

theorem copy_of_le (hlt' : k < s.written.length) (hle : s.written.length - k ≤ s.node.q.toNat) :
    s.node.copy (UInt32.ofNat k) = some (s.written[k], UInt32.ofNat k + 1) := by
  obtain ⟨data, hdata⟩ := hs.allocated (List.ne_nil_of_length_pos (by omega))
  have hlag := hs.updatesAvailable hk
  rw [Nat.mod_eq_of_lt hlt] at hlag
  rw [DeviceNode.copy_spec hdata, if_neg (by omega), if_pos (by omega),
    hs.slot hdata hlt' (by omega)]

theorem copy_of_gt (hgt : s.node.q.toNat < s.written.length - k) :
    s.node.copy (UInt32.ofNat k) =
      s.written[s.written.length - s.node.q.toNat]?.map
        fun m => (m, UInt32.ofNat (s.written.length - s.node.q.toNat) + 1) := by
  have hq := s.node.q_pos
  obtain ⟨data, hdata⟩ := hs.allocated (List.ne_nil_of_length_pos (by omega))
  have hlag := hs.updatesAvailable hk
  rw [Nat.mod_eq_of_lt hlt] at hlag
  rw [DeviceNode.copy_spec hdata, if_neg (by omega), if_neg (by omega),
    hs.generation_sub_q (by omega), hs.slot hdata (by omega) (by omega),
    List.getElem?_eq_getElem (by omega), Option.map_some]

theorem copy_generation {m : M} {g : UInt32} (h : s.node.copy (UInt32.ofNat k) = some (m, g)) :
    ∃ k' ≤ s.written.length, s.written.length - k' < 2 ^ 32 ∧ g = UInt32.ofNat k' := by
  rcases Nat.lt_or_eq_of_le hk with hlt' | heq
  · by_cases hle : s.written.length - k ≤ s.node.q.toNat
    · rw [hs.copy_of_le hk hlt hlt' hle, Option.some.injEq, Prod.mk.injEq] at h
      refine ⟨k + 1, hlt', by omega, ?_⟩
      rw [← h.2, UInt32.ofNat_add]
      rfl
    · have hq := s.node.q_pos
      have hq' := s.node.q_le
      rw [hs.copy_of_gt hk hlt (by omega), List.getElem?_eq_getElem (by omega), Option.map_some,
        Option.some.injEq, Prod.mk.injEq] at h
      refine ⟨s.written.length - s.node.q.toNat + 1, by omega, by omega, ?_⟩
      rw [← h.2, UInt32.ofNat_add]
      rfl
  · -- nothing new: the counter stays, also when nothing was ever written
    refine ⟨k, hk, hlt, ?_⟩
    have hlag := hs.updatesAvailable hk
    rw [Nat.mod_eq_of_lt hlt] at hlag
    rcases hdata : s.node.data with _ | data
    · rw [DeviceNode.copy, hdata] at h
      exact absurd h (by simp)
    · rw [DeviceNode.copy_spec hdata, if_pos (by omega), Option.some.injEq, Prod.mk.injEq] at h
      exact h.2.symm

end Invariant

theorem Invariant.exists_ofNat {s : System ι M} (hs : Invariant s) {i : ι} {u : Subscriber M}
    (hu : s.sub i = some u) :
    ∃ k ≤ s.written.length, s.written.length - k < 2 ^ 32 ∧ u.generation = UInt32.ofNat k := by
  have hle := hs.next_le i u hu
  refine ⟨s.written.length - s.lag u % 2 ^ 32, by omega, by omega, ?_⟩
  rw [hs.sub_generation i u hu]
  apply UInt32.toNat_inj.mp
  rw [UInt32.toNat_ofNat', UInt32.toNat_ofNat']
  unfold lag
  omega

theorem Invariant.initial_generation {s : System ι M} (hs : Invariant s) :
    ∃ k ≤ s.written.length, s.written.length - k < 2 ^ 32 ∧
      s.node.getInitialGeneration = UInt32.ofNat k := by
  unfold DeviceNode.getInitialGeneration
  by_cases hv : s.node.data_valid = true
  · have hpos : 0 < s.written.length := List.length_pos_iff.mpr (hs.valid.mp hv)
    refine ⟨s.written.length - 1, by omega, by omega, ?_⟩
    rw [if_pos hv, hs.generation, ← Ring.ofNat_sub (by omega : 1 ≤ s.written.length)]
    rfl
  · refine ⟨s.written.length, le_refl _, by omega, ?_⟩
    rw [if_neg hv, hs.generation, UInt32.sub_zero]

/-- Subscriber `i` has been given the messages from its subscription on, in order. -/
def InOrder (s : System ι M) (i : ι) : Prop :=
  ∀ u, s.sub i = some u →
    u.start ≤ u.next ∧ u.received = (s.written.drop u.start).take (u.next - u.start)

/-- The call does not find subscriber `i` further behind than the queue is long. -/
def InReach (i : ι) (s : System ι M) (e : Event ι M) : Prop :=
  e = .copy i → ∀ u, s.sub i = some u → s.lag u ≤ s.node.queue_size.toNat

theorem InOrder.append {s : System ι M} (hs : Invariant s) {i : ι} (h : InOrder s i)
    {u : Subscriber M} (hu : s.sub i = some u) (l : List M) :
    u.received = ((s.written ++ l).drop u.start).take (u.next - u.start) := by
  obtain ⟨hstart, hreceived⟩ := h u hu
  have hle := hs.next_le i u hu
  rw [List.drop_append_of_le_length (by omega),
    List.take_append_of_le_length (by rw [List.length_drop]; omega)]
  exact hreceived

theorem Invariant.copy_inReach {s : System ι M} (hs : Invariant s) {i : ι} {u : Subscriber M}
    (hu : s.sub i = some u) (hreach : s.lag u ≤ s.node.queue_size.toNat) {m : M} {g : UInt32}
    (hcopy : s.node.copy u.generation = some (m, g)) :
    (s.node.updatesAvailable u.generation = 0 ∧ s.next g = u.next) ∨
    (∃ h : u.next < s.written.length, s.node.updatesAvailable u.generation ≠ 0 ∧
      s.next g = u.next + 1 ∧ s.written[u.next] = m) := by
  have hle := hs.next_le i u hu
  have hgen := hs.sub_generation i u hu
  unfold lag at hreach
  rw [← s.node.q_toNat] at hreach
  have hlt : s.written.length - u.next < 2 ^ 32 := by
    have := s.node.q_le
    omega
  have hup := hs.updatesAvailable hle
  rw [Nat.mod_eq_of_lt hlt, ← hgen] at hup
  rcases Nat.lt_or_eq_of_le hle with hnew | hend
  · right
    have hsome : s.node.updatesAvailable u.generation ≠ 0 := by
      intro hnone
      rw [hnone, UInt32.toNat_zero] at hup
      omega
    rw [hgen, hs.copy_of_le hle hlt hnew hreach, Option.some.injEq, Prod.mk.injEq] at hcopy
    have hg : g = UInt32.ofNat (u.next + 1) := by
      rw [← hcopy.2, UInt32.ofNat_add]
      rfl
    exact ⟨hnew, hsome, by rw [hg, hs.next_ofNat hnew (by omega)], hcopy.1⟩
  · left
    have hnone : s.node.updatesAvailable u.generation = 0 := by
      apply UInt32.toNat_inj.mp
      rw [hup, UInt32.toNat_zero]
      omega
    obtain ⟨data, hdata⟩ := DeviceNode.allocated_of_copy hcopy
    rw [DeviceNode.copy_spec hdata, if_pos (by rw [hnone]; rfl), Option.some.injEq,
      Prod.mk.injEq] at hcopy
    refine ⟨hnone, ?_⟩
    rw [← hcopy.2, hgen, hs.next_ofNat hle hlt]

variable [DecidableEq ι]

def step (s : System ι M) : Event ι M → System ι M
  | .write alloc buffer buflen =>
    let r := s.node.write alloc buffer buflen
    { s with
      node := r.1
      written := if r.2 < 0 then s.written else s.written ++ [buffer] }
  | .updateQueueSize n => { s with node := (s.node.updateQueueSize n).1 }
  | .subscribe i =>
    let g := s.node.getInitialGeneration
    { s with sub := Function.update s.sub i (some ⟨g, s.next g, s.next g, []⟩) }
  | .copy i =>
    match s.sub i with
    | none => s
    | some u =>
      match s.node.copy u.generation with
      | none => s
      | some (m, g) =>
        let received :=
          if s.node.updatesAvailable u.generation = 0 then u.received else u.received ++ [m]
        { s with sub := Function.update s.sub i (some ⟨g, s.next g, u.start, received⟩) }

theorem step_write (s : System ι M) (memory : ℕ → M) (buffer : M) :
    (s.step (.write (some memory) buffer s.node.o_size)).written = s.written ++ [buffer] ∧
    (s.step (.write (some memory) buffer s.node.o_size)).sub = s.sub ∧
    (s.step (.write (some memory) buffer s.node.o_size)).node.queue_size = s.node.queue_size := by
  rcases hdata : s.node.data with _ | data <;> simp [step, DeviceNode.write, hdata]

theorem step_copy {s : System ι M} {i : ι} {u : Subscriber M} (hu : s.sub i = some u)
    {m : M} {g : UInt32} (hcopy : s.node.copy u.generation = some (m, g)) :
    s.step (.copy i) = { s with sub := Function.update s.sub i (some ⟨g, s.next g, u.start,
      if s.node.updatesAvailable u.generation = 0 then u.received else u.received ++ [m]⟩) } := by
  simp [step, hu, hcopy]

theorem step_copy_of_none {s : System ι M} {i : ι}
    (h : s.sub i = none ∨ ∃ u, s.sub i = some u ∧ s.node.copy u.generation = none) :
    s.step (.copy i) = s := by
  rcases h with hu | ⟨u, hu, hcopy⟩
  · simp [step, hu]
  · simp [step, hu, hcopy]

/-! ### Every step keeps the counters and the ring in order -/

theorem Invariant.update_sub {s : System ι M} (hs : Invariant s) (i : ι) {g : UInt32}
    (hg : ∃ k ≤ s.written.length, s.written.length - k < 2 ^ 32 ∧ g = UInt32.ofNat k)
    (start : ℕ) (received : List M) :
    Invariant { s with sub := Function.update s.sub i (some ⟨g, s.next g, start, received⟩) } := by
  obtain ⟨k, hk, hlt, rfl⟩ := hg
  have hnext := hs.next_ofNat hk hlt
  have hsub : ∀ j u, Function.update s.sub i
      (some ⟨UInt32.ofNat k, s.next (UInt32.ofNat k), start, received⟩) j = some u →
      u.next ≤ s.written.length ∧ u.generation = UInt32.ofNat u.next := by
    intro j u hu
    by_cases hji : j = i
    · subst hji
      rw [Function.update_self, Option.some.injEq] at hu
      subst hu
      exact ⟨hnext.symm ▸ hk, congrArg UInt32.ofNat hnext.symm⟩
    · rw [Function.update_of_ne hji] at hu
      exact ⟨hs.next_le j u hu, hs.sub_generation j u hu⟩
  exact ⟨hs.generation, hs.empty, hs.holds, hs.valid, fun j u hu => (hsub j u hu).1,
    fun j u hu => (hsub j u hu).2⟩

theorem Invariant.write {s : System ι M} (hs : Invariant s) (alloc : Option (ℕ → M))
    (buffer : M) (buflen : ℕ) : Invariant (s.step (.write alloc buffer buflen)) := by
  have hring : ∀ data, (s.node.data = some data ∨ s.node.data = none) →
      Ring.Holds s.node.q.toNat data s.written := by
    rintro data (hdata | hdata)
    · exact hs.holds data hdata
    · rw [hs.empty hdata]
      exact Ring.holds_nil _ _
  rcases s.node.write_cases alloc buffer buflen with hw | ⟨data, hold, hw⟩ | ⟨data, hold, hw⟩
  · have hstep : s.step (.write alloc buffer buflen) = s := by
      simp [step, hw, ENOMEM]
    rw [hstep]
    exact hs
  · have hstep : s.step (.write alloc buffer buflen) =
        { s with node := { s.node with data := some data } } := by
      simp [step, hw, EIO]
    rw [hstep]
    refine ⟨hs.generation, fun h => absurd h (by simp), ?_, hs.valid, hs.next_le, hs.sub_generation⟩
    intro d hd
    rw [← Option.some.inj hd]
    exact hring data hold
  · have hstep : s.step (.write alloc buffer buflen) =
        { s with
          node :=
            { s.node with
              generation := s.node.generation + 1
              data := some (Function.update data (s.node.generation % s.node.q).toNat buffer)
              data_valid := true }
          written := s.written ++ [buffer] } := by
      simp [step, hw]
    rw [hstep]
    refine ⟨?_, fun h => absurd h (by simp), ?_, by simp, ?_, hs.sub_generation⟩
    · show s.node.generation + 1 = UInt32.ofNat (s.written ++ [buffer]).length
      rw [hs.generation, List.length_append, UInt32.ofNat_add]
      rfl
    · intro d hd
      rw [← Option.some.inj hd, hs.generation, Ring.toNat_ofNat_mod s.node.q_dvd]
      exact (hring data hold).push buffer
    · intro i u hu
      have := hs.next_le i u hu
      simp only [List.length_append, List.length_singleton]
      omega

theorem Invariant.updateQueueSize {s : System ι M} (hs : Invariant s) (n : ℕ) :
    Invariant (s.step (.updateQueueSize n)) := by
  unfold step DeviceNode.updateQueueSize
  dsimp only
  split
  · exact hs
  · split
    · exact hs
    · next hnot =>
      -- the size changes only while nothing is allocated
      have hdata : s.node.data = none := by
        rcases h : s.node.data with _ | d
        · rfl
        · simp [h] at hnot
      exact ⟨hs.generation, hs.empty, fun d hd => absurd (hdata.symm.trans hd) (by simp),
        hs.valid, hs.next_le, hs.sub_generation⟩

theorem invariant_step {s : System ι M} (hs : Invariant s) (e : Event ι M) :
    Invariant (s.step e) := by
  rcases e with ⟨alloc, buffer, buflen⟩ | n | i | i
  · exact hs.write alloc buffer buflen
  · exact hs.updateQueueSize n
  · exact hs.update_sub i hs.initial_generation _ _
  · rcases hu : s.sub i with _ | u
    · rw [step_copy_of_none (.inl hu)]
      exact hs
    · obtain ⟨k, hk, hlt, hgen⟩ := hs.exists_ofNat hu
      rcases hcopy : s.node.copy u.generation with _ | ⟨m, g⟩
      · rw [step_copy_of_none (.inr ⟨u, hu, hcopy⟩)]
        exact hs
      · rw [step_copy hu hcopy]
        rw [hgen] at hcopy
        exact hs.update_sub i (hs.copy_generation hk hlt hcopy) _ _

/-! ### Delivery -/

/-- The call of `copy` by `i` returns message number `k`, and leaves `i` with
generation `g`, which stands for message `next`. -/
def Delivers (s : System ι M) (i : ι) (u : Subscriber M) (k : ℕ) (g : UInt32) (next : ℕ) : Prop :=
  ∃ m, s.written[k]? = some m ∧ s.node.copy u.generation = some (m, g) ∧
    ∃ u', (s.step (.copy i)).sub i = some u' ∧ u'.generation = g ∧ u'.next = next

theorem Invariant.delivers {s : System ι M} (hs : Invariant s) {i : ι} {u : Subscriber M}
    (hu : s.sub i = some u) {k : ℕ} (hk : k < s.written.length) {next : ℕ}
    (hnext : next ≤ s.written.length) (hlt : s.written.length - next < 2 ^ 32)
    (hcopy : s.node.copy u.generation = some (s.written[k], UInt32.ofNat next)) :
    Delivers s i u k (UInt32.ofNat next) next := by
  refine ⟨s.written[k], List.getElem?_eq_getElem hk, hcopy, ?_⟩
  rw [step_copy hu hcopy]
  dsimp only
  rw [Function.update_self, hs.next_ofNat hnext hlt]
  exact ⟨_, rfl, rfl, rfl⟩

/-- The delivery law of one call: by the number of messages the subscriber is behind. -/
def CopyLaw (s : System ι M) (i : ι) : Prop :=
  ∀ u, s.sub i = some u → s.lag u < 2 ^ 31 →
    (s.node.updatesAvailable u.generation).toNat = s.lag u ∧
    (s.lag u = 0 → s.written ≠ [] → Delivers s i u (s.written.length - 1) u.generation u.next) ∧
    (1 ≤ s.lag u → s.lag u ≤ s.node.queue_size.toNat →
      Delivers s i u u.next (u.generation + 1) (u.next + 1)) ∧
    (s.node.queue_size.toNat < s.lag u →
      Delivers s i u (s.written.length - s.node.queue_size.toNat)
        (u.generation + UInt32.ofNat (s.lag u - s.node.queue_size.toNat) + 1)
        (u.next + (s.lag u - s.node.queue_size.toNat) + 1))

theorem Invariant.copyLaw {s : System ι M} (hs : Invariant s) (i : ι) : CopyLaw s i := by
  intro u hu hlag
  have hle := hs.next_le i u hu
  have hgen := hs.sub_generation i u hu
  have hlt : s.written.length - u.next < 2 ^ 32 := by
    unfold lag at hlag
    omega
  have hq := s.node.q_pos
  rw [← s.node.q_toNat]
  unfold lag at hlag ⊢
  refine ⟨?_, ?_, ?_, ?_⟩
  · rw [hgen, hs.updatesAvailable hle, Nat.mod_eq_of_lt hlt]
  · intro hzero hw
    have hpos : 0 < s.written.length := List.length_pos_iff.mpr hw
    have hcopy := hs.copy_of_eq hle hlt (by omega) hw
    rw [List.getLast_eq_getElem] at hcopy
    rw [hgen]
    exact hs.delivers hu (by omega) hle hlt (by rw [hgen]; exact hcopy)
  · intro hone hfew
    have hcopy := hs.copy_of_le hle hlt (by omega) hfew
    have hsucc : u.generation + 1 = UInt32.ofNat (u.next + 1) := by
      rw [hgen, UInt32.ofNat_add]
      rfl
    rw [← hgen, hsucc] at hcopy
    rw [hsucc]
    exact hs.delivers hu (by omega) (by omega) (by omega) hcopy
  · intro hmany
    have hcopy := hs.copy_of_gt hle hlt hmany
    have hsum : u.next + (s.written.length - u.next - s.node.q.toNat) =
        s.written.length - s.node.q.toNat := by omega
    have hsucc : u.generation + UInt32.ofNat (s.written.length - u.next - s.node.q.toNat) + 1 =
        UInt32.ofNat (s.written.length - s.node.q.toNat + 1) := by
      rw [hgen, ← UInt32.ofNat_add, hsum, UInt32.ofNat_add]
      rfl
    rw [List.getElem?_eq_getElem (by omega), Option.map_some, ← hgen] at hcopy
    rw [hsucc, hsum]
    refine hs.delivers hu (by omega) (by omega) (by omega) ?_
    rw [hcopy, UInt32.ofNat_add]
    rfl

theorem InOrder.copy {s : System ι M} (hs : Invariant s) {i : ι} (h : InOrder s i)
    (hreach : InReach i s (.copy i)) : InOrder (s.step (.copy i)) i := by
  rcases hu : s.sub i with _ | u
  · rw [step_copy_of_none (.inl hu)]
    exact h
  rcases hcopy : s.node.copy u.generation with _ | ⟨m, g⟩
  · rw [step_copy_of_none (.inr ⟨u, hu, hcopy⟩)]
    exact h
  obtain ⟨hstart, hreceived⟩ := h u hu
  intro u' hu'
  rw [step_copy hu hcopy] at hu' ⊢
  dsimp only at hu' ⊢
  rw [Function.update_self, Option.some.injEq] at hu'
  subst hu'
  rcases hs.copy_inReach hu (hreach rfl u hu) hcopy with ⟨hnone, hg⟩ | ⟨hnew, hsome, hg, hm⟩
  · dsimp only
    rw [if_pos hnone, hg]
    exact ⟨hstart, hreceived⟩
  · dsimp only
    rw [if_neg hsome, hg]
    refine ⟨by omega, ?_⟩
    have hlen : u.next - u.start < (s.written.drop u.start).length := by
      rw [List.length_drop]
      omega
    have hmid : (s.written.drop u.start)[u.next - u.start] = m := by
      rw [List.getElem_drop, ← hm]
      congr 1
      omega
    rw [hreceived, Nat.sub_add_comm hstart, List.take_succ_eq_append_getElem hlen, hmid]

theorem step_copy_sub {s : System ι M} {i j : ι} (hij : i ≠ j) :
    (s.step (.copy j)).sub i = s.sub i ∧ (s.step (.copy j)).written = s.written := by
  rcases hu : s.sub j with _ | u
  · rw [step_copy_of_none (.inl hu)]
    exact ⟨rfl, rfl⟩
  rcases hcopy : s.node.copy u.generation with _ | ⟨m, g⟩
  · rw [step_copy_of_none (.inr ⟨u, hu, hcopy⟩)]
    exact ⟨rfl, rfl⟩
  · rw [step_copy hu hcopy]
    exact ⟨Function.update_of_ne hij _ _, rfl⟩

theorem inOrder_step {s : System ι M} (hs : Invariant s) {i : ι} (h : InOrder s i)
    {e : Event ι M} (hreach : InReach i s e) : InOrder (s.step e) i := by
  rcases e with ⟨alloc, buffer, buflen⟩ | n | j | j
  · intro u hu
    refine ⟨(h u hu).1, ?_⟩
    unfold step
    dsimp only
    split
    · exact (h u hu).2
    · exact h.append hs hu [buffer]
  · exact h
  · intro u hu
    by_cases hij : i = j
    · subst hij
      simp only [step, Function.update_self, Option.some.injEq] at hu
      subst hu
      simp
    · simp only [step, Function.update_of_ne hij] at hu
      exact h u hu
  · by_cases hij : i = j
    · subst hij
      exact h.copy hs hreach
    · obtain ⟨hsub, hwritten⟩ := step_copy_sub (s := s) hij
      intro u hu
      rw [hwritten]
      exact h u (hsub ▸ hu)

/-- Delivery in every run: each `copy` obeys the law, and a subscriber that never falls
further behind than the queue is long has been given every message since its
subscription, in order and once each. -/
theorem copy_delivers (o_size : ℕ) (queue_size : UInt8) (es : List (Event ι M)) (i : ι) :
    CopyLaw (Trace.run step (init o_size queue_size) es) i ∧
    (Trace.Always step (InReach i) (init o_size queue_size) es →
      InOrder (Trace.run step (init o_size queue_size) es) i) := by
  have hinv : Invariant (Trace.run step (init o_size queue_size : System ι M) es) :=
    Trace.run_of_invariant (I := Invariant) (fun s e hs _ => invariant_step hs e)
      (invariant_init o_size queue_size) (Trace.always_true _ es)
  refine ⟨hinv.copyLaw i, ?_⟩
  intro hreach
  have hboth : Invariant (Trace.run step (init o_size queue_size : System ι M) es) ∧
      InOrder (Trace.run step (init o_size queue_size) es) i :=
    Trace.run_of_invariant (I := fun s => Invariant s ∧ InOrder s i)
      (fun s e hs he => ⟨invariant_step hs.1 e, inOrder_step hs.1 hs.2 he⟩)
      ⟨invariant_init o_size queue_size, fun u hu => absurd hu (by simp [init])⟩ hreach
  exact hboth.2

end System

end uORB
