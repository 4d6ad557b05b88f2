/-
The data manager as a map.

What `dataman` is for: it maps an item and an index to the bytes that were written
last, and forgets entries when an item is cleared or when their persistence does not
outlive a reset.  `Store` says so without tables, headers or offsets.

* **`ramStep_refines`** — the RAM backend computes the operations of the map;
* **`backends_agree`** — over every history both backends answer as the map does, each
  from its own start: the file backend has its compatibility entry;
* **`compat_differs`** — and there they differ.
-/
import AerialManipulator.Dataman.Dataman
import AerialManipulator.Lib.Trace

open ByteStore Trace

namespace Dataman

structure Entry where
  bytes : List UInt8
  persistence : Persistence
  deriving DecidableEq

/-- The map from items and indices to entries. -/
abbrev Store := Item → ℕ → Option Entry

def payload (item : Item) : ℕ := itemSize item.num - HDR_SIZE

/-- Which data outlives which reset, as `dataman.h` documents the persistence levels. -/
def survives : Reason → Persistence → Bool
  | _, .POWER_ON_RESET => true
  | .IN_FLIGHT, .IN_FLIGHT_RESET => true
  | _, _ => false

/-- Which data the `restart` functions keep. -/
def keeps (reason : Reason) (persistence : Persistence) : Bool :=
  !clearEntry reason 1 persistence.byte

theorem keeps_eq_survives {reason : Reason} (h : reason ≠ .VOLATILE) :
    keeps reason = survives reason := by
  funext persistence
  cases reason with
  | POWER_ON => cases persistence <;> rfl
  | IN_FLIGHT => cases persistence <;> rfl
  | VOLATILE => exact absurd rfl h

namespace Store

variable (b : Build) (s : Store)

def set (item : Item) (index : ℕ) (e : Option Entry) : Store := fun i k =>
  if i = item ∧ k = index then e else s i k

def write (item : Item) (index : ℕ) (persistence : Persistence) (buf : List UInt8) : Store × ℤ :=
  if ¬ (table b).Valid item.num index then (s, -1)
  else if buf.length > payload item then (s, -E2BIG)
  else (s.set item index (if buf = [] then none else some ⟨buf, persistence⟩), buf.length)

def read (item : Item) (index count : ℕ) : ℤ × List UInt8 :=
  if ¬ (table b).Valid item.num index then (-1, [])
  else if count > payload item then (-E2BIG, [])
  else
    match s item index with
    | none => (0, [])
    | some e => if e.bytes.length > count then (-1, []) else (e.bytes.length, e.bytes)

def clear (item : Item) : Store × ℤ :=
  if ¬ (table b).Valid item.num 0 then (s, -1)
  else (fun i k => if i = item then none else s i k, 0)

def restart (survives : Reason → Persistence → Bool) (reason : Reason) : Store × ℤ :=
  (fun i k => (s i k).filter fun e => survives reason e.persistence, 0)

def step (survives : Reason → Persistence → Bool) : Op → Store × ℤ × List UInt8
  | .write item index persistence buf =>
    ((s.write b item index persistence buf).1, (s.write b item index persistence buf).2, [])
  | .read item index count => (s, s.read b item index count)
  | .clear item => ((s.clear b item).1, (s.clear b item).2, [])
  | .restart reason => ((s.restart survives reason).1, (s.restart survives reason).2, [])

end Store

/-! ### Slots and entries -/

/-- What a slot holds. -/
def Holds (m : Mem) (off size : ℕ) : Option Entry → Prop
  | none => m off = 0
  | some e => 0 < e.bytes.length ∧ e.bytes.length ≤ size ∧
      m off = UInt8.ofNat e.bytes.length ∧ m (off + 1) = e.persistence.byte ∧
      slice m (off + HDR_SIZE) e.bytes.length = e.bytes

/-- The memory holds the map. -/
def Refines (b : Build) (m : Mem) (s : Store) : Prop :=
  ∀ item index, (table b).Valid item.num index →
    Holds m ((table b).slot item.num index) (payload item) (s item index)

variable {b : Build}

theorem Holds.congr {m m' : Mem} {off size : ℕ} {e : Option Entry} (h : Holds m off size e)
    (hsame : ∀ a, off ≤ a → a < off + (HDR_SIZE + size) → m' a = m a) : Holds m' off size e := by
  have hdr : HDR_SIZE = 4 := rfl
  cases e with
  | none => exact (hsame off (le_refl off) (by omega)).trans h
  | some e =>
    obtain ⟨hpos, hle, hlength, hpersistence, hbytes⟩ := h
    refine ⟨hpos, hle, ?_, ?_, ?_⟩
    · exact (hsame off (le_refl off) (by omega)).trans hlength
    · exact (hsame (off + 1) (by omega) (by omega)).trans hpersistence
    · refine (slice_congr ?_).trans hbytes
      intro i hi
      exact hsame _ (by omega) (by omega)

theorem payload_le {item : Item} (h : item.num < 7) :
    payload item ≤ 56 ∧ HDR_SIZE + payload item = itemSize item.num := by
  have hsize := itemSize_bounds item.num h
  have hdr : HDR_SIZE = 4 := rfl
  unfold payload
  omega

theorem toNat_ofNat_length {n : ℕ} (h : n ≤ 56) : (UInt8.ofNat n).toNat = n := by
  rw [UInt8.toNat_ofNat']
  omega

theorem holds_put (m : Mem) (off : ℕ) {size : ℕ} (persistence : Persistence) {buf : List UInt8}
    (hle : buf.length ≤ size) :
    Holds (put m off (entryBytes persistence buf)) off size
      (if buf = [] then none else some ⟨buf, persistence⟩) := by
  have hhead : ∀ i (hi : i < (entryBytes persistence buf).length),
      put m off (entryBytes persistence buf) (off + i) = (entryBytes persistence buf)[i] :=
    fun i hi => put_add hi
  have hlen : (entryBytes persistence buf).length = buf.length + 4 := rfl
  split
  · next hnil =>
    subst hnil
    exact hhead 0 (by omega)
  · next hne =>
    refine ⟨List.length_pos_iff.mpr hne, hle, hhead 0 (by omega), hhead 1 (by omega), ?_⟩
    exact slice_put_append m off [UInt8.ofNat buf.length, persistence.byte, 0, 0] buf

theorem ramWrite_refines {m : Mem} {s : Store} (h : Refines b m s) (item : Item) (index : ℕ)
    (persistence : Persistence) (buf : List UInt8) :
    Refines b (ramWrite b m item index persistence buf).1 (s.write b item index persistence buf).1 ∧
      (ramWrite b m item index persistence buf).2 = (s.write b item index persistence buf).2 := by
  unfold ramWrite Store.write
  by_cases hvalid : (table b).Valid item.num index
  · rw [calculateOffset_valid hvalid, if_neg (not_not.mpr hvalid)]
    dsimp only
    rw [if_neg (slot_le_dataEnd hvalid)]
    by_cases hbig : buf.length > itemSize item.num - HDR_SIZE
    · rw [if_pos hbig, if_pos (show buf.length > payload item from hbig)]
      exact ⟨h, rfl⟩
    · rw [if_neg hbig, if_neg (show ¬ buf.length > payload item from hbig)]
      refine ⟨?_, rfl⟩
      intro i k hik
      show Holds _ _ _ (s.set item index _ i k)
      unfold Store.set
      by_cases heq : i = item ∧ k = index
      · obtain ⟨rfl, rfl⟩ := heq
        rw [if_pos ⟨rfl, rfl⟩]
        exact holds_put m _ persistence (Nat.not_lt.mp hbig)
      · rw [if_neg heq]
        apply (h i k hik).congr
        intro a hle hlt
        rw [(payload_le hik.1).2] at hlt
        have hlen : (entryBytes persistence buf).length = buf.length + 4 := rfl
        have hsize := payload_le hvalid.1
        have hdr : HDR_SIZE = 4 := rfl
        have hne : i.num ≠ item.num ∨ k ≠ index := by
          by_contra hcon
          rw [not_or, not_not, not_not] at hcon
          exact heq ⟨Item.num_injective hcon.1, hcon.2⟩
        -- the written range lies inside the slot, and this slot is another one
        rcases Layout.slot_disjoint hik hvalid hne with hbefore | hafter
        · exact put_of_lt (lt_of_lt_of_le hlt hbefore)
        · apply put_of_ge
          change (table b).slot item.num index + itemSize item.num ≤ _ at hafter
          change ¬ buf.length > itemSize item.num - HDR_SIZE at hbig
          omega
  · rw [calculateOffset_invalid hvalid, if_pos hvalid]
    exact ⟨h, rfl⟩

theorem ramRead_refines {m : Mem} {s : Store} (h : Refines b m s) (item : Item)
    (index count : ℕ) : ramRead b m item index count = s.read b item index count := by
  unfold ramRead Store.read
  by_cases hvalid : (table b).Valid item.num index
  · rw [calculateOffset_valid hvalid, if_neg (not_not.mpr hvalid)]
    dsimp only
    rw [if_neg (slot_le_dataEnd hvalid)]
    have hslot := h item index hvalid
    by_cases hbig : count > itemSize item.num - HDR_SIZE
    · rw [if_pos hbig, if_pos (show count > payload item from hbig)]
    · rw [if_neg hbig, if_neg (show ¬ count > payload item from hbig)]
      cases hentry : s item index with
      | none =>
        rw [hentry] at hslot
        rw [show m ((table b).slot item.num index) = 0 from hslot]
        rfl
      | some e =>
        rw [hentry] at hslot
        obtain ⟨hpos, hle, hlength, -, hbytes⟩ := hslot
        have hnat := toNat_ofNat_length (le_trans hle (payload_le hvalid.1).1)
        have hgt : UInt8.ofNat e.bytes.length > 0 := by
          rw [gt_iff_lt, UInt8.lt_iff_toNat_lt, hnat]
          exact hpos
        rw [hlength, if_pos hgt, hnat, hbytes]
  · rw [calculateOffset_invalid hvalid, if_pos hvalid]

/-! ### Passes over the table -/

theorem not_slot_of_inside {k i l j a : ℕ} (hi : (table b).Valid k i) (hj : (table b).Valid l j)
    (hlt : (table b).slot k i < a) (hle : a < (table b).slot k i + itemSize k) :
    a ≠ (table b).slot l j := by
  rintro rfl
  by_cases hne : k ≠ l ∨ i ≠ j
  · rcases Layout.slot_disjoint hi hj hne with hbefore | hafter
    · exact absurd hbefore (Nat.not_le.mpr hle)
    · exact absurd (le_trans (Nat.le_add_right _ _) hafter) (Nat.not_le.mpr hlt)
  · rw [not_or, not_not, not_not] at hne
    obtain ⟨rfl, rfl⟩ := hne
    exact lt_irrefl _ hlt

theorem Refines.sweep {m : Mem} {s : Store} (h : Refines b m s) {offs : List ℕ}
    (p : UInt8 → UInt8 → Bool) (hpair : offs.Pairwise fun a c => a + 2 ≤ c)
    (hslot : ∀ a ∈ offs, ∃ k i, (table b).Valid k i ∧ a = (table b).slot k i)
    {s' : Store}
    (hs' : ∀ item index, (table b).Valid item.num index →
      let off := (table b).slot item.num index
      s' item index = if off ∈ offs ∧ p (m off) (m (off + 1)) then none else s item index) :
    Refines b (offs.foldl (sweepAt p) m) s' := by
  intro item index hvalid
  rw [hs' item index hvalid]
  have hat := foldl_sweepAt p hpair m
  by_cases hclear : (table b).slot item.num index ∈ offs ∧
      p (m ((table b).slot item.num index)) (m ((table b).slot item.num index + 1))
  · rw [if_pos hclear]
    exact (hat _).trans (if_pos hclear)
  · rw [if_neg hclear]
    apply (h item index hvalid).congr
    intro a hle hlt
    rw [(payload_le hvalid.1).2] at hlt
    rw [hat]
    rcases Nat.eq_or_lt_of_le hle with rfl | hinside
    · rw [if_neg hclear]
    · rw [if_neg]
      rintro ⟨hmem, -⟩
      obtain ⟨l, j, hlj, heq⟩ := hslot a hmem
      exact not_slot_of_inside hvalid hlj hinside hlt heq

theorem ramClearSlots_eq {k i n : ℕ} (hk : k < 7) (h : i + n ≤ maxIndex b k) (m : Mem) :
    ramClearSlots b (itemSize k) n ((table b).slot k i) m =
      (((table b).keySlots k i n).foldl (sweepAt fun _ _ => true) m, 0) := by
  induction n generalizing i m with
  | zero => rfl
  | succ n ih =>
    have hvalid : (table b).Valid k i := ⟨hk, by show i < maxIndex b k; omega⟩
    have hnext : (table b).slot k i + itemSize k = (table b).slot k (i + 1) :=
      (Layout.slot_succ k i).symm
    rw [ramClearSlots, if_neg (slot_le_dataEnd hvalid), hnext, ih (by omega),
      Layout.keySlots_succ, List.foldl_cons]
    rfl

theorem ramClear_refines {m : Mem} {s : Store} (h : Refines b m s) (item : Item) :
    Refines b (ramClear b m item).1 (s.clear b item).1 ∧
      (ramClear b m item).2 = (s.clear b item).2 := by
  unfold ramClear Store.clear
  by_cases hvalid : (table b).Valid item.num 0
  · rw [calculateOffset_valid hvalid, if_neg (not_not.mpr hvalid)]
    dsimp only
    rw [ramClearSlots_eq hvalid.1 (by omega)]
    refine ⟨h.sweep _ (Layout.keySlots_pairwise ?_ 0 _) ?_ ?_, rfl⟩
    · have hsize := (itemSize_bounds item.num hvalid.1).1
      have hdr : HDR_SIZE = 4 := rfl
      show 2 ≤ itemSize item.num
      omega
    · intro a ha
      obtain ⟨j, -, hlt, rfl⟩ := Layout.mem_keySlots.mp ha
      exact ⟨item.num, j, ⟨hvalid.1, by show j < maxIndex b item.num; omega⟩, rfl⟩
    · intro i k hik
      dsimp only
      by_cases heq : i = item
      · subst heq
        have hmem : (table b).slot i.num k ∈ (table b).keySlots i.num 0 (maxIndex b i.num) :=
          Layout.mem_keySlots.mpr ⟨k, Nat.zero_le k, by rw [Nat.zero_add]; exact hik.2, rfl⟩
        rw [if_pos rfl, if_pos ⟨hmem, rfl⟩]
      · rw [if_neg heq, if_neg]
        rintro ⟨hmem, -⟩
        obtain ⟨j, -, hlt, hsame⟩ := Layout.mem_keySlots.mp hmem
        have hj : (table b).Valid item.num j :=
          ⟨hvalid.1, by show j < maxIndex b item.num; omega⟩
        have hnum : i.num ≠ item.num := fun hcon => heq (Item.num_injective hcon)
        have hi := (slot_bounds hik).1
        have hitem := (slot_bounds hj).1
        rcases Layout.slot_disjoint hik hj (.inl hnum) with hbefore | hafter
        · change (table b).slot i.num k + itemSize i.num ≤ _ at hbefore
          omega
        · change (table b).slot item.num j + itemSize item.num ≤ _ at hafter
          omega
  · rw [calculateOffset_invalid hvalid, if_pos hvalid]
    exact ⟨h, rfl⟩

theorem ramRestartSlots_fst (reason : Reason) (k i n : ℕ) (m : Mem) :
    (ramRestartSlots reason (itemSize k) n (m, (table b).slot k i)).1 =
      ((table b).keySlots k i n).foldl (sweepAt (clearEntry reason)) m := by
  induction n generalizing i m with
  | zero => rfl
  | succ n ih =>
    have hnext : (table b).slot k i + itemSize k = (table b).slot k (i + 1) :=
      (Layout.slot_succ k i).symm
    rw [ramRestartSlots, hnext, ih, Layout.keySlots_succ, List.foldl_cons]

theorem ramRestartItems_fst (m : Mem) (reason : Reason) (item : ℕ) :
    (ramRestartItems b m reason item).1 =
      ((table b).slots item).foldl (sweepAt (clearEntry reason)) m := by
  induction item with
  | zero => rfl
  | succ item ih =>
    have hstart : ramRestartItems b m reason item =
        ((ramRestartItems b m reason item).1, (table b).slot item 0) := by
      refine Prod.ext rfl ?_
      rw [ramRestartItems_snd, Layout.slot, Nat.zero_mul, Nat.add_zero]
    rw [ramRestartItems, hstart, ramRestartSlots_fst, ih, Layout.slots, List.foldl_append]
    rfl

theorem clearEntry_length (reason : Reason) (persistence : Persistence) {n : ℕ} (hpos : 0 < n)
    (hle : n ≤ 56) :
    clearEntry reason (UInt8.ofNat n) persistence.byte = !keeps reason persistence := by
  have hne : UInt8.ofNat n ≠ 0 := by
    intro h
    have hnat := toNat_ofNat_length hle
    rw [h] at hnat
    exact absurd hnat.symm (Nat.pos_iff_ne_zero.mp hpos)
  unfold keeps clearEntry
  rw [decide_eq_true hne, Bool.not_not]
  rfl

theorem ramRestart_refines {m : Mem} {s : Store} (h : Refines b m s) (reason : Reason) :
    Refines b (ramRestart b m reason).1 (s.restart keeps reason).1 := by
  unfold ramRestart
  rw [ramRestartItems_fst]
  refine h.sweep _ (Layout.slots_pairwise ?_) ?_ ?_
  · intro k hk
    have hsize := (itemSize_bounds k hk).1
    have hdr : HDR_SIZE = 4 := rfl
    show 2 ≤ itemSize k
    omega
  · intro a ha
    obtain ⟨k, hk, i, hi, rfl⟩ := Layout.mem_slots.mp ha
    exact ⟨k, i, ⟨hk, hi⟩, rfl⟩
  · intro item index hvalid
    have hmem : (table b).slot item.num index ∈ (table b).slots Item.NUM_KEYS.num :=
      Layout.mem_slots.mpr ⟨item.num, hvalid.1, index, hvalid.2, rfl⟩
    have hslot := h item index hvalid
    dsimp only [Store.restart]
    cases hentry : s item index with
    | none =>
      rw [Option.filter_none, ite_self]
    | some e =>
      rw [hentry] at hslot
      obtain ⟨hpos, hle, hlength, hpersistence, -⟩ := hslot
      rw [hlength, hpersistence, clearEntry_length reason _ hpos
        (le_trans hle (payload_le hvalid.1).1), Option.filter_some]
      cases keeps reason e.persistence <;> simp [hmem]

/-- **The RAM backend is the map.** -/
theorem ramStep_refines {m : Mem} {s : Store} (h : Refines b m s) (op : Op) :
    Refines b (ramStep b m op).1 (s.step b keeps op).1 ∧
      (ramStep b m op).2 = (s.step b keeps op).2 := by
  cases op with
  | write item index persistence buf =>
    have hw := ramWrite_refines h item index persistence buf
    exact ⟨hw.1, congrArg (·, []) hw.2⟩
  | read item index count => exact ⟨h, ramRead_refines h item index count⟩
  | clear item =>
    have hc := ramClear_refines h item
    exact ⟨hc.1, congrArg (·, []) hc.2⟩
  | restart reason => exact ⟨ramRestart_refines h reason, rfl⟩

/-! ### Histories -/

def ramRun (b : Build) (m : Mem) (es : List Op) : Mem := run (fun m op => (ramStep b m op).1) m es

def fileRun (b : Build) (stack : Mem) (file : File) (es : List Op) : File :=
  run (fun file op => (fileStep b stack file op).1) file es

def Store.run (b : Build) (survives : Reason → Persistence → Bool) (s : Store) (es : List Op) :
    Store :=
  Trace.run (fun s op => (Store.step b s survives op).1) s es

theorem ramRun_refines {m : Mem} {s : Store} (h : Refines b m s) (es : List Op) :
    Refines b (ramRun b m es) (Store.run b keeps s es) :=
  run_simulation (R := Refines b) (fun _ _ op h => (ramStep_refines h op).1) h es

theorem fileRun_follows {file : File} (h : Covers b file) (stack : Mem) (es : List Op) :
    (fileRun b stack file es).bytes = ramRun b file.bytes es ∧
      Covers b (fileRun b stack file es) := by
  apply run_simulation (R := fun file m => file.bytes = m ∧ Covers b file) _ ⟨rfl, h⟩
  rintro file _ op ⟨rfl, hcovers⟩
  have hstep := fileStep_follows hcovers stack op
  exact ⟨hstep.bytes, hstep.covers⟩

theorem fileStep_refines {file : File} {s : Store} (h : Covers b file)
    (hrefines : Refines b file.bytes s) (stack : Mem) (es : List Op) (e : Op) :
    (fileStep b stack (fileRun b stack file es) e).2 =
      (Store.step b (Store.run b keeps s es) keeps e).2 := by
  obtain ⟨hbytes, hcovers⟩ := fileRun_follows h stack es
  rw [(fileStep_follows hcovers stack e).result, hbytes]
  exact (ramStep_refines (ramRun_refines hrefines es) e).2

def Store.empty : Store := fun _ _ => none

/-- The entry of `_file_initialize`. -/
def compatEntry : Entry := ⟨compatKey, .POWER_ON_RESET⟩

def Store.compat : Store := Store.empty.set .COMPAT 0 (some compatEntry)

theorem ramInitialize_refines : Refines b ramInitialize Store.empty :=
  fun _ _ _ => rfl

theorem compat_valid : (table b).Valid Item.COMPAT.num 0 := by
  cases b <;> decide

theorem fileInitialize_covers (stack : Mem) : Covers b (fileInitialize b stack none) := by
  unfold fileInitialize fileWrite
  rw [calculateOffset_valid compat_valid]
  refine le_trans (le_of_eq ?_) (File.le_length_pwrite (by decide))
  cases b <;> rfl

theorem fileInitialize_refines (stack : Mem) :
    Refines b (fileInitialize b stack none).bytes Store.compat := by
  have hwrite := (ramWrite_refines (b := b) ramInitialize_refines .COMPAT 0 .POWER_ON_RESET
    compatKey).1
  have hbytes : (fileInitialize b stack none).bytes =
      (ramWrite b ramInitialize .COMPAT 0 .POWER_ON_RESET compatKey).1 := by
    unfold fileInitialize fileWrite ramWrite
    rw [calculateOffset_valid compat_valid]
    dsimp only
    rw [if_neg (slot_le_dataEnd compat_valid)]
    rfl
  have hstore : (Store.empty.write b .COMPAT 0 .POWER_ON_RESET compatKey).1 = Store.compat := by
    unfold Store.write
    rw [if_neg (not_not.mpr compat_valid)]
    rfl
  rw [hbytes, ← hstore]
  exact hwrite

theorem fileInitialize_reopens {file : File} {s : Store} (h : Covers b file)
    (hrefines : Refines b file.bytes s) (hcompat : s .COMPAT 0 = some compatEntry) (stack : Mem) :
    Refines b (fileInitialize b stack (some file)).bytes s := by
  have hread : fileRead b file stack .COMPAT 0 compatKey.length =
      ((compatKey.length : ℤ), compatKey) := by
    rw [fileRead_eq h, ramRead_refines hrefines]
    unfold Store.read
    rw [if_neg (not_not.mpr compat_valid), hcompat]
    rfl
  have hwrite := ramWrite_refines hrefines .COMPAT 0 .POWER_ON_RESET compatKey
  have hsame : (s.write b .COMPAT 0 .POWER_ON_RESET compatKey).1 = s := by
    unfold Store.write
    rw [if_neg (not_not.mpr compat_valid)]
    funext i k
    show s.set .COMPAT 0 (some compatEntry) i k = s i k
    unfold Store.set
    split
    · next heq => rw [heq.1, heq.2, hcompat]
    · rfl
  unfold fileInitialize
  dsimp only
  rw [if_pos hread, (fileWrite_follows h .COMPAT 0 .POWER_ON_RESET compatKey).bytes, ← hsame]
  exact hwrite.1

/-! ### The two backends -/

/-- Requests that replace the compatibility entry. -/
def SetsCompat : Op → Prop
  | .write item index _ buf => item = .COMPAT ∧ index = 0 ∧ buf.length ≤ payload .COMPAT
  | .clear item => item = .COMPAT
  | _ => False

/-- Requests that look at it. -/
def ReadsCompat : Op → Prop
  | .read item index count => item = .COMPAT ∧ index = 0 ∧ count ≤ payload .COMPAT
  | _ => False

/-- The maps of the two backends as long as the compatibility entry has not been replaced. -/
structure Apart (s t : Store) : Prop where
  same : ∀ item index, ¬ (item = .COMPAT ∧ index = 0) → s item index = t item index
  ram : s .COMPAT 0 = none
  file : t .COMPAT 0 = some compatEntry

theorem apart_init : Apart Store.empty Store.compat where
  same _ _ h := (if_neg h).symm
  ram := rfl
  file := rfl

theorem Apart.set_eq {s t : Store} (h : Apart s t) (e : Option Entry) :
    s.set .COMPAT 0 e = t.set .COMPAT 0 e := by
  funext i k
  unfold Store.set
  by_cases hik : i = .COMPAT ∧ k = 0
  · rw [if_pos hik, if_pos hik]
  · rw [if_neg hik, if_neg hik, h.same i k hik]

theorem Apart.step_eq {s t : Store} (h : Apart s t) {op : Op} (hset : SetsCompat op) :
    (s.step b keeps op).1 = (t.step b keeps op).1 := by
  cases op with
  | write item index persistence buf =>
    obtain ⟨rfl, rfl, hle⟩ := hset
    simp only [Store.step, Store.write, if_neg (not_not.mpr (compat_valid (b := b))),
      if_neg (Nat.not_lt.mpr hle)]
    exact h.set_eq _
  | read item index count => exact hset.elim
  | clear item =>
    obtain rfl : item = .COMPAT := hset
    simp only [Store.step, Store.clear, if_neg (not_not.mpr (compat_valid (b := b)))]
    funext i k
    by_cases hi : i = .COMPAT
    · rw [if_pos hi, if_pos hi]
    · rw [if_neg hi, if_neg hi, h.same i k fun hik => hi hik.1]
  | restart reason => exact hset.elim

theorem Apart.step {s t : Store} (h : Apart s t) {op : Op} (hset : ¬ SetsCompat op) :
    Apart (s.step b keeps op).1 (t.step b keeps op).1 := by
  cases op with
  | write item index persistence buf =>
    simp only [Store.step, Store.write]
    by_cases hvalid : (table b).Valid item.num index
    · rw [if_neg (not_not.mpr hvalid), if_neg (not_not.mpr hvalid)]
      by_cases hbig : buf.length > payload item
      · rw [if_pos hbig, if_pos hbig]
        exact h
      · rw [if_neg hbig, if_neg hbig]
        have hother : ¬ (Item.COMPAT = item ∧ 0 = index) := by
          rintro ⟨rfl, rfl⟩
          exact hset ⟨rfl, rfl, Nat.not_lt.mp hbig⟩
        refine ⟨?_, (if_neg hother).trans h.ram, (if_neg hother).trans h.file⟩
        intro i k hik
        show s.set item index _ i k = t.set item index _ i k
        unfold Store.set
        rw [h.same i k hik]
    · rw [if_pos hvalid, if_pos hvalid]
      exact h
  | read item index count => exact h
  | clear item =>
    have hother : ¬ Item.COMPAT = item := fun heq => hset heq.symm
    simp only [Store.step, Store.clear]
    by_cases hvalid : (table b).Valid item.num 0
    · rw [if_neg (not_not.mpr hvalid), if_neg (not_not.mpr hvalid)]
      refine ⟨?_, (if_neg hother).trans h.ram, (if_neg hother).trans h.file⟩
      intro i k hik
      dsimp only
      split
      · rfl
      · exact h.same i k hik
    · rw [if_pos hvalid, if_pos hvalid]
      exact h
  | restart reason =>
    refine ⟨?_, ?_, ?_⟩
    · intro i k hik
      show Option.filter _ (s i k) = Option.filter _ (t i k)
      rw [h.same i k hik]
    · show Option.filter _ (s .COMPAT 0) = none
      rw [h.ram]
      rfl
    · show Option.filter _ (t .COMPAT 0) = some compatEntry
      rw [h.file]
      -- this persistence outlives every reset
      cases reason <;> rfl

theorem Apart.run {s t : Store} (h : Apart s t) (es : List Op) :
    ((∃ op ∈ es, SetsCompat op) → Store.run b keeps s es = Store.run b keeps t es) ∧
      ((¬ ∃ op ∈ es, SetsCompat op) → Apart (Store.run b keeps s es) (Store.run b keeps t es)) := by
  induction es generalizing s t with
  | nil => exact ⟨fun ⟨_, hmem, _⟩ => absurd hmem List.not_mem_nil, fun _ => h⟩
  | cons op es ih =>
    by_cases hset : SetsCompat op
    · refine ⟨fun _ => ?_, fun hnone => absurd ⟨op, List.mem_cons_self, hset⟩ hnone⟩
      show Store.run b keeps (s.step b keeps op).1 es = Store.run b keeps (t.step b keeps op).1 es
      rw [h.step_eq hset]
    · obtain ⟨heq, hapart⟩ := ih (h.step (b := b) hset)
      constructor
      · rintro ⟨op', hmem, hset'⟩
        rcases List.mem_cons.mp hmem with rfl | htail
        · exact absurd hset' hset
        · exact heq ⟨op', htail, hset'⟩
      · intro hnone
        exact hapart fun ⟨op', hmem, hset'⟩ => hnone ⟨op', List.mem_cons_of_mem _ hmem, hset'⟩

theorem Apart.answer_iff {s t : Store} (h : Apart s t) (op : Op) :
    (s.step b keeps op).2 = (t.step b keeps op).2 ↔ ¬ ReadsCompat op := by
  cases op with
  | write item index persistence buf =>
    refine iff_of_true ?_ id
    simp only [Store.step, Store.write]
    split
    · rfl
    · split
      · rfl
      · rfl
  | read item index count =>
    simp only [Store.step, Store.read, ReadsCompat]
    by_cases hcompat : item = .COMPAT ∧ index = 0
    · obtain ⟨rfl, rfl⟩ := hcompat
      rw [if_neg (not_not.mpr compat_valid), if_neg (not_not.mpr compat_valid), h.ram, h.file]
      by_cases hcount : count > payload .COMPAT
      · rw [if_pos hcount, if_pos hcount]
        exact iff_of_true rfl fun hr => absurd hr.2.2 (Nat.not_le.mpr hcount)
      · rw [if_neg hcount, if_neg hcount]
        refine iff_of_false ?_ fun hr => hr ⟨rfl, rfl, Nat.not_lt.mp hcount⟩
        dsimp only
        split
        · decide
        · decide
    · rw [h.same item index hcompat]
      exact iff_of_true rfl fun hr => hcompat ⟨hr.1, hr.2.1⟩
  | clear item =>
    refine iff_of_true ?_ id
    simp only [Store.step, Store.clear]
    split
    · rfl
    · rfl
  | restart reason => exact iff_of_true rfl id

/-- Without volatile resets the rule of `dataman.h` may stand for that of the code. -/
theorem run_keeps_eq {s : Store} {es : List Op} (h : .restart .VOLATILE ∉ es) :
    Store.run b keeps s es = Store.run b survives s es := by
  induction es generalizing s with
  | nil => rfl
  | cons op es ih =>
    have hstep : (s.step b keeps op).1 = (s.step b survives op).1 := by
      cases op with
      | restart reason =>
        have hreason : reason ≠ .VOLATILE := by
          rintro rfl
          exact h List.mem_cons_self
        show (s.restart keeps reason).1 = (s.restart survives reason).1
        unfold Store.restart
        rw [keeps_eq_survives hreason]
      | write item index persistence buf => rfl
      | read item index count => rfl
      | clear item => rfl
    show Store.run b keeps (s.step b keeps op).1 es =
      Store.run b survives (s.step b survives op).1 es
    rw [ih fun hmem => h (List.mem_cons_of_mem _ hmem), hstep]

theorem step_keeps_answer (s : Store) (op : Op) :
    (s.step b keeps op).2 = (s.step b survives op).2 := by
  cases op <;> rfl

/-- What the RAM backend answers to `e` after the history `es`. -/
def ramAnswer (b : Build) (es : List Op) (e : Op) : ℤ × List UInt8 :=
  (ramStep b (ramRun b ramInitialize es) e).2

def fileAnswer (b : Build) (stack : Mem) (es : List Op) (e : Op) : ℤ × List UInt8 :=
  (fileStep b stack (fileRun b stack (fileInitialize b stack none) es) e).2

/-- What the map answers, from the start `s`. -/
def Store.answer (b : Build) (s : Store) (es : List Op) (e : Op) : ℤ × List UInt8 :=
  (Store.step b (Store.run b survives s es) survives e).2

/-- **The backends and the map.**  After every history a request is answered alike by
both backends, except for a read of the compatibility entry that nothing has replaced
yet; and both answer as the map does, which for the file backend has this entry. -/
theorem backends_agree (b : Build) (stack : Mem) (es : List Op) (e : Op) :
    (ramAnswer b es e = fileAnswer b stack es e ↔ (ReadsCompat e → ∃ op ∈ es, SetsCompat op)) ∧
    (.restart .VOLATILE ∉ es →
      ramAnswer b es e = Store.answer b Store.empty es e ∧
      fileAnswer b stack es e = Store.answer b Store.compat es e) := by
  have hram : ramAnswer b es e = (Store.step b (Store.run b keeps Store.empty es) keeps e).2 :=
    (ramStep_refines (ramRun_refines ramInitialize_refines es) e).2
  have hfile : fileAnswer b stack es e =
      (Store.step b (Store.run b keeps Store.compat es) keeps e).2 :=
    fileStep_refines (fileInitialize_covers stack) (fileInitialize_refines stack) stack es e
  obtain ⟨hequal, hapart⟩ := apart_init.run (b := b) es
  constructor
  · rw [hram, hfile]
    by_cases hset : ∃ op ∈ es, SetsCompat op
    · rw [hequal hset]
      exact iff_of_true rfl fun _ => hset
    · rw [(hapart hset).answer_iff]
      exact ⟨fun h hr => absurd hr h, fun h hr => hset (h hr)⟩
  · intro hvolatile
    rw [hram, hfile]
    unfold Store.answer
    rw [← run_keeps_eq hvolatile, ← run_keeps_eq hvolatile, step_keeps_answer, step_keeps_answer]
    exact ⟨rfl, rfl⟩

/-- A fence point that does not outlive a power-on reset, and a key that was erased. -/
theorem backends_agree_after_power_on :
    let es : List Op := [.write .FENCE_POINTS 1 .IN_FLIGHT_RESET [1, 2, 3], .restart .POWER_ON,
      .clear .COMPAT]
    ramAnswer .nuttx es (.read .COMPAT 0 8) =
        fileAnswer .nuttx (fun _ => 255) es (.read .COMPAT 0 8) ∧
      ramAnswer .nuttx es (.read .FENCE_POINTS 1 32) = (0, []) := by
  intro es
  refine ⟨(backends_agree .nuttx (fun _ => 255) es _).1.mpr fun _ => ⟨.clear .COMPAT, ?_, rfl⟩, ?_⟩
  · simp [es]
  · rw [((backends_agree .nuttx (fun _ => 255) es _).2 (by simp [es])).1]
    decide

/-- A new file has a compatibility entry where new memory has none. -/
theorem compat_differs :
    ramAnswer .nuttx [] (.read .COMPAT 0 8) = (0, []) ∧
      fileAnswer .nuttx (fun _ => 0) [] (.read .COMPAT 0 8) = (8, compatKey) := by
  decide

end Dataman
