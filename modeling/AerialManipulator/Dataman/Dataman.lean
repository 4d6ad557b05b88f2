/-
The data manager and its two backends.

Every item of `dataman` has a slot of fixed size in one table: a header with the
length and the persistence of the entry, and the bytes of the entry behind it.  The
RAM backend keeps the table in an array, the file backend in a file that it reads and
writes slot by slot.  Both are translated here, function by function.

* **`fileStep_follows`** — as long as the file covers the table, the file backend does
  to its bytes what the RAM backend does to its array, and returns the same.
-/
import AerialManipulator.Lib.ByteStore

open ByteStore

namespace Dataman

/-- `dm_item_t`; the last value counts the others. -/
inductive Item
  | SAFE_POINTS
  | FENCE_POINTS
  | WAYPOINTS_OFFBOARD_0
  | WAYPOINTS_OFFBOARD_1
  | WAYPOINTS_ONBOARD
  | MISSION_STATE
  | COMPAT
  | NUM_KEYS
  deriving DecidableEq

def Item.num : Item → ℕ
  | SAFE_POINTS => 0
  | FENCE_POINTS => 1
  | WAYPOINTS_OFFBOARD_0 => 2
  | WAYPOINTS_OFFBOARD_1 => 3
  | WAYPOINTS_ONBOARD => 4
  | MISSION_STATE => 5
  | COMPAT => 6
  | NUM_KEYS => 7

theorem Item.num_injective : Function.Injective Item.num := by
  intro a b h
  cases a <;> cases b <;> first | rfl | exact nomatch h

/-- `dm_persitence_t`. -/
inductive Persistence
  | POWER_ON_RESET
  | IN_FLIGHT_RESET
  | VOLATILE
  deriving DecidableEq

def Persistence.byte : Persistence → UInt8
  | POWER_ON_RESET => 0
  | IN_FLIGHT_RESET => 1
  | VOLATILE => 2

/-- `dm_reset_reason`. -/
inductive Reason
  | POWER_ON
  | IN_FLIGHT
  | VOLATILE
  deriving DecidableEq

/-- The builds: `MEMORY_CONSTRAINED_SYSTEM`, `__PX4_POSIX`, and the others. -/
inductive Build
  | constrained
  | posix
  | nuttx
  deriving DecidableEq

/-- `NUM_MISSIONS_SUPPORTED`. -/
def Build.numMissions : Build → ℕ
  | constrained => 50
  | posix => 65534
  | nuttx => 2000

def HDR_SIZE : ℕ := 4

/-- `E2BIG` of `errno.h`. -/
def E2BIG : ℤ := 7

def maxIndex (b : Build) (item : ℕ) : ℕ :=
  [8, if b = .constrained then 16 else 64, b.numMissions, b.numMissions,
    if b = .constrained then b.numMissions / 10 else b.numMissions, 1, 1].getD item 0

/-- `g_per_item_size`: the sizes of `mission_safe_point_s`, `mission_fence_point_s`,
`mission_item_s` (three times), `mission_s` and `dataman_compat_s`, each with a header. -/
def itemSize (item : ℕ) : ℕ :=
  [24 + HDR_SIZE, 32 + HDR_SIZE, 56 + HDR_SIZE, 56 + HDR_SIZE, 56 + HDR_SIZE, 16 + HDR_SIZE,
    8 + HDR_SIZE].getD item 0

/-- The table; its `keyOffset` is `g_key_offsets`, computed by the loop of `task_main`. -/
def table (b : Build) : Layout where
  keys := Item.NUM_KEYS.num
  size := itemSize
  count := maxIndex b

def maxOffset (b : Build) : ℕ := (table b).keyOffset Item.NUM_KEYS.num

/-- `DM_COMPAT_KEY` as it lies in memory: the version and the sizes of the records. -/
def compatKey : List UInt8 := [136, 97, 16, 56, 2, 0, 0, 0]

/-- `calculate_offset`, `none` for `-1`. -/
def calculateOffset (b : Build) (item : Item) (index : ℕ) : Option ℕ :=
  if item.num ≥ Item.NUM_KEYS.num then none
  else if index ≥ maxIndex b item.num then none
  else some ((table b).slot item.num index)

/-- The header and the bytes behind it, as both backends lay them out. -/
def entryBytes (persistence : Persistence) (buf : List UInt8) : List UInt8 :=
  [UInt8.ofNat buf.length, persistence.byte, 0, 0] ++ buf

/-- The test in both `restart` functions. -/
def clearEntry (reason : Reason) (length persistence : UInt8) : Bool :=
  length ≠ 0 &&
    if reason = .POWER_ON then persistence > Persistence.POWER_ON_RESET.byte
    else persistence > Persistence.IN_FLIGHT_RESET.byte

/-! ### The RAM backend -/

section Ram

variable (b : Build) (ram : Mem)

/-- `data_end`, as an offset. -/
def dataEnd : ℕ := maxOffset b - 1

/-- `_ram_initialize`, where memory is to be had. -/
def ramInitialize : Mem := fun _ => 0

def ramWrite (item : Item) (index : ℕ) (persistence : Persistence) (buf : List UInt8) : Mem × ℤ :=
  match calculateOffset b item index with
  | none => (ram, -1)
  | some offset =>
    if buf.length > itemSize item.num - HDR_SIZE then (ram, -E2BIG)
    else if offset > dataEnd b then (ram, -1)
    else (put ram offset (entryBytes persistence buf), buf.length)

/-- `_ram_read`: the result and the bytes copied to the caller. -/
def ramRead (item : Item) (index count : ℕ) : ℤ × List UInt8 :=
  match calculateOffset b item index with
  | none => (-1, [])
  | some offset =>
    if count > itemSize item.num - HDR_SIZE then (-E2BIG, [])
    else if offset > dataEnd b then (-1, [])
    else if ram offset > 0 then
      if (ram offset).toNat > count then (-1, [])
      else ((ram offset).toNat, slice ram (offset + HDR_SIZE) (ram offset).toNat)
    else ((ram offset).toNat, [])

/-- The loop of `_ram_clear`. -/
def ramClearSlots (size : ℕ) : ℕ → ℕ → Mem → Mem × ℤ
  | 0, _, ram => (ram, 0)
  | n + 1, offset, ram =>
    if offset > dataEnd b then (ram, -1)
    else ramClearSlots size n (offset + size) (Function.update ram offset 0)

def ramClear (item : Item) : Mem × ℤ :=
  match calculateOffset b item 0 with
  | none => (ram, -1)
  | some offset => ramClearSlots b (itemSize item.num) (maxIndex b item.num) offset ram

/-- The inner loop of `_ram_restart`, with the running pointer. -/
def ramRestartSlots (reason : Reason) (size : ℕ) : ℕ → Mem × ℕ → Mem × ℕ
  | 0, s => s
  | n + 1, (ram, buffer) =>
    ramRestartSlots reason size n (sweepAt (clearEntry reason) ram buffer, buffer + size)

/-- `_ram_restart` for the first items. -/
def ramRestartItems (reason : Reason) : ℕ → Mem × ℕ
  | 0 => (ram, 0)
  | item + 1 =>
    ramRestartSlots reason (itemSize item) (maxIndex b item) (ramRestartItems reason item)

def ramRestart (reason : Reason) : Mem × ℤ :=
  ((ramRestartItems b ram reason Item.NUM_KEYS.num).1, 0)

end Ram

/-! ### The file backend -/

section File

variable (b : Build) (file : File)

def fileWrite (item : Item) (index : ℕ) (persistence : Persistence) (buf : List UInt8) : File × ℤ :=
  match calculateOffset b item index with
  | none => (file, -1)
  | some offset =>
    if buf.length > itemSize item.num - HDR_SIZE then (file, -E2BIG)
    else (file.pwrite offset (entryBytes persistence buf), buf.length)

/-- `_file_read`.  A short read leaves the end of the local buffer as it was: `stack`. -/
def fileRead (stack : Mem) (item : Item) (index count : ℕ) : ℤ × List UInt8 :=
  match calculateOffset b item index with
  | none => (-1, [])
  | some offset =>
    if count > itemSize item.num - HDR_SIZE then (-E2BIG, [])
    else
      let bytes := file.pread offset (count + HDR_SIZE)
      let read := put stack 0 bytes
      let buffer := if bytes.length = 0 then Function.update read 0 0 else read
      if buffer 0 > 0 then
        if (buffer 0).toNat > count then (-1, [])
        else ((buffer 0).toNat, slice buffer HDR_SIZE (buffer 0).toNat)
      else ((buffer 0).toNat, [])

/-- The loop of `_file_clear`. -/
def fileClearSlots (size : ℕ) : ℕ → ℕ → File → File × ℤ
  | 0, _, file => (file, 0)
  | n + 1, offset, file =>
    match file.pread offset 1 with
    | [] => (file, 0)
    | length :: _ =>
      fileClearSlots size n (offset + size) (if length ≠ 0 then file.pwrite offset [0] else file)

def fileClear (item : Item) : File × ℤ :=
  match calculateOffset b item 0 with
  | none => (file, -1)
  | some offset => fileClearSlots (itemSize item.num) (maxIndex b item.num) offset file

/-- The inner loop of `_file_restart`: the file, the running offset and the result. -/
def fileRestartSlots (reason : Reason) (size : ℕ) : ℕ → File × ℕ → File × ℕ × ℤ
  | 0, (file, offset) => (file, offset, 0)
  | n + 1, (file, offset) =>
    match file.pread offset 2 with
    | [length, persistence] =>
      fileRestartSlots reason size n
        (if clearEntry reason length persistence then file.pwrite offset [0] else file,
          offset + size)
    | _ => (file, offset, -1)

/-- `_file_restart` for the first items; a failure ends the outer loop too. -/
def fileRestartItems (reason : Reason) : ℕ → File × ℕ × ℤ
  | 0 => (file, 0, 0)
  | item + 1 =>
    match fileRestartItems reason item with
    | (file, offset, result) =>
      if result = 0 then
        fileRestartSlots reason (itemSize item) (maxIndex b item) (file, offset)
      else (file, offset, result)

def fileRestart (reason : Reason) : File × ℤ :=
  match fileRestartItems b file reason Item.NUM_KEYS.num with
  | (file, _, result) => (file, result)

/-- `_file_initialize`: a file with another key is thrown away, and the key is written
in any case. -/
def fileInitialize (stack : Mem) (existing : Option File) : File :=
  let file := match existing with
    | none => File.empty
    | some file =>
      if fileRead b file stack .COMPAT 0 compatKey.length = ((compatKey.length : ℤ), compatKey)
      then file
      else File.empty
  (fileWrite b file .COMPAT 0 .POWER_ON_RESET compatKey).1

end File

/-! ### Requests -/

/-- What the worker task takes from its queue. -/
inductive Op
  | write (item : Item) (index : ℕ) (persistence : Persistence) (buf : List UInt8)
  | read (item : Item) (index count : ℕ)
  | clear (item : Item)
  | restart (reason : Reason)
  deriving DecidableEq

/-- The worker task with the RAM backend: the memory, the result, the bytes returned. -/
def ramStep (b : Build) (ram : Mem) : Op → Mem × ℤ × List UInt8
  | .write item index persistence buf =>
    match ramWrite b ram item index persistence buf with
    | (ram, result) => (ram, result, [])
  | .read item index count => (ram, ramRead b ram item index count)
  | .clear item =>
    match ramClear b ram item with
    | (ram, result) => (ram, result, [])
  | .restart reason =>
    match ramRestart b ram reason with
    | (ram, result) => (ram, result, [])

def fileStep (b : Build) (stack : Mem) (file : File) : Op → File × ℤ × List UInt8
  | .write item index persistence buf =>
    match fileWrite b file item index persistence buf with
    | (file, result) => (file, result, [])
  | .read item index count => (file, fileRead b file stack item index count)
  | .clear item =>
    match fileClear b file item with
    | (file, result) => (file, result, [])
  | .restart reason =>
    match fileRestart b file reason with
    | (file, result) => (file, result, [])

/-! ### Offsets -/

theorem itemSize_bounds : ∀ item < 7, HDR_SIZE < itemSize item ∧ itemSize item ≤ 60 := by
  decide

theorem calculateOffset_eq (b : Build) (item : Item) (index : ℕ) :
    calculateOffset b item index =
      if (table b).Valid item.num index then some ((table b).slot item.num index) else none := by
  unfold calculateOffset
  by_cases hitem : item.num ≥ Item.NUM_KEYS.num
  · rw [if_pos hitem, if_neg fun h => absurd h.1 (Nat.not_lt.mpr hitem)]
  · rw [if_neg hitem]
    by_cases hindex : index ≥ maxIndex b item.num
    · rw [if_pos hindex, if_neg fun h => absurd h.2 (Nat.not_lt.mpr hindex)]
    · rw [if_neg hindex, if_pos ⟨Nat.not_le.mp hitem, Nat.not_le.mp hindex⟩]

theorem calculateOffset_valid {b : Build} {item : Item} {index : ℕ}
    (h : (table b).Valid item.num index) :
    calculateOffset b item index = some ((table b).slot item.num index) := by
  rw [calculateOffset_eq, if_pos h]

theorem calculateOffset_invalid {b : Build} {item : Item} {index : ℕ}
    (h : ¬ (table b).Valid item.num index) : calculateOffset b item index = none := by
  rw [calculateOffset_eq, if_neg h]

theorem slot_bounds {b : Build} {item index : ℕ} (h : (table b).Valid item index) :
    HDR_SIZE < itemSize item ∧ (table b).slot item index + itemSize item ≤ maxOffset b :=
  ⟨(itemSize_bounds item h.1).1, h.slot_add_size_le⟩

theorem slot_le_dataEnd {b : Build} {item index : ℕ} (h : (table b).Valid item index) :
    ¬ (table b).slot item index > dataEnd b := by
  obtain ⟨hsize, hend⟩ := slot_bounds h
  unfold dataEnd
  omega

/-! ### The file backend on its bytes

A file that covers the table is never read past its end, so that each function of the
file backend takes the branches of its sibling. -/

/-- The file reaches to the end of the table. -/
def Covers (b : Build) (file : File) : Prop := maxOffset b ≤ file.length

/-- A file operation did to the bytes what a RAM operation did to its memory, with the
same result. -/
structure Follows {α : Type} (b : Build) (r : File × α) (s : Mem × α) : Prop where
  bytes : r.1.bytes = s.1
  covers : Covers b r.1
  result : r.2 = s.2

variable {b : Build} {file : File}

theorem Covers.pwrite (h : Covers b file) (offset : ℕ) (bs : List UInt8) :
    Covers b (file.pwrite offset bs) :=
  le_trans h (file.length_le_pwrite offset bs)

theorem fileWrite_follows (h : Covers b file) (item : Item) (index : ℕ)
    (persistence : Persistence) (buf : List UInt8) :
    Follows b (fileWrite b file item index persistence buf)
      (ramWrite b file.bytes item index persistence buf) := by
  unfold fileWrite ramWrite
  by_cases hvalid : (table b).Valid item.num index
  · rw [calculateOffset_valid hvalid]
    dsimp only
    rw [if_neg (slot_le_dataEnd hvalid)]
    split
    · exact ⟨rfl, h, rfl⟩
    · exact ⟨rfl, h.pwrite _ _, rfl⟩
  · rw [calculateOffset_invalid hvalid]
    exact ⟨rfl, h, rfl⟩

theorem put_pread {offset n i : ℕ} (stack : Mem) (hend : offset + n ≤ file.length) (hi : i < n) :
    put stack 0 (file.pread offset n) i = file.bytes (offset + i) := by
  have hlen : i < (file.pread offset n).length := by
    rw [File.pread_eq_slice hend, length_slice]
    exact hi
  have hget := @put_add stack 0 _ i hlen
  rw [Nat.zero_add] at hget
  rw [hget]
  simp only [File.pread_eq_slice hend, slice, List.getElem_map, List.getElem_range]

theorem fileRead_eq (h : Covers b file) (stack : Mem) (item : Item) (index count : ℕ) :
    fileRead b file stack item index count = ramRead b file.bytes item index count := by
  unfold fileRead ramRead
  by_cases hvalid : (table b).Valid item.num index
  · rw [calculateOffset_valid hvalid]
    dsimp only
    rw [if_neg (slot_le_dataEnd hvalid)]
    obtain ⟨hsize, hend⟩ := slot_bounds hvalid
    by_cases hcount : count > itemSize item.num - HDR_SIZE
    · rw [if_pos hcount, if_pos hcount]
    · rw [if_neg hcount, if_neg hcount]
      set offset := (table b).slot item.num index
      have hcover : offset + (count + HDR_SIZE) ≤ file.length := by
        unfold Covers at h
        omega
      have hbyte : ∀ i < count + HDR_SIZE,
          put stack 0 (file.pread offset (count + HDR_SIZE)) i = file.bytes (offset + i) :=
        fun i hi => put_pread stack hcover hi
      have hlen : (file.pread offset (count + HDR_SIZE)).length ≠ 0 := by
        rw [File.pread_eq_slice hcover, length_slice]
        exact Nat.succ_ne_zero _
      rw [if_neg hlen, hbyte 0 (Nat.succ_pos _), Nat.add_zero]
      split
      · split
        · rfl
        · next hle =>
          congr 1
          unfold slice
          apply List.map_congr_left
          intro i hi
          rw [hbyte (HDR_SIZE + i) (by have := List.mem_range.mp hi; omega), Nat.add_assoc]
      · rfl
  · rw [calculateOffset_invalid hvalid]

theorem bytes_clear (file : File) (offset : ℕ) :
    (if file.bytes offset ≠ 0 then file.pwrite offset [0] else file).bytes =
      Function.update file.bytes offset 0 := by
  split
  · rw [File.bytes_pwrite, put_singleton]
  · next hzero =>
    rw [not_not] at hzero
    rw [← hzero, Function.update_eq_self]

theorem fileClearSlots_follows {size : ℕ} (hsize : 0 < size) (n : ℕ) {offset : ℕ}
    (h : Covers b file) (hend : offset + n * size ≤ maxOffset b) :
    Follows b (fileClearSlots size n offset file) (ramClearSlots b size n offset file.bytes) := by
  induction n generalizing file offset with
  | zero => exact ⟨rfl, h, rfl⟩
  | succ n ih =>
    rw [Nat.succ_mul] at hend
    have hread : file.pread offset 1 = [file.bytes offset] := by
      rw [File.pread_eq_slice (by unfold Covers at h; omega), slice_cons]
      rfl
    have hnot : ¬ offset > dataEnd b := by
      unfold dataEnd
      omega
    simp only [fileClearSlots, ramClearSlots, hread, if_neg hnot]
    rw [← bytes_clear file offset]
    refine ih ?_ (by omega)
    split
    · exact h.pwrite _ _
    · exact h

theorem fileClear_follows (h : Covers b file) (item : Item) :
    Follows b (fileClear b file item) (ramClear b file.bytes item) := by
  unfold fileClear ramClear
  by_cases hvalid : (table b).Valid item.num 0
  · rw [calculateOffset_valid hvalid]
    have hend : (table b).keyOffset (item.num + 1) ≤ maxOffset b :=
      Layout.keyOffset_mono hvalid.1
    refine fileClearSlots_follows (lt_trans (by decide) (slot_bounds hvalid).1) _ h ?_
    refine le_trans (le_of_eq ?_) hend
    simp only [Layout.slot, Layout.keyOffset, Nat.zero_mul, Nat.add_zero, table]
  · rw [calculateOffset_invalid hvalid]
    exact ⟨rfl, h, rfl⟩

theorem bytes_sweep (p : UInt8 → UInt8 → Bool) (file : File) (offset : ℕ) :
    (if p (file.bytes offset) (file.bytes (offset + 1)) then file.pwrite offset [0]
      else file).bytes = sweepAt p file.bytes offset := by
  unfold sweepAt
  split
  · rw [File.bytes_pwrite, put_singleton]
  · rfl

theorem fileRestartSlots_follows (reason : Reason) {size : ℕ} (hsize : 1 < size) (n : ℕ)
    {offset : ℕ} (h : Covers b file) (hend : offset + n * size ≤ maxOffset b) :
    Follows b (fileRestartSlots reason size n (file, offset))
      ((ramRestartSlots reason size n (file.bytes, offset)).1, offset + n * size, 0) := by
  induction n generalizing file offset with
  | zero => exact ⟨rfl, h, by rw [Nat.zero_mul]; rfl⟩
  | succ n ih =>
    have hnext : offset + (n + 1) * size = offset + size + n * size := by
      rw [Nat.succ_mul]
      omega
    rw [hnext] at hend ⊢
    have hread : file.pread offset 2 = [file.bytes offset, file.bytes (offset + 1)] := by
      rw [File.pread_eq_slice (by unfold Covers at h; omega), slice_cons, slice_cons]
      rfl
    simp only [fileRestartSlots, ramRestartSlots, hread]
    rw [← bytes_sweep]
    refine ih ?_ hend
    split
    · exact h.pwrite _ _
    · exact h

theorem ramRestartSlots_snd (reason : Reason) (size n : ℕ) (s : Mem × ℕ) :
    (ramRestartSlots reason size n s).2 = s.2 + n * size := by
  induction n generalizing s with
  | zero => rw [Nat.zero_mul, Nat.add_zero, ramRestartSlots]
  | succ n ih =>
    rw [ramRestartSlots, ih, Nat.succ_mul]
    omega

theorem ramRestartItems_snd (ram : Mem) (reason : Reason) (item : ℕ) :
    (ramRestartItems b ram reason item).2 = (table b).keyOffset item := by
  induction item with
  | zero => rfl
  | succ item ih =>
    rw [ramRestartItems, ramRestartSlots_snd, ih]
    rfl

theorem fileRestartItems_follows (h : Covers b file) (reason : Reason) {item : ℕ}
    (hitem : item ≤ Item.NUM_KEYS.num) :
    Follows b (fileRestartItems b file reason item)
      ((ramRestartItems b file.bytes reason item).1, (table b).keyOffset item, 0) := by
  induction item with
  | zero => exact ⟨rfl, h, rfl⟩
  | succ item ih =>
    have hprev := ih (by omega)
    have hsize := itemSize_bounds item hitem
    have hram : ramRestartItems b file.bytes reason item =
        ((fileRestartItems b file reason item).1.bytes, (table b).keyOffset item) :=
      Prod.ext hprev.bytes.symm (ramRestartItems_snd file.bytes reason item)
    have hfile : fileRestartItems b file reason item =
        ((fileRestartItems b file reason item).1, (table b).keyOffset item, 0) :=
      Prod.ext rfl hprev.result
    rw [ramRestartItems, hram, fileRestartItems, hfile]
    exact fileRestartSlots_follows reason (lt_of_le_of_lt (by decide) hsize.1) _ hprev.covers
      (Layout.keyOffset_mono (L := table b) hitem)

theorem fileRestart_follows (h : Covers b file) (reason : Reason) :
    Follows b (fileRestart b file reason) (ramRestart b file.bytes reason) := by
  have hitems := fileRestartItems_follows h reason (le_refl _)
  exact ⟨hitems.bytes, hitems.covers, congrArg Prod.snd hitems.result⟩

/-- **The file backend follows the RAM backend**: a request leaves the same bytes, and
the same answer is given. -/
theorem fileStep_follows (h : Covers b file) (stack : Mem) (op : Op) :
    Follows b (fileStep b stack file op) (ramStep b file.bytes op) := by
  cases op with
  | write item index persistence buf =>
    have hf := fileWrite_follows h item index persistence buf
    exact ⟨hf.bytes, hf.covers, congrArg (·, []) hf.result⟩
  | read item index count => exact ⟨rfl, h, fileRead_eq h stack item index count⟩
  | clear item =>
    have hf := fileClear_follows h item
    exact ⟨hf.bytes, hf.covers, congrArg (·, []) hf.result⟩
  | restart reason =>
    have hf := fileRestart_follows h reason
    exact ⟨hf.bytes, hf.covers, congrArg (·, []) hf.result⟩

end Dataman
