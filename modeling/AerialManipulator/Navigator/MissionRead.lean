/-
Reading the items of a mission.

`read_mission_item` reads the current item, or one at an offset from it, and follows the jumps on
the way: at most ten items are looked at.  A jump is taken as often as it says; the number of times
is kept in the stored item, and raised only when the current item is read.

`look` is what is done with one item.

* `readMissionItem_ahead` — a read at an offset changes nothing;
* `prepareMissionItems_isSome` — the search for the next position ends.
-/
import AerialManipulator.Mission.MissionItem

open Mission (MissionItem Command)

namespace Navigator

/-- `MISSION_EXECUTION_MODE_*`. -/
inductive ExecutionMode
  | NORMAL
  | REVERSE
  | FAST_FORWARD
  deriving DecidableEq

/-- The mission that is flown.  `items` is what `dm_read` gives, `sub_item` says that a work item of
another type than the default one is processed, `active` that there is a mission. -/
structure Plan (K : Type*) where
  items : ℕ → Option (MissionItem K)
  count : ℕ
  current_mission_index : ℤ
  mode : ExecutionMode
  sub_item : Bool
  active : Bool

variable {K : Type*}

/-- `MissionBlock::item_contains_position`; `NAV_CMD_DO_FOLLOW_REPOSITION` is 33. -/
def itemContainsPosition (item : MissionItem K) : Bool :=
  match item.nav_cmd with
  | .NAV_WAYPOINT | .NAV_LOITER_UNLIM | .NAV_LOITER_TIME | .NAV_LAND | .NAV_TAKEOFF
  | .NAV_LOITER_TO_ALT | .NAV_VTOL_TAKEOFF | .NAV_VTOL_LAND => true
  | .other command => command = 33
  | _ => false

/-- The item at an index, if it is in the mission and can be read. -/
def itemAt (items : ℕ → Option (MissionItem K)) (count : ℕ) (index : ℤ) : Option (MissionItem K) :=
  if index < 0 ∨ (count : ℤ) ≤ index then none else items index.toNat

/-- What `read_mission_item` does with one item. -/
inductive Look (K : Type*)
  /-- out of bounds, or the item could not be read, or the count of a jump not written -/
  | failed
  | found (item : MissionItem K)
  /-- a jump is taken; its count is raised where the current item is read -/
  | taken (items : ℕ → Option (MissionItem K)) (index : ℤ)
  /-- a jump is passed -/
  | passed (index : ℤ)

/-- One turn of the loop of `read_mission_item`; `current` says that the offset is zero, `write` for
which items `dm_write` succeeds.  `item.count` is `do_jump_current_count`. -/
def look (mode : ExecutionMode) (count : ℕ) (current : Bool) (write : ℕ → Bool)
    (items : ℕ → Option (MissionItem K)) (index : ℤ) : Look K :=
  match itemAt items count index with
  | none => .failed
  | some item =>
    if item.nav_cmd = .DO_JUMP then
      if item.count < item.do_jump_repeat_count ∧ mode = .NORMAL then
        if current then
          if write index.toNat then
            .taken (Function.update items index.toNat (some { item with count := item.count + 1 }))
              item.do_jump_mission_index.toInt
          else .failed
        else .taken items item.do_jump_mission_index.toInt
      else .passed (if mode = .REVERSE then index - 1 else index + 1)
    else .found item

/-- The items, `*mission_index_ptr` and the item that was read, if any. -/
structure Read (K : Type*) where
  items : ℕ → Option (MissionItem K)
  index : ℤ
  item : Option (MissionItem K)

/-- The loop of `read_mission_item`, with the number of turns that are left. -/
def readLoop (mode : ExecutionMode) (count : ℕ) (current : Bool) (write : ℕ → Bool) :
    ℕ → (ℕ → Option (MissionItem K)) → ℤ → Read K
  -- "DO JUMP is cycling, giving up."
  | 0, items, index => ⟨items, index, none⟩
  | n + 1, items, index =>
    match look mode count current write items index with
    | .failed => ⟨items, index, none⟩
    | .found item => ⟨items, index, some item⟩
    | .taken items index => readLoop mode count current write n items index
    | .passed index => readLoop mode count current write n items index

def readMissionItem (write : ℕ → Bool) (p : Plan K) (offset : ℤ) :
    Plan K × Option (MissionItem K) :=
  if p.count = 0 then (p, none)
  else
    let r :=
      readLoop p.mode p.count (offset = 0) write 10 p.items (p.current_mission_index + offset)
    ({ p with
        items := r.items
        current_mission_index := if offset = 0 then r.index else p.current_mission_index },
      r.item)

/-- The search of `advance_mission` for the position before an index, -1 if there is none. -/
def reverseFrom (items : ℕ → Option (MissionItem K)) : ℕ → ℤ
  | 0 => -1
  | i + 1 =>
    match items i with
    | none => -1
    | some item => if itemContainsPosition item then i else reverseFrom items i

def advanceMission (p : Plan K) : Plan K :=
  if p.sub_item || !p.active then p
  else
    match p.mode with
    | .REVERSE =>
      { p with current_mission_index := reverseFrom p.items p.current_mission_index.toNat }
    | .NORMAL | .FAST_FORWARD =>
      { p with current_mission_index := p.current_mission_index + 1 }

/-- The loop of `prepare_mission_items` that looks for a position, from an offset on: the offset
behind it and the item.  `none` if it does not end within `fuel` turns. -/
def nextLoop (write : ℕ → Bool) : ℕ → Plan K → ℤ → Option (Plan K × ℤ × Option (MissionItem K))
  | 0, _, _ => none
  | fuel + 1, p, offset =>
    match readMissionItem write p offset with
    | (p, none) => some (p, offset, none)
    | (p, some item) =>
      let offset := if p.mode = .REVERSE then offset - 1 else offset + 1
      if itemContainsPosition item then some (p, offset, some item)
      else nextLoop write fuel p offset

/-- The results of `prepare_mission_items`. -/
structure Prepared (K : Type*) where
  plan : Plan K
  mission_item : Option (MissionItem K)
  next_position_mission_item : Option (MissionItem K)
  after_next_position_mission_item : Option (MissionItem K)

def prepareMissionItems (write : ℕ → Bool) (p : Plan K) : Option (Prepared K) :=
  match readMissionItem write p 0 with
  | (p, none) => some ⟨p, none, none, none⟩
  | (p, some item) =>
    match nextLoop write (p.count + 1) p (if p.mode = .REVERSE then -1 else 1) with
    | none => none
    | some (p, offset, next) =>
      if p.mode = .REVERSE then some ⟨p, some item, next, none⟩
      else
        match nextLoop write (p.count + 1) p offset with
        | none => none
        | some (p, _, after_next) => some ⟨p, some item, next, after_next⟩

/-- The loop of `reset_mission` over the items: it ends at an item that cannot be read or
written. -/
def resetLoop (write : ℕ → Bool) : ℕ → ℕ → (ℕ → Option (MissionItem K)) → ℕ → Option (MissionItem K)
  | 0, _, items => items
  | n + 1, index, items =>
    match items index with
    | none => items
    | some item =>
      if item.nav_cmd = .DO_JUMP then
        if write index then
          resetLoop write n (index + 1)
            (Function.update items index (some { item with count := 0 }))
        else items
      else resetLoop write n (index + 1) items

/-- The stored items after `reset_mission`. -/
def resetMission (write : ℕ → Bool) (p : Plan K) : Plan K :=
  { p with items := resetLoop write p.count 0 p.items }

/-! ### Reads at an offset -/

variable {mode : ExecutionMode} {count : ℕ} {write : ℕ → Bool}
  {items : ℕ → Option (MissionItem K)} {index : ℤ}

theorem look_ahead_items {items' : ℕ → Option (MissionItem K)} {index' : ℤ}
    (h : look mode count false write items index = .taken items' index') : items' = items := by
  unfold look at h
  split at h
  · cases h
  · split at h
    · split at h
      · cases h
        rfl
      · cases h
    · cases h

theorem readLoop_ahead_items (n : ℕ) :
    (readLoop mode count false write n items index).items = items := by
  induction n generalizing items index with
  | zero => rfl
  | succ n ih =>
    rw [readLoop]
    split
    · rfl
    · rfl
    · next items' index' hlook =>
      rw [ih]
      exact look_ahead_items hlook
    · exact ih

theorem readMissionItem_empty {p : Plan K} (h : p.count = 0) (offset : ℤ) :
    readMissionItem write p offset = (p, none) := if_pos h

theorem readMissionItem_current {p : Plan K} (h : p.count ≠ 0) :
    readMissionItem write p 0 =
      ({ p with
          items := (readLoop p.mode p.count true write 10 p.items p.current_mission_index).items
          current_mission_index :=
            (readLoop p.mode p.count true write 10 p.items p.current_mission_index).index },
        (readLoop p.mode p.count true write 10 p.items p.current_mission_index).item) := by
  unfold readMissionItem
  rw [if_neg h, Int.add_zero]
  rfl

theorem readMissionItem_offset {p : Plan K} (h : p.count ≠ 0) {offset : ℤ} (hoffset : offset ≠ 0) :
    readMissionItem write p offset = (p, (readLoop p.mode p.count false write 10 p.items
      (p.current_mission_index + offset)).item) := by
  unfold readMissionItem
  rw [if_neg h, decide_eq_false hoffset]
  dsimp only
  rw [if_neg hoffset, readLoop_ahead_items]

theorem readMissionItem_ahead (p : Plan K) {offset : ℤ} (hoffset : offset ≠ 0) :
    (readMissionItem write p offset).1 = p := by
  by_cases h : p.count = 0
  · rw [readMissionItem_empty h]
  · rw [readMissionItem_offset h hoffset]

/-! ### The search for the next position -/

theorem itemAt_inside {item : MissionItem K} (h : itemAt items count index = some item) :
    0 ≤ index ∧ index < count := by
  unfold itemAt at h
  split at h
  · cases h
  · omega

theorem look_found {current : Bool} {item : MissionItem K}
    (h : look mode count current write items index = .found item) :
    itemAt items count index = some item := by
  unfold look at h
  split at h
  · cases h
  · next item' hitem =>
    split at h
    · split at h
      · split at h
        · split at h <;> cases h
        · cases h
      · cases h
    · cases h
      exact hitem

theorem readLoop_index {current : Bool} (n : ℕ)
    (h : (readLoop mode count current write n items index).item ≠ none) :
    0 ≤ (readLoop mode count current write n items index).index ∧
      (readLoop mode count current write n items index).index < count := by
  induction n generalizing items index with
  | zero => exact absurd rfl h
  | succ n ih =>
    rw [readLoop] at h ⊢
    cases hlook : look mode count current write items index with
    | failed =>
      rw [hlook] at h
      exact absurd rfl h
    | found item => exact itemAt_inside (look_found hlook)
    | taken items' index' =>
      rw [hlook] at h
      exact ih h
    | passed index' =>
      rw [hlook] at h
      exact ih h

theorem itemAt_of_outside (h : index < 0 ∨ (count : ℤ) ≤ index) : itemAt items count index = none :=
  if_pos h

theorem readMissionItem_of_outside {p : Plan K} {offset : ℤ} (hoffset : offset ≠ 0)
    (h : p.current_mission_index + offset < 0 ∨ (p.count : ℤ) ≤ p.current_mission_index + offset) :
    readMissionItem write p offset = (p, none) := by
  by_cases hcount : p.count = 0
  · exact readMissionItem_empty hcount offset
  · rw [readMissionItem_offset hcount hoffset, readLoop, look, itemAt_of_outside h]

theorem nextLoop_succ {p : Plan K} {offset : ℤ} (hoffset : offset ≠ 0) (fuel : ℕ) :
    nextLoop write (fuel + 1) p offset =
      match (readMissionItem write p offset).2 with
      | none => some (p, offset, none)
      | some item =>
        if itemContainsPosition item then
          some (p, if p.mode = .REVERSE then offset - 1 else offset + 1, some item)
        else nextLoop write fuel p (if p.mode = .REVERSE then offset - 1 else offset + 1) := by
  rw [nextLoop]
  have hplan : (readMissionItem write p offset).1 = p := readMissionItem_ahead p hoffset
  generalize readMissionItem write p offset = r at hplan ⊢
  obtain ⟨q, item⟩ := r
  cases hplan
  cases item with
  | none => rfl
  | some item => rfl

theorem nextLoop_forward (write : ℕ → Bool) {p : Plan K} (hmode : p.mode ≠ .REVERSE) (fuel : ℕ)
    {offset : ℤ} (hoffset : 0 < offset) (hle : p.current_mission_index + offset ≤ p.count)
    (hfuel : (p.count : ℤ) < p.current_mission_index + offset + fuel) :
    ∃ offset' next, nextLoop write fuel p offset = some (p, offset', next) ∧ 0 < offset' ∧
      p.current_mission_index + offset' ≤ p.count := by
  induction fuel generalizing offset with
  | zero => omega
  | succ fuel ih =>
    rw [nextLoop_succ hoffset.ne', if_neg hmode]
    by_cases hend : p.current_mission_index + offset = p.count
    · rw [readMissionItem_of_outside hoffset.ne' (.inr hend.ge)]
      exact ⟨offset, none, rfl, hoffset, hle⟩
    · cases (readMissionItem write p offset).2 with
      | none => exact ⟨offset, none, rfl, hoffset, hle⟩
      | some item =>
        dsimp only
        split
        · exact ⟨offset + 1, some item, rfl, by omega, by omega⟩
        · exact ih (by omega) (by omega) (by push_cast at hfuel; omega)

theorem nextLoop_reverse (write : ℕ → Bool) {p : Plan K} (hmode : p.mode = .REVERSE) (fuel : ℕ)
    {offset : ℤ} (hoffset : offset < 0) (hle : -1 ≤ p.current_mission_index + offset)
    (hfuel : p.current_mission_index + offset + 1 < fuel) :
    ∃ offset' next, nextLoop write fuel p offset = some (p, offset', next) := by
  induction fuel generalizing offset with
  | zero => omega
  | succ fuel ih =>
    rw [nextLoop_succ hoffset.ne, if_pos hmode]
    by_cases hend : p.current_mission_index + offset < 0
    · rw [readMissionItem_of_outside hoffset.ne (.inl hend)]
      exact ⟨offset, none, rfl⟩
    · cases (readMissionItem write p offset).2 with
      | none => exact ⟨offset, none, rfl⟩
      | some item =>
        dsimp only
        split
        · exact ⟨offset - 1, some item, rfl⟩
        · exact ih (by omega) (by omega) (by push_cast at hfuel; omega)

theorem readMissionItem_index (write : ℕ → Bool) (p : Plan K)
    (h : (readMissionItem write p 0).2 ≠ none) :
    0 ≤ (readMissionItem write p 0).1.current_mission_index ∧
      (readMissionItem write p 0).1.current_mission_index <
        (readMissionItem write p 0).1.count := by
  by_cases hcount : p.count = 0
  · rw [readMissionItem_empty hcount] at h
    exact absurd rfl h
  · rw [readMissionItem_current hcount] at h ⊢
    exact readLoop_index 10 h

theorem prepareMissionItems_isSome (write : ℕ → Bool) (p : Plan K) :
    (prepareMissionItems write p).isSome := by
  have hindex := readMissionItem_index write p
  unfold prepareMissionItems
  generalize readMissionItem write p 0 = r at hindex ⊢
  obtain ⟨q, _ | item⟩ := r
  · rfl
  · dsimp only at hindex ⊢
    obtain ⟨hle, hlt⟩ := hindex (Option.some_ne_none item)
    by_cases hmode : q.mode = .REVERSE
    · obtain ⟨offset, next, hloop⟩ :=
        nextLoop_reverse write hmode (q.count + 1) (show (-1 : ℤ) < 0 by omega) (by omega)
          (by push_cast; omega)
      rw [if_pos hmode, hloop]
      dsimp only
      rw [if_pos hmode]
      rfl
    · obtain ⟨offset, next, hloop, hpos, hend⟩ :=
        nextLoop_forward write hmode (q.count + 1) (show (0 : ℤ) < 1 by omega) (by omega)
          (by push_cast; omega)
      rw [if_neg hmode, hloop]
      dsimp only
      obtain ⟨offset', next', hloop', -⟩ :=
        nextLoop_forward write hmode (q.count + 1) hpos hend (by push_cast; omega)
      rw [if_neg hmode, hloop']
      rfl

end Navigator
