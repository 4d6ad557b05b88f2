/-
The next position of a mission.

While an item is flown, `prepare_mission_items` looks for the next one with a position: it reads at
the offsets 1, 2, … from the current index until it finds one.  In flight the next items are read
one after the other, each from the index that the one before has led to.  The two walks come to the
same items as long as no jump is followed; behind a jump, the first one goes on behind the jump, and
the other one behind the target.

* `FirstPosition` — the first position that is reached in flight;
* **`readAhead_agrees`** — then the position that is found is the one that is reached;
* **`readAhead_misled`** — the position that is not.
-/
import AerialManipulator.Navigator.MissionRead

open Mission (MissionItem Command)

namespace Navigator

variable {K : Type*}

/-! ### The walk in flight -/

/-- An item has been reached: the next one is made the current one. -/
def reach (p : Plan K) : Plan K × Option (MissionItem K) :=
  readMissionItem (fun _ => true) (advanceMission p) 0

/-- The first item with a position that is reached. -/
inductive FirstPosition : Plan K → MissionItem K → Prop
  | here {p p' : Plan K} {item : MissionItem K} (h : reach p = (p', some item))
      (hpos : itemContainsPosition item = true) : FirstPosition p item
  | later {p p' : Plan K} {item item' : MissionItem K} (h : reach p = (p', some item'))
      (hnot : itemContainsPosition item' = false) (hrest : FirstPosition p' item) :
      FirstPosition p item

theorem firstPosition_here_iff {p p' : Plan K} {item item' : MissionItem K}
    (h : reach p = (p', some item)) (hpos : itemContainsPosition item = true) :
    FirstPosition p item' ↔ item' = item := by
  constructor
  · intro hfirst
    cases hfirst with
    | here h' =>
      cases h.symm.trans h'
      rfl
    | later h' hnot =>
      cases h.symm.trans h'
      rw [hpos] at hnot
      exact nomatch hnot.symm
  · rintro rfl
    exact .here h hpos

theorem firstPosition_later_iff {p p' : Plan K} {item item' : MissionItem K}
    (h : reach p = (p', some item)) (hnot : itemContainsPosition item = false) :
    FirstPosition p item' ↔ FirstPosition p' item' := by
  constructor
  · intro hfirst
    cases hfirst with
    | here h' hpos =>
      cases h.symm.trans h'
      rw [hnot] at hpos
      exact nomatch hpos
    | later h' _ hrest =>
      cases h.symm.trans h'
      exact hrest
  · exact .later h hnot

theorem not_firstPosition {p : Plan K} (h : (reach p).2 = none) (item : MissionItem K) :
    ¬ FirstPosition p item := by
  intro hfirst
  cases hfirst with
  | here h' =>
    rw [h'] at h
    exact Option.some_ne_none _ h
  | later h' =>
    rw [h'] at h
    exact Option.some_ne_none _ h

/-! ### Where jumps lead -/

variable {items : ℕ → Option (MissionItem K)} {count n : ℕ} {i k r : ℤ}

def jumpNext (items : ℕ → Option (MissionItem K)) (count : ℕ) (i : ℤ) : Option ℤ :=
  match itemAt items count i with
  | none => none
  | some item =>
    if item.nav_cmd = .DO_JUMP then
      some (if item.count < item.do_jump_repeat_count then item.do_jump_mission_index.toInt
        else i + 1)
    else none

/-- Jumps lead from an index along others, none of which is met twice. -/
structure Leads (items : ℕ → Option (MissionItem K)) (count : ℕ) (i : ℤ) (path : List ℤ) :
    Prop where
  jumps : (i :: path).IsChain fun i k => jumpNext items count i = some k
  nodup : (i :: path).Nodup

/-- There is no item at the index, or one with a position. -/
def Ends (items : ℕ → Option (MissionItem K)) (count : ℕ) (i : ℤ) : Prop :=
  ∀ item, itemAt items count i = some item → itemContainsPosition item = true

/-- From the index on, jumps that would be taken before there is a position lead to a position, or
out of the mission, or are too many. -/
inductive Clear (items : ℕ → Option (MissionItem K)) (count : ℕ) : ℤ → Prop
  | leads {i : ℤ} {path : List ℤ} (h : Leads items count i path)
      (hends : 10 ≤ path.length ∨ Ends items count (path.getLastD i)) : Clear items count i
  | plain {i : ℤ} {item : MissionItem K} (hitem : itemAt items count i = some item)
      (hjump : item.nav_cmd ≠ .DO_JUMP) (hpos : itemContainsPosition item = false)
      (hrest : Clear items count (i + 1)) : Clear items count i
  | completed {i : ℤ} {item : MissionItem K} (hitem : itemAt items count i = some item)
      (hjump : item.nav_cmd = .DO_JUMP) (hdone : ¬ item.count < item.do_jump_repeat_count)
      (hrest : Clear items count (i + 1)) : Clear items count i

theorem not_jump_of_position {item : MissionItem K} (h : itemContainsPosition item = true) :
    item.nav_cmd ≠ .DO_JUMP := by
  intro hjump
  rw [itemContainsPosition, hjump] at h
  exact Bool.false_ne_true h

theorem Ends.jumpNext (h : Ends items count r) : jumpNext items count r = none := by
  unfold Navigator.jumpNext
  split
  · rfl
  · next item hitem => exact if_neg (not_jump_of_position (h item hitem))

/-- A run of completed jumps, up to an index. -/
def Completed (items : ℕ → Option (MissionItem K)) (count : ℕ) (i m : ℤ) : Prop :=
  ∀ k, i ≤ k → k < m → ∃ item, itemAt items count k = some item ∧ item.nav_cmd = .DO_JUMP ∧
    ¬ item.count < item.do_jump_repeat_count

/-- Behind completed jumps, there are jumps that lead to an end, or an item without position. -/
theorem Clear.cases_next (h : Clear items count i) :
    ∃ m, i ≤ m ∧ Completed items count i m ∧
      ((∃ path, Leads items count m path ∧
          (10 ≤ path.length ∨ Ends items count (path.getLastD m))) ∨
        ∃ item, itemAt items count m = some item ∧ item.nav_cmd ≠ .DO_JUMP ∧
          itemContainsPosition item = false ∧ Clear items count (m + 1)) := by
  induction h with
  | @leads i path h hends =>
    exact ⟨i, le_rfl, fun k hk hk' => absurd hk (by omega), .inl ⟨path, h, hends⟩⟩
  | @plain i item hitem hjump hpos hrest =>
    exact ⟨i, le_rfl, fun k hk hk' => absurd hk (by omega), .inr ⟨item, hitem, hjump, hpos, hrest⟩⟩
  | @completed i item hitem hjump hdone hrest ih =>
    obtain ⟨m, hle, hcompleted, hnext⟩ := ih
    refine ⟨m, by omega, fun k hk hk' => ?_, hnext⟩
    by_cases heq : k = i
    · subst heq
      exact ⟨item, hitem, hjump, hdone⟩
    · exact hcompleted k (by omega) hk'

/-! ### Reads behind jumps -/

/-- The read of a jump goes on where it leads, and changes at most the jump itself. -/
theorem readLoop_jump (current : Bool) (h : jumpNext items count i = some k) :
    ∃ items', (∀ x, x ≠ i.toNat → items' x = items x) ∧ ∀ N,
      readLoop .NORMAL count current (fun _ => true) (N + 1) items i =
        readLoop .NORMAL count current (fun _ => true) N items' k := by
  unfold Navigator.jumpNext at h
  cases hitem : itemAt items count i with
  | none =>
    rw [hitem] at h
    exact absurd h.symm (Option.some_ne_none k)
  | some item =>
    rw [hitem] at h
    dsimp only at h
    by_cases hjump : item.nav_cmd = .DO_JUMP
    · rw [if_pos hjump] at h
      cases h
      by_cases hpending : item.count < item.do_jump_repeat_count
      · cases current with
        | true =>
          refine ⟨Function.update items i.toNat (some { item with count := item.count + 1 }),
            fun x hx => Function.update_of_ne hx _ _, fun N => ?_⟩
          rw [readLoop, look, hitem]
          dsimp only
          rw [if_pos hjump, if_pos ⟨hpending, rfl⟩, if_pos rfl, if_pos rfl, if_pos hpending]
        | false =>
          refine ⟨items, fun x _ => rfl, fun N => ?_⟩
          rw [readLoop, look, hitem]
          dsimp only
          rw [if_pos hjump, if_pos ⟨hpending, rfl⟩, if_neg Bool.false_ne_true, if_pos hpending]
      · refine ⟨items, fun x _ => rfl, fun N => ?_⟩
        rw [readLoop, look, hitem]
        dsimp only
        rw [if_pos hjump, if_neg fun h => hpending h.1, if_neg hpending]
        rfl
    · rw [if_neg hjump] at h
      exact absurd h.symm (Option.some_ne_none k)

theorem readLoop_of_not_jump (current : Bool) (h : jumpNext items count i = none) (N : ℕ) :
    readLoop .NORMAL count current (fun _ => true) (N + 1) items i =
      ⟨items, i, itemAt items count i⟩ := by
  unfold Navigator.jumpNext at h
  rw [readLoop, look]
  cases hitem : itemAt items count i with
  | none => rfl
  | some item =>
    rw [hitem] at h
    dsimp only at h ⊢
    by_cases hjump : item.nav_cmd = .DO_JUMP
    · rw [if_pos hjump] at h
      exact absurd h (Option.some_ne_none _)
    · rw [if_neg hjump]

theorem jumpNext_nonneg (h : jumpNext items count i = some k) : 0 ≤ i := by
  by_contra hneg
  rw [Navigator.jumpNext, itemAt_of_outside (.inl (by omega))] at h
  exact nomatch h

theorem itemAt_congr {items' : ℕ → Option (MissionItem K)}
    (h : ∀ x, x ≠ i.toNat → items' x = items x) (hi : 0 ≤ i) {x : ℤ} (hx : x ≠ i) :
    itemAt items' count x = itemAt items count x := by
  unfold itemAt
  split
  · rfl
  · exact h x.toNat (by omega)

theorem jumpNext_congr {items' : ℕ → Option (MissionItem K)}
    (h : itemAt items' count i = itemAt items count i) :
    jumpNext items' count i = jumpNext items count i := by
  rw [Navigator.jumpNext, Navigator.jumpNext, h]

/-- A read along jumps comes to their end, unless they are too many.  As no jump is met twice, it
does not matter whether they are counted. -/
theorem readLoop_leads (current : Bool) {path : List ℤ} (h : Leads items count i path) (N : ℕ)
    (hends : N ≤ path.length ∨ jumpNext items count (path.getLastD i) = none)
    {items' : ℕ → Option (MissionItem K)}
    (hagree : ∀ x ∈ i :: path, itemAt items' count x = itemAt items count x) :
    (readLoop .NORMAL count current (fun _ => true) N items' i).item =
      if N ≤ path.length then none else itemAt items count (path.getLastD i) := by
  induction path generalizing i N items' with
  | nil =>
    have hi := hagree i List.mem_cons_self
    cases N with
    | zero => rfl
    | succ N =>
      have hlast := hends.resolve_left (Nat.not_succ_le_zero N)
      rw [readLoop_of_not_jump current ((jumpNext_congr hi).trans hlast), if_neg (by simp)]
      exact hi
  | cons k path ih =>
    have hi := hagree i List.mem_cons_self
    obtain ⟨hnext, hjumps⟩ := List.isChain_cons_cons.1 h.jumps
    obtain ⟨hnot, hnodup⟩ := List.nodup_cons.1 h.nodup
    cases N with
    | zero => rfl
    | succ N =>
      obtain ⟨items'', hother, hread⟩ := readLoop_jump current ((jumpNext_congr hi).trans hnext)
      rw [List.getLastD_cons] at hends ⊢
      rw [hread, ih ⟨hjumps, hnodup⟩ N (hends.imp_left Nat.le_of_succ_le_succ)]
      · simp only [List.length_cons, Nat.add_le_add_iff_right]
      · intro x hx
        have hne : x ≠ i := by
          rintro rfl
          exact hnot hx
        rw [itemAt_congr hother (jumpNext_nonneg hnext) hne]
        exact hagree x (List.mem_cons_of_mem i hx)

theorem readLoop_completed (current : Bool) (n : ℕ) (h : Completed items count i (i + n)) (N : ℕ) :
    readLoop .NORMAL count current (fun _ => true) (n + N) items i =
        readLoop .NORMAL count current (fun _ => true) N items (i + n) ∧
      (N ≤ n → (readLoop .NORMAL count current (fun _ => true) N items i).item = none) := by
  induction n generalizing i N with
  | zero =>
    refine ⟨by simp, fun hN => ?_⟩
    rw [Nat.le_zero.1 hN]
    rfl
  | succ n ih =>
    obtain ⟨item, hitem, hjump, hdone⟩ := h i le_rfl (by push_cast; omega)
    have hturn (M : ℕ) : readLoop .NORMAL count current (fun _ => true) (M + 1) items i =
        readLoop .NORMAL count current (fun _ => true) M items (i + 1) := by
      rw [readLoop, look, hitem]
      dsimp only
      rw [if_pos hjump, if_neg fun h => hdone h.1]
      rfl
    have hend : i + 1 + (n : ℤ) = i + (n + 1 : ℕ) := by
      push_cast
      omega
    have hrest : Completed items count (i + 1) (i + 1 + n) := fun k hk hk' =>
      h k (by omega) (by omega)
    constructor
    · rw [Nat.add_right_comm, hturn, (ih hrest N).1, hend]
    · intro hN
      cases N with
      | zero => rfl
      | succ N =>
        rw [hturn]
        exact (ih hrest N).2 (Nat.le_of_succ_le_succ hN)

theorem readLoop_item (current : Bool) (n : ℕ) (h : Completed items count i (i + n))
    {item : MissionItem K} (hitem : itemAt items count (i + n) = some item)
    (hjump : item.nav_cmd ≠ .DO_JUMP) {N : ℕ} (hfew : n < N) :
    readLoop .NORMAL count current (fun _ => true) N items i = ⟨items, i + n, some item⟩ := by
  obtain ⟨M, rfl⟩ := Nat.exists_eq_add_of_lt hfew
  have hnext : jumpNext items count (i + n) = none := by
    rw [Navigator.jumpNext, hitem]
    exact if_neg hjump
  rw [Nat.add_assoc, (readLoop_completed current n h (M + 1)).1,
    readLoop_of_not_jump current hnext, hitem]

theorem Clear.of_completed (h : Completed items count i r) (hle : i ≤ r)
    (hr : Clear items count r) : Clear items count i := by
  obtain ⟨n, hn⟩ := Int.eq_ofNat_of_zero_le (Int.sub_nonneg.2 hle)
  induction n generalizing i with
  | zero =>
    obtain rfl : i = r := by omega
    exact hr
  | succ n ih =>
    obtain ⟨item, hitem, hjump, hdone⟩ := h i le_rfl (by omega)
    exact .completed hitem hjump hdone
      (ih (fun k hk => h k (by omega)) (by omega) (by push_cast at hn; omega))

/-! ### The two walks -/

def Plan.before (p : Plan K) (i : ℤ) : Plan K := { p with current_mission_index := i - 1 }

/-- A mission that is flown in normal mode, with no work item in between. -/
structure Flown (p : Plan K) : Prop where
  mode : p.mode = .NORMAL
  sub_item : p.sub_item = false
  active : p.active = true

variable {p : Plan K}

theorem Flown.reach_before (hp : Flown p) (hcount : p.count ≠ 0) (i : ℤ) :
    reach (p.before i) =
      ({ p with
          items := (readLoop .NORMAL p.count true (fun _ => true) 10 p.items i).items
          current_mission_index :=
            (readLoop .NORMAL p.count true (fun _ => true) 10 p.items i).index },
        (readLoop .NORMAL p.count true (fun _ => true) 10 p.items i).item) := by
  obtain ⟨hmode, hsub, hactive⟩ := hp
  have hadvance : advanceMission (p.before i) = { p with current_mission_index := i } := by
    unfold advanceMission Plan.before
    rw [hsub, hactive, hmode]
    dsimp only
    rw [if_neg (by decide), Int.sub_add_cancel]
  unfold reach
  rw [hadvance, readMissionItem_current (by exact hcount), hmode]

theorem Flown.read_offset (hp : Flown p) (hcount : p.count ≠ 0)
    (hlt : p.current_mission_index < i) :
    (readMissionItem (fun _ => true) p (i - p.current_mission_index)).2 =
      (readLoop .NORMAL p.count false (fun _ => true) 10 p.items i).item := by
  rw [readMissionItem_offset hcount (by omega), hp.mode, add_sub_cancel]

/-- Behind completed jumps and an item without position, the walk in flight goes on behind that
item. -/
theorem Flown.firstPosition_completed (hp : Flown p) (hcount : p.count ≠ 0)
    {item item' : MissionItem K} (hcompleted : Completed p.items p.count i (i + n))
    (hfew : n < 10) (hitem : itemAt p.items p.count (i + n) = some item)
    (hjump : item.nav_cmd ≠ .DO_JUMP) (hpos : itemContainsPosition item = false) :
    FirstPosition (p.before i) item' ↔ FirstPosition (p.before (i + n + 1)) item' := by
  have hread := readLoop_item true n hcompleted hitem hjump hfew
  have hreach := hp.reach_before hcount i
  rw [hread] at hreach
  have hplan : ({ p with items := p.items, current_mission_index := i + n } : Plan K) =
      p.before (i + n + 1) := by
    rw [Plan.before, Int.add_sub_cancel]
  rw [firstPosition_later_iff hreach hpos, hplan]

theorem readLoop_completed_leads (hcompleted : Completed items count i (i + n)) {path : List ℤ}
    (hleads : Leads items count (i + n) path)
    (hends : 10 ≤ path.length ∨ Ends items count (path.getLastD (i + n))) :
    ∃ found : Option (MissionItem K),
      (∀ item, found = some item → itemContainsPosition item = true) ∧ ∀ current,
        (readLoop .NORMAL count current (fun _ => true) 10 items i).item = found := by
  by_cases hfew : 10 ≤ n
  · exact ⟨none, fun item h => absurd h.symm (Option.some_ne_none item),
      fun current => (readLoop_completed current n hcompleted 10).2 hfew⟩
  · obtain ⟨N, hN⟩ := Nat.exists_eq_add_of_le (Nat.le_of_not_le hfew)
    have hread (current : Bool) :
        (readLoop .NORMAL count current (fun _ => true) 10 items i).item =
          if N ≤ path.length then none else itemAt items count (path.getLastD (i + n)) := by
      rw [hN, (readLoop_completed current n hcompleted N).1]
      exact readLoop_leads current hleads N (hends.imp (by omega) Ends.jumpNext) fun _ _ => rfl
    refine ⟨_, fun item hitem => ?_, hread⟩
    split at hitem
    · exact nomatch hitem
    · exact hends.resolve_left (by omega) item hitem

theorem nextLoop_clear (hp : Flown p) (fuel : ℕ) (hclear : Clear p.items p.count i)
    (hlt : p.current_mission_index < i) (hle : i ≤ p.count) (hcount : p.count ≠ 0)
    (hfuel : (p.count : ℤ) < i + fuel) :
    ∃ offset next,
      nextLoop (fun _ => true) fuel p (i - p.current_mission_index) = some (p, offset, next) ∧
        0 < offset ∧ p.current_mission_index + offset ≤ p.count ∧
        ∀ item, next = some item ↔ FirstPosition (p.before i) item := by
  induction fuel generalizing i with
  | zero => omega
  | succ fuel ih =>
    have hmode : p.mode ≠ .REVERSE := by
      rw [hp.mode]
      decide
    obtain ⟨offset, next, hloop, hpos, hend⟩ := nextLoop_forward (fun _ => true) hmode (fuel + 1)
      (show 0 < i - p.current_mission_index by omega) (by omega) (by omega)
    refine ⟨offset, next, hloop, hpos, hend, ?_⟩
    rw [nextLoop_succ (by omega), if_neg hmode, hp.read_offset hcount hlt] at hloop
    have hreach := hp.reach_before hcount i
    obtain ⟨m, him, hcompleted, hcase⟩ := hclear.cases_next
    obtain ⟨n, rfl⟩ := Int.le.dest him
    rcases hcase with ⟨path, hleads, hends⟩ | ⟨item, hitem, hjump, hnot, hrest⟩
    · -- both walks come to the end of the jumps
      obtain ⟨found, hfound, hread⟩ := readLoop_completed_leads hcompleted hleads hends
      rw [hread] at hloop hreach
      cases found with
      | none =>
        cases hloop
        intro item
        exact iff_of_false (Option.some_ne_none item).symm
          (not_firstPosition (congrArg Prod.snd hreach) item)
      | some item =>
        dsimp only at hloop
        rw [if_pos (hfound item rfl)] at hloop
        cases hloop
        intro item'
        rw [firstPosition_here_iff hreach (hfound item rfl), Option.some_inj]
        exact eq_comm
    · by_cases hfew : n < 10
      · -- both come to the item without position, and the search comes to it again at each offset
        rw [readLoop_item false n hcompleted hitem hjump hfew] at hloop
        dsimp only at hloop
        rw [hnot, if_neg Bool.false_ne_true, sub_add_eq_add_sub] at hloop
        obtain ⟨-, hr⟩ := itemAt_inside hitem
        have hnext : Clear p.items p.count (i + 1) ∧ ∀ item',
            FirstPosition (p.before i) item' ↔ FirstPosition (p.before (i + 1)) item' := by
          cases n with
          | zero =>
            rw [Int.natCast_zero, Int.add_zero] at hrest
            refine ⟨hrest, fun item' => ?_⟩
            rw [hp.firstPosition_completed hcount hcompleted hfew hitem hjump hnot,
              Int.natCast_zero, Int.add_zero]
          | succ n =>
            have hshift : i + (n + 1 : ℕ) = i + 1 + n := by
              push_cast
              omega
            have hwalk (item' : MissionItem K) : FirstPosition (p.before i) item' ↔
                FirstPosition (p.before (i + (n + 1 : ℕ) + 1)) item' :=
              hp.firstPosition_completed hcount hcompleted hfew hitem hjump hnot
            rw [hshift] at hcompleted hitem hrest hwalk
            have htail : Completed p.items p.count (i + 1) (i + 1 + n) := fun k hk =>
              hcompleted k (by omega)
            refine ⟨.of_completed htail (by omega) (.plain hitem hjump hnot hrest), fun item' => ?_⟩
            rw [hwalk, hp.firstPosition_completed hcount htail (by omega) hitem hjump hnot]
        obtain ⟨offset', next', hloop', -, -, hiff⟩ :=
          ih hnext.1 (by omega) (by omega) (by push_cast at hfuel; omega)
        cases hloop.symm.trans hloop'
        intro item'
        rw [hnext.2]
        exact hiff item'
      · -- both give up
        have hnone (current : Bool) :=
          (readLoop_completed current n hcompleted 10).2 (Nat.le_of_not_lt hfew)
        rw [hnone] at hloop hreach
        cases hloop
        intro item'
        exact iff_of_false (Option.some_ne_none item').symm
          (not_firstPosition (congrArg Prod.snd hreach) item')

theorem prepareMissionItems_found {q : Plan K} {item : MissionItem K} {offset : ℤ}
    {next : Option (MissionItem K)} (hmode : q.mode ≠ .REVERSE)
    (h : readMissionItem (fun _ => true) p 0 = (q, some item))
    (hloop : nextLoop (fun _ => true) (q.count + 1) q 1 = some (q, offset, next))
    (hpos : 0 < offset) (hle : q.current_mission_index + offset ≤ q.count)
    (hindex : 0 ≤ q.current_mission_index) :
    ∃ after_next,
      prepareMissionItems (fun _ => true) p = some ⟨q, some item, next, after_next⟩ := by
  obtain ⟨_, after_next, hloop', -⟩ :=
    nextLoop_forward (fun _ => true) hmode (q.count + 1) hpos hle (by push_cast; omega)
  refine ⟨after_next, ?_⟩
  unfold prepareMissionItems
  rw [h]
  dsimp only
  rw [if_neg hmode, hloop]
  dsimp only
  rw [if_neg hmode, hloop']

theorem Flown.read (hp : Flown p) (write : ℕ → Bool) : Flown (readMissionItem write p 0).1 := by
  obtain ⟨hmode, hsub, hactive⟩ := hp
  unfold readMissionItem
  split
  · exact ⟨hmode, hsub, hactive⟩
  · exact ⟨hmode, hsub, hactive⟩

theorem search_clear (hp : Flown p) (hindex : 0 ≤ p.current_mission_index)
    (hlt : p.current_mission_index < p.count)
    (hclear : Clear p.items p.count (p.current_mission_index + 1)) {offset : ℤ}
    {next : Option (MissionItem K)}
    (hloop : nextLoop (fun _ => true) (p.count + 1) p 1 = some (p, offset, next))
    (item : MissionItem K) : next = some item ↔ FirstPosition p item := by
  obtain ⟨offset', next', hloop', -, -, hiff⟩ := nextLoop_clear hp (p.count + 1) hclear (by omega)
    (by omega) (by omega) (by push_cast; omega)
  rw [add_sub_cancel_left] at hloop'
  cases hloop.symm.trans hloop'
  have hbefore : p.before (p.current_mission_index + 1) = p := by
    rw [Plan.before, Int.add_sub_cancel]
  rw [hiff, hbefore]

/-- The current item is read, and the position that is found next is the first one that is reached
from there, if the jumps on the way lead to positions, or out of the mission, or are too many.
Reads at an offset change nothing. -/
theorem readAhead_agrees (p : Plan K) (hp : Flown p) :
    (∃ r, prepareMissionItems (fun _ => true) p = some r ∧
      (r.plan, r.mission_item) = readMissionItem (fun _ => true) p 0 ∧
      (Clear (readMissionItem (fun _ => true) p 0).1.items p.count
          ((readMissionItem (fun _ => true) p 0).1.current_mission_index + 1) →
        ∀ item, r.next_position_mission_item = some item ↔
          r.mission_item ≠ none ∧ FirstPosition r.plan item)) ∧
    ∀ write offset, offset ≠ 0 → (readMissionItem write p offset).1 = p := by
  refine ⟨?_, fun write offset => readMissionItem_ahead p⟩
  have hindex := readMissionItem_index (fun _ => true) p
  have hcount : (readMissionItem (fun _ => true) p 0).1.count = p.count := by
    unfold readMissionItem
    split
    · rfl
    · rfl
  have hq := hp.read fun _ => true
  cases hread : readMissionItem (fun _ => true) p 0 with
  | mk q mission_item =>
    rw [hread] at hindex hcount hq
    cases mission_item with
    | none =>
      refine ⟨⟨q, none, none, none⟩, ?_, rfl, fun _ item => ?_⟩
      · unfold prepareMissionItems
        rw [hread]
      · exact iff_of_false (Option.some_ne_none item).symm fun h => h.1 rfl
    | some mission_item =>
      obtain ⟨hle, hlt⟩ := hindex (Option.some_ne_none mission_item)
      dsimp only at hle hlt hcount hq
      have hmode : q.mode ≠ .REVERSE := by
        rw [hq.mode]
        decide
      obtain ⟨offset, next, hloop, hpos, hend⟩ := nextLoop_forward (fun _ => true) hmode
        (q.count + 1) (show (0 : ℤ) < 1 by omega) (by omega) (by push_cast; omega)
      obtain ⟨after_next, hprepare⟩ := prepareMissionItems_found hmode hread hloop hpos hend hle
      refine ⟨_, hprepare, rfl, fun hclear item => ?_⟩
      rw [← hcount] at hclear
      rw [search_clear hq hle hlt hclear hloop item]
      exact ⟨fun h => ⟨Option.some_ne_none mission_item, h⟩, fun h => h.2⟩

def waypoint (lat : ℚ) : MissionItem ℚ :=
  { (MissionItem.zero : MissionItem ℚ) with nav_cmd := .NAV_WAYPOINT, lat := .num lat }

/-- A waypoint, a jump, a second waypoint, a change of the speed and a third waypoint. -/
def detour (target : Int16) : Plan ℚ where
  items := fun
    | 0 => some (waypoint 1)
    | 1 => some { (MissionItem.zero : MissionItem ℚ) with
        nav_cmd := .DO_JUMP
        do_jump_mission_index := target
        do_jump_repeat_count := 1 }
    | 2 => some (waypoint 2)
    | 3 => some { (MissionItem.zero : MissionItem ℚ) with nav_cmd := .DO_CHANGE_SPEED }
    | _ => some (waypoint 3)
  count := 5
  current_mission_index := 0
  mode := .NORMAL
  sub_item := false
  active := true

theorem flown_detour (target : Int16) : Flown (detour target) := ⟨rfl, rfl, rfl⟩

/-- Behind the jump to the change of the speed, the first position that is reached is the third
waypoint. -/
theorem firstPosition_detour (item : MissionItem ℚ) :
    FirstPosition (detour 3) item ↔ item = waypoint 3 := by
  have hspeed : reach (detour 3) = ((reach (detour 3)).1,
      some { (MissionItem.zero : MissionItem ℚ) with nav_cmd := .DO_CHANGE_SPEED }) :=
    Prod.ext rfl rfl
  have hthird : reach (reach (detour 3)).1 = ((reach (reach (detour 3)).1).1, some (waypoint 3)) :=
    Prod.ext rfl rfl
  rw [firstPosition_later_iff hspeed rfl, firstPosition_here_iff hthird rfl]

theorem clear_detour : Clear (detour 4).items 5 1 := by
  have hleads : Leads (detour 4).items 5 1 [4] := ⟨.cons_cons rfl (.singleton 4), by decide⟩
  refine .leads hleads (.inr fun item hitem => ?_)
  cases hitem
  rfl

/-- The third waypoint is found and reached. -/
theorem readAhead_detour : ∃ r, prepareMissionItems (fun _ => true) (detour 4) = some r ∧
    ∀ item, r.next_position_mission_item = some item ↔
      r.mission_item ≠ none ∧ FirstPosition r.plan item := by
  obtain ⟨⟨r, hprepare, -, hiff⟩, -⟩ := readAhead_agrees (detour 4) (flown_detour 4)
  exact ⟨r, hprepare, hiff clear_detour⟩

/-- The second waypoint is found, but the third one is reached. -/
theorem readAhead_misled :
    ¬ ∀ p : Plan ℚ, Flown p → ∀ r, prepareMissionItems (fun _ => true) p = some r →
      ∀ item, r.next_position_mission_item = some item → FirstPosition r.plan item := by
  intro hclaim
  have hfirst := hclaim (detour 3) (flown_detour 3) _ rfl (waypoint 2) rfl
  have hlat := congrArg MissionItem.lat ((firstPosition_detour (waypoint 2)).1 hfirst)
  exact nomatch hlat

end Navigator
