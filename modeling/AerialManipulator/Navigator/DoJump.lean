/-
How often jumps are taken.

A `DO_JUMP` is taken as many times as it says and passed from then on; the times are counted in the
stored item.  A read of the current item may take and pass several jumps, and may fail after that:
the index and the counts are then left as the jumps have made them.

`visits` are the jumps that a read of the current item takes or passes.

* `Accounts` — the count of each jump is the number of times it was taken, and it is passed only
  when that is the number it says;
* **`doJump_accounting`** — in every run from counts of zero; a read at an offset changes nothing,
  and neither does a read that fails before it has come to a jump;
* **`failed_read_counts`** — the read that fails behind a jump.
-/
import AerialManipulator.Navigator.MissionRead
import AerialManipulator.Lib.Trace

open Mission (MissionItem Command)

namespace Navigator

variable {K : Type*}

inductive Visit
  | taken
  | passed
  deriving DecidableEq

/-- The jumps that the loop of `read_mission_item` comes to, for the current item. -/
def visitLoop (mode : ExecutionMode) (count : ℕ) (write : ℕ → Bool) :
    ℕ → (ℕ → Option (MissionItem K)) → ℤ → List (ℕ × Visit)
  | 0, _, _ => []
  | n + 1, items, index =>
    match look mode count true write items index with
    | .failed | .found _ => []
    | .taken items' index' =>
      (index.toNat, .taken) :: visitLoop mode count write n items' index'
    | .passed index' => (index.toNat, .passed) :: visitLoop mode count write n items index'

/-- The jumps that a read of the current item takes or passes. -/
def visits (write : ℕ → Bool) (p : Plan K) : List (ℕ × Visit) :=
  if p.count = 0 then [] else visitLoop p.mode p.count write 10 p.items p.current_mission_index

/-- The jumps lead from one index to the other: one that is taken to its target, and one that is
passed to the next item. -/
def JumpsLead (items : ℕ → Option (MissionItem K)) : List (ℕ × Visit) → ℤ → ℤ → Prop
  | [], index, index' => index' = index
  | (j, visit) :: log, index, index' =>
    (j : ℤ) = index ∧ ∃ item, items j = some item ∧ item.nav_cmd = .DO_JUMP ∧
      JumpsLead items log
        (if visit = .taken then item.do_jump_mission_index.toInt else index + 1) index'

inductive Event
  /-- `read_mission_item`, with the writes that succeed -/
  | read (write : ℕ → Bool) (offset : ℤ)
  /-- `advance_mission` -/
  | advance

structure Flight (K : Type*) where
  plan : Plan K
  log : List (ℕ × Visit)

def step (f : Flight K) : Event → Flight K
  | .read write offset =>
    ⟨(readMissionItem write f.plan offset).1,
      if offset = 0 then f.log ++ visits write f.plan else f.log⟩
  | .advance => ⟨advanceMission f.plan, f.log⟩

def timesTaken (log : List (ℕ × Visit)) (j : ℕ) : ℕ := log.count (j, .taken)

def timesPassed (log : List (ℕ × Visit)) (j : ℕ) : ℕ := log.count (j, .passed)

def counted (log : List (ℕ × Visit)) (j : ℕ) (item : MissionItem K) : MissionItem K :=
  if item.nav_cmd = .DO_JUMP then { item with count := .ofNat (timesTaken log j) } else item

/-- The jumps of the first `count` items are counted. -/
structure Accounts (items₀ : ℕ → Option (MissionItem K)) (count : ℕ)
    (items : ℕ → Option (MissionItem K)) (log : List (ℕ × Visit)) : Prop where
  items : ∀ j < count, items j = (items₀ j).map (counted log j)
  le : ∀ j < count, ∀ item, items₀ j = some item → item.nav_cmd = .DO_JUMP →
    timesTaken log j ≤ item.do_jump_repeat_count.toNat
  passed : ∀ j < count, ∀ item, items₀ j = some item → item.nav_cmd = .DO_JUMP →
    0 < timesPassed log j → timesTaken log j = item.do_jump_repeat_count.toNat

/-! ### One item -/

variable {mode : ExecutionMode} {count n : ℕ} {write : ℕ → Bool}
  {items₀ items : ℕ → Option (MissionItem K)} {log : List (ℕ × Visit)} {index : ℤ} {j : ℕ}

theorem itemAt_eq_some {item : MissionItem K} (h : itemAt items count index = some item) :
    (index.toNat : ℤ) = index ∧ index.toNat < count ∧ items index.toNat = some item := by
  unfold itemAt at h
  split at h
  · exact nomatch h
  · next hin => exact ⟨by omega, by omega, h⟩

theorem look_taken {items' : ℕ → Option (MissionItem K)} {index' : ℤ}
    (h : look mode count true write items index = .taken items' index') :
    ∃ item, index.toNat < count ∧ items index.toNat = some item ∧ item.nav_cmd = .DO_JUMP ∧
      item.count < item.do_jump_repeat_count ∧
      items' = Function.update items index.toNat (some { item with count := item.count + 1 }) ∧
      (index.toNat : ℤ) = index ∧ index' = item.do_jump_mission_index.toInt := by
  unfold look at h
  split at h
  · cases h
  · next item hitem =>
    split at h
    · next hjump =>
      split at h
      · next hpending =>
        rw [if_pos rfl] at h
        split at h
        · cases h
          obtain ⟨hindex, hlt, hget⟩ := itemAt_eq_some hitem
          exact ⟨item, hlt, hget, hjump, hpending.1, rfl, hindex, rfl⟩
        · cases h
      · cases h
    · cases h

theorem look_passed {index' : ℤ}
    (h : look .NORMAL count true write items index = .passed index') :
    ∃ item, index.toNat < count ∧ items index.toNat = some item ∧ item.nav_cmd = .DO_JUMP ∧
      ¬ item.count < item.do_jump_repeat_count ∧ (index.toNat : ℤ) = index ∧
      index' = index + 1 := by
  unfold look at h
  split at h
  · cases h
  · next item hitem =>
    split at h
    · next hjump =>
      split at h
      · rw [if_pos rfl] at h
        split at h
        · cases h
        · cases h
      · next hpending =>
        cases h
        obtain ⟨hindex, hlt, hget⟩ := itemAt_eq_some hitem
        exact ⟨item, hlt, hget, hjump, fun hlt => hpending ⟨hlt, rfl⟩, hindex, rfl⟩
    · cases h

/-! ### The accounts -/

theorem timesTaken_concat (log : List (ℕ × Visit)) (i j : ℕ) (v : Visit) :
    timesTaken (log ++ [(i, v)]) j = timesTaken log j + if i = j ∧ v = .taken then 1 else 0 := by
  rw [timesTaken, List.count_append, timesTaken, List.count_singleton]
  simp only [Prod.mk.injEq, beq_iff_eq]

theorem timesPassed_concat (log : List (ℕ × Visit)) (i j : ℕ) (v : Visit) :
    timesPassed (log ++ [(i, v)]) j = timesPassed log j + if i = j ∧ v = .passed then 1 else 0 := by
  rw [timesPassed, List.count_append, timesPassed, List.count_singleton]
  simp only [Prod.mk.injEq, beq_iff_eq]

theorem counted_jump {item : MissionItem K} (h : item.nav_cmd = .DO_JUMP) :
    counted log j item = { item with count := .ofNat (timesTaken log j) } := if_pos h

theorem counted_congr {log' : List (ℕ × Visit)} (h : timesTaken log' j = timesTaken log j) :
    (counted log' j : MissionItem K → MissionItem K) = counted log j := by
  funext item
  rw [counted, counted, h]

theorem Accounts.jump (h : Accounts items₀ count items log) {item : MissionItem K}
    (hj : j < count) (hitem : items j = some item) (hjump : item.nav_cmd = .DO_JUMP) :
    ∃ item₀, items₀ j = some item₀ ∧ item₀.nav_cmd = .DO_JUMP ∧
      item.do_jump_repeat_count = item₀.do_jump_repeat_count ∧
      item.count.toNat = timesTaken log j ∧
      item = { item₀ with count := .ofNat (timesTaken log j) } := by
  rw [h.items j hj, Option.map_eq_some_iff] at hitem
  obtain ⟨item₀, hitem₀, rfl⟩ := hitem
  have hjump₀ : item₀.nav_cmd = .DO_JUMP := by
    unfold counted at hjump
    split at hjump
    · next hyes => exact hyes
    · exact hjump
  have hle := h.le j hj item₀ hitem₀ hjump₀
  have hlt := Nat.lt_of_le_of_lt hle item₀.do_jump_repeat_count.toNat_lt
  rw [counted_jump hjump₀]
  exact ⟨item₀, hitem₀, hjump₀, rfl, UInt16.toNat_ofNat_of_lt' hlt, rfl⟩

theorem Accounts.taken {items' : ℕ → Option (MissionItem K)} {index' : ℤ}
    (h : Accounts items₀ count items log)
    (hlook : look mode count true write items index = .taken items' index') :
    Accounts items₀ count items' (log ++ [(index.toNat, .taken)]) := by
  obtain ⟨item, hlt, hget, hjump, hpending, rfl, -⟩ := look_taken hlook
  obtain ⟨item₀, hitem₀, hjump₀, hrepeat, hcount, hitem⟩ := h.jump hlt hget hjump
  have hless : timesTaken log index.toNat < item₀.do_jump_repeat_count.toNat := by
    rw [UInt16.lt_iff_toNat_lt, hcount, hrepeat] at hpending
    exact hpending
  have hother : ∀ j ≠ index.toNat, timesTaken (log ++ [(index.toNat, .taken)]) j =
      timesTaken log j := by
    intro j hj
    rw [timesTaken_concat, if_neg (fun hand => hj hand.1.symm), Nat.add_zero]
  have hsame : timesTaken (log ++ [(index.toNat, .taken)]) index.toNat =
      timesTaken log index.toNat + 1 := by
    rw [timesTaken_concat, if_pos ⟨rfl, rfl⟩]
  have hpassed : ∀ j, timesPassed (log ++ [(index.toNat, .taken)]) j = timesPassed log j := by
    intro j
    rw [timesPassed_concat, if_neg (fun hand => by cases hand.2), Nat.add_zero]
  refine ⟨fun j hj => ?_, fun j hj item' hitem' hjump' => ?_,
    fun j hj item' hitem' hjump' hpos => ?_⟩
  · by_cases heq : j = index.toNat
    · rw [heq, Function.update_self, hitem₀, Option.map_some, counted_jump hjump₀, hsame, hitem]
      congr 2
      exact (UInt16.ofNat_add _ _).symm
    · rw [Function.update_of_ne heq, h.items j hj, counted_congr (hother j heq)]
  · by_cases heq : j = index.toNat
    · subst heq
      cases hitem₀.symm.trans hitem'
      rw [hsame]
      exact hless
    · rw [hother j heq]
      exact h.le j hj item' hitem' hjump'
  · rw [hpassed] at hpos
    have hfull := h.passed j hj item' hitem' hjump' hpos
    have hne : j ≠ index.toNat := by
      rintro rfl
      cases hitem₀.symm.trans hitem'
      omega
    rw [hother j hne]
    exact hfull

theorem Accounts.pass {index' : ℤ} (h : Accounts items₀ count items log)
    (hlook : look .NORMAL count true write items index = .passed index') :
    Accounts items₀ count items (log ++ [(index.toNat, .passed)]) := by
  obtain ⟨item, hlt, hget, hjump, hdone, -⟩ := look_passed hlook
  obtain ⟨item₀, hitem₀, hjump₀, hrepeat, hcount, -⟩ := h.jump hlt hget hjump
  have hfull : timesTaken log index.toNat = item₀.do_jump_repeat_count.toNat := by
    rw [UInt16.lt_iff_toNat_lt, hcount, hrepeat] at hdone
    have hle := h.le index.toNat hlt item₀ hitem₀ hjump₀
    omega
  have htaken : ∀ j, timesTaken (log ++ [(index.toNat, .passed)]) j = timesTaken log j := by
    intro j
    rw [timesTaken_concat, if_neg (fun hand => by cases hand.2), Nat.add_zero]
  refine ⟨fun j hj => ?_, fun j hj item' hitem' hjump' => ?_,
    fun j hj item' hitem' hjump' hpos => ?_⟩
  · rw [h.items j hj, counted_congr (htaken j)]
  · rw [htaken]
    exact h.le j hj item' hitem' hjump'
  · rw [htaken]
    by_cases heq : j = index.toNat
    · subst heq
      cases hitem₀.symm.trans hitem'
      exact hfull
    · rw [timesPassed_concat, if_neg (fun hand => heq hand.1.symm), Nat.add_zero] at hpos
      exact h.passed j hj item' hitem' hjump' hpos

/-- A read of the current item counts the jumps it takes, whether it succeeds or not. -/
theorem Accounts.readLoop (h : Accounts items₀ count items log) (n : ℕ) (index : ℤ) :
    Accounts items₀ count (readLoop .NORMAL count true write n items index).items
      (log ++ visitLoop .NORMAL count write n items index) := by
  induction n generalizing items index log with
  | zero =>
    rw [visitLoop, List.append_nil]
    exact h
  | succ n ih =>
    rw [Navigator.readLoop, visitLoop]
    cases hlook : look .NORMAL count true write items index with
    | failed | found =>
      rw [List.append_nil]
      exact h
    | taken items' index' =>
      have := ih (h.taken hlook) index'
      rwa [List.append_assoc] at this
    | passed index' =>
      have := ih (h.pass hlook) index'
      rwa [List.append_assoc] at this

theorem Accounts.jumpsLead (h : Accounts items₀ count items log) (n : ℕ) (index : ℤ) :
    JumpsLead items₀ (visitLoop .NORMAL count write n items index) index
      (Navigator.readLoop .NORMAL count true write n items index).index := by
  induction n generalizing items index log with
  | zero => rfl
  | succ n ih =>
    rw [Navigator.readLoop, visitLoop]
    cases hlook : look .NORMAL count true write items index with
    | failed | found => rfl
    | taken items' index' =>
      obtain ⟨item, hlt, hget, hjump, -, -, hindex, rfl⟩ := look_taken hlook
      obtain ⟨item₀, hitem₀, hjump₀, -, -, hitem⟩ := h.jump hlt hget hjump
      refine ⟨hindex, item₀, hitem₀, hjump₀, ?_⟩
      have hrest := ih (h.taken hlook) item.do_jump_mission_index.toInt
      rw [hitem] at hrest ⊢
      exact hrest
    | passed index' =>
      obtain ⟨item, hlt, hget, hjump, -, hindex, rfl⟩ := look_passed hlook
      obtain ⟨item₀, hitem₀, hjump₀, -⟩ := h.jump hlt hget hjump
      exact ⟨hindex, item₀, hitem₀, hjump₀, ih (h.pass hlook) (index + 1)⟩

/-! ### Whole runs -/

/-- A mission in normal mode whose jumps are counted. -/
structure Flying (p₀ : Plan K) (f : Flight K) : Prop where
  count : f.plan.count = p₀.count
  mode : f.plan.mode = .NORMAL
  accounts : Accounts p₀.items p₀.count f.plan.items f.log

theorem Flying.read {p₀ : Plan K} {f : Flight K} (h : Flying p₀ f) (write : ℕ → Bool) :
    Flying p₀ ⟨(readMissionItem write f.plan 0).1, f.log ++ visits write f.plan⟩ := by
  by_cases hcount : f.plan.count = 0
  · rw [readMissionItem_empty hcount, visits, if_pos hcount, List.append_nil]
    exact h
  · rw [readMissionItem_current hcount, visits, if_neg hcount, h.mode, h.count]
    exact ⟨rfl, rfl, h.accounts.readLoop 10 f.plan.current_mission_index⟩

theorem Flying.jumpsLead {p₀ : Plan K} {f : Flight K} (h : Flying p₀ f) (write : ℕ → Bool) :
    JumpsLead p₀.items (visits write f.plan) f.plan.current_mission_index
      (readMissionItem write f.plan 0).1.current_mission_index := by
  by_cases hcount : f.plan.count = 0
  · rw [readMissionItem_empty hcount, visits, if_pos hcount]
    rfl
  · rw [readMissionItem_current hcount, visits, if_neg hcount, h.mode, h.count]
    exact h.accounts.jumpsLead 10 f.plan.current_mission_index

theorem Flying.advance {p₀ : Plan K} {f : Flight K} (h : Flying p₀ f) :
    Flying p₀ ⟨advanceMission f.plan, f.log⟩ := by
  unfold advanceMission
  split
  · exact h
  · rw [h.mode]
    exact ⟨h.count, rfl, h.accounts⟩

theorem Flying.step {p₀ : Plan K} {f : Flight K} (h : Flying p₀ f) (e : Event) :
    Flying p₀ (step f e) := by
  cases e with
  | read write offset =>
    by_cases hoffset : offset = 0
    · subst hoffset
      exact h.read write
    · dsimp only [Navigator.step]
      rw [readMissionItem_ahead f.plan hoffset, if_neg hoffset]
      exact h
  | advance => exact h.advance

theorem Flying.run {p₀ : Plan K} {f : Flight K} (h : Flying p₀ f) (es : List Event) :
    Flying p₀ (Trace.run Navigator.step f es) :=
  Trace.run_of_invariant (fun _ e hf _ => hf.step e) h (Trace.always_true f es)

/-- The counts of all jumps of the mission are zero. -/
def ResetCounters (p : Plan K) : Prop :=
  ∀ j < p.count, ∀ item, p.items j = some item → item.nav_cmd = .DO_JUMP → item.count = 0

theorem flying_reset {p₀ : Plan K} (hmode : p₀.mode = .NORMAL) (hreset : ResetCounters p₀) :
    Flying p₀ ⟨p₀, []⟩ := by
  refine ⟨rfl, hmode, fun j hj => ?_, fun j _ item _ _ => Nat.zero_le _,
    fun j _ item _ _ hpos => ?_⟩
  · dsimp only
    cases hitem : p₀.items j with
    | none => rfl
    | some item =>
      rw [Option.map_some, counted]
      split
      · next hjump =>
        have hzero : (UInt16.ofNat (timesTaken [] j)) = item.count :=
          (hreset j hj item hitem hjump).symm
        rw [hzero]
      · rfl
  · exact absurd hpos (Nat.lt_irrefl 0)

theorem readMissionItem_of_no_visits {p : Plan K} (hvisits : visits write p = []) :
    (readMissionItem write p 0).1 = p := by
  by_cases hcount : p.count = 0
  · rw [readMissionItem_empty hcount]
  · rw [visits, if_neg hcount, visitLoop] at hvisits
    rw [readMissionItem_current hcount, readLoop]
    cases hlook : look p.mode p.count true write p.items p.current_mission_index with
    | failed | found => rfl
    | taken items' index' =>
      rw [hlook] at hvisits
      exact absurd hvisits (List.cons_ne_nil _ _)
    | passed index' =>
      rw [hlook] at hvisits
      exact absurd hvisits (List.cons_ne_nil _ _)

/-- In every run of reads and advances from counts of zero, each jump has been taken as often as its
count says, not more often than it should, and it is passed only when it has been taken that often;
reads at an offset, and reads that fail before they come to a jump, change nothing; a read of the
current item, also one that fails, leaves the index where the jumps have led to. -/
theorem doJump_accounting {p₀ : Plan K} (hmode : p₀.mode = .NORMAL) (hreset : ResetCounters p₀)
    (es : List Event) :
    (∀ j < p₀.count, ∀ item, p₀.items j = some item → item.nav_cmd = .DO_JUMP →
      (Trace.run step ⟨p₀, []⟩ es).plan.items j =
          some { item with count := .ofNat (timesTaken (Trace.run step ⟨p₀, []⟩ es).log j) } ∧
        timesTaken (Trace.run step ⟨p₀, []⟩ es).log j =
          min item.do_jump_repeat_count.toNat (timesTaken (Trace.run step ⟨p₀, []⟩ es).log j +
            timesPassed (Trace.run step ⟨p₀, []⟩ es).log j)) ∧
    (∀ j < p₀.count, ∀ item, (Trace.run step ⟨p₀, []⟩ es).plan.items j = some item →
      item.nav_cmd = .DO_JUMP → item.count ≤ item.do_jump_repeat_count) ∧
    (∀ write offset, offset ≠ 0 →
      (readMissionItem write (Trace.run step ⟨p₀, []⟩ es).plan offset).1 =
        (Trace.run step ⟨p₀, []⟩ es).plan) ∧
    (∀ write, (readMissionItem write (Trace.run step ⟨p₀, []⟩ es).plan 0).2 = none →
      visits write (Trace.run step ⟨p₀, []⟩ es).plan = [] →
      (readMissionItem write (Trace.run step ⟨p₀, []⟩ es).plan 0).1 =
        (Trace.run step ⟨p₀, []⟩ es).plan) ∧
    (∀ write, JumpsLead p₀.items (visits write (Trace.run step ⟨p₀, []⟩ es).plan)
      (Trace.run step ⟨p₀, []⟩ es).plan.current_mission_index
      (readMissionItem write (Trace.run step ⟨p₀, []⟩ es).plan 0).1.current_mission_index) := by
  have hfly := (flying_reset hmode hreset).run es
  have hacc := hfly.accounts
  refine ⟨fun j hj item hitem hjump => ⟨?_, ?_⟩, fun j hj item hitem hjump => ?_,
    fun write offset hoffset => readMissionItem_ahead _ hoffset,
    fun write _ hvisits => readMissionItem_of_no_visits hvisits, hfly.jumpsLead⟩
  · rw [hacc.items j hj, hitem, Option.map_some, counted_jump hjump]
  · have hle := hacc.le j hj item hitem hjump
    have hpassed := hacc.passed j hj item hitem hjump
    omega
  · obtain ⟨item₀, hitem₀, hjump₀, hrepeat, hcount, -⟩ := hacc.jump hj hitem hjump
    rw [UInt16.le_iff_toNat_le, hcount, hrepeat]
    exact hacc.le j hj item₀ hitem₀ hjump₀

/-! ### Missions whose counts are reset -/

theorem resetLoop_of_lt (n index : ℕ) (items : ℕ → Option (MissionItem K)) (hj : j < index) :
    resetLoop write n index items j = items j := by
  induction n generalizing index items with
  | zero => rfl
  | succ n ih =>
    rw [resetLoop]
    cases items index with
    | none => rfl
    | some item =>
      dsimp only
      split
      · split
        · rw [ih (index + 1) _ (by omega), Function.update_of_ne (by omega)]
        · rfl
      · exact ih (index + 1) items (by omega)

theorem resetLoop_count (n index : ℕ) (items : ℕ → Option (MissionItem K))
    (hread : ∀ j, index ≤ j → j < index + n → items j ≠ none) (hle : index ≤ j)
    (hlt : j < index + n) {item : MissionItem K}
    (hitem : resetLoop (fun _ => true) n index items j = some item)
    (hjump : item.nav_cmd = .DO_JUMP) : item.count = 0 := by
  induction n generalizing index items with
  | zero => exact absurd hlt (by omega)
  | succ n ih =>
    rw [resetLoop] at hitem
    cases hfirst : items index with
    | none => exact absurd hfirst (hread index le_rfl (by omega))
    | some first =>
      rw [hfirst] at hitem
      dsimp only at hitem
      rw [if_pos rfl] at hitem
      by_cases heq : j = index
      · subst heq
        split at hitem
        · rw [resetLoop_of_lt n (j + 1) _ (Nat.lt_succ_self j), Function.update_self] at hitem
          cases hitem
          rfl
        · next hnot =>
          rw [resetLoop_of_lt n (j + 1) _ (Nat.lt_succ_self j), hfirst] at hitem
          cases hitem
          exact absurd hjump hnot
      · split at hitem
        · refine ih (index + 1) _ (fun i hi hi' => ?_) (by omega) (by omega) hitem
          rw [Function.update_of_ne (by omega)]
          exact hread i (by omega) (by omega)
        · exact ih (index + 1) items (fun i hi hi' => hread i (by omega) (by omega)) (by omega)
            (by omega) hitem

theorem resetCounters_resetMission {p : Plan K} (hread : ∀ j < p.count, p.items j ≠ none) :
    ResetCounters (resetMission (fun _ => true) p) := by
  intro j hj item hitem hjump
  refine resetLoop_count p.count 0 p.items (fun i _ hi => hread i (by omega)) (Nat.zero_le j) ?_
    hitem hjump
  rw [Nat.zero_add]
  exact hj

def jumpAway : Plan ℚ where
  items := fun _ => some { (MissionItem.zero : MissionItem ℚ) with
    nav_cmd := .DO_JUMP
    do_jump_mission_index := 5
    do_jump_repeat_count := 1
    count := 1 }
  count := 1
  current_mission_index := 0
  mode := .NORMAL
  sub_item := false
  active := true

theorem resetCounters_jumpAway : ResetCounters (resetMission (fun _ => true) jumpAway) :=
  resetCounters_resetMission fun _ _ => Option.some_ne_none _

def twoReads : Flight ℚ :=
  Trace.run step ⟨resetMission (fun _ => true) jumpAway, []⟩
    [.read (fun _ => true) 0, .read (fun _ => true) 0]

/-- The jump is taken once, and then the index is out of bounds. -/
theorem doJump_accounting_jumpAway : timesTaken twoReads.log 0 = 1 ∧
    timesTaken twoReads.log 0 = min 1 (timesTaken twoReads.log 0 + timesPassed twoReads.log 0) :=
  ⟨by decide, ((doJump_accounting rfl resetCounters_jumpAway
    [.read (fun _ => true) 0, .read (fun _ => true) 0]).1 0 (by decide) _ rfl rfl).2⟩

/-- The read fails, with the count raised and the index moved. -/
theorem failed_read_counts :
    ¬ ∀ (p₀ : Plan ℚ) (es : List Event) (write : ℕ → Bool), p₀.mode = .NORMAL → ResetCounters p₀ →
      (readMissionItem write (Trace.run step ⟨p₀, []⟩ es).plan 0).2 = none →
      (readMissionItem write (Trace.run step ⟨p₀, []⟩ es).plan 0).1.current_mission_index =
          (Trace.run step ⟨p₀, []⟩ es).plan.current_mission_index ∧
        (readMissionItem write (Trace.run step ⟨p₀, []⟩ es).plan 0).1.items =
          (Trace.run step ⟨p₀, []⟩ es).plan.items := by
  intro hclaim
  have h := hclaim (resetMission (fun _ => true) jumpAway) [] (fun _ => true) rfl
    resetCounters_jumpAway rfl
  exact nomatch h.1

end Navigator
