/-
Commands that are sent again until they are acknowledged.

`MavlinkCommandSender` keeps the commands that were forwarded to the links in a list of three places
and sends them again after a timeout.  For each command it counts how often it was sent again on
each channel: -1 stands for a channel that has not forwarded it, -2 for one that has received an
acknowledgement.

* `TimestampedList` — the list: values with the time at which they were put, 0 for a free place;
* `Sender` — the commands, with what was sent so far;
* `checkSlot_cases` — what `check_timeout` does with one place.
-/
import AerialManipulator.Lib.Trace
import Mathlib.Data.Fintype.Basic

namespace CommandSender

/-! ### The list -/

/-- `TimestampedList::item_s`; a time of 0 signals that it is inactive. -/
structure Slot (α : Type*) where
  timestamp_us : UInt64
  value : α

/-- `TimestampedList`, of `len` items. -/
abbrev TimestampedList (α : Type*) (len : ℕ) : Type _ := Fin len → Slot α

namespace TimestampedList

variable {α : Type*} {len : ℕ}

def Active (l : TimestampedList α len) (i : Fin len) : Prop := (l i).timestamp_us ≠ 0

instance (l : TimestampedList α len) (i : Fin len) : Decidable (l.Active i) :=
  inferInstanceAs (Decidable (_ ≠ _))

/-- A loop over `get_next` that breaks at the first value with a property. -/
def first (l : TimestampedList α len) (p : α → Bool) : Option (Fin len) :=
  Fin.find? fun i => decide (l.Active i) && p (l i).value

/-- The value that `get_next` points to is changed. -/
def modify (l : TimestampedList α len) (i : Fin len) (f : α → α) : TimestampedList α len :=
  Function.update l i ⟨(l i).timestamp_us, f (l i).value⟩

/-- `drop_current`. -/
def drop (l : TimestampedList α len) (i : Fin len) : TimestampedList α len :=
  Function.update l i ⟨0, (l i).value⟩

/-- The oldest entry, with the loop of `put`. -/
def oldest (l : TimestampedList α len) : Option (Fin len) :=
  (List.finRange len).foldl
    (fun
      | none, i => some i
      | some oldest_i, i =>
        if (l i).timestamp_us < (l oldest_i).timestamp_us then some i else some oldest_i) none

/-- The place that `put` takes: a free one, or that of the oldest entry. -/
def place (l : TimestampedList α len) : Option (Fin len) :=
  match Fin.find? fun i => decide ((l i).timestamp_us = 0) with
  | some i => some i
  | none => l.oldest

def put (l : TimestampedList α len) (now : UInt64) (new_value : α) : TimestampedList α len :=
  match l.place with
  | some i => Function.update l i ⟨now, new_value⟩
  | none => l

variable {l : TimestampedList α len} {i j : Fin len} {p : α → Bool} {f : α → α}

theorem first_eq_some : l.first p = some i ↔
    (l.Active i ∧ p (l i).value) ∧ ∀ j < i, ¬ (l.Active j ∧ p (l j).value) := by
  unfold first
  rw [Fin.find?_eq_some_iff]
  simp only [Bool.and_eq_true, decide_eq_true_eq, Bool.eq_false_iff, ne_eq]

theorem first_eq_none : l.first p = none ↔ ∀ i, ¬ (l.Active i ∧ p (l i).value) := by
  unfold first
  rw [Fin.find?_eq_none_iff]
  simp only [Bool.and_eq_true, decide_eq_true_eq, Bool.eq_false_iff, ne_eq]

theorem modify_active : (l.modify i f).Active j ↔ l.Active j := by
  unfold Active modify
  by_cases h : j = i
  · rw [h, Function.update_self]
  · rw [Function.update_of_ne h]

theorem modify_self : (l.modify i f i).value = f (l i).value := by
  rw [modify, Function.update_self]

theorem modify_of_ne (h : j ≠ i) : l.modify i f j = l j := Function.update_of_ne h _ _

theorem forall_modify {Q : α → Prop} (hi : l.Active i → Q (f (l i).value))
    (h : ∀ j, j ≠ i → l.Active j → Q (l j).value) (j : Fin len) (hj : (l.modify i f).Active j) :
    Q (l.modify i f j).value := by
  rw [modify_active] at hj
  by_cases heq : j = i
  · subst heq
    rw [modify_self]
    exact hi hj
  · rw [modify_of_ne heq]
    exact h j heq hj

/-- What is still active behind `drop_current` was active before, and has not changed. -/
theorem drop_of_active (h : (l.drop i).Active j) : l.Active j ∧ l.drop i j = l j := by
  have hne : j ≠ i := by
    rintro rfl
    rw [Active, drop, Function.update_self] at h
    exact h rfl
  have heq : l.drop i j = l j := Function.update_of_ne hne _ _
  rw [Active, heq] at h
  exact ⟨h, heq⟩

/-- What is active behind `put` is the new value, or was active before and has not changed. -/
theorem put_of_active {now : UInt64} {v : α} (h : (l.put now v).Active j) :
    (l.place = some j ∧ (l.put now v j).value = v) ∨ (l.Active j ∧ l.put now v j = l j) := by
  unfold put at h ⊢
  cases hplace : l.place with
  | none =>
    rw [hplace] at h
    exact .inr ⟨h, rfl⟩
  | some i =>
    rw [hplace] at h
    dsimp only at h ⊢
    by_cases heq : j = i
    · subst heq
      rw [Function.update_self]
      exact .inl ⟨rfl, rfl⟩
    · rw [Active, Function.update_of_ne heq] at h
      rw [Function.update_of_ne heq]
      exact .inr ⟨h, rfl⟩

/-- Active values have different keys. -/
def Distinct {β : Type*} (l : TimestampedList α len) (key : α → β) : Prop :=
  ∀ i j, l.Active i → l.Active j → key (l i).value = key (l j).value → i = j

section Distinct

variable {β : Type*} {key : α → β}

theorem Distinct.modify (h : l.Distinct key) (hf : ∀ v, key (f v) = key v) :
    (l.modify i f).Distinct key := by
  have hkey (j : Fin len) : key (l.modify i f j).value = key (l j).value := by
    by_cases heq : j = i
    · rw [heq, modify_self, hf]
    · rw [modify_of_ne heq]
  intro j k hj hk heq
  rw [hkey, hkey] at heq
  exact h j k (modify_active.1 hj) (modify_active.1 hk) heq

theorem Distinct.drop (h : l.Distinct key) : (l.drop i).Distinct key := by
  intro j k hj hk heq
  obtain ⟨hj, hj'⟩ := drop_of_active hj
  obtain ⟨hk, hk'⟩ := drop_of_active hk
  rw [hj', hk'] at heq
  exact h j k hj hk heq

theorem Distinct.put (h : l.Distinct key) {now : UInt64} {v : α}
    (hnew : ∀ j, l.Active j → key (l j).value ≠ key v) : (l.put now v).Distinct key := by
  intro j k hj hk heq
  rcases put_of_active hj with ⟨hplace, hj'⟩ | ⟨hj, hj'⟩
  · rcases put_of_active hk with ⟨hplace', -⟩ | ⟨hk, hk'⟩
    · exact Option.some.inj (hplace.symm.trans hplace')
    · rw [hj', hk'] at heq
      exact absurd heq.symm (hnew k hk)
  · rcases put_of_active hk with ⟨-, hk'⟩ | ⟨hk, hk'⟩
    · rw [hj', hk'] at heq
      exact absurd heq (hnew j hj)
    · rw [hj', hk'] at heq
      exact h j k hj hk heq

end Distinct

end TimestampedList

/-! ### The sender -/

def INTERNAL_START : UInt32 := 65537

def RETRIES : ℤ := 3

def TIMEOUT_US : UInt64 := 500000

/-- `vehicle_command_s`; `params` are the seven parameters. -/
structure VehicleCommand (P : Type*) where
  timestamp : UInt64
  command : UInt32
  target_system : UInt8
  target_component : UInt8
  confirmation : UInt8
  params : P

/-- `mavlink_command_long_t`. -/
structure CommandLong (P : Type*) where
  target_system : UInt8
  target_component : UInt8
  command : UInt16
  confirmation : UInt8
  params : P

/-- `mavlink_command_ack_t` and where it comes from. -/
structure Ack where
  command : UInt16
  from_sysid : UInt8
  from_compid : UInt8

/-- `command_item_s`, with `N` channels (`MAVLINK_COMM_NUM_BUFFERS`). -/
structure CommandItem (P : Type*) (N : ℕ) where
  command : CommandLong P
  timestamp_us : UInt64
  last_time_sent_us : UInt64
  num_sent_per_channel : Fin N → ℤ

/-- A message that is sent; `retry` says that it is sent by `check_timeout`, and `timestamp_us` for
which command. -/
structure Sent (P : Type*) (N : ℕ) where
  timestamp_us : UInt64
  channel : Fin N
  retry : Bool
  message : CommandLong P

structure Sender (P : Type*) (N : ℕ) where
  commands : TimestampedList (CommandItem P N) 3
  sent : List (Sent P N)

variable {P : Type*} {N : ℕ}

def VehicleCommand.message (command : VehicleCommand P) : CommandLong P where
  target_system := command.target_system
  target_component := command.target_component
  command := command.command.toUInt16
  confirmation := command.confirmation
  params := command.params

def CommandItem.setNumSent (channel : Fin N) (n : ℤ) (item : CommandItem P N) : CommandItem P N :=
  { item with num_sent_per_channel := Function.update item.num_sent_per_channel channel n }

def VehicleCommand.newItem (command : VehicleCommand P) (channel : Fin N) (now : UInt64) :
    CommandItem P N where
  command := command.message
  timestamp_us := command.timestamp
  last_time_sent_us := now
  num_sent_per_channel := Function.update (fun _ => -1) channel 0

/-- `handle_vehicle_command`; the clock is read for the new item and in `put`. -/
def Sender.handleVehicleCommand (s : Sender P N) (command : VehicleCommand P) (channel : Fin N)
    (now now' : UInt64) : Sender P N :=
  if INTERNAL_START ≤ command.command then s
  else
    { commands :=
        match s.commands.first fun item => item.timestamp_us = command.timestamp with
        | some i => s.commands.modify i (CommandItem.setNumSent channel 0)
        | none => s.commands.put now' (command.newItem channel now)
      sent := s.sent ++ [⟨command.timestamp, channel, false, command.message⟩] }

def Ack.isFor (ack : Ack) (command : CommandLong P) : Bool :=
  command.command = ack.command &&
    (command.target_system = 0 || ack.from_sysid = command.target_system) &&
    (command.target_component = 0 || ack.from_compid = command.target_component)

def Sender.handleMavlinkCommandAck (s : Sender P N) (ack : Ack) (channel : Fin N) : Sender P N :=
  match s.commands.first fun item =>
    ack.isFor item.command && item.num_sent_per_channel channel ≠ -1 with
  | some i => { s with commands := s.commands.modify i (CommandItem.setNumSent channel (-2)) }
  | none => s

def CommandItem.maxSent (item : CommandItem P N) : ℤ :=
  (List.finRange N).foldl
    (fun max_sent i =>
      if max_sent < item.num_sent_per_channel i then item.num_sent_per_channel i else max_sent) 0

/-- `min_sent`; it starts at `INT8_MAX`. -/
def CommandItem.minSent (item : CommandItem P N) : ℤ :=
  (List.finRange N).foldl
    (fun min_sent i =>
      if item.num_sent_per_channel i ≠ -1 ∧ item.num_sent_per_channel i < min_sent then
        item.num_sent_per_channel i
      else min_sent) 127

/-- What is done with an item that is checked. -/
inductive Verdict
  | keep
  | drop
  /-- it is sent again; `first` says that this starts a series, and sets the time -/
  | resend (first : Bool)
  deriving DecidableEq

/-- The body of the loop of `check_timeout`, for the elapsed time. -/
def CommandItem.check (item : CommandItem P N) (channel : Fin N) (elapsed : UInt64) : Verdict :=
  if elapsed ≤ TIMEOUT_US then .keep
  else if ∃ i, item.num_sent_per_channel i = -2 then .drop
  else if item.num_sent_per_channel channel < item.maxSent ∧
      item.num_sent_per_channel channel ≠ -1 then .resend false
  else if item.num_sent_per_channel channel = item.maxSent ∧ item.minSent = item.maxSent then
    if RETRIES < item.num_sent_per_channel channel + 1 then .drop else .resend true
  else .keep

def CommandItem.retry (item : CommandItem P N) (channel : Fin N) (last_time_sent_us : UInt64) :
    CommandItem P N :=
  { item with
    command :=
      { item.command with confirmation := .ofInt (item.num_sent_per_channel channel + 1) }
    last_time_sent_us := last_time_sent_us
    num_sent_per_channel := Function.update item.num_sent_per_channel channel
      (item.num_sent_per_channel channel + 1) }

def Sender.resend (s : Sender P N) (channel : Fin N) (i : Fin 3) (last_time_sent_us : UInt64) :
    Sender P N where
  commands := s.commands.modify i fun item => item.retry channel last_time_sent_us
  sent := s.sent ++ [⟨(s.commands i).value.timestamp_us, channel, true,
    ((s.commands i).value.retry channel last_time_sent_us).command⟩]

/-- One item in `check_timeout`; the clock is read for the elapsed time and when a series starts. -/
def Sender.checkSlot (channel : Fin N) (now now' : Fin 3 → UInt64) (s : Sender P N) (i : Fin 3) :
    Sender P N :=
  if s.commands.Active i then
    match (s.commands i).value.check channel (now i - (s.commands i).value.last_time_sent_us) with
    | .keep => s
    | .drop => { s with commands := s.commands.drop i }
    | .resend first =>
      s.resend channel i (if first then now' i else (s.commands i).value.last_time_sent_us)
  else s

def Sender.checkTimeout (s : Sender P N) (channel : Fin N) (now now' : Fin 3 → UInt64) :
    Sender P N :=
  (List.finRange 3).foldl (Sender.checkSlot channel now now') s

inductive Event (P : Type*) (N : ℕ)
  | vehicleCommand (command : VehicleCommand P) (channel : Fin N) (now now' : UInt64)
  | commandAck (ack : Ack) (channel : Fin N)
  | checkTimeout (channel : Fin N) (now now' : Fin 3 → UInt64)

def step (s : Sender P N) : Event P N → Sender P N
  | .vehicleCommand command channel now now' => s.handleVehicleCommand command channel now now'
  | .commandAck ack channel => s.handleMavlinkCommandAck ack channel
  | .checkTimeout channel now now' => s.checkTimeout channel now now'

/-! ### A command that is forwarded -/

theorem VehicleCommand.newItem_of_ne (command : VehicleCommand P) {channel c : Fin N}
    (h : c ≠ channel) (now : UInt64) :
    (command.newItem channel now).num_sent_per_channel c = -1 := by
  unfold newItem
  dsimp only
  rw [Function.update_of_ne h]

theorem VehicleCommand.newItem_self (command : VehicleCommand P) (channel : Fin N) (now : UInt64) :
    (command.newItem channel now).num_sent_per_channel channel = 0 := by
  unfold newItem
  dsimp only
  rw [Function.update_self]

theorem Sender.handleVehicleCommand_cases (s : Sender P N) {command : VehicleCommand P}
    (hinternal : ¬ INTERNAL_START ≤ command.command) (channel : Fin N) (now now' : UInt64) :
    (∃ i, s.commands.Active i ∧ (s.commands i).value.timestamp_us = command.timestamp ∧
      s.handleVehicleCommand command channel now now' =
        ⟨s.commands.modify i (CommandItem.setNumSent channel 0),
          s.sent ++ [⟨command.timestamp, channel, false, command.message⟩]⟩) ∨
    ((∀ i, s.commands.Active i → (s.commands i).value.timestamp_us ≠ command.timestamp) ∧
      s.handleVehicleCommand command channel now now' =
        ⟨s.commands.put now' (command.newItem channel now),
          s.sent ++ [⟨command.timestamp, channel, false, command.message⟩]⟩) := by
  unfold Sender.handleVehicleCommand
  rw [if_neg hinternal]
  cases hfirst : s.commands.first fun item => item.timestamp_us = command.timestamp with
  | some i =>
    obtain ⟨⟨hactive, htimestamp⟩, -⟩ := TimestampedList.first_eq_some.1 hfirst
    exact .inl ⟨i, hactive, of_decide_eq_true htimestamp, rfl⟩
  | none =>
    rw [TimestampedList.first_eq_none] at hfirst
    exact .inr ⟨fun i hi heq => hfirst i ⟨hi, decide_eq_true heq⟩, rfl⟩

/-! ### One item in `check_timeout` -/

theorem CommandItem.maxSent_mem (item : CommandItem P N) {n : ℤ} (hn : 0 ≤ n)
    (h : ∀ c, item.num_sent_per_channel c ≤ n) : 0 ≤ item.maxSent ∧ item.maxSent ≤ n := by
  refine List.foldlRecOn (motive := fun m => 0 ≤ m ∧ m ≤ n) _ _ ⟨le_rfl, hn⟩
    fun max_sent hmax c _ => ?_
  split
  · exact ⟨by omega, h c⟩
  · exact hmax

/-- An item that is sent again has no acknowledgement, and has been sent fewer than three times. -/
theorem CommandItem.check_resend {item : CommandItem P N} {channel : Fin N} {elapsed : UInt64}
    {first : Bool} (hle : ∀ c, item.num_sent_per_channel c ≤ RETRIES)
    (h : item.check channel elapsed = .resend first) :
    (∀ c, item.num_sent_per_channel c ≠ -2) ∧ item.num_sent_per_channel channel ≠ -1 ∧
      item.num_sent_per_channel channel < RETRIES := by
  obtain ⟨hmax, hmax'⟩ := item.maxSent_mem (by decide) hle
  unfold CommandItem.check at h
  split at h
  · cases h
  · split at h
    · cases h
    · next hnot =>
      refine ⟨not_exists.1 hnot, ?_⟩
      split at h
      · next hbehind => exact ⟨hbehind.2, lt_of_lt_of_le hbehind.1 hmax'⟩
      · split at h
        · next hlevel =>
          split at h
          · cases h
          · next hfew => exact ⟨by omega, by omega⟩
        · cases h

theorem Sender.checkSlot_cases (s : Sender P N) (channel : Fin N) (now now' : Fin 3 → UInt64)
    (i : Fin 3)
    (hle : s.commands.Active i → ∀ c, (s.commands i).value.num_sent_per_channel c ≤ RETRIES) :
    Sender.checkSlot channel now now' s i = s ∨
      Sender.checkSlot channel now now' s i = { s with commands := s.commands.drop i } ∨
      ∃ last, s.commands.Active i ∧
        (∀ c, (s.commands i).value.num_sent_per_channel c ≠ -2) ∧
        (s.commands i).value.num_sent_per_channel channel ≠ -1 ∧
        (s.commands i).value.num_sent_per_channel channel < RETRIES ∧
        Sender.checkSlot channel now now' s i = s.resend channel i last := by
  unfold Sender.checkSlot
  by_cases hactive : s.commands.Active i
  · rw [if_pos hactive]
    cases hcheck : (s.commands i).value.check channel
      (now i - (s.commands i).value.last_time_sent_us) with
    | keep => exact .inl rfl
    | drop => exact .inr (.inl rfl)
    | resend first =>
      obtain ⟨hnot, hsent, hfew⟩ := CommandItem.check_resend (hle hactive) hcheck
      exact .inr (.inr ⟨_, hactive, hnot, hsent, hfew, rfl⟩)
  · rw [if_neg hactive]
    exact .inl rfl

theorem Sender.checkTimeout_induction {Q : Sender P N → Prop} {channel : Fin N}
    (hle : ∀ s, Q s → ∀ i, s.commands.Active i → ∀ c,
      (s.commands i).value.num_sent_per_channel c ≤ RETRIES)
    (hdrop : ∀ s i, Q s → Q { s with commands := s.commands.drop i })
    (hresend : ∀ s i last, Q s → s.commands.Active i →
      (∀ c, (s.commands i).value.num_sent_per_channel c ≠ -2) →
      (s.commands i).value.num_sent_per_channel channel ≠ -1 →
      (s.commands i).value.num_sent_per_channel channel < RETRIES → Q (s.resend channel i last))
    {s : Sender P N} (hs : Q s) (now now' : Fin 3 → UInt64) :
    Q (s.checkTimeout channel now now') := by
  refine List.foldlRecOn _ _ hs fun s hs i _ => ?_
  rcases s.checkSlot_cases channel now now' i (hle s hs i) with
    heq | heq | ⟨last, hactive, hnot, hsent, hfew, heq⟩
  · rw [heq]
    exact hs
  · rw [heq]
    exact hdrop s i hs
  · rw [heq]
    exact hresend s i last hs hactive hnot hsent hfew

/-! ### Acknowledgements -/

/-- Nothing happens, or the first command that the acknowledgement could be for is marked. -/
theorem Sender.handleMavlinkCommandAck_cases (s : Sender P N) (ack : Ack) (channel : Fin N) :
    ((∀ i, s.commands.Active i → ack.isFor (s.commands i).value.command = true →
        (s.commands i).value.num_sent_per_channel channel = -1) ∧
      s.handleMavlinkCommandAck ack channel = s) ∨
    ∃ i, s.commands.Active i ∧ ack.isFor (s.commands i).value.command = true ∧
      (s.commands i).value.num_sent_per_channel channel ≠ -1 ∧
      (∀ j < i, s.commands.Active j → ack.isFor (s.commands j).value.command = true →
        (s.commands j).value.num_sent_per_channel channel = -1) ∧
      s.handleMavlinkCommandAck ack channel =
        { s with commands := s.commands.modify i (CommandItem.setNumSent channel (-2)) } := by
  unfold Sender.handleMavlinkCommandAck
  cases hfirst : s.commands.first fun item =>
    ack.isFor item.command && item.num_sent_per_channel channel ≠ -1 with
  | none =>
    refine .inl ⟨fun i hi hfor => ?_, rfl⟩
    rw [TimestampedList.first_eq_none] at hfirst
    by_contra hsent
    exact hfirst i ⟨hi, by simp [hfor, hsent]⟩
  | some i =>
    obtain ⟨⟨hi, hmatch⟩, hfront⟩ := TimestampedList.first_eq_some.1 hfirst
    simp only [Bool.and_eq_true, decide_eq_true_eq] at hmatch
    refine .inr ⟨i, hi, hmatch.1, hmatch.2, fun j hj hactive hfor => ?_, rfl⟩
    by_contra hsent
    exact hfront j hj ⟨hactive, by simp [hfor, hsent]⟩

end CommandSender
