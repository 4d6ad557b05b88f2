/-
How often commands are sent again, and which command an acknowledgement is for.

* `Counts` — the invariant: the counter of each channel is the number of times the command was sent
  again there, unless the channel is inactive or has an acknowledgement;
* **`retransmission_correct_iff`** — a run is correct exactly if no acknowledgement comes in while
  a command that has one already stands in front of all those that it could be for;
* **`second_ack_lost`** — two equal commands, and two acknowledgements for the first of them.
-/
import AerialManipulator.Mavlink.CommandSender

namespace CommandSender

open Trace

variable {P : Type*} {N : ℕ}

/-- The confirmation values of the retransmissions of a command on a channel. -/
def Sender.confirmations (s : Sender P N) (t : UInt64) (c : Fin N) : List UInt8 :=
  (s.sent.filter fun m => m.retry && m.timestamp_us = t && m.channel = c).map
    fun m => m.message.confirmation

def numbers (k : ℕ) : List UInt8 := (List.range k).map fun n => .ofNat (n + 1)

/-- The command and the channel of an event that forwards one. -/
def forward : Event P N → Option (UInt64 × Fin N)
  | .vehicleCommand command channel _ _ =>
    if INTERNAL_START ≤ command.command then none else some (command.timestamp, channel)
  | .commandAck _ _ => none
  | .checkTimeout _ _ _ => none

def forwards (es : List (Event P N)) : List (UInt64 × Fin N) := es.filterMap forward

/-- There are no commands at the start.  `item` is what the free places hold. -/
def initial (item : CommandItem P N) : Sender P N := ⟨fun _ => ⟨0, item⟩, []⟩

/-- The channel is inactive, or has an acknowledgement, or the counter is `n`. -/
def CommandItem.Counted (F : List (UInt64 × Fin N)) (n : UInt64 → Fin N → ℕ)
    (item : CommandItem P N) : Prop :=
  ∀ c, item.num_sent_per_channel c = -1 ∨
    ((item.timestamp_us, c) ∈ F ∧
      (item.num_sent_per_channel c = -2 ∨ item.num_sent_per_channel c = n item.timestamp_us c))

/-- What holds when the commands of `F` have been forwarded. -/
structure Counts (s : Sender P N) (F : List (UInt64 × Fin N)) : Prop where
  distinct : s.commands.Distinct CommandItem.timestamp_us
  items : ∀ i, s.commands.Active i →
    (s.commands i).value.Counted F fun t c => (s.confirmations t c).length
  numbered : ∀ t c, s.confirmations t c = numbers (s.confirmations t c).length
  le : ∀ t c, (s.confirmations t c).length ≤ 3
  fresh : ∀ t c, (t, c) ∉ F → s.confirmations t c = []

/-! ### The invariant -/

variable {s : Sender P N} {F : List (UInt64 × Fin N)} {item : CommandItem P N} {i : Fin 3}

theorem confirmations_append (commands : TimestampedList (CommandItem P N) 3)
    (sent : List (Sent P N)) (m : Sent P N) (t : UInt64) (c : Fin N) :
    Sender.confirmations ⟨commands, sent ++ [m]⟩ t c =
      Sender.confirmations ⟨commands, sent⟩ t c ++
        if m.retry = true ∧ m.timestamp_us = t ∧ m.channel = c then [m.message.confirmation]
        else [] := by
  unfold Sender.confirmations
  rw [List.filter_append, List.map_append]
  congr 1
  by_cases h : m.retry = true ∧ m.timestamp_us = t ∧ m.channel = c
  · rw [if_pos h, List.filter_cons_of_pos (by simp [h])]
    rfl
  · rw [if_neg h, List.filter_cons_of_neg (by simpa [and_assoc] using h)]
    rfl

theorem CommandItem.Counted.le {n : UInt64 → Fin N → ℕ} (h : item.Counted F n)
    (hn : ∀ t c, n t c ≤ 3) (c : Fin N) : item.num_sent_per_channel c ≤ RETRIES := by
  have hle := hn item.timestamp_us c
  have hretries : RETRIES = 3 := rfl
  rcases h c with h | ⟨-, h | h⟩ <;> omega

theorem counts_initial (item : CommandItem P N) : Counts (initial item) [] where
  distinct := fun _ _ hi => absurd rfl hi
  items := fun _ hi => absurd rfl hi
  numbered := fun _ _ => rfl
  le := fun _ _ => Nat.zero_le 3
  fresh := fun _ _ _ => rfl

theorem Counts.drop (h : Counts s F) (i : Fin 3) :
    Counts { s with commands := s.commands.drop i } F where
  distinct := h.distinct.drop
  items := by
    intro j hj
    obtain ⟨hj, hj'⟩ := TimestampedList.drop_of_active hj
    dsimp only
    rw [hj']
    exact h.items j hj
  numbered := h.numbered
  le := h.le
  fresh := h.fresh

theorem CommandItem.Counted.append {n : UInt64 → Fin N → ℕ} (h : item.Counted F n)
    (x : UInt64 × Fin N) : item.Counted (F ++ [x]) n := by
  intro c
  rcases h c with h | ⟨hmem, h⟩
  · exact .inl h
  · exact .inr ⟨List.mem_append_left _ hmem, h⟩

theorem confirmations_first (commands : TimestampedList (CommandItem P N) 3) (t t' : UInt64)
    (c c' : Fin N) (message : CommandLong P) :
    Sender.confirmations ⟨commands, s.sent ++ [⟨t, c, false, message⟩]⟩ t' c' =
      s.confirmations t' c' := by
  rw [confirmations_append, if_neg fun h => Bool.false_ne_true h.1, List.append_nil]
  rfl

/-- The first transmission of a command on a channel, with the items as they should be then. -/
theorem Counts.transmit (h : Counts s F) {commands : TimestampedList (CommandItem P N) 3}
    (t : UInt64) (c : Fin N) (message : CommandLong P)
    (hdistinct : commands.Distinct CommandItem.timestamp_us)
    (hitems : ∀ i, commands.Active i →
      (commands i).value.Counted (F ++ [(t, c)]) fun t c => (s.confirmations t c).length) :
    Counts ⟨commands, s.sent ++ [⟨t, c, false, message⟩]⟩ (F ++ [(t, c)]) := by
  have hlog (t' c') :
      Sender.confirmations ⟨commands, s.sent ++ [⟨t, c, false, message⟩]⟩ t' c' =
        s.confirmations t' c' := confirmations_first ..
  refine ⟨hdistinct, ?_, ?_, ?_, ?_⟩
  · simp only [hlog]
    exact hitems
  · intro t' c'
    rw [hlog]
    exact h.numbered t' c'
  · intro t' c'
    rw [hlog]
    exact h.le t' c'
  · intro t' c' hnot
    rw [hlog]
    exact h.fresh t' c' fun hF => hnot (List.mem_append_left _ hF)

theorem CommandItem.Counted.setNumSent {n : UInt64 → Fin N → ℕ} (h : item.Counted F n)
    {c : Fin N} {m : ℤ} (hmem : (item.timestamp_us, c) ∈ F)
    (hm : m = -2 ∨ m = n item.timestamp_us c) : (item.setNumSent c m).Counted F n := by
  intro c'
  unfold CommandItem.setNumSent
  dsimp only
  by_cases hc : c' = c
  · subst hc
    rw [Function.update_self]
    exact .inr ⟨hmem, hm⟩
  · rw [Function.update_of_ne hc]
    exact h c'

theorem Counts.ack (h : Counts s F) {channel : Fin N}
    (hsent : (s.commands i).value.num_sent_per_channel channel ≠ -1) :
    Counts { s with commands := s.commands.modify i (CommandItem.setNumSent channel (-2)) } F where
  distinct := h.distinct.modify fun _ => rfl
  items := by
    refine TimestampedList.forall_modify (fun hi => ?_) fun j _ hj => h.items j hj
    obtain ⟨hmem, -⟩ := (h.items i hi channel).resolve_left hsent
    exact (h.items i hi).setNumSent hmem (.inl rfl)
  numbered := h.numbered
  le := h.le
  fresh := h.fresh

theorem Counts.vehicleCommand (h : Counts s F) (command : VehicleCommand P) (channel : Fin N)
    (now now' : UInt64) (hfresh : (command.timestamp, channel) ∉ F)
    (hinternal : ¬ INTERNAL_START ≤ command.command) :
    Counts (s.handleVehicleCommand command channel now now')
      (F ++ [(command.timestamp, channel)]) := by
  have hmem : (command.timestamp, channel) ∈ F ++ [(command.timestamp, channel)] :=
    List.mem_append_right F (List.mem_singleton_self _)
  have hnone : (0 : ℤ) = ((s.confirmations command.timestamp channel).length : ℤ) := by
    rw [h.fresh _ _ hfresh]
    rfl
  rcases s.handleVehicleCommand_cases hinternal channel now now' with
    ⟨i, -, htimestamp, heq⟩ | ⟨hnew, heq⟩
  · rw [heq]
    refine h.transmit _ _ _ (h.distinct.modify fun _ => rfl) ?_
    refine TimestampedList.forall_modify (fun hi => ?_) fun j _ hj => (h.items j hj).append _
    refine ((h.items i hi).append _).setNumSent ?_ (.inr ?_)
    · rwa [htimestamp]
    · rwa [htimestamp]
  · rw [heq]
    refine h.transmit _ _ _ (h.distinct.put hnew) fun j hj => ?_
    rcases TimestampedList.put_of_active hj with ⟨-, hj'⟩ | ⟨hj, hj'⟩
    · rw [hj']
      intro c
      by_cases hc : c = channel
      · subst hc
        exact .inr ⟨hmem, .inr ((command.newItem_self c now).trans hnone)⟩
      · exact .inl (command.newItem_of_ne hc now)
    · rw [hj']
      exact (h.items j hj).append _

theorem length_numbers (k : ℕ) : (numbers k).length = k := by
  rw [numbers, List.length_map, List.length_range]

theorem numbers_succ (k : ℕ) : numbers (k + 1) = numbers k ++ [.ofNat (k + 1)] := by
  rw [numbers, List.range_succ, List.map_append]
  rfl

theorem ofInt_succ (k : ℕ) : UInt8.ofInt (k + 1) = .ofNat (k + 1) := by
  have hmod : (((k : ℤ) + 1) % 2 ^ 8).toNat = (k + 1) % 2 ^ 8 := by omega
  rw [UInt8.ofInt, hmod]
  exact UInt8.ofNat_mod_size

theorem Sender.confirmations_resend (s : Sender P N) (channel : Fin N) (i : Fin 3) (last : UInt64)
    (t : UInt64) (c : Fin N) :
    (s.resend channel i last).confirmations t c = s.confirmations t c ++
      if (s.commands i).value.timestamp_us = t ∧ channel = c then
        [.ofInt ((s.commands i).value.num_sent_per_channel channel + 1)]
      else [] := by
  unfold Sender.resend
  rw [confirmations_append]
  simp only [true_and]
  rfl

theorem Counts.resend (h : Counts s F) {channel : Fin N} (hi : s.commands.Active i)
    (hack : (s.commands i).value.num_sent_per_channel channel ≠ -2)
    (hsent : (s.commands i).value.num_sent_per_channel channel ≠ -1)
    (hfew : (s.commands i).value.num_sent_per_channel channel < RETRIES) (last : UInt64) :
    Counts (s.resend channel i last) F := by
  obtain ⟨hmem, hcount⟩ := (h.items i hi channel).resolve_left hsent
  have hcount := hcount.resolve_left hack
  dsimp only at hcount
  have hlog := s.confirmations_resend channel i last
  have hother (t c) (hne : ¬ ((s.commands i).value.timestamp_us = t ∧ channel = c)) :
      (s.resend channel i last).confirmations t c = s.confirmations t c := by
    rw [hlog, if_neg hne, List.append_nil]
  have hself : (s.resend channel i last).confirmations (s.commands i).value.timestamp_us channel =
      numbers ((s.confirmations (s.commands i).value.timestamp_us channel).length + 1) := by
    rw [hlog, if_pos ⟨rfl, rfl⟩, hcount, numbers_succ, ← h.numbered, ofInt_succ]
  refine ⟨h.distinct.modify fun _ => rfl, ?_, ?_, ?_, ?_⟩
  · refine TimestampedList.forall_modify (fun _ c => ?_) fun j hj hactive c => ?_
    · unfold CommandItem.retry
      dsimp only
      by_cases hc : c = channel
      · subst hc
        rw [Function.update_self, hself, length_numbers, hcount]
        exact .inr ⟨hmem, .inr (by push_cast; rfl)⟩
      · rw [Function.update_of_ne hc, hother _ _ fun h => hc h.2.symm]
        exact h.items i hi c
    · dsimp only
      rw [hother _ _ fun heq => hj (h.distinct j i hactive hi heq.1.symm)]
      exact h.items j hactive c
  · intro t c
    by_cases heq : (s.commands i).value.timestamp_us = t ∧ channel = c
    · obtain ⟨rfl, rfl⟩ := heq
      rw [hself, length_numbers]
    · rw [hother t c heq]
      exact h.numbered t c
  · intro t c
    by_cases heq : (s.commands i).value.timestamp_us = t ∧ channel = c
    · obtain ⟨rfl, rfl⟩ := heq
      have hretries : RETRIES = 3 := rfl
      rw [hself, length_numbers]
      omega
    · rw [hother t c heq]
      exact h.le t c
  · intro t c hnot
    rw [hother t c]
    · exact h.fresh t c hnot
    · rintro ⟨rfl, rfl⟩
      exact hnot hmem

theorem step_of_internal {command : VehicleCommand P}
    (h : INTERNAL_START ≤ command.command) (channel : Fin N) (now now' : UInt64) :
    step s (.vehicleCommand command channel now now') = s := if_pos h

theorem forward_of_internal {command : VehicleCommand P}
    (h : INTERNAL_START ≤ command.command) (channel : Fin N) (now now' : UInt64) :
    forward (.vehicleCommand command channel now now') = none := if_pos h

theorem forward_of_not_internal {command : VehicleCommand P}
    (h : ¬ INTERNAL_START ≤ command.command) (channel : Fin N) (now now' : UInt64) :
    forward (.vehicleCommand command channel now now') = some (command.timestamp, channel) :=
  if_neg h

/-- One event, if it does not forward a command that was forwarded on the channel before. -/
theorem Counts.step (h : Counts s F) {e : Event P N} (hfresh : ∀ x ∈ forward e, x ∉ F) :
    Counts (step s e) (F ++ (forward e).toList) := by
  cases e with
  | vehicleCommand command channel now now' =>
    by_cases hinternal : INTERNAL_START ≤ command.command
    · rw [forward_of_internal hinternal, step_of_internal hinternal, Option.toList_none,
        List.append_nil]
      exact h
    · rw [forward_of_not_internal hinternal] at hfresh ⊢
      exact h.vehicleCommand command channel now now' (hfresh _ rfl) hinternal
  | commandAck ack channel =>
    rw [forward, Option.toList_none, List.append_nil, CommandSender.step]
    rcases s.handleMavlinkCommandAck_cases ack channel with ⟨-, heq⟩ | ⟨i, -, -, hsent, -, heq⟩
    · rw [heq]
      exact h
    · rw [heq]
      exact h.ack hsent
  | checkTimeout channel now now' =>
    rw [forward, Option.toList_none, List.append_nil]
    exact Sender.checkTimeout_induction (Q := fun s => Counts s F)
      (fun s hs i hi => (hs.items i hi).le hs.le) (fun s i hs => hs.drop i)
      (fun s i last hs hi hack hsent hfew => hs.resend hi (hack channel) hsent hfew last) h now now'

/-- Each command is forwarded at most once on each channel. -/
def ForwardedOnce (es : List (Event P N)) : Prop := (forwards es).Nodup

theorem forwards_append (es fs : List (Event P N)) :
    forwards (es ++ fs) = forwards es ++ forwards fs := List.filterMap_append

theorem forwards_singleton (e : Event P N) : forwards [e] = (forward e).toList := by
  unfold forwards
  cases h : forward e with
  | none => rw [List.filterMap_cons_none h, List.filterMap_nil, Option.toList_none]
  | some x => rw [List.filterMap_cons_some h, List.filterMap_nil, Option.toList_some]

theorem forwards_cons (e : Event P N) (es : List (Event P N)) :
    forwards (e :: es) = (forward e).toList ++ forwards es := by
  rw [← forwards_singleton, ← forwards_append]
  rfl

theorem fresh_of_nodup {e : Event P N} {es : List (Event P N)}
    (h : (F ++ forwards (e :: es)).Nodup) : ∀ x ∈ forward e, x ∉ F := by
  intro x hx hF
  rw [forwards_cons, ← List.append_assoc] at h
  exact List.disjoint_of_nodup_append (List.nodup_append.1 h).1 hF (Option.mem_toList.2 hx)

theorem Counts.run (h : Counts s F) (es : List (Event P N)) (hes : (F ++ forwards es).Nodup) :
    Counts (run CommandSender.step s es) (F ++ forwards es) := by
  induction es generalizing s F with
  | nil =>
    rw [forwards, List.filterMap_nil, List.append_nil]
    exact h
  | cons e es ih =>
    have hfresh := fresh_of_nodup hes
    rw [forwards_cons, ← List.append_assoc] at hes ⊢
    exact ih (h.step hfresh) hes

/-! ### Commands that have an acknowledgement -/

/-- An item for the command has an acknowledgement, or is not active on the channel. -/
def CommandItem.Settled (t : UInt64) (c : Fin N) (item : CommandItem P N) : Prop :=
  item.timestamp_us = t →
    (∃ c', item.num_sent_per_channel c' = -2) ∨ item.num_sent_per_channel c = -1

def Settled (t : UInt64) (c : Fin N) (s : Sender P N) : Prop :=
  ∀ i, s.commands.Active i → (s.commands i).value.Settled t c

variable {t : UInt64} {c : Fin N}

theorem Settled.drop (h : Settled t c s) (i : Fin 3) :
    Settled t c { s with commands := s.commands.drop i } := by
  intro j hj
  obtain ⟨hj, hj'⟩ := TimestampedList.drop_of_active hj
  dsimp only
  rw [hj']
  exact h j hj

theorem Settled.ack (h : Settled t c s) (channel : Fin N) (i : Fin 3) :
    Settled t c
      { s with commands := s.commands.modify i (CommandItem.setNumSent channel (-2)) } := by
  refine TimestampedList.forall_modify (fun _ _ => ?_) fun j _ hj => h j hj
  exact .inl ⟨channel, Function.update_self ..⟩

theorem Settled.resend (h : Settled t c s) {channel : Fin N} (hi : s.commands.Active i)
    (hack : ∀ c', (s.commands i).value.num_sent_per_channel c' ≠ -2)
    (hsent : (s.commands i).value.num_sent_per_channel channel ≠ -1) (last : UInt64) :
    Settled t c (s.resend channel i last) ∧
      (s.resend channel i last).confirmations t c = s.confirmations t c := by
  have hnot (ht : (s.commands i).value.timestamp_us = t) :
      (s.commands i).value.num_sent_per_channel c = -1 :=
    (h i hi ht).resolve_left fun ⟨c', hc'⟩ => hack c' hc'
  constructor
  · refine TimestampedList.forall_modify (fun _ ht => .inr ?_) fun j _ hj => h j hj
    have hc : c ≠ channel := by
      rintro rfl
      exact hsent (hnot ht)
    exact (Function.update_of_ne hc _ _).trans (hnot ht)
  · rw [Sender.confirmations_resend, if_neg, List.append_nil]
    rintro ⟨ht, rfl⟩
    exact hsent (hnot ht)

theorem Settled.vehicleCommand (h : Settled t c s) (hcounts : Counts s F)
    {command : VehicleCommand P} {channel : Fin N}
    (hinternal : ¬ INTERNAL_START ≤ command.command)
    (hfresh : (command.timestamp, channel) ∉ F) (hne : (command.timestamp, channel) ≠ (t, c))
    (now now' : UInt64) :
    Settled t c (s.handleVehicleCommand command channel now now') ∧
      (s.handleVehicleCommand command channel now now').confirmations t c =
        s.confirmations t c := by
  have hlog (commands) : Sender.confirmations
      ⟨commands, s.sent ++ [⟨command.timestamp, channel, false, command.message⟩]⟩ t c =
        s.confirmations t c := confirmations_first ..
  have hother (ht : command.timestamp = t) : c ≠ channel := by
    rintro rfl
    exact hne (Prod.ext ht rfl)
  rcases s.handleVehicleCommand_cases hinternal channel now now' with
    ⟨i, hi, htimestamp, heq⟩ | ⟨-, heq⟩
  · rw [heq]
    refine ⟨TimestampedList.forall_modify (fun _ ht => ?_) fun j _ hj => h j hj, hlog _⟩
    rcases h i hi ht with ⟨c', hc'⟩ | hc
    · -- a channel with an acknowledgement has forwarded the command before
      have hc'' : c' ≠ channel := by
        rintro rfl
        obtain ⟨hmem, -⟩ := (hcounts.items i hi c').resolve_left (by omega)
        rw [htimestamp] at hmem
        exact hfresh hmem
      exact .inl ⟨c', (Function.update_of_ne hc'' _ _).trans hc'⟩
    · exact .inr ((Function.update_of_ne (hother (htimestamp.symm.trans ht)) _ _).trans hc)
  · rw [heq]
    refine ⟨fun j hj => ?_, hlog _⟩
    rcases TimestampedList.put_of_active hj with ⟨-, hj'⟩ | ⟨hj, hj'⟩
    · dsimp only
      rw [hj']
      exact fun ht => .inr (command.newItem_of_ne (hother ht) now)
    · dsimp only
      rw [hj']
      exact h j hj

theorem Settled.step (h : Settled t c s) (hcounts : Counts s F) {e : Event P N}
    (hfresh : ∀ x ∈ forward e, x ∉ F) (hne : forward e ≠ some (t, c)) :
    Settled t c (step s e) ∧ (CommandSender.step s e).confirmations t c = s.confirmations t c := by
  cases e with
  | vehicleCommand command channel now now' =>
    by_cases hinternal : INTERNAL_START ≤ command.command
    · rw [step_of_internal hinternal]
      exact ⟨h, rfl⟩
    · rw [forward_of_not_internal hinternal] at hfresh hne
      exact h.vehicleCommand hcounts hinternal (hfresh _ rfl) (fun heq => hne (congrArg some heq))
        now now'
  | commandAck ack channel =>
    rw [CommandSender.step]
    rcases s.handleMavlinkCommandAck_cases ack channel with ⟨-, heq⟩ | ⟨i, -, -, -, -, heq⟩
    · rw [heq]
      exact ⟨h, rfl⟩
    · rw [heq]
      exact ⟨h.ack channel i, rfl⟩
  | checkTimeout channel now now' =>
    have hkept := Sender.checkTimeout_induction (s := s)
      (Q := fun s' => Counts s' F ∧ Settled t c s' ∧ s'.confirmations t c = s.confirmations t c)
      (fun s hs i hi => (hs.1.items i hi).le hs.1.le)
      (fun s i hs => ⟨hs.1.drop i, hs.2.1.drop i, hs.2.2⟩)
      (fun s i last hs hi hack hsent hfew => by
        obtain ⟨hsettled, hsame⟩ := hs.2.1.resend hi hack hsent last
        exact ⟨hs.1.resend hi (hack channel) hsent hfew last, hsettled, hsame.trans hs.2.2⟩)
      ⟨hcounts, h, rfl⟩ now now'
    exact hkept.2

theorem Settled.run (h : Settled t c s) (hcounts : Counts s F) (es : List (Event P N))
    (hes : (F ++ forwards es).Nodup) (hne : (t, c) ∉ forwards es) :
    (run CommandSender.step s es).confirmations t c = s.confirmations t c := by
  induction es generalizing s F with
  | nil => rfl
  | cons e es ih =>
    have hfresh := fresh_of_nodup hes
    rw [forwards_cons, ← List.append_assoc] at hes
    rw [forwards_cons, List.mem_append, not_or] at hne
    obtain ⟨hsettled, hsame⟩ :=
      h.step hcounts hfresh fun heq => hne.1 (Option.mem_toList.2 heq)
    rw [run_cons, ih hsettled (hcounts.step hfresh) hes hne.2, hsame]

/-! ### Which command an acknowledgement is for -/

/-- The command could be the one that is acknowledged: it is active on the channel, and has no
acknowledgement there. -/
structure Awaits (s : Sender P N) (ack : Ack) (channel : Fin N) (i : Fin 3) : Prop where
  active : s.commands.Active i
  isFor : ack.isFor (s.commands i).value.command = true
  sent : (s.commands i).value.num_sent_per_channel channel ≠ -1
  not_acknowledged : (s.commands i).value.num_sent_per_channel channel ≠ -2

/-- The command is like that, but has an acknowledgement on the channel. -/
structure Acknowledged (s : Sender P N) (ack : Ack) (channel : Fin N) (i : Fin 3) : Prop where
  active : s.commands.Active i
  isFor : ack.isFor (s.commands i).value.command = true
  acknowledged : (s.commands i).value.num_sent_per_channel channel = -2

def Sender.mark (s : Sender P N) (channel : Fin N) (i : Fin 3) : Sender P N :=
  { s with commands := s.commands.modify i (CommandItem.setNumSent channel (-2)) }

/-- The acknowledgement is taken for a command that awaits it, if there is one. -/
def Matched (s : Sender P N) (ack : Ack) (channel : Fin N) : Prop :=
  (∃ i, Awaits s ack channel i) →
    ∃ i, Awaits s ack channel i ∧ s.handleMavlinkCommandAck ack channel = s.mark channel i

/-- If there are commands that await an acknowledgement, there is one in front of those that have
one. -/
def InFront (s : Sender P N) (ack : Ack) (channel : Fin N) : Prop :=
  ∀ i j, Acknowledged s ack channel i → Awaits s ack channel j → ∃ k < i, Awaits s ack channel k

instance (s : Sender P N) (ack : Ack) (channel : Fin N) (i : Fin 3) :
    Decidable (Awaits s ack channel i) :=
  decidable_of_iff (s.commands.Active i ∧ ack.isFor (s.commands i).value.command = true ∧
      (s.commands i).value.num_sent_per_channel channel ≠ -1 ∧
      (s.commands i).value.num_sent_per_channel channel ≠ -2)
    ⟨fun h => ⟨h.1, h.2.1, h.2.2.1, h.2.2.2⟩, fun h => ⟨h.1, h.2, h.3, h.4⟩⟩

instance (s : Sender P N) (ack : Ack) (channel : Fin N) (i : Fin 3) :
    Decidable (Acknowledged s ack channel i) :=
  decidable_of_iff (s.commands.Active i ∧ ack.isFor (s.commands i).value.command = true ∧
      (s.commands i).value.num_sent_per_channel channel = -2)
    ⟨fun h => ⟨h.1, h.2.1, h.2.2⟩, fun h => ⟨h.1, h.2, h.3⟩⟩

instance (s : Sender P N) (ack : Ack) (channel : Fin N) : Decidable (InFront s ack channel) :=
  inferInstanceAs (Decidable (∀ _, _))

variable {ack : Ack} {channel : Fin N} {j : Fin 3}

theorem mark_self : ((s.mark channel i).commands i).value.num_sent_per_channel channel = -2 := by
  unfold Sender.mark
  rw [TimestampedList.modify_self]
  exact Function.update_self ..

theorem mark_of_ne (h : j ≠ i) : (s.mark channel i).commands j = s.commands j :=
  TimestampedList.modify_of_ne h

theorem mark_active : (s.mark channel i).commands.Active j ↔ s.commands.Active j :=
  TimestampedList.modify_active

theorem mark_command :
    ((s.mark channel i).commands j).value.command = (s.commands j).value.command := by
  by_cases h : j = i
  · subst h
    unfold Sender.mark
    rw [TimestampedList.modify_self]
    rfl
  · rw [mark_of_ne h]

theorem Awaits.acknowledged (h : Awaits s ack channel i) :
    Acknowledged (s.mark channel i) ack channel i :=
  ⟨mark_active.2 h.active, (congrArg ack.isFor mark_command).trans h.isFor, mark_self⟩

theorem awaits_mark : Awaits (s.mark channel i) ack channel j ↔ j ≠ i ∧ Awaits s ack channel j := by
  constructor
  · intro h
    have hne : j ≠ i := by
      rintro rfl
      exact h.not_acknowledged mark_self
    obtain ⟨hactive, hfor, hsent, hnot⟩ := h
    rw [mark_of_ne hne] at hfor hsent hnot
    exact ⟨hne, mark_active.1 hactive, hfor, hsent, hnot⟩
  · rintro ⟨hne, hactive, hfor, hsent, hnot⟩
    have hsame : (s.mark channel i).commands j = s.commands j := mark_of_ne hne
    refine ⟨mark_active.2 hactive, ?_, ?_, ?_⟩
    · rwa [hsame]
    · rwa [hsame]
    · rwa [hsame]

/-- The acknowledgement is taken for the right command exactly if one stands in front. -/
theorem matched_iff_inFront : Matched s ack channel ↔ InFront s ack channel := by
  rcases s.handleMavlinkCommandAck_cases ack channel with
    ⟨hnone, -⟩ | ⟨i, hi, hfor, hsent, hfront, heq⟩
  · have hnot (j) : ¬ Awaits s ack channel j := fun h => h.sent (hnone j h.active h.isFor)
    exact ⟨fun _ i j _ hj => absurd hj (hnot j), fun _ ⟨j, hj⟩ => absurd hj (hnot j)⟩
  · constructor
    · intro hmatched k j hk hj
      obtain ⟨i', hi', heq'⟩ := hmatched ⟨j, hj⟩
      -- the first one is not acknowledged yet, as another one would not be marked then
      have hawaits : Awaits s ack channel i := by
        by_cases hne : i' = i
        · exact hne ▸ hi'
        · have hmark : s.mark channel i = s.mark channel i' := heq.symm.trans heq'
          have hself : ((s.mark channel i').commands i').value.num_sent_per_channel channel = -2 :=
            mark_self
          rw [← hmark, mark_of_ne hne] at hself
          exact absurd hself hi'.not_acknowledged
      refine ⟨i, ?_, hawaits⟩
      by_contra hle
      rcases lt_or_eq_of_le (not_lt.1 hle) with hlt | rfl
      · have hnone := hfront k hlt hk.active hk.isFor
        rw [hk.acknowledged] at hnone
        exact nomatch hnone
      · exact hawaits.not_acknowledged hk.acknowledged
    · rintro hinfront ⟨j, hj⟩
      refine ⟨i, ⟨hi, hfor, hsent, fun hack => ?_⟩, heq⟩
      obtain ⟨k, hk, hawaits⟩ := hinfront i j ⟨hi, hfor, hack⟩ hj
      exact hawaits.sent (hfront k hk hawaits.active hawaits.isFor)

theorem Acknowledged.mark (h : Acknowledged s ack channel i) (j : Fin 3) :
    Acknowledged (s.mark channel j) ack channel i := by
  refine ⟨mark_active.2 h.active, (congrArg ack.isFor mark_command).trans h.isFor, ?_⟩
  by_cases hne : i = j
  · rw [hne]
    exact mark_self
  · rw [mark_of_ne hne]
    exact h.acknowledged

/-- When the first of two commands is marked, the other acknowledgement is for the second. -/
theorem acknowledged_of_mark {ack' : Ack} (hij : j ≠ i)
    (hj : Awaits s ack channel j) (hawaits' : ∀ k, Awaits s ack' channel k ↔ k = i ∨ k = j)
    (hi : Awaits s ack channel i) (hmatched' : Matched (s.mark channel i) ack' channel) :
    Acknowledged ((s.mark channel i).handleMavlinkCommandAck ack' channel) ack channel i ∧
      Acknowledged ((s.mark channel i).handleMavlinkCommandAck ack' channel) ack channel j := by
  obtain ⟨k, hk, heq⟩ := hmatched' ⟨j, awaits_mark.2 ⟨hij, (hawaits' j).2 (.inr rfl)⟩⟩
  obtain ⟨hne, hk⟩ := awaits_mark.1 hk
  obtain rfl := ((hawaits' k).1 hk).resolve_left hne
  rw [heq]
  exact ⟨hi.acknowledged.mark k, (awaits_mark.2 ⟨hij, hj⟩).acknowledged⟩

theorem acknowledged_of_matched {ack' : Ack} (hij : i ≠ j)
    (hawaits : ∀ k, Awaits s ack channel k ↔ k = i ∨ k = j)
    (hawaits' : ∀ k, Awaits s ack' channel k ↔ k = i ∨ k = j)
    (hmatched : Matched s ack channel)
    (hmatched' : Matched (s.handleMavlinkCommandAck ack channel) ack' channel) :
    Acknowledged ((s.handleMavlinkCommandAck ack channel).handleMavlinkCommandAck ack' channel)
      ack channel i ∧
    Acknowledged ((s.handleMavlinkCommandAck ack channel).handleMavlinkCommandAck ack' channel)
      ack channel j := by
  have hi : Awaits s ack channel i := (hawaits i).2 (.inl rfl)
  have hj : Awaits s ack channel j := (hawaits j).2 (.inr rfl)
  obtain ⟨k, hk, heq⟩ := hmatched ⟨i, hi⟩
  rw [heq] at hmatched' ⊢
  rcases (hawaits k).1 hk with rfl | rfl
  · exact acknowledged_of_mark hij.symm hj hawaits' hi hmatched'
  · exact (acknowledged_of_mark hij hi (fun m => (hawaits' m).trans or_comm) hj hmatched').symm

/-- A property of the acknowledgements of a run. -/
def onAck (Q : Sender P N → Ack → Fin N → Prop) (s : Sender P N) : Event P N → Prop
  | .commandAck ack channel => Q s ack channel
  | .vehicleCommand _ _ _ _ => True
  | .checkTimeout _ _ _ => True

instance (Q : Sender P N → Ack → Fin N → Prop) [∀ s ack channel, Decidable (Q s ack channel)]
    (s : Sender P N) : ∀ e, Decidable (onAck Q s e)
  | .commandAck ack channel => inferInstanceAs (Decidable (Q s ack channel))
  | .vehicleCommand _ _ _ _ => inferInstanceAs (Decidable True)
  | .checkTimeout _ _ _ => inferInstanceAs (Decidable True)

/-- What should hold of a run. -/
structure Correct (s : Sender P N) (es : List (Event P N)) : Prop where
  /-- each command is sent again at most three times on each channel, with the numbers 1, 2, 3 -/
  retries : ∀ t c, ∃ k : ℕ, k ≤ RETRIES ∧ (run step s es).confirmations t c = numbers k
  /-- each acknowledgement is taken for a command that awaits one -/
  matched : Always step (onAck Matched) s es
  /-- two acknowledgements for the two commands that await one: both have one then -/
  both : ∀ pre ack ack' channel post,
    es = pre ++ .commandAck ack channel :: .commandAck ack' channel :: post → ∀ i j, i ≠ j →
    (∀ k, Awaits (run step s pre) ack channel k ↔ k = i ∨ k = j) →
    (∀ k, Awaits (run step s pre) ack' channel k ↔ k = i ∨ k = j) →
    Acknowledged (run step s (pre ++ [.commandAck ack channel, .commandAck ack' channel]))
      ack channel i ∧
    Acknowledged (run step s (pre ++ [.commandAck ack channel, .commandAck ack' channel]))
      ack channel j
  /-- a command that has an acknowledgement on a channel is not sent again there, nor on another
  channel on which it is not forwarded after that -/
  silent : ∀ pre post, es = pre ++ post → ∀ ack channel i,
    Acknowledged (run step s pre) ack channel i → ∀ c,
    (c = channel ∨ (((run step s pre).commands i).value.timestamp_us, c) ∉ forwards post) →
    (run step s es).confirmations ((run step s pre).commands i).value.timestamp_us c =
      (run step s pre).confirmations ((run step s pre).commands i).value.timestamp_us c

theorem Acknowledged.settled (h : Acknowledged s ack channel i) (hcounts : Counts s F) (c : Fin N) :
    Settled (s.commands i).value.timestamp_us c s := by
  intro j hj htimestamp
  obtain rfl := hcounts.distinct j i hj h.active htimestamp
  exact .inl ⟨channel, h.acknowledged⟩

theorem Acknowledged.forwarded (h : Acknowledged s ack channel i) (hcounts : Counts s F) :
    ((s.commands i).value.timestamp_us, channel) ∈ F := by
  have hsent : (s.commands i).value.num_sent_per_channel channel ≠ -1 := by
    rw [h.acknowledged]
    decide
  exact ((hcounts.items i h.active channel).resolve_left hsent).1

/-- A run is correct exactly if no acknowledgement comes in while a command that has one stands in
front of all those that await one. -/
theorem retransmission_correct_iff (item : CommandItem P N) (es : List (Event P N))
    (hes : ForwardedOnce es) :
    Correct (initial item) es ↔ Always step (onAck InFront) (initial item) es := by
  have hiff : Always step (onAck Matched) (initial item) es ↔
      Always step (onAck InFront) (initial item) es := by
    refine always_iff_of_invariant (I := fun _ => True) (fun s e _ => ?_) (fun _ _ _ _ => trivial)
      trivial
    cases e with
    | vehicleCommand => exact Iff.rfl
    | commandAck => exact matched_iff_inFront
    | checkTimeout => exact Iff.rfl
  have hcounts (pre post) (heq : es = pre ++ post) :
      Counts (run step (initial item) pre) (forwards pre) := by
    rw [ForwardedOnce, heq, forwards_append] at hes
    exact (counts_initial item).run pre (List.nodup_append.1 hes).1
  refine ⟨fun h => hiff.1 h.matched, fun h => ⟨?_, hiff.2 h, ?_, ?_⟩⟩
  · intro t c
    have hend := hcounts es [] (List.append_nil es).symm
    exact ⟨_, Int.ofNat_le.2 (hend.le t c), hend.numbered t c⟩
  · rintro pre ack ack' channel post rfl i j hij hawaits hawaits'
    obtain ⟨-, hmatched, hmatched', -⟩ := (always_append _ _ _).1 (hiff.2 h)
    rw [run_append]
    exact acknowledged_of_matched hij hawaits hawaits' hmatched hmatched'
  · rintro pre post rfl ack channel i hack c hc
    have hpre := hcounts pre post rfl
    rw [ForwardedOnce, forwards_append] at hes
    rw [run_append]
    refine (hack.settled hpre c).run hpre post hes ?_
    rcases hc with rfl | hc
    · exact fun hpost =>
        List.disjoint_of_nodup_append hes (hack.forwarded hpre) hpost
    · exact hc

def emptyItem : CommandItem Unit 4 := ⟨⟨0, 0, 0, 0, ()⟩, 0, 0, fun _ => -1⟩

def forwardAt (timestamp : UInt64) (command : UInt32) : Event Unit 4 :=
  .vehicleCommand ⟨timestamp, command, 0, 0, 0, ()⟩ (Fin.last 3) timestamp timestamp

def ackOf (command : UInt16) : Event Unit 4 := .commandAck ⟨command, 1, 1⟩ (Fin.last 3)

/-- Two different commands and their acknowledgements. -/
theorem correct_two_commands :
    Correct (initial emptyItem) [forwardAt 1 400, forwardAt 2 401, ackOf 400, ackOf 401] :=
  (retransmission_correct_iff emptyItem _ (by unfold ForwardedOnce; decide)).2 (by decide)

/-- Two equal commands: both acknowledgements are taken for the first of them. -/
theorem second_ack_lost :
    ¬ ∀ es : List (Event Unit 4), ForwardedOnce es → Correct (initial emptyItem) es := by
  intro hclaim
  have hcorrect := hclaim [forwardAt 1 400, forwardAt 2 400, ackOf 400, ackOf 400]
    (by unfold ForwardedOnce; decide)
  obtain ⟨-, hsecond⟩ := hcorrect.both [forwardAt 1 400, forwardAt 2 400] ⟨400, 1, 1⟩ ⟨400, 1, 1⟩
    (Fin.last 3) [] rfl 0 1 (by decide) (by decide) (by decide)
  exact absurd hsecond (by decide)

end CommandSender
