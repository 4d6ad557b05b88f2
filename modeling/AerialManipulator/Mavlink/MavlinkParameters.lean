/-
Changed parameters are sent to the ground.

`send_untransmitted` reads `parameter_update`, which is published when a parameter has been changed,
and then goes through all parameters and sends those that are unsaved.  The sweep takes as many
calls as the link needs, and an update that is read while it is going on does not start it again; a
parameter that could not be sent is passed all the same.

`unsent` and `unpublished` are no variables of the code: they say which parameters have been changed
and not sent since, and that a change has not been followed by an update yet.

* `Covered` — the sweep has yet to come to the parameters that are unsent;
* **`changes_notified`** — when no sweep is going on and no update is unread, no used parameter is
  unsent, in every run in which updates that are read in a sweep are for parameters ahead of it, and
  no unsent parameter is passed;
* **`overtaken_change`** — the change of a parameter that has been passed.
-/
import AerialManipulator.Param.Unsaved

open Param

namespace MavlinkParameters

variable {F : Type}

/-- `MAVLINK_MSG_ID_PARAM_VALUE_LEN` and `MAVLINK_NUM_NON_PAYLOAD_BYTES`. -/
structure Lengths where
  value : ℕ
  non_payload : ℕ

def Lengths.size (len : Lengths) : ℕ := len.value + len.non_payload

/-- `mavlink_param_value_t`. -/
structure ParamValue (F : Type) where
  param_value : Value F
  param_count : UInt16
  param_index : UInt16
  param_id : List UInt8
  param_type : ParamType

/-- A message, and the component that it is sent for if that is not the default one. -/
structure Packet (F : Type) where
  value : ParamValue F
  component_id : Option ℤ

def used (t : Table F) (s : Store F) (p : Handle) : Bool :=
  decide (t.handleInRange p) && s.params_active p

def paramCountUsed (t : Table F) (s : Store F) : ℕ :=
  (List.range t.paramInfoCount).countP s.params_active

def paramGetUsedIndex (t : Table F) (s : Store F) (p : Handle) : ℤ :=
  if used t s p then (List.range p).countP s.params_active else -1

/-- `send_param`, with the free space in the buffer; `none` is `PARAM_INVALID`.  The name is copied
by `strncpy`, up to 16 characters. -/
def sendParam (len : Lengths) (t : Table F) (s : Store F) (free_tx_buf : ℕ) (param : Option Handle)
    (component_id : ℤ) : Except ℕ (Packet F) :=
  match param with
  | none => .error 1
  | some p =>
    if free_tx_buf < len.value then .error 1
    else
      match s.get t p with
      | none => .error 2
      | some v => .ok {
          value := {
            param_value := v
            param_count := .ofNat (paramCountUsed t s)
            param_index := .ofInt (paramGetUsedIndex t s p)
            param_id := ((t.paramName p).getD []).take 16
            param_type := (t.paramType p).getD .FLOAT }
          component_id := if component_id < 0 then none else some component_id }

/-- `MavlinkParametersManager` and the parameters.  `update` is the time of the last
`parameter_update` if it has not been read, `last_update` belongs to the subscription. -/
structure Manager (F : Type) where
  store : Store F
  update : Option UInt64
  last_update : UInt64
  param_update_time : UInt64
  param_update_index : ℕ
  sent : List (Packet F)
  unsent : Handle → Bool
  unpublished : Bool

/-- What a call of `send_untransmitted` meets: the readings of the clock, and in each turn of the
loop the free space in `send_param` and at the end of the turn, and `radio_status_critical`. -/
structure Call where
  checked : UInt64
  copied : UInt64
  now : UInt64
  free_tx_buf : ℕ → ℕ
  free_after : ℕ → ℕ
  critical : ℕ → Bool

/-- The interval of the subscription, `1_s`. -/
def INTERVAL_US : UInt64 := 1000000

def constrain (val min_val max_val : UInt64) : UInt64 :=
  if val < min_val then min_val else if max_val < val then max_val else val

namespace Manager

/-- `SubscriptionInterval::updated`; what is unread has been advertised. -/
def updated (m : Manager F) (call : Call) : Bool :=
  m.update.isSome && INTERVAL_US ≤ call.checked - m.last_update

/-- The update is copied, and a sweep scheduled if that is not already the case. -/
def receive (m : Manager F) (call : Call) : Manager F :=
  if m.updated call then
    { m with
      update := none
      last_update :=
        constrain (m.last_update + INTERVAL_US) (call.copied - INTERVAL_US) call.copied
      param_update_time :=
        if m.param_update_time = 0 then m.update.getD 0 else m.param_update_time
      param_update_index := if m.param_update_time = 0 then 0 else m.param_update_index }
  else m

end Manager

/-- The first used parameter among the `n` from an index on, or the index behind them. -/
def firstUsed (used : Handle → Bool) : ℕ → ℕ → ℕ
  | 0, index => index
  | n + 1, index => if used index then index else firstUsed used n (index + 1)

namespace Manager

/-- The parameter that the sweep comes to, or the number of parameters if there is none. -/
def next (t : Table F) (m : Manager F) : ℕ :=
  firstUsed (used t m.store) (t.paramInfoCount - m.param_update_index) m.param_update_index

/-- One turn of the loop: what becomes of the manager, whether a parameter was to be sent, and
whether that has failed. -/
def turn (len : Lengths) (t : Table F) (free_tx_buf : ℕ) (m : Manager F) :
    Manager F × Bool × Bool :=
  let param := m.next t
  let m' := { m with param_update_index := param + 1 }
  if param < t.paramInfoCount ∧ m.store.valueUnsaved param = true then
    match sendParam len t m.store free_tx_buf (some param) (-1) with
    | .ok packet =>
      ({ m' with
          sent := m.sent ++ [packet]
          unsent := Function.update m.unsent param false }, true, false)
    | .error _ => (m', true, true)
  else (m', false, false)

def goesOn (len : Lengths) (t : Table F) (call : Call) (n : ℕ) (m : Manager F) : Bool :=
  len.size ≤ call.free_after n && !call.critical n && m.param_update_index < t.paramInfoCount

/-- The loop, from the `n`-th turn on, and `sent_one`. -/
def sweep (len : Lengths) (t : Table F) (call : Call) :
    ℕ → ℕ → Manager F → Bool → Option (Manager F × Bool)
  | 0, _, _, _ => none
  | fuel + 1, n, m, sent_one =>
    match m.turn len t (call.free_tx_buf n) with
    | (m, sent, failed) =>
      if !failed && m.goesOn len t call n then
        sweep len t call fuel (n + 1) m (sent_one || sent)
      else some (m, sent_one || sent)

def due (m : Manager F) (call : Call) : Bool :=
  m.param_update_time ≠ 0 && m.param_update_time + 5 * 1000 < call.now

def finish (t : Table F) (m : Manager F) : Manager F :=
  if t.paramInfoCount ≤ m.param_update_index then { m with param_update_time := 0 } else m

def sendUntransmitted (len : Lengths) (t : Table F) (call : Call) (m : Manager F) :
    Option (Manager F × Bool) :=
  if (m.receive call).due call then
    ((m.receive call).sweep len t call (t.paramInfoCount + 1) 0 false).map fun r =>
      (r.1.finish t, r.2)
  else some (m.receive call, false)

end Manager

/-- A parameter is set, `param_notify_changes`, or a call of `send_untransmitted`. -/
inductive Event (F : Type)
  | set (now : UInt64) (p : Handle) (val : Word F)
  | publish (timestamp : UInt64)
  | send (call : Call)

def Manager.change [Floats F] (t : Table F) (now : UInt64) (p : Handle) (val : Word F)
    (m : Manager F) : Manager F :=
  match m.store.setInternal t now p (some val) false with
  | (store, true) =>
    { m with store := store, unsent := Function.update m.unsent p true, unpublished := true }
  | (store, false) => { m with store := store }

def step [Floats F] (len : Lengths) (t : Table F) (m : Manager F) : Event F → Manager F
  | .set now p val => m.change t now p val
  | .publish timestamp => { m with update := some timestamp, unpublished := false }
  | .send call => ((m.sendUntransmitted len t call).getD (m, false)).1

def initial (store : Store F) : Manager F where
  store := store
  update := none
  last_update := 0
  param_update_time := 0
  param_update_index := 0
  sent := []
  unsent := fun _ => false
  unpublished := false

/-! ### The sweep -/

theorem firstUsed_le (u : Handle → Bool) (n index : ℕ) : index ≤ firstUsed u n index := by
  induction n generalizing index with
  | zero => exact le_rfl
  | succ n ih =>
    rw [firstUsed]
    split
    · exact le_rfl
    · exact (Nat.le_succ index).trans (ih (index + 1))

theorem not_used_of_lt_firstUsed {u : Handle → Bool} {n index p : ℕ} (hle : index ≤ p)
    (hlt : p < firstUsed u n index) : u p = false := by
  induction n generalizing index with
  | zero => exact absurd hlt (Nat.not_lt.2 hle)
  | succ n ih =>
    rw [firstUsed] at hlt
    split at hlt
    · exact absurd hlt (Nat.not_lt.2 hle)
    · next hindex =>
      by_cases heq : index = p
      · rw [← heq]
        exact Bool.eq_false_of_not_eq_true hindex
      · exact ih (by omega) hlt

namespace Manager

variable {len : Lengths} {t : Table F} {m : Manager F} {call : Call}

theorem index_le_next (t : Table F) (m : Manager F) : m.param_update_index ≤ m.next t :=
  firstUsed_le _ _ _

theorem turn_cases (len : Lengths) (t : Table F) (m : Manager F) (free_tx_buf : ℕ) :
    (∃ packet, m.turn len t free_tx_buf =
      ({ m with
          param_update_index := m.next t + 1
          sent := m.sent ++ [packet]
          unsent := Function.update m.unsent (m.next t) false }, true, false)) ∨
    m.turn len t free_tx_buf = ({ m with param_update_index := m.next t + 1 }, true, true) ∨
    (¬ (m.next t < t.paramInfoCount ∧ m.store.valueUnsaved (m.next t) = true) ∧
      m.turn len t free_tx_buf =
        ({ m with param_update_index := m.next t + 1 }, false, false)) := by
  unfold turn
  dsimp only
  by_cases hsend : m.next t < t.paramInfoCount ∧ m.store.valueUnsaved (m.next t) = true
  · rw [if_pos hsend]
    cases sendParam len t m.store free_tx_buf (some (m.next t)) (-1) with
    | ok packet => exact .inl ⟨packet, rfl⟩
    | error _ => exact .inr (.inl rfl)
  · rw [if_neg hsend]
    exact .inr (.inr ⟨hsend, rfl⟩)

theorem turn_index (len : Lengths) (t : Table F) (m : Manager F) (free_tx_buf : ℕ) :
    (m.turn len t free_tx_buf).1.param_update_index = m.next t + 1 := by
  rcases turn_cases len t m free_tx_buf with ⟨packet, heq⟩ | heq | ⟨-, heq⟩
  · rw [heq]
  · rw [heq]
  · rw [heq]

/-- What a turn does not change. -/
structure Same (m m' : Manager F) : Prop where
  store : m'.store = m.store
  update : m'.update = m.update
  param_update_time : m'.param_update_time = m.param_update_time
  unpublished : m'.unpublished = m.unpublished

theorem same_turn (len : Lengths) (t : Table F) (m : Manager F) (free_tx_buf : ℕ) :
    m.Same (m.turn len t free_tx_buf).1 := by
  rcases turn_cases len t m free_tx_buf with ⟨packet, heq⟩ | heq | ⟨-, heq⟩
  · rw [heq]
    exact ⟨rfl, rfl, rfl, rfl⟩
  · rw [heq]
    exact ⟨rfl, rfl, rfl, rfl⟩
  · rw [heq]
    exact ⟨rfl, rfl, rfl, rfl⟩

theorem sweep_succ (fuel n : ℕ) (m : Manager F) (sent_one : Bool) :
    m.sweep len t call (fuel + 1) n sent_one =
      if !(m.turn len t (call.free_tx_buf n)).2.2 &&
          (m.turn len t (call.free_tx_buf n)).1.goesOn len t call n then
        (m.turn len t (call.free_tx_buf n)).1.sweep len t call fuel (n + 1)
          (sent_one || (m.turn len t (call.free_tx_buf n)).2.1)
      else some ((m.turn len t (call.free_tx_buf n)).1,
        sent_one || (m.turn len t (call.free_tx_buf n)).2.1) := rfl

theorem sweep_isSome (fuel n : ℕ) (m : Manager F) (sent_one : Bool) (hpos : 0 < fuel)
    (hfuel : t.paramInfoCount < m.param_update_index + fuel) :
    (m.sweep len t call fuel n sent_one).isSome := by
  induction fuel generalizing n m sent_one with
  | zero => exact absurd hpos (Nat.lt_irrefl 0)
  | succ fuel ih =>
    have hindex := turn_index len t m (call.free_tx_buf n)
    have hle := index_le_next t m
    rw [sweep_succ]
    split
    · next hgoes =>
      unfold goesOn at hgoes
      simp only [Bool.and_eq_true, decide_eq_true_eq] at hgoes
      exact ih (n + 1) _ _ (by omega) (by omega)
    · rfl

theorem sendUntransmitted_isSome (len : Lengths) (t : Table F) (call : Call) (m : Manager F) :
    (m.sendUntransmitted len t call).isSome := by
  unfold sendUntransmitted
  split
  · rw [Option.isSome_map]
    exact sweep_isSome _ 0 _ false (by omega) (by omega)
  · rfl

/-- The parameters that are used and unsent are ahead of the sweep. -/
def Ahead (t : Table F) (m : Manager F) : Prop :=
  ∀ p, used t m.store p = true → m.unsent p = true → m.param_update_index ≤ p

/-- In the sweep of a call, no parameter is unsent when `send_param` fails for it. -/
def Lossless (len : Lengths) (t : Table F) (call : Call) : ℕ → ℕ → Manager F → Prop
  | 0, _, _ => True
  | fuel + 1, n, m =>
    ((m.turn len t (call.free_tx_buf n)).2.2 = true → m.unsent (m.next t) = false) ∧
      ((m.turn len t (call.free_tx_buf n)).2.2 = false →
        (m.turn len t (call.free_tx_buf n)).1.goesOn len t call n = true →
        Lossless len t call fuel (n + 1) (m.turn len t (call.free_tx_buf n)).1)

instance decidableLossless (len : Lengths) (t : Table F) (call : Call) :
    ∀ fuel n m, Decidable (Lossless len t call fuel n m)
  | 0, _, _ => inferInstanceAs (Decidable True)
  | fuel + 1, n, m =>
    have := decidableLossless len t call fuel (n + 1) (m.turn len t (call.free_tx_buf n)).1
    inferInstanceAs (Decidable ((_ = true → _ = false) ∧ (_ = false → _ = true → _)))

/-- Unsent parameters are unsaved, as nothing is saved. -/
def Unsaved (m : Manager F) : Prop := ∀ p, m.unsent p = true → m.store.valueUnsaved p = true

/-- What is unsent after a turn was unsent before, and is another parameter unless `send_param` has
failed. -/
theorem turn_unsent (hunsaved : m.Unsaved) {free_tx_buf : ℕ} {p : Handle}
    (h : (m.turn len t free_tx_buf).1.unsent p = true) :
    m.unsent p = true ∧
      (p < t.paramInfoCount → p = m.next t → (m.turn len t free_tx_buf).2.2 = true) := by
  rcases turn_cases len t m free_tx_buf with ⟨packet, heq⟩ | heq | ⟨hnot, heq⟩
  · rw [heq] at h
    dsimp only at h
    by_cases hp : p = m.next t
    · rw [hp, Function.update_self] at h
      exact nomatch h
    · rw [Function.update_of_ne hp] at h
      exact ⟨h, fun _ hp' => absurd hp' hp⟩
  · rw [heq] at h ⊢
    exact ⟨h, fun _ _ => rfl⟩
  · rw [heq] at h
    refine ⟨h, ?_⟩
    rintro hlt rfl
    exact absurd ⟨hlt, hunsaved _ h⟩ hnot

theorem Ahead.turn (h : m.Ahead t) (hunsaved : m.Unsaved) {free_tx_buf : ℕ}
    (hlossless : (m.turn len t free_tx_buf).2.2 = true → m.unsent (m.next t) = false) :
    (m.turn len t free_tx_buf).1.Ahead t := by
  intro p hused hunsent
  rw [(same_turn len t m free_tx_buf).store] at hused
  have hp : p < t.paramInfoCount := by
    simp only [used, Bool.and_eq_true, decide_eq_true_eq] at hused
    exact hused.1
  obtain ⟨hbefore, hfail⟩ := turn_unsent hunsaved hunsent
  have hindex := h p hused hbefore
  rw [turn_index]
  -- what is passed is not used, and what `send_param` fails for is not unsent
  have hnext : m.next t ≤ p := by
    by_contra hlt
    have hnot := not_used_of_lt_firstUsed hindex (Nat.not_le.1 hlt)
    exact Bool.eq_false_iff.1 hnot hused
  have hne : p ≠ m.next t := by
    rintro rfl
    exact Bool.eq_false_iff.1 (hlossless (hfail hp rfl)) hbefore
  exact Nat.lt_of_le_of_ne hnext hne.symm

theorem Unsaved.turn (h : m.Unsaved) (len : Lengths) (t : Table F) (free_tx_buf : ℕ) :
    (m.turn len t free_tx_buf).1.Unsaved := by
  intro p hp
  rw [(same_turn len t m free_tx_buf).store]
  exact h p (turn_unsent h hp).1

theorem Same.trans {m₁ m₂ m₃ : Manager F} (h : m₁.Same m₂) (h' : m₂.Same m₃) : m₁.Same m₃ :=
  ⟨h'.store.trans h.store, h'.update.trans h.update,
    h'.param_update_time.trans h.param_update_time, h'.unpublished.trans h.unpublished⟩

theorem sweep_spec (fuel n : ℕ) (m : Manager F) (sent_one : Bool) (hunsaved : m.Unsaved)
    {r : Manager F × Bool} (hr : m.sweep len t call fuel n sent_one = some r) :
    m.Same r.1 ∧ r.1.Unsaved ∧ (m.Ahead t → m.Lossless len t call fuel n → r.1.Ahead t) := by
  induction fuel generalizing n m sent_one with
  | zero => exact nomatch hr
  | succ fuel ih =>
    have hsame := same_turn len t m (call.free_tx_buf n)
    have hunsaved' := hunsaved.turn len t (call.free_tx_buf n)
    rw [sweep_succ] at hr
    split at hr
    · next hgoes =>
      rw [Bool.and_eq_true, Bool.not_eq_true'] at hgoes
      obtain ⟨hrest, hkept, hahead⟩ := ih (n + 1) _ _ hunsaved' hr
      exact ⟨hsame.trans hrest, hkept, fun h hlossless =>
        hahead (h.turn hunsaved hlossless.1) (hlossless.2 hgoes.1 hgoes.2)⟩
    · cases hr
      exact ⟨hsame, hunsaved', fun h hlossless => h.turn hunsaved hlossless.1⟩

/-! ### Calls -/

/-- A change is yet to be noticed: there is an unread update, or there will be one. -/
def Owed (m : Manager F) : Prop := m.update ≠ none ∨ m.unpublished = true

/-- The update that is read is for parameters ahead of the sweep, or starts one. -/
def ReadsInOrder (t : Table F) (m : Manager F) (call : Call) : Prop :=
  m.updated call = true →
    if m.param_update_time = 0 then m.update ≠ some 0
    else ∀ p < m.param_update_index, used t m.store p = true → m.unsent p = false

instance (m : Manager F) : Decidable m.Owed := inferInstanceAs (Decidable (_ ∨ _))

instance (t : Table F) (m : Manager F) (call : Call) : Decidable (m.ReadsInOrder t call) :=
  inferInstanceAs (Decidable (m.updated call = true →
    if m.param_update_time = 0 then m.update ≠ some 0
    else ∀ p < m.param_update_index, used t m.store p = true → m.unsent p = false))

/-- The sweep has yet to come to the used parameters that are unsent, unless a change is yet to be
noticed. -/
def Covered (t : Table F) (m : Manager F) : Prop :=
  m.Owed ∨ ∀ p, used t m.store p = true → m.unsent p = true →
    m.param_update_time ≠ 0 ∧ m.param_update_index ≤ p

/-- When there is nothing left to do, all used parameters have been sent since they were changed. -/
def Notified (t : Table F) (m : Manager F) : Prop :=
  m.param_update_time = 0 → ¬ m.Owed → ∀ p, used t m.store p = true → m.unsent p = false

theorem Covered.notified (h : m.Covered t) : m.Notified t := by
  intro htime howed p hused
  rcases h with h | h
  · exact absurd h howed
  · cases hunsent : m.unsent p with
    | false => rfl
    | true => exact absurd htime (h p hused hunsent).1

theorem receive_of_updated (h : m.updated call = true) :
    (m.receive call).update = none ∧ (m.receive call).store = m.store ∧
      (m.receive call).unsent = m.unsent ∧ (m.receive call).unpublished = m.unpublished ∧
      (m.receive call).param_update_time =
        (if m.param_update_time = 0 then m.update.getD 0 else m.param_update_time) ∧
      (m.receive call).param_update_index =
        if m.param_update_time = 0 then 0 else m.param_update_index := by
  unfold receive
  rw [if_pos h]
  exact ⟨rfl, rfl, rfl, rfl, rfl, rfl⟩

theorem receive_of_not_updated (h : ¬ m.updated call = true) : m.receive call = m := if_neg h

theorem Unsaved.receive (h : m.Unsaved) : (m.receive call).Unsaved := by
  by_cases hupdated : m.updated call = true
  · obtain ⟨-, hstore, hunsent, -⟩ := receive_of_updated hupdated
    intro p hp
    rw [hunsent] at hp
    rw [hstore]
    exact h p hp
  · rwa [receive_of_not_updated hupdated]

theorem Covered.receive (h : m.Covered t) (hread : m.ReadsInOrder t call) :
    (m.receive call).Covered t := by
  by_cases hupdated : m.updated call = true
  · obtain ⟨-, hstore, hunsent, -, htime, hindex⟩ := receive_of_updated hupdated
    right
    intro p hused hp
    rw [hstore] at hused
    rw [hunsent] at hp
    have hread := hread hupdated
    rw [htime, hindex]
    split at hread
    · next hzero =>
      rw [if_pos hzero, if_pos hzero]
      refine ⟨?_, Nat.zero_le p⟩
      cases hupdate : m.update with
      | none =>
        rw [updated, hupdate] at hupdated
        exact nomatch hupdated
      | some timestamp =>
        rintro rfl
        exact hread hupdate
    · next hpending =>
      rw [if_neg hpending, if_neg hpending]
      refine ⟨hpending, ?_⟩
      by_contra hlt
      exact Bool.eq_false_iff.1 (hread p (Nat.not_le.1 hlt) hused) hp
  · rwa [receive_of_not_updated hupdated]

theorem Unsaved.finish (h : m.Unsaved) : (m.finish t).Unsaved := by
  unfold Manager.finish
  split
  · exact h
  · exact h

theorem owed_finish : (m.finish t).Owed ↔ m.Owed := by
  unfold Manager.finish Owed
  split
  · exact Iff.rfl
  · exact Iff.rfl

theorem Same.owed {m' : Manager F} (h : m.Same m') : m'.Owed ↔ m.Owed := by
  unfold Owed
  rw [h.update, h.unpublished]

theorem Ahead.finish (h : m.Ahead t) (htime : m.param_update_time ≠ 0) :
    (m.finish t).Covered t := by
  unfold Manager.finish
  split
  · next hend =>
    refine .inr fun p hused hp => ?_
    have hindex := h p hused hp
    simp only [used, Bool.and_eq_true, decide_eq_true_eq] at hused
    exact absurd (hend.trans hindex) (Nat.not_le.2 hused.1)
  · exact .inr fun p hused hp => ⟨htime, h p hused hp⟩

/-- The condition on a call: a change is noticed later, or the update is read in order and the sweep
loses nothing. -/
def Keeps (len : Lengths) (t : Table F) (m : Manager F) (call : Call) : Prop :=
  (m.receive call).Owed ∨ m.ReadsInOrder t call ∧
    ((m.receive call).due call = true →
      (m.receive call).Lossless len t call (t.paramInfoCount + 1) 0)

theorem receive_store (m : Manager F) (call : Call) : (m.receive call).store = m.store := by
  by_cases h : m.updated call = true
  · exact (receive_of_updated h).2.1
  · rw [receive_of_not_updated h]

theorem sendUntransmitted_store (hunsaved : m.Unsaved) {r : Manager F × Bool}
    (hr : m.sendUntransmitted len t call = some r) : r.1.store = m.store := by
  unfold Manager.sendUntransmitted at hr
  split at hr
  · obtain ⟨r', hsweep, rfl⟩ := Option.map_eq_some_iff.1 hr
    obtain ⟨hsame, -⟩ := sweep_spec _ 0 _ false hunsaved.receive hsweep
    have hfinish : (r'.1.finish t).store = r'.1.store := by
      unfold Manager.finish
      split
      · rfl
      · rfl
    rw [hfinish, hsame.store, receive_store]
  · cases hr
    exact receive_store m call

instance (len : Lengths) (t : Table F) (m : Manager F) (call : Call) :
    Decidable (m.Keeps len t call) := inferInstanceAs (Decidable (_ ∨ _ ∧ (_ → _)))

theorem Covered.sendUntransmitted (h : m.Covered t) (hunsaved : m.Unsaved)
    (hkeeps : m.Keeps len t call) {r : Manager F × Bool}
    (hr : m.sendUntransmitted len t call = some r) : r.1.Covered t ∧ r.1.Unsaved := by
  have hcovered : (m.receive call).Covered t := by
    rcases hkeeps with howed | ⟨hread, -⟩
    · exact .inl howed
    · exact h.receive hread
  have hreceived : (m.receive call).Unsaved := hunsaved.receive
  unfold Manager.sendUntransmitted at hr
  split at hr
  · next hdue =>
    obtain ⟨r', hsweep, rfl⟩ := Option.map_eq_some_iff.1 hr
    obtain ⟨hsame, hunsaved', hahead⟩ := sweep_spec _ 0 _ false hreceived hsweep
    refine ⟨?_, hunsaved'.finish⟩
    rcases hcovered with howed | hcovered
    · exact .inl (owed_finish.2 (hsame.owed.2 howed))
    · rcases hkeeps with howed | ⟨-, hlossless⟩
      · exact .inl (owed_finish.2 (hsame.owed.2 howed))
      · refine (hahead (fun p hused hp => (hcovered p hused hp).2) (hlossless hdue)).finish ?_
        rw [hsame.param_update_time]
        rw [due, Bool.and_eq_true, decide_eq_true_eq] at hdue
        exact hdue.1
  · cases hr
    exact ⟨hcovered, hreceived⟩

end Manager

/-! ### Runs -/

section Runs

variable [Floats F] {len : Lengths} {t : Table F} {m : Manager F}

/-- The condition on an event. -/
def Keeps (len : Lengths) (t : Table F) (m : Manager F) : Event F → Prop
  | .send call => m.Keeps len t call
  | .set _ _ _ => True
  | .publish _ => True

instance (len : Lengths) (t : Table F) (m : Manager F) : ∀ e, Decidable (Keeps len t m e)
  | .send call => inferInstanceAs (Decidable (m.Keeps len t call))
  | .set _ _ _ => inferInstanceAs (Decidable True)
  | .publish _ => inferInstanceAs (Decidable True)

/-- The invariant. -/
structure Inv (t : Table F) (m : Manager F) : Prop where
  store : m.store.changed.Ok
  unsaved : m.Unsaved
  covered : m.Covered t

theorem Inv.change (h : Inv t m) (now : UInt64) (p : Handle) (val : Word F) :
    Inv t (m.change t now p val) := by
  unfold Manager.change
  cases htype : t.paramType p with
  | none =>
    rw [Store.setInternal_fail now false (.inl htype)]
    exact h
  | some type =>
    obtain ⟨hok, hs', hentry, -, -⟩ := Store.setInternal_spec h.store htype now val false
    generalize m.store.setInternal t now p (some val) false = r at hok hs' hentry ⊢
    obtain ⟨store, ok⟩ := r
    obtain rfl : ok = true := hok
    refine ⟨hs', fun q hq => ?_, .inl (.inr rfl)⟩
    dsimp only at hs' hentry hq ⊢
    rw [valueUnsaved_eq hs', hentry]
    by_cases hqp : q = p
    · rw [if_pos hqp]
      rfl
    · rw [if_neg hqp, ← valueUnsaved_eq h.store]
      rw [Function.update_of_ne hqp] at hq
      exact h.unsaved q hq

theorem Inv.send (h : Inv t m) {call : Call} (hkeeps : m.Keeps len t call) :
    Inv t (step len t m (.send call)) := by
  obtain ⟨r, hr⟩ :=
    Option.isSome_iff_exists.1 (Manager.sendUntransmitted_isSome len t call m)
  have hstep : MavlinkParameters.step len t m (.send call) = r.1 := by
    change ((m.sendUntransmitted len t call).getD (m, false)).1 = r.1
    rw [hr, Option.getD_some]
  obtain ⟨hcovered, hunsaved⟩ := h.covered.sendUntransmitted h.unsaved hkeeps hr
  rw [hstep]
  refine ⟨?_, hunsaved, hcovered⟩
  rw [Manager.sendUntransmitted_store h.unsaved hr]
  exact h.store

theorem Inv.step (h : Inv t m) {e : Event F} (hkeeps : Keeps len t m e) :
    Inv t (step len t m e) := by
  cases e with
  | set now p val => exact h.change now p val
  | publish timestamp => exact ⟨h.store, h.unsaved, .inl (.inl (Option.some_ne_none timestamp))⟩
  | send call => exact h.send hkeeps

end Runs

/-- In every state of a run in which each call keeps what is unsent ahead of the sweep: when no
sweep is going on and no update is unread or still to be published, each used parameter has been
sent since it was changed. -/
theorem changes_notified [Doubles F] (len : Lengths) (t : Table F) (platform : Platform)
    (acts : List (Action F)) (es : List (Event F))
    (hkeeps : Trace.Always (step len t) (Keeps len t) (initial (reached t platform acts)) es) :
    ∀ pre post, es = pre ++ post →
      (Trace.run (step len t) (initial (reached t platform acts)) pre).Notified t := by
  rintro pre post rfl
  have hinit : Inv t (initial (reached t platform acts)) :=
    ⟨(valid_reached t platform acts).changed, fun _ h => absurd h Bool.false_ne_true,
      .inr fun _ _ h => nomatch h⟩
  obtain ⟨hpre, -⟩ := (Trace.always_append _ _ _).1 hkeeps
  exact (Trace.run_of_invariant (fun _ _ h he => h.step he) hinit hpre).covered.notified

namespace Sample

open Param.Sample

def lengths : Lengths := ⟨25, 12⟩

def actions : List (Action Param.Sample) :=
  [.op (.find (bytes "CAL_ACC0_ID")), .op (.find (bytes "SENS_BOARD_X_OFF"))]

def callAt (now : UInt64) (free_after : ℕ) : Call :=
  ⟨now, now, now, fun _ => 100, fun _ => free_after, fun _ => false⟩

def changeFirst : Event Param.Sample := .set 0 0 ⟨1, one⟩

theorem change_notified :
    (Trace.run (step lengths table) (initial (reached table ⟨true, true⟩ actions))
      [changeFirst, .publish 1, .send (callAt 2000000 100)]).Notified table :=
  changes_notified lengths table ⟨true, true⟩ actions
    [changeFirst, .publish 1, .send (callAt 2000000 100)] (by decide +kernel) _ []
    (List.append_nil _).symm

/-- The first parameter is changed again when the sweep has passed it: it is not sent any more. -/
theorem overtaken_change :
    ¬ ∀ es : List (Event Param.Sample),
      (Trace.run (step lengths table) (initial (reached table ⟨true, true⟩ actions)) es).Notified
        table := by
  intro hclaim
  have hnotified := hclaim [changeFirst, .publish 1, .send (callAt 2000000 0), changeFirst,
    .publish 3000000, .send (callAt 4000000 100)]
  exact absurd (hnotified (by decide +kernel) (by decide +kernel) 0 (by decide +kernel))
    (by decide +kernel)

end Sample

end MavlinkParameters
