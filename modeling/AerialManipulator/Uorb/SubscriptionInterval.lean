/-
A subscription that reports updates at a limited rate.

`uORB::SubscriptionInterval` keeps the time of the last update, in steps of the interval: a late
update moves it by one interval only, so that the lateness is made up for, but it never falls
further behind than one interval.  The subtraction is unsigned, though: a `copy` before the clock
has reached the interval moves the time to the far end of the counter.

* `System.Invariant.copy_advances` — a copy of a topic with updates gives a message that was not
  given before;
* `Ordered.step` — the rate, as long as the subtraction does not wrap;
* **`limited_run`** — the rate in a whole run, and when it does wrap.
-/
import AerialManipulator.Math
import AerialManipulator.Uorb.DeviceNode

namespace uORB

open Trace

/-- `_subscription` is the only subscriber that is looked at; its node and what was written there
are those of `System`.  `node_exists` and `node_advertised` are the node's, for others to change. -/
structure SubscriptionInterval (M : Type*) where
  subscription : System Unit M
  node_exists : Bool
  node_advertised : Bool
  last_update : UInt64 := 0
  interval_us : UInt32

namespace SubscriptionInterval

variable {M : Type*}

def subscribe (s : SubscriptionInterval M) : SubscriptionInterval M :=
  if (s.subscription.sub ()).isSome then s
  else if s.node_exists then { s with subscription := s.subscription.step (.subscribe ()) }
  else s

/-- `advertised`, once it has tried to subscribe. -/
def advertised (s : SubscriptionInterval M) : Bool :=
  (s.subscription.sub ()).isSome && s.node_advertised

/-- `updatesAvailable(_last_generation)`. -/
def updatesAvailable (s : SubscriptionInterval M) : Bool :=
  match s.subscription.sub () with
  | none => false
  | some u => s.subscription.node.updatesAvailable u.generation != 0

/-- `_interval_us` as an operand of 64-bit arithmetic. -/
def interval (s : SubscriptionInterval M) : UInt64 := s.interval_us.toUInt64

/-- `updated`, with what the clock shows. -/
def updated (s : SubscriptionInterval M) (now : UInt64) : SubscriptionInterval M × Bool :=
  let s := s.subscribe
  (s, s.advertised && decide (s.interval ≤ now - s.last_update) && s.updatesAvailable)

/-- `Subscription::copy`, with the message in place of `dst`. -/
def subscriptionCopy (s : SubscriptionInterval M) : SubscriptionInterval M × Option M :=
  let s := s.subscribe
  if s.advertised then
    match (s.subscription.sub ()).bind fun u => s.subscription.node.copy u.generation with
    | none => (s, none)
    | some (m, _) => ({ s with subscription := s.subscription.step (.copy ()) }, some m)
  else (s, none)

def copy (s : SubscriptionInterval M) (now : UInt64) : SubscriptionInterval M × Option M :=
  match s.subscriptionCopy with
  | (s, none) => (s, none)
  | (s, some m) =>
    ({ s with last_update := math.constrain (s.last_update + s.interval) (now - s.interval) now },
      some m)

/-- `update` reads the clock in `updated`, and once more in `copy`. -/
def update (s : SubscriptionInterval M) (check now : UInt64) : SubscriptionInterval M × Option M :=
  match s.updated check with
  | (s, true) => s.copy now
  | (s, false) => (s, none)

def next (s : SubscriptionInterval M) : ℕ :=
  match s.subscription.sub () with
  | none => 0
  | some u => u.next

end SubscriptionInterval

/-- The message that was given by an `update` and the clock at its beginning and end; the messages
before number `first` had been dealt with before it, and those before `next` are after it. -/
structure Report (M : Type*) where
  check : UInt64
  now : UInt64
  message : M
  first : ℕ
  next : ℕ
  deriving DecidableEq

/-- What happens to a subscription: others publish, create, advertise and unadvertise the node. -/
inductive Call (M : Type*)
  | publish (alloc : Option (ℕ → M)) (buffer : M) (buflen : ℕ)
  | node (exists_ advertised : Bool)
  | updated (now : UInt64)
  | update (check now : UInt64)
  | copy (now : UInt64)

/-- The subscription, the last reading of the clock, and the updates reported so far. -/
structure Limiter (M : Type*) extends SubscriptionInterval M where
  clock : UInt64
  reports : List (Report M) := []

namespace Limiter

variable {M : Type*}

def step (s : Limiter M) : Call M → Limiter M
  | .publish alloc buffer buflen =>
    { s with subscription := s.subscription.step (.write alloc buffer buflen) }
  | .node exists_ advertised =>
    { s with node_exists := s.node_exists || exists_, node_advertised := advertised }
  | .updated now =>
    { s with toSubscriptionInterval := (s.toSubscriptionInterval.updated now).1, clock := now }
  | .update check now =>
    let r := s.toSubscriptionInterval.update check now
    { s with
      toSubscriptionInterval := r.1
      clock := now
      reports := s.reports ++
        (r.2.map fun m => ⟨check, now, m, s.toSubscriptionInterval.next, r.1.next⟩).toList }
  | .copy now =>
    { s with toSubscriptionInterval := (s.toSubscriptionInterval.copy now).1, clock := now }

def init (subscription : System Unit M) (interval_us : UInt32) (clock : UInt64) : Limiter M where
  subscription := subscription
  node_exists := false
  node_advertised := false
  interval_us := interval_us
  clock := clock

/-- The clock does not go back. -/
def Clocked (s : Limiter M) : Call M → Prop
  | .publish _ _ _ | .node _ _ => True
  | .updated now | .copy now => s.clock ≤ now
  | .update check now => s.clock ≤ check ∧ check ≤ now

/-- A `copy` that succeeds finds the clock past the interval. -/
def Late (s : Limiter M) : Call M → Prop
  | .copy now => (s.toSubscriptionInterval.copy now).2 ≠ none →
      s.interval_us.toNat ≤ now.toNat
  | _ => True

/-- A `copy` that succeeds does not find the time of the last update at the end of the counter. -/
def Low (s : Limiter M) : Call M → Prop
  | .copy now => (s.toSubscriptionInterval.copy now).2 ≠ none →
      s.last_update.toNat + s.interval_us.toNat < 2 ^ 64
  | _ => True

instance (s : Limiter M) : ∀ c, Decidable (Clocked s c)
  | .publish _ _ _ | .node _ _ => inferInstanceAs (Decidable True)
  | .updated now | .copy now => inferInstanceAs (Decidable (s.clock ≤ now))
  | .update check now => inferInstanceAs (Decidable (s.clock ≤ check ∧ check ≤ now))

instance [DecidableEq M] (s : Limiter M) : ∀ c, Decidable (Late s c)
  | .publish _ _ _ | .node _ _ | .updated _ | .update _ _ => inferInstanceAs (Decidable True)
  | .copy now => inferInstanceAs (Decidable ((s.toSubscriptionInterval.copy now).2 ≠ none →
      s.interval_us.toNat ≤ now.toNat))

instance [DecidableEq M] (s : Limiter M) : ∀ c, Decidable (Low s c)
  | .publish _ _ _ | .node _ _ | .updated _ | .update _ _ => inferInstanceAs (Decidable True)
  | .copy now => inferInstanceAs (Decidable ((s.toSubscriptionInterval.copy now).2 ≠ none →
      s.last_update.toNat + s.interval_us.toNat < 2 ^ 64))

/-- `n + 1` updates later `n` intervals have passed. -/
def Spaced (T : ℕ) (reports : List (Report M)) : Prop :=
  ∀ k n a b, reports[k]? = some a → reports[k + n + 1]? = some b →
    a.now.toNat + n * T ≤ b.check.toNat

/-- Every update gives a publication that came after all those dealt with before. -/
def Fresh (written : List M) (reports : List (Report M)) : Prop :=
  (∀ r ∈ reports, r.first < r.next ∧ written[r.next - 1]? = some r.message) ∧
    reports.Pairwise fun a b => a.next ≤ b.first

/-- The rate is limited. -/
def Limited (s : Limiter M) : Prop :=
  Spaced s.interval_us.toNat s.reports ∧ Fresh s.subscription.written s.reports ∧
    s.last_update ≤ s.clock

end Limiter

/-! ### A copy moves on -/

namespace System

variable {ι M : Type*} {s : System ι M}

/-- A subscriber's counter stands for one message of the last `2 ^ 32` ones, that it has not been
given. -/
theorem Invariant.exists_number (hs : Invariant s) {i : ι} {u : Subscriber M}
    (hu : s.sub i = some u) :
    ∃ k, u.next ≤ k ∧ k ≤ s.written.length ∧ s.written.length - k < 2 ^ 32 ∧
      u.generation = UInt32.ofNat k := by
  have hle := hs.next_le i u hu
  have hmod := Nat.mod_le (s.lag u) (2 ^ 32)
  refine ⟨s.written.length - s.lag u % 2 ^ 32, ?_, by omega, by omega, ?_⟩
  · unfold lag at hmod ⊢
    omega
  · rw [hs.sub_generation i u hu]
    apply UInt32.toNat_inj.mp
    rw [UInt32.toNat_ofNat', UInt32.toNat_ofNat']
    unfold lag
    omega

theorem Invariant.next_succ (hs : Invariant s) {k : ℕ} (hk : k < s.written.length)
    (hlt : s.written.length - (k + 1) < 2 ^ 32) : s.next (UInt32.ofNat k + 1) = k + 1 := by
  have hsucc : UInt32.ofNat k + 1 = UInt32.ofNat (k + 1) := by
    rw [UInt32.ofNat_add]
    rfl
  rw [hsucc, hs.next_ofNat hk hlt]

/-- What a successful `copy` leaves as the next message, and what it returns if there is an
update. -/
theorem Invariant.copy_advances (hs : Invariant s) {i : ι} {u : Subscriber M}
    (hu : s.sub i = some u) {m : M} {g : UInt32} (hcopy : s.node.copy u.generation = some (m, g)) :
    u.next ≤ s.next g ∧ s.next g ≤ s.written.length ∧
      (s.node.updatesAvailable u.generation ≠ 0 →
        u.next < s.next g ∧ s.written[s.next g - 1]? = some m) := by
  obtain ⟨k, hnext, hk, hlt, hgen⟩ := hs.exists_number hu
  rcases Nat.lt_or_eq_of_le hk with hnew | hend
  · by_cases hnear : s.written.length - k ≤ s.node.q.toNat
    · rw [hgen, hs.copy_of_le hk hlt hnew hnear, Option.some.injEq, Prod.mk.injEq] at hcopy
      obtain ⟨rfl, rfl⟩ := hcopy
      rw [hs.next_succ hnew (by omega), Nat.add_sub_cancel]
      exact ⟨by omega, hnew, fun _ => ⟨by omega, List.getElem?_eq_getElem hnew⟩⟩
    · have hq := s.node.q_pos
      have hq' := s.node.q_le
      have hold : s.written.length - s.node.q.toNat < s.written.length := by omega
      rw [hgen, hs.copy_of_gt hk hlt (by omega), List.getElem?_eq_getElem hold, Option.map_some,
        Option.some.injEq, Prod.mk.injEq] at hcopy
      obtain ⟨rfl, rfl⟩ := hcopy
      rw [hs.next_succ hold (by omega), Nat.add_sub_cancel]
      exact ⟨by omega, hold, fun _ => ⟨by omega, List.getElem?_eq_getElem hold⟩⟩
  · have hnone : s.node.updatesAvailable u.generation = 0 := by
      apply UInt32.toNat_inj.mp
      rw [hgen, hs.updatesAvailable hk, Nat.mod_eq_of_lt hlt, UInt32.toNat_zero]
      omega
    obtain ⟨data, hdata⟩ := DeviceNode.allocated_of_copy hcopy
    rw [DeviceNode.copy_spec hdata, if_pos (by rw [hnone]; rfl), Option.some.injEq,
      Prod.mk.injEq] at hcopy
    obtain ⟨-, rfl⟩ := hcopy
    rw [hgen, hs.next_ofNat hk hlt]
    exact ⟨hnext, hk, fun hsome => absurd (hgen ▸ hnone) hsome⟩

end System

namespace SubscriptionInterval

variable {M : Type*} {s s' s'' : SubscriptionInterval M} {now : UInt64}

/-! ### What a call changes -/

/-- Everything but the time of the last update, which is `last_update` after it. -/
structure Kept (s s' : SubscriptionInterval M) (last_update : UInt64) : Prop where
  invariant : s'.subscription.Invariant
  interval_us : s'.interval_us = s.interval_us
  written : s'.subscription.written = s.subscription.written
  next_le : s.next ≤ s'.next
  last_update : s'.last_update = last_update

theorem Kept.trans {l : UInt64} (h : Kept s s' s.last_update) (h' : Kept s' s'' l) : Kept s s'' l :=
  ⟨h'.invariant, h'.interval_us.trans h.interval_us, h'.written.trans h.written,
    h.next_le.trans h'.next_le, h'.last_update⟩

theorem subscribe_cases (s : SubscriptionInterval M) :
    s.subscribe = s ∨ s.subscription.sub () = none ∧
      s.subscribe = { s with subscription := s.subscription.step (.subscribe ()) } := by
  unfold subscribe
  cases hsub : s.subscription.sub () with
  | some u => exact .inl rfl
  | none =>
    by_cases hnode : s.node_exists = true
    · exact .inr ⟨rfl, if_pos hnode⟩
    · exact .inl (if_neg hnode)

theorem subscribe_kept (hs : s.subscription.Invariant) : Kept s s.subscribe s.last_update := by
  rcases s.subscribe_cases with h | ⟨hsub, h⟩
  · rw [h]
    exact ⟨hs, rfl, rfl, le_refl _, rfl⟩
  · rw [h]
    refine ⟨System.invariant_step hs (.subscribe ()), rfl, rfl, ?_, rfl⟩
    unfold next
    rw [hsub]
    exact Nat.zero_le _

theorem next_of_sub {u : Subscriber M} (hsub : s.subscription.sub () = some u) :
    s.next = u.next := by
  unfold next
  rw [hsub]

theorem subscriptionCopy_cases (s : SubscriptionInterval M) :
    s.subscriptionCopy = (s.subscribe, none) ∨
      ∃ u m g, s.subscribe.subscription.sub () = some u ∧
        s.subscribe.subscription.node.copy u.generation = some (m, g) ∧
        s.subscriptionCopy =
          ({ s.subscribe with subscription := s.subscribe.subscription.step (.copy ()) },
            some m) := by
  unfold subscriptionCopy
  dsimp only
  by_cases hadv : s.subscribe.advertised = true
  · rw [if_pos hadv]
    cases hsub : s.subscribe.subscription.sub () with
    | none => exact .inl rfl
    | some u =>
      cases hcopy : s.subscribe.subscription.node.copy u.generation with
      | none =>
        rw [Option.bind_some, hcopy]
        exact .inl rfl
      | some r =>
        rw [Option.bind_some, hcopy]
        exact .inr ⟨u, r.1, r.2, rfl, hcopy, rfl⟩
  · rw [if_neg hadv]
    exact .inl rfl

/-- `last_update` after a call that gives a message. -/
def shifted (s : SubscriptionInterval M) (now : UInt64) : UInt64 :=
  math.constrain (s.last_update + s.interval) (now - s.interval) now

theorem copy_cases (hs : s.subscription.Invariant) (now : UInt64) :
    (s.copy now).2 = none ∧ Kept s (s.copy now).1 s.last_update ∨
      ∃ m, (s.copy now).2 = some m ∧ Kept s (s.copy now).1 (s.shifted now) ∧
        (s.subscribe.updatesAvailable = true → s.next < (s.copy now).1.next ∧
          s.subscription.written[(s.copy now).1.next - 1]? = some m) := by
  have hkept := subscribe_kept hs
  rcases s.subscriptionCopy_cases with h | ⟨u, m, g, hsub, hcopy, h⟩
  · left
    unfold copy
    rw [h]
    exact ⟨rfl, hkept⟩
  · right
    obtain ⟨hle, hlen, hnew⟩ := hkept.invariant.copy_advances hsub hcopy
    have hstep := System.step_copy hsub hcopy
    have hnext : (s.copy now).1.next = s.subscribe.subscription.next g := by
      unfold copy
      rw [h]
      unfold next
      dsimp only
      rw [hstep]
      dsimp only
      rw [Function.update_self]
    have hfirst : s.next ≤ u.next := next_of_sub hsub ▸ hkept.next_le
    refine ⟨m, ?_, ⟨?_, ?_, ?_, ?_, ?_⟩, fun hup => ⟨?_, ?_⟩⟩
    · unfold copy
      rw [h]
    · unfold copy
      rw [h]
      exact System.invariant_step hkept.invariant (.copy ())
    · unfold copy
      rw [h]
      exact hkept.interval_us
    · unfold copy
      rw [h, ← hkept.written]
      dsimp only
      rw [hstep]
    · rw [hnext]
      exact hfirst.trans hle
    · unfold copy shifted interval
      rw [h, ← hkept.last_update, ← hkept.interval_us]
    all_goals
      have hsome : s.subscribe.subscription.node.updatesAvailable u.generation ≠ 0 := by
        unfold updatesAvailable at hup
        rw [hsub] at hup
        exact bne_iff_ne.mp hup
      rw [hnext]
    · exact hfirst.trans_lt (hnew hsome).1
    · rw [← hkept.written]
      exact (hnew hsome).2

theorem subscribe_subscribe (s : SubscriptionInterval M) : s.subscribe.subscribe = s.subscribe := by
  rcases s.subscribe_cases with h | ⟨hsub, h⟩
  · rw [h, h]
  · have hsome : (s.subscribe.subscription.sub ()).isSome = true := by
      rw [h]
      rfl
    exact if_pos hsome

theorem update_cases (hs : s.subscription.Invariant) (check now : UInt64) :
    (s.update check now).2 = none ∧ Kept s (s.update check now).1 s.last_update ∨
      ∃ m, (s.update check now).2 = some m ∧ Kept s (s.update check now).1 (s.shifted now) ∧
        s.interval ≤ check - s.last_update ∧ s.next < (s.update check now).1.next ∧
          s.subscription.written[(s.update check now).1.next - 1]? = some m := by
  have hkept := subscribe_kept hs
  unfold update updated
  dsimp only
  cases hup : s.subscribe.advertised && decide (s.subscribe.interval
      ≤ check - s.subscribe.last_update) && s.subscribe.updatesAvailable with
  | false => exact .inl ⟨rfl, hkept⟩
  | true =>
    rw [Bool.and_eq_true, Bool.and_eq_true, decide_eq_true_eq] at hup
    obtain ⟨⟨-, hdue⟩, hup⟩ := hup
    have hshift : s.subscribe.shifted now = s.shifted now := by
      unfold shifted interval
      rw [hkept.last_update, hkept.interval_us]
    rcases copy_cases hkept.invariant now with ⟨hnone, hcopy⟩ | ⟨m, hsome, hcopy, hnew⟩
    · left
      rw [hkept.last_update] at hcopy
      exact ⟨hnone, hkept.trans hcopy⟩
    · right
      rw [subscribe_subscribe] at hnew
      rw [hshift] at hcopy
      obtain ⟨hlt, hm⟩ := hnew hup
      refine ⟨m, hsome, hkept.trans hcopy, ?_, hkept.next_le.trans_lt hlt, ?_⟩
      · unfold interval at hdue ⊢
        rwa [hkept.last_update, hkept.interval_us] at hdue
      · rwa [hkept.written] at hm

/-! ### The time of the last update -/

/-- As long as nothing wraps, the time of the last update is in the past, not more than an interval
behind, and an interval later than before if that is in the past. -/
theorem shifted_spec (hpast : s.last_update ≤ now) (hlate : s.interval_us.toNat ≤ now.toNat)
    (hlow : s.last_update.toNat + s.interval_us.toNat < 2 ^ 64) :
    s.last_update.toNat ≤ (s.shifted now).toNat ∧ s.shifted now ≤ now ∧
      now.toNat ≤ (s.shifted now).toNat + s.interval_us.toNat ∧
      (s.last_update.toNat + s.interval_us.toNat ≤ now.toNat →
        s.last_update.toNat + s.interval_us.toNat ≤ (s.shifted now).toNat) := by
  have hT : s.interval.toNat = s.interval_us.toNat := UInt32.toNat_toUInt64 _
  rw [UInt64.le_iff_toNat_le] at hpast
  have hsub : (now - s.interval).toNat = now.toNat - s.interval_us.toNat := by
    rw [UInt64.toNat_sub_of_le _ _ (UInt64.le_iff_toNat_le.mpr (hT.trans_le hlate)), hT]
  have hadd : (s.last_update + s.interval).toNat = s.last_update.toNat + s.interval_us.toNat := by
    rw [UInt64.toNat_add, hT, Nat.mod_eq_of_lt hlow]
  unfold shifted math.constrain
  simp only [UInt64.lt_iff_toNat_lt, UInt64.le_iff_toNat_le, hsub, hadd]
  split_ifs <;> omega

theorem shifted_early (hpast : s.last_update ≤ now) (hearly : now.toNat < s.interval_us.toNat) :
    now < s.shifted now := by
  have hT : s.interval.toNat = s.interval_us.toNat := UInt32.toNat_toUInt64 _
  have hsmall := s.interval_us.toNat_lt
  rw [UInt64.le_iff_toNat_le] at hpast
  have hsub : (now - s.interval).toNat = 2 ^ 64 + now.toNat - s.interval_us.toNat := by
    rw [UInt64.toNat_sub, hT]
    omega
  have hadd : (s.last_update + s.interval).toNat = s.last_update.toNat + s.interval_us.toNat := by
    rw [UInt64.toNat_add, hT]
    omega
  unfold shifted math.constrain
  rw [if_pos (UInt64.lt_iff_toNat_lt.mpr (by omega)), UInt64.lt_iff_toNat_lt]
  omega

/-- An update that is due finds the clock an interval past the time of the last one. -/
theorem due_iff (hpast : s.last_update ≤ now) : s.interval ≤ now - s.last_update ↔
    s.last_update.toNat + s.interval_us.toNat ≤ now.toNat := by
  have hT : s.interval.toNat = s.interval_us.toNat := UInt32.toNat_toUInt64 _
  rw [UInt64.le_iff_toNat_le, UInt64.toNat_sub_of_le _ _ hpast, hT]
  rw [UInt64.le_iff_toNat_le] at hpast
  omega

end SubscriptionInterval

namespace Limiter

variable {M : Type*} {s : Limiter M} {c : Call M}

/-! ### Lists of reports -/

theorem Spaced.snoc {T : ℕ} {reports : List (Report M)} (h : Spaced T reports) {r : Report M}
    (hr : ∀ k n a, reports[k]? = some a → k + n + 1 = reports.length →
      a.now.toNat + n * T ≤ r.check.toNat) : Spaced T (reports ++ [r]) := by
  intro k n a b ha hb
  rcases Nat.lt_or_ge (k + n + 1) reports.length with hlt | hge
  · rw [List.getElem?_append_left hlt] at hb
    rw [List.getElem?_append_left (by omega)] at ha
    exact h k n a b ha hb
  · have hend : k + n + 1 = reports.length := by
      have hlen := (List.getElem?_eq_some_iff.mp hb).1
      rw [List.length_append, List.length_singleton] at hlen
      omega
    rw [List.getElem?_append_left (by omega)] at ha
    rw [hend, List.getElem?_concat_length, Option.some.injEq] at hb
    subst hb
    exact hr k n a ha hend

theorem Fresh.snoc {written : List M} {reports : List (Report M)} (h : Fresh written reports)
    {r : Report M} (hlt : r.first < r.next) (hm : written[r.next - 1]? = some r.message)
    (hr : ∀ a ∈ reports, a.next ≤ r.first) : Fresh written (reports ++ [r]) := by
  refine ⟨fun a ha => ?_, ?_⟩
  · rcases List.mem_append.mp ha with hold | hnew
    · exact h.1 a hold
    · rw [List.mem_singleton.mp hnew]
      exact ⟨hlt, hm⟩
  · refine List.pairwise_append.mpr ⟨h.2, List.pairwise_singleton _ _, fun a ha b hb => ?_⟩
    rw [List.mem_singleton.mp hb]
    exact hr a ha

theorem Fresh.append {written : List M} {reports : List (Report M)} (h : Fresh written reports)
    (l : List M) : Fresh (written ++ l) reports := by
  refine ⟨fun r hr => ⟨(h.1 r hr).1, ?_⟩, h.2⟩
  have hm := (h.1 r hr).2
  rw [List.getElem?_append_left (List.getElem?_eq_some_iff.mp hm).1, hm]

/-! ### The rate -/

/-- What every call keeps: each report is as many intervals before the time of the last update as
there are reports after it, but for the lateness of one. -/
structure Ordered (s : Limiter M) : Prop where
  invariant : s.subscription.Invariant
  limited : Limited s
  recent : ∀ k n a, s.reports[k]? = some a → k + n + 1 = s.reports.length →
    a.now.toNat + n * s.interval_us.toNat ≤ s.last_update.toNat + s.interval_us.toNat
  dealt : ∀ r ∈ s.reports, r.next ≤ s.toSubscriptionInterval.next

section Calls

variable (h : Ordered s) {t : SubscriptionInterval M} {last check now : UInt64}
  (hkept : s.toSubscriptionInterval.Kept t last) (hclock : last ≤ now)

include h hkept hclock

theorem Ordered.quiet (hle : s.last_update.toNat ≤ last.toNat) :
    Ordered { s with toSubscriptionInterval := t, clock := now } := by
  obtain ⟨hspaced, hfresh, -⟩ := h.limited
  obtain ⟨hinv, hT, hwritten, hnext, rfl⟩ := hkept
  refine ⟨hinv, ⟨?_, ?_, hclock⟩, fun k n a ha hk => ?_, fun r hr => (h.dealt r hr).trans hnext⟩
  · dsimp only
    rwa [hT]
  · dsimp only
    rwa [hwritten]
  · have hold := h.recent k n a ha hk
    dsimp only
    rw [hT]
    omega

/-- A report is an interval at least after the time of the last update, and moves it on by that. -/
theorem Ordered.report {m : M} (hdue : s.last_update.toNat + s.interval_us.toNat ≤ check.toNat)
    (hmove : s.last_update.toNat + s.interval_us.toNat ≤ last.toNat)
    (hbehind : now.toNat ≤ last.toNat + s.interval_us.toNat)
    (hlt : s.toSubscriptionInterval.next < t.next)
    (hm : s.subscription.written[t.next - 1]? = some m) :
    Ordered { s with
      toSubscriptionInterval := t
      clock := now
      reports := s.reports ++ [⟨check, now, m, s.toSubscriptionInterval.next, t.next⟩] } := by
  obtain ⟨hspaced, hfresh, -⟩ := h.limited
  obtain ⟨hinv, hT, hwritten, hnext, rfl⟩ := hkept
  refine ⟨hinv, ⟨?_, ?_, hclock⟩, fun k n a ha hk => ?_, fun r hr => ?_⟩
  · dsimp only
    rw [hT]
    exact hspaced.snoc fun k n a ha hk => (h.recent k n a ha hk).trans hdue
  · dsimp only
    rw [hwritten]
    exact hfresh.snoc hlt hm h.dealt
  · dsimp only at ha hk ⊢
    rw [List.length_append, List.length_singleton] at hk
    rw [hT]
    cases n with
    | zero =>
      have hend : k = s.reports.length := by omega
      rw [hend, List.getElem?_concat_length, Option.some.injEq] at ha
      rw [← ha, zero_mul, add_zero]
      exact hbehind
    | succ n =>
      rw [List.getElem?_append_left (by omega)] at ha
      have hold := h.recent k n a ha (by omega)
      rw [Nat.succ_mul]
      omega
  · rcases List.mem_append.mp hr with hold | hnew
    · exact (h.dealt r hold).trans hnext
    · rw [List.mem_singleton.mp hnew]

end Calls

theorem Ordered.publish (h : Ordered s) (alloc : Option (ℕ → M)) (buffer : M) (buflen : ℕ) :
    Ordered (s.step (.publish alloc buffer buflen)) := by
  obtain ⟨hspaced, hfresh, hpast⟩ := h.limited
  refine ⟨System.invariant_step h.invariant (.write alloc buffer buflen),
    ⟨hspaced, ?_, hpast⟩, h.recent, h.dealt⟩
  simp only [step, System.step]
  split
  · exact hfresh
  · exact hfresh.append [buffer]

theorem Ordered.step (h : Ordered s) (hc : Clocked s c) (hlate : Late s c) (hlow : Low s c) :
    Ordered (s.step c) := by
  have hpast := h.limited.2.2
  cases c with
  | publish alloc buffer buflen => exact h.publish alloc buffer buflen
  | node exists_ advertised => exact ⟨h.invariant, h.limited, h.recent, h.dealt⟩
  | updated now =>
    exact h.quiet (SubscriptionInterval.subscribe_kept h.invariant)
      (UInt64.le_trans hpast hc) (le_refl _)
  | copy now =>
    have hpast' := UInt64.le_trans hpast hc
    rcases SubscriptionInterval.copy_cases h.invariant now with ⟨-, hkept⟩ | ⟨m, hsome, hkept, -⟩
    · exact h.quiet hkept hpast' (le_refl _)
    · have hne : (s.toSubscriptionInterval.copy now).2 ≠ none := by
        rw [hsome]
        exact Option.some_ne_none m
      obtain ⟨hle, hle', -⟩ := SubscriptionInterval.shifted_spec hpast' (hlate hne) (hlow hne)
      exact h.quiet hkept hle' hle
  | update check now =>
    obtain ⟨hcheck, hnow⟩ := hc
    have hpast' := UInt64.le_trans hpast hcheck
    rcases SubscriptionInterval.update_cases h.invariant check now with
      ⟨hnone, hkept⟩ | ⟨m, hsome, hkept, hdue, hlt, hm⟩
    · have hquiet := h.quiet hkept (UInt64.le_trans hpast' hnow) (le_refl _)
      simp only [Limiter.step, hnone, Option.map_none, Option.toList_none, List.append_nil]
      exact hquiet
    · -- the update is due, so that nothing wraps
      rw [SubscriptionInterval.due_iff hpast'] at hdue
      have hnow' := UInt64.le_iff_toNat_le.mp hnow
      have hmax := now.toNat_lt
      obtain ⟨-, hle', hbehind, hmove⟩ := SubscriptionInterval.shifted_spec
        (UInt64.le_trans hpast' hnow) (by omega) (by omega)
      have hreport := h.report hkept hle' hdue (hmove (by omega)) hbehind hlt hm
      simp only [Limiter.step, hsome, Option.map_some, Option.toList_some]
      exact hreport

theorem ordered_init (o_size : ℕ) (queue_size : UInt8) (interval_us : UInt32) (clock : UInt64) :
    Ordered (init (System.init o_size queue_size : System Unit M) interval_us clock) where
  invariant := System.invariant_init o_size queue_size
  limited := by
    refine ⟨fun k n a b ha => ?_, ⟨fun r hr => ?_, List.Pairwise.nil⟩, UInt64.zero_le⟩
    · exact absurd ha (by simp [init])
    · exact nomatch hr
  recent := fun k n a ha => absurd ha (by simp [init])
  dealt := fun r hr => nomatch hr

theorem late_of_limited (hinv : s.subscription.Invariant) (hpast : s.last_update ≤ s.clock)
    (hc : Clocked s c) (h : Limited (s.step c)) : Late s c := by
  cases c with
  | publish alloc buffer buflen => trivial
  | node exists_ advertised => trivial
  | updated now => trivial
  | update check now => trivial
  | copy now =>
    intro hne
    rcases SubscriptionInterval.copy_cases hinv now with ⟨hnone, -⟩ | ⟨m, -, hkept, -⟩
    · exact absurd hnone hne
    · by_contra hearly
      have hfuture := SubscriptionInterval.shifted_early (UInt64.le_trans hpast hc)
        (not_le.mp hearly)
      have hle : (s.toSubscriptionInterval.copy now).1.last_update ≤ now := h.2.2
      rw [hkept.last_update] at hle
      exact absurd hfuture (UInt64.not_lt.mpr hle)

theorem invariant_step (hinv : s.subscription.Invariant) (c : Call M) :
    (s.step c).subscription.Invariant := by
  cases c with
  | publish alloc buffer buflen => exact System.invariant_step hinv (.write alloc buffer buflen)
  | node exists_ advertised => exact hinv
  | updated now => exact (SubscriptionInterval.subscribe_kept hinv).invariant
  | copy now =>
    rcases SubscriptionInterval.copy_cases hinv now with ⟨-, hkept⟩ | ⟨m, -, hkept, -⟩
    · exact hkept.invariant
    · exact hkept.invariant
  | update check now =>
    rcases SubscriptionInterval.update_cases hinv check now with ⟨-, hkept⟩ | ⟨m, -, hkept, -⟩
    · exact hkept.invariant
    · exact hkept.invariant

/-- **The rate of updates.**  In every run in which no copy comes before the clock has reached the
interval, or at the end of the counter, it is limited; and where a copy does come before the clock
has reached the interval it is not. -/
theorem limited_run (o_size : ℕ) (queue_size : UInt8) (interval_us : UInt32) (clock : UInt64)
    (cs : List (Call M))
    (hclock : Always step Clocked (init (System.init o_size queue_size) interval_us clock) cs) :
    (Always step (fun s c => Late s c ∧ Low s c)
        (init (System.init o_size queue_size) interval_us clock) cs →
      Always step (fun s c => Limited (s.step c))
        (init (System.init o_size queue_size) interval_us clock) cs) ∧
    (Always step (fun s c => Limited (s.step c))
        (init (System.init o_size queue_size) interval_us clock) cs →
      Always step Late (init (System.init o_size queue_size) interval_us clock) cs) := by
  refine ⟨fun hwrap => ?_, fun hlimited => ?_⟩
  · refine always_of_invariant (I := Ordered) (fun s c h hc => ?_)
      (ordered_init o_size queue_size interval_us clock) (always_and.mpr ⟨hclock, hwrap⟩)
    have hstep := h.step hc.1 hc.2.1 hc.2.2
    exact ⟨hstep.limited, hstep⟩
  · refine always_of_invariant (I := fun s => s.subscription.Invariant ∧ s.last_update ≤ s.clock)
      (fun s c h hc => ?_)
      ⟨System.invariant_init o_size queue_size, UInt64.zero_le⟩ (always_and.mpr ⟨hclock, hlimited⟩)
    exact ⟨late_of_limited h.1 h.2 hc.1 hc.2, invariant_step h.1 c, hc.2.2.2⟩

def publication (m : ℕ) : Call ℕ := .publish (some fun _ => 0) m 8

def lateUpdates : List (Call ℕ) :=
  [.node true true, publication 1, .update 1500 1500, publication 2, .update 2000 2000,
    publication 3, .copy 2100, .updated 2200]

theorem limited_run_late :
    Always step (fun s c => Limited (s.step c)) (init (System.init 8 1) 1000 0) lateUpdates ∧
      (run step (init (System.init 8 1) 1000 0) lateUpdates).reports.map (·.now) = [1500, 2000] :=
  ⟨(limited_run 8 1 1000 0 lateUpdates (by decide +kernel)).1 (by decide +kernel),
    by decide +kernel⟩

/-- A copy at the start of the clock, and then an update for every publication. -/
def earlyCopy : List (Call ℕ) :=
  [.node true true, publication 1, .copy 0, publication 2, .update 0 0, publication 3, .update 0 0,
    publication 4, .update 0 0]

/-- The three updates of an interval of 1000 come at once, and the last one is in the future. -/
theorem earlyCopy_unlimited :
    Always step Clocked (init (System.init 8 1) 1000 0) earlyCopy ∧
      ¬ Spaced 1000 (run step (init (System.init 8 1) 1000 0) earlyCopy).reports ∧
      (run step (init (System.init 8 1) 1000 0) earlyCopy).clock
        < (run step (init (System.init 8 1) 1000 0) earlyCopy).last_update := by
  refine ⟨by decide +kernel, fun h => ?_, by decide +kernel⟩
  have hreports : (run step (init (System.init 8 1) 1000 0) earlyCopy).reports =
      [⟨0, 0, 2, 1, 2⟩, ⟨0, 0, 3, 2, 3⟩, ⟨0, 0, 4, 3, 4⟩] := by
    decide +kernel
  rw [hreports] at h
  have hle := h 0 1 _ _ rfl rfl
  exact nomatch hle

end Limiter

end uORB
