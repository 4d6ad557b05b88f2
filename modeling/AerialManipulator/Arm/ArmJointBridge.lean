/-
The bridge from NAMED_VALUE_FLOAT messages to `arm_joint_states`.

The nine values of the arm (four angles, four rates and a validity value) arrive as
`debug_key_value` messages, one value in each, over a topic whose queue holds one
message.  Each run of the bridge takes at most one message from the topic, writes
the field its key names, and publishes all fields every 20 ms.

* **`processDebugMessage_read`** — what one message does to the nine fields;
* **`System.invariant_step`** — in a run in which no unread joint value is
  overwritten by another message, the fields hold the newest publications but for the
  one still unread;
* **`System.published_reflects_newest`** — in such a run every published state shows
  the newest publication of each field;
* **`System.backToBack_loses`** — nine publications in a row leave only the last.
-/
import AerialManipulator.Math
import AerialManipulator.Uorb.DeviceNode

open WithNaN

/-- `debug_key_value_s`; `key` is a `char[10]`, of which no byte after the sixth is
read here. -/
structure DebugKeyValue (K : Type*) where
  timestamp : UInt64
  key : ℕ → UInt8
  value : Flt K

/-- `arm_joint_states_s`. -/
structure ArmJointStates (K : Type*) where
  timestamp : UInt64
  q : Fin 4 → Flt K
  dq : Fin 4 → Flt K
  valid : Bool

structure ArmJointBridge (K : Type*) [Zero K] where
  q : Fin 4 → Flt K := fun _ => 0
  dq : Fin 4 → Flt K := fun _ => 0
  q_timestamp : Fin 4 → UInt64 := fun _ => 0
  dq_timestamp : Fin 4 → UInt64 := fun _ => 0
  valid_value : Flt K := 0
  valid_timestamp : UInt64 := 0
  last_publish : UInt64 := 0

namespace ArmJointBridge

variable {K : Type*}

def PUBLISH_INTERVAL : UInt64 := 20000
def FIELD_TIMEOUT : UInt64 := 200000

def fieldFresh (timestamp now : UInt64) : Bool :=
  timestamp ≠ 0 && decide (now - timestamp ≤ FIELD_TIMEOUT)

/-- The keys `AJQ0` to `AJQ3` (`c` is `'Q'`) and `AJD0` to `AJD3` (`c` is `'D'`). -/
def jointKey (key : ℕ → UInt8) (c : Char) : Bool :=
  key 0 = 'A'.toUInt8 && key 1 = 'J'.toUInt8 && key 2 = c.toUInt8 &&
    decide ('0'.toUInt8 ≤ key 3) && decide (key 3 ≤ '3'.toUInt8) && key 4 = 0

/-- The key `AJVAL`. -/
def validKey (key : ℕ → UInt8) : Bool :=
  key 0 = 'A'.toUInt8 && key 1 = 'J'.toUInt8 && key 2 = 'V'.toUInt8 && key 3 = 'A'.toUInt8 &&
    key 4 = 'L'.toUInt8 && key 5 = 0

/-- `key[3] - '0'`. -/
def jointIndex (key : ℕ → UInt8) : Fin 4 := Fin.ofNat 4 (key 3 - '0'.toUInt8).toNat

/-! ### The nine values -/

inductive Value
  | q (i : Fin 4)
  | dq (i : Fin 4)
  | valid
  deriving DecidableEq

def Value.ofKey (key : ℕ → UInt8) : Option Value :=
  if jointKey key 'Q' then some (.q (jointIndex key))
  else if jointKey key 'D' then some (.dq (jointIndex key))
  else if validKey key then some .valid
  else none

def newest (f : Value) (l : List (DebugKeyValue K)) : Option (DebugKeyValue K) :=
  (l.filter fun m => Value.ofKey m.key = some f).getLast?

theorem newest_append (f : Value) (l : List (DebugKeyValue K)) (m : DebugKeyValue K) :
    newest f (l ++ [m]) = if Value.ofKey m.key = some f then some m else newest f l := by
  unfold newest
  by_cases h : Value.ofKey m.key = some f <;> simp [h]

theorem mem_of_newest {f : Value} {l : List (DebugKeyValue K)} {m : DebugKeyValue K}
    (h : newest f l = some m) : m ∈ l :=
  List.mem_of_mem_filter (List.mem_of_getLast? h)

variable [Field K]

def shown : Option (DebugKeyValue K) → Flt K × UInt64
  | some m => (m.value, m.timestamp)
  | none => (0, 0)

def processDebugMessage (b : ArmJointBridge K) (msg : DebugKeyValue K) : ArmJointBridge K :=
  if jointKey msg.key 'Q' then
    { b with
      q := Function.update b.q (jointIndex msg.key) msg.value
      q_timestamp := Function.update b.q_timestamp (jointIndex msg.key) msg.timestamp }
  else if jointKey msg.key 'D' then
    { b with
      dq := Function.update b.dq (jointIndex msg.key) msg.value
      dq_timestamp := Function.update b.dq_timestamp (jointIndex msg.key) msg.timestamp }
  else if validKey msg.key then
    { b with valid_value := msg.value, valid_timestamp := msg.timestamp }
  else b

def read (b : ArmJointBridge K) : Value → Flt K × UInt64
  | .q i => (b.q i, b.q_timestamp i)
  | .dq i => (b.dq i, b.dq_timestamp i)
  | .valid => (b.valid_value, b.valid_timestamp)

theorem processDebugMessage_read (b : ArmJointBridge K) (msg : DebugKeyValue K) (f : Value) :
    (b.processDebugMessage msg).read f =
      if Value.ofKey msg.key = some f then (msg.value, msg.timestamp) else b.read f := by
  unfold processDebugMessage Value.ofKey
  by_cases hq : jointKey msg.key 'Q' = true
  · rw [if_pos hq, if_pos hq]
    rcases f with i | i | _
    · by_cases hi : i = jointIndex msg.key
      · subst hi
        simp [read]
      · simp [read, Function.update_of_ne hi, Ne.symm hi]
    · simp [read]
    · simp [read]
  rw [if_neg hq, if_neg hq]
  by_cases hd : jointKey msg.key 'D' = true
  · rw [if_pos hd, if_pos hd]
    rcases f with i | i | _
    · simp [read]
    · by_cases hi : i = jointIndex msg.key
      · subst hi
        simp [read]
      · simp [read, Function.update_of_ne hi, Ne.symm hi]
    · simp [read]
  rw [if_neg hd, if_neg hd]
  by_cases hv : validKey msg.key = true
  · rw [if_pos hv, if_pos hv]
    rcases f with i | i | _ <;> simp [read]
  · rw [if_neg hv, if_neg hv]
    simp

/-! ### Publishing -/

variable [LinearOrder K]

/-- The flag of `publishJointStates`, with its loop over the joints. -/
def fresh (b : ArmJointBridge K) (now : UInt64) : Bool :=
  (List.finRange 4).foldl
    (fun fresh i =>
      fresh && fieldFresh (b.q_timestamp i) now && fieldFresh (b.dq_timestamp i) now)
    (fieldFresh b.valid_timestamp now && decide (0.5 < b.valid_value))

def publishJointStates (b : ArmJointBridge K) (now : UInt64) :
    ArmJointBridge K × ArmJointStates K :=
  ({ b with last_publish := now }, ⟨now, b.q, b.dq, b.fresh now⟩)

/-- `Run`.  `update` is the message the subscription returns, `now` the time read in
`Run` and `now'` the one read in `publishJointStates`. -/
def Run (b : ArmJointBridge K) (update : Option (DebugKeyValue K)) (now now' : UInt64) :
    ArmJointBridge K × Option (ArmJointStates K) :=
  let b := match update with
    | some msg => b.processDebugMessage msg
    | none => b
  if b.last_publish = 0 ∨ PUBLISH_INTERVAL ≤ now - b.last_publish then
    let r := b.publishJointStates now'
    (r.1, some r.2)
  else (b, none)

/-- The flag is raised when all nine values are fresh and the last one is above one half. -/
theorem fresh_iff (b : ArmJointBridge K) (now : UInt64) :
    b.fresh now = true ↔ (∀ f, fieldFresh (b.read f).2 now = true) ∧ 0.5 < (b.read .valid).1 := by
  have hfold : ∀ (l : List (Fin 4)) (init : Bool), l.foldl
      (fun fresh i =>
        fresh && fieldFresh (b.q_timestamp i) now && fieldFresh (b.dq_timestamp i) now) init =
        true ↔
      init = true ∧ ∀ i ∈ l, fieldFresh (b.q_timestamp i) now = true ∧
        fieldFresh (b.dq_timestamp i) now = true := by
    intro l
    induction l with
    | nil => simp
    | cons i l ih =>
      intro init
      rw [List.foldl_cons, ih]
      simp [and_assoc]
  unfold fresh
  rw [hfold, Bool.and_eq_true, decide_eq_true_eq]
  constructor
  · rintro ⟨⟨hv, hhalf⟩, hjoints⟩
    refine ⟨?_, hhalf⟩
    rintro (i | i | _)
    · exact (hjoints i (List.mem_finRange i)).1
    · exact (hjoints i (List.mem_finRange i)).2
    · exact hv
  · rintro ⟨hall, hhalf⟩
    exact ⟨⟨hall .valid, hhalf⟩, fun i _ => ⟨hall (.q i), hall (.dq i)⟩⟩

end ArmJointBridge

/-! ### The bridge and its topic -/

namespace ArmJointBridge

/-- A publication of `debug_key_value` at `now` (`memory` is what the queue holds if
this one allocates it), the start of the module, and a run of it. -/
inductive Event (K : Type*)
  | publish (now : UInt64) (memory : ℕ → DebugKeyValue K) (msg : DebugKeyValue K)
  | start
  | run (now now' : UInt64)

/-- The topic with the bridge as its only subscriber, while the module runs. -/
structure System (K : Type*) [Zero K] where
  topic : uORB.System Unit (DebugKeyValue K)
  bridge : ArmJointBridge K := {}
  clock : UInt64 := 0

namespace System

variable {K : Type*} [Field K]

/-- `_debug_key_value_sub.update`: the message, if the generations differ. -/
def update (s : System K) : Option (DebugKeyValue K) :=
  match s.topic.sub () with
  | none => none
  | some u =>
    if s.topic.node.updatesAvailable u.generation = 0 then none
    else (s.topic.node.copy u.generation).map Prod.fst

def since (s : System K) : List (DebugKeyValue K) :=
  match s.topic.sub () with
  | none => []
  | some u => s.topic.written.drop u.start

/-- A topic nobody has published on; its queue holds one message. -/
def init (K : Type*) [Zero K] (o_size : ℕ) : System K where
  topic := uORB.System.init o_size 1

/-- The bridge holds the newest publication of each value, but for the value of a message
it has not read yet. -/
structure Invariant (s : System K) : Prop where
  topic : s.topic.Invariant
  queue : s.topic.node.queue_size = 1
  stamped : ∀ m ∈ s.topic.written, m.timestamp ≤ s.clock
  start_le : ∀ u, s.topic.sub () = some u → u.start ≤ u.next
  lag_lt : ∀ u, s.topic.sub () = some u → s.topic.lag u < 2 ^ 32
  read : ∀ u f, s.topic.sub () = some u →
    (s.topic.lag u = 0 ∨ ∀ m, s.topic.written.getLast? = some m → Value.ofKey m.key ≠ some f) →
    s.bridge.read f = shown (newest f (s.topic.written.drop u.start))

theorem invariant_init (o_size : ℕ) : Invariant (init K o_size) where
  topic := uORB.System.invariant_init o_size 1
  queue := rfl
  stamped := fun m hm => absurd hm (by simp [init, uORB.System.init])
  start_le := fun u hu => absurd hu (by simp [init, uORB.System.init])
  lag_lt := fun u hu => absurd hu (by simp [init, uORB.System.init])
  read := fun u f hu => absurd hu (by simp [init, uORB.System.init])

theorem Invariant.update_eq {s : System K} (hs : Invariant s) {u : uORB.Subscriber _}
    (hu : s.topic.sub () = some u) :
    s.update = if s.topic.lag u = 0 then none else s.topic.written.getLast? := by
  have hlag := hs.lag_lt u hu
  have hup := hs.topic.updatesAvailable (hs.topic.next_le () u hu)
  rw [← hs.topic.sub_generation () u hu] at hup
  unfold uORB.System.lag at hlag ⊢
  rw [Nat.mod_eq_of_lt hlag] at hup
  unfold update
  simp only [hu]
  by_cases hzero : s.topic.written.length - u.next = 0
  · have heq : s.topic.node.updatesAvailable u.generation = 0 := by
      apply UInt32.toNat_inj.mp
      rw [hup, hzero, UInt32.toNat_zero]
    rw [if_pos hzero, if_pos heq]
  · have hne : s.topic.node.updatesAvailable u.generation ≠ 0 := by
      intro h
      rw [h, UInt32.toNat_zero] at hup
      omega
    have hw : s.topic.written ≠ [] := List.ne_nil_of_length_pos (by omega)
    rw [if_neg hne, if_neg hzero, hs.topic.copy_of_queue_one hs.queue hw, Option.map_some,
      List.getLast?_eq_some_getLast hw]

def processed (s : System K) : ArmJointBridge K :=
  match s.update with
  | some msg => s.bridge.processDebugMessage msg
  | none => s.bridge

theorem Invariant.processed_read {s : System K} (hs : Invariant s) {u : uORB.Subscriber _}
    (hu : s.topic.sub () = some u) (f : Value) :
    s.processed.read f = shown (newest f (s.topic.written.drop u.start)) := by
  unfold processed
  rw [hs.update_eq hu]
  by_cases hzero : s.topic.lag u = 0
  · rw [if_pos hzero]
    exact hs.read u f hu (.inl hzero)
  · obtain ⟨m, hm⟩ := uORB.System.last_of_lag (Nat.pos_of_ne_zero hzero)
    rw [if_neg hzero, hm]
    show (s.bridge.processDebugMessage m).read f = _
    rw [processDebugMessage_read]
    by_cases hf : Value.ofKey m.key = some f
    · obtain ⟨l, hl⟩ := List.getLast?_eq_some_iff.mp hm
      have hstart := hs.start_le u hu
      have hlen : u.start ≤ l.length := by
        unfold uORB.System.lag at hzero
        rw [hl, List.length_append, List.length_singleton] at hzero
        omega
      rw [if_pos hf, hl, List.drop_append_of_le_length hlen, newest_append, if_pos hf]
      rfl
    · rw [if_neg hf]
      apply hs.read u f hu
      right
      intro m' hm'
      rw [hm, Option.some.injEq] at hm'
      exact hm' ▸ hf

variable [LinearOrder K]

/-- The state `Run` publishes, if it does. -/
def published (s : System K) (now now' : UInt64) : Option (ArmJointStates K) :=
  if (s.topic.sub ()).isSome then (s.bridge.Run s.update now now').2 else none

def step (s : System K) : Event K → System K
  | .publish now memory msg =>
    { s with
      topic := s.topic.step (.write (some memory) msg s.topic.node.o_size)
      clock := now }
  | .start => { s with topic := s.topic.step (.subscribe ()), bridge := {} }
  | .run now now' =>
    if (s.topic.sub ()).isSome then
      { topic := if s.update.isSome then s.topic.step (.copy ()) else s.topic
        bridge := (s.bridge.Run s.update now now').1
        clock := now' }
    else s

/-- The clock does not run backwards, and no message is stamped later than it is
published. -/
def Timed (s : System K) : Event K → Prop
  | .publish now _ msg => s.clock ≤ now ∧ msg.timestamp ≤ now
  | .start => True
  | .run now now' => s.clock ≤ now ∧ now ≤ now'

instance (s : System K) : ∀ e, Decidable (Timed s e)
  | .publish now _ msg => inferInstanceAs (Decidable (s.clock ≤ now ∧ msg.timestamp ≤ now))
  | .start => inferInstanceAs (Decidable True)
  | .run now now' => inferInstanceAs (Decidable (s.clock ≤ now ∧ now ≤ now'))

/-- The publication overwrites no unread joint value but an older one of its own. -/
def Keeps (s : System K) : Event K → Prop
  | .publish _ _ msg => ∀ u ∈ s.topic.sub (), ∀ m ∈ s.topic.written.getLast?,
      0 < s.topic.lag u →
      (Value.ofKey m.key = none ∨ Value.ofKey m.key = Value.ofKey msg.key) ∧
        s.topic.lag u + 1 < 2 ^ 32
  | _ => True

instance (s : System K) : ∀ e, Decidable (Keeps s e)
  | .publish _ _ msg => inferInstanceAs (Decidable (∀ u ∈ s.topic.sub (),
      ∀ m ∈ s.topic.written.getLast?, 0 < s.topic.lag u →
      (Value.ofKey m.key = none ∨ Value.ofKey m.key = Value.ofKey msg.key) ∧
        s.topic.lag u + 1 < 2 ^ 32))
  | .start => inferInstanceAs (Decidable True)
  | .run _ _ => inferInstanceAs (Decidable True)

/-- The published state shows the newest publication of every value: the joints, the
flag, and, where the flag is raised, that no value is older than 200 ms. -/
structure Reflects (newest : Value → Option (DebugKeyValue K)) (msg : ArmJointStates K) : Prop where
  q : ∀ i m, newest (.q i) = some m → msg.q i = m.value
  dq : ∀ i m, newest (.dq i) = some m → msg.dq i = m.value
  fresh : msg.valid = true → ∀ f, ∃ m, newest f = some m ∧ m.timestamp ≤ msg.timestamp ∧
    msg.timestamp.toNat - m.timestamp.toNat ≤ 200000
  valid : ∀ m, newest .valid = some m →
    (msg.valid = true ↔ 0.5 < m.value ∧
      ∀ f, ∃ m, newest f = some m ∧ fieldFresh m.timestamp msg.timestamp = true)

/-- What is expected of one step. -/
def Shows (s : System K) : Event K → Prop
  | .run now now' => ∀ msg, s.published now now' = some msg →
      Reflects (fun f => newest f s.since) msg
  | _ => True

/-- A publication that keeps what is unread: only the value it names becomes out of date. -/
theorem Invariant.publish {s : System K} (hs : Invariant s) (now : UInt64)
    (memory : ℕ → DebugKeyValue K) (msg : DebugKeyValue K)
    (ht : Timed s (.publish now memory msg)) (hk : Keeps s (.publish now memory msg)) :
    Invariant (s.step (.publish now memory msg)) := by
  obtain ⟨hwritten, hsub, hqueue⟩ := s.topic.step_write memory msg
  have htopic := uORB.System.invariant_step hs.topic (.write (some memory) msg s.topic.node.o_size)
  dsimp only [step]
  generalize s.topic.step (.write (some memory) msg s.topic.node.o_size) = t at *
  have hlag : ∀ u, t.lag u ≤ s.topic.lag u + 1 := by
    intro u
    unfold uORB.System.lag
    rw [hwritten, List.length_append, List.length_singleton]
    omega
  refine ⟨htopic, hqueue.trans hs.queue, ?_, ?_, ?_, ?_⟩
  · intro m hm
    rw [hwritten, List.mem_append, List.mem_singleton] at hm
    rcases hm with hm | rfl
    · exact UInt64.le_trans (hs.stamped m hm) ht.1
    · exact ht.2
  · intro u hu
    exact hs.start_le u (hsub ▸ hu)
  · intro u hu
    rw [hsub] at hu
    have hle := hlag u
    by_cases hpos : 0 < s.topic.lag u
    · obtain ⟨m, hm⟩ := uORB.System.last_of_lag hpos
      have hlt := (hk u hu m hm hpos).2
      show t.lag u < 2 ^ 32
      omega
    · show t.lag u < 2 ^ 32
      omega
  · intro u f hu hf
    rw [hsub] at hu
    have hstart := hs.start_le u hu
    have hnext := hs.topic.next_le () u hu
    have hother : Value.ofKey msg.key ≠ some f := by
      rcases hf with hzero | hf
      · unfold uORB.System.lag at hzero
        rw [hwritten, List.length_append, List.length_singleton] at hzero
        omega
      · exact hf msg (by rw [hwritten, List.getLast?_concat])
    show s.bridge.read f = shown (newest f (t.written.drop u.start))
    rw [hwritten, List.drop_append_of_le_length (by omega), newest_append, if_neg hother]
    -- an unread message was not for `f` either, since this one would have overwritten it
    apply hs.read u f hu
    by_cases hpos : 0 < s.topic.lag u
    · right
      intro m hm
      rcases (hk u hu m hm hpos).1 with hnone | hsame
      · rw [hnone]
        exact (Option.some_ne_none f).symm
      · rw [hsame]
        exact hother
    · left
      omega

theorem Invariant.start {s : System K} (hs : Invariant s) : Invariant (s.step .start) := by
  have htopic := uORB.System.invariant_step hs.topic (.subscribe ())
  have hnext := hs.topic.next_initial_generation
  have hsub : ∀ u, (s.topic.step (.subscribe ())).sub () = some u →
      u.start = s.topic.written.length - 1 ∧ u.next = s.topic.written.length - 1 := by
    intro u hu
    simp only [uORB.System.step, Function.update_self, Option.some.injEq] at hu
    rw [← hu]
    exact ⟨hnext, hnext⟩
  refine ⟨htopic, hs.queue, hs.stamped, ?_, ?_, ?_⟩
  · intro u hu
    rw [(hsub u hu).1, (hsub u hu).2]
  · intro u hu
    show s.topic.written.length - u.next < 2 ^ 32
    rw [(hsub u hu).2]
    omega
  · intro u f hu hf
    show ({} : ArmJointBridge K).read f = shown (newest f (s.topic.written.drop u.start))
    rw [(hsub u hu).1]
    have hnone : newest f (s.topic.written.drop (s.topic.written.length - 1)) = none := by
      rcases List.eq_nil_or_concat' s.topic.written with hnil | ⟨l, m, hl⟩
      · rw [hnil]
        rfl
      · rcases hf with hzero | hf
        · have hlag : s.topic.written.length - u.next = 0 := hzero
          rw [(hsub u hu).2, hl] at hlag
          simp at hlag
        · have hm : Value.ofKey m.key ≠ some f := by
            apply hf m
            show s.topic.written.getLast? = some m
            rw [hl, List.getLast?_concat]
          rw [hl, List.length_append, List.length_singleton, Nat.add_sub_cancel,
            List.drop_left, newest]
          simp [hm]
    rw [hnone]
    rcases f with i | i | _ <;> rfl

/-! ### One run of the bridge -/

theorem Run_eq (s : System K) (now now' : UInt64) :
    s.bridge.Run s.update now now' =
      if s.processed.last_publish = 0 ∨ PUBLISH_INTERVAL ≤ now - s.processed.last_publish then
        ({ s.processed with last_publish := now' },
          some ⟨now', s.processed.q, s.processed.dq, s.processed.fresh now'⟩)
      else (s.processed, none) := rfl

theorem Run_read (s : System K) (now now' : UInt64) (f : Value) :
    (s.bridge.Run s.update now now').1.read f = s.processed.read f := by
  rw [Run_eq]
  split
  · rcases f with i | i | _ <;> rfl
  · rfl

omit [LinearOrder K] in
theorem Invariant.caught_up {s : System K} (hs : Invariant s) {u : uORB.Subscriber _}
    (hu : s.topic.sub () = some u) {t : uORB.System Unit (DebugKeyValue K)}
    (ht : t = if s.update.isSome then s.topic.step (.copy ()) else s.topic) :
    t.Invariant ∧ t.node = s.topic.node ∧ t.written = s.topic.written ∧
      ∃ u', t.sub () = some u' ∧ u'.start = u.start ∧ u'.next = s.topic.written.length := by
  rw [hs.update_eq hu] at ht
  by_cases hzero : s.topic.lag u = 0
  · rw [if_pos hzero] at ht
    subst ht
    have hnext := hs.topic.next_le () u hu
    unfold uORB.System.lag at hzero
    exact ⟨hs.topic, rfl, rfl, u, hu, rfl, by omega⟩
  · obtain ⟨m, hm⟩ := uORB.System.last_of_lag (Nat.pos_of_ne_zero hzero)
    have hw : s.topic.written ≠ [] := by
      intro hnil
      rw [hnil] at hm
      simp at hm
    rw [if_neg hzero, hm, Option.isSome_some, if_pos rfl] at ht
    have htopic := uORB.System.invariant_step hs.topic (.copy ())
    rw [← ht] at htopic
    rw [uORB.System.step_copy hu (hs.topic.copy_of_queue_one hs.queue hw u.generation)] at ht
    subst ht
    refine ⟨htopic, rfl, rfl, ?_⟩
    dsimp only
    rw [Function.update_self]
    exact ⟨_, rfl, rfl, s.topic.next_generation⟩

theorem Invariant.run {s : System K} (hs : Invariant s) (now now' : UInt64)
    (ht : Timed s (.run now now')) : Invariant (s.step (.run now now')) := by
  rcases hu : s.topic.sub () with _ | u
  · have hstep : s.step (.run now now') = s := by simp [step, hu]
    rw [hstep]
    exact hs
  · obtain ⟨htopic, hnode, hwritten, u', hu', hstart, hnext⟩ := hs.caught_up hu rfl
    have hsome : (s.topic.sub ()).isSome = true := by rw [hu]; rfl
    dsimp only [step]
    rw [if_pos hsome]
    generalize (if s.update.isSome then s.topic.step (.copy ()) else s.topic) = t at *
    have hsub : ∀ v, t.sub () = some v → v = u' := by
      intro v hv
      exact Option.some.inj (hv.symm.trans hu')
    refine ⟨htopic, ?_, ?_, ?_, ?_, ?_⟩
    · show t.node.queue_size = 1
      rw [hnode]
      exact hs.queue
    · intro m hm
      rw [hwritten] at hm
      exact UInt64.le_trans (hs.stamped m hm) (UInt64.le_trans ht.1 ht.2)
    · intro v hv
      rw [hsub v hv, hstart, hnext]
      exact (hs.start_le u hu).trans (hs.topic.next_le () u hu)
    · intro v hv
      show t.written.length - v.next < 2 ^ 32
      rw [hsub v hv, hnext, hwritten]
      omega
    · intro v f hv _
      show (s.bridge.Run s.update now now').1.read f = shown (newest f (t.written.drop v.start))
      rw [Run_read, hs.processed_read hu, hsub v hv, hstart, hwritten]

theorem invariant_step {s : System K} (hs : Invariant s) {e : Event K} (ht : Timed s e)
    (hk : Keeps s e) : Invariant (s.step e) := by
  rcases e with ⟨now, memory, msg⟩ | _ | ⟨now, now'⟩
  · exact hs.publish now memory msg ht hk
  · exact hs.start
  · exact hs.run now now' ht

omit [LinearOrder K] in
theorem fresh_iff_published {f : Value} {l : List (DebugKeyValue K)} {now : UInt64}
    (hl : ∀ m ∈ l, m.timestamp ≤ now) :
    fieldFresh (shown (newest f l)).2 now = true ↔
      ∃ m, newest f l = some m ∧ fieldFresh m.timestamp now = true ∧ m.timestamp ≤ now ∧
        now.toNat - m.timestamp.toNat ≤ 200000 := by
  rcases hm : newest f l with _ | m
  · simp [shown, fieldFresh]
  · have hle := hl m (mem_of_newest hm)
    constructor
    · intro hfresh
      refine ⟨m, rfl, hfresh, hle, ?_⟩
      have hdiff : now - m.timestamp ≤ FIELD_TIMEOUT := by
        simp only [shown, fieldFresh, Bool.and_eq_true] at hfresh
        exact of_decide_eq_true hfresh.2
      rw [UInt64.le_iff_toNat_le, UInt64.toNat_sub_of_le _ _ hle] at hdiff
      exact hdiff
    · rintro ⟨m', hm', hfresh, -⟩
      rw [Option.some.injEq] at hm'
      rw [hm']
      exact hfresh

theorem reflects_of_read {b : ArmJointBridge K} {l : List (DebugKeyValue K)} {now : UInt64}
    (hl : ∀ m ∈ l, m.timestamp ≤ now) (hread : ∀ f, b.read f = shown (newest f l)) :
    Reflects (fun f => newest f l) ⟨now, b.q, b.dq, b.fresh now⟩ := by
  have hvalue : ∀ f m, newest f l = some m → (b.read f).1 = m.value := by
    intro f m hm
    rw [hread, hm]
    rfl
  have hfresh : ∀ f, fieldFresh (b.read f).2 now = true ↔
      ∃ m, newest f l = some m ∧ fieldFresh m.timestamp now = true ∧ m.timestamp ≤ now ∧
        now.toNat - m.timestamp.toNat ≤ 200000 := by
    intro f
    rw [hread, fresh_iff_published hl]
  refine ⟨fun i m hm => hvalue (.q i) m hm, fun i m hm => hvalue (.dq i) m hm, ?_, ?_⟩
  · intro hvalid f
    obtain ⟨m, hm, -, hle, hdiff⟩ := (hfresh f).mp (((b.fresh_iff now).mp hvalid).1 f)
    exact ⟨m, hm, hle, hdiff⟩
  · intro m hm
    rw [b.fresh_iff now, hvalue .valid m hm]
    constructor
    · rintro ⟨hall, hhalf⟩
      refine ⟨hhalf, ?_⟩
      intro f
      obtain ⟨m', hm', hf, -⟩ := (hfresh f).mp (hall f)
      exact ⟨m', hm', hf⟩
    · rintro ⟨hhalf, hall⟩
      refine ⟨?_, hhalf⟩
      intro f
      obtain ⟨m', hm', hf⟩ := hall f
      have hle := hl m' (mem_of_newest hm')
      rw [hread, hm']
      exact hf

theorem Invariant.shows {s : System K} (hs : Invariant s) {e : Event K} (ht : Timed s e) :
    Shows s e := by
  rcases e with ⟨now, memory, msg⟩ | _ | ⟨now, now'⟩
  · trivial
  · trivial
  · intro msg hmsg
    unfold published at hmsg
    rcases hu : s.topic.sub () with _ | u
    · rw [hu] at hmsg
      exact absurd hmsg (by simp)
    · have hsince : s.since = s.topic.written.drop u.start := by simp [since, hu]
      have hstamped : ∀ m ∈ s.since, m.timestamp ≤ now' := by
        intro m hm
        rw [hsince] at hm
        exact UInt64.le_trans (hs.stamped m (List.mem_of_mem_drop hm)) (UInt64.le_trans ht.1 ht.2)
      have hread : ∀ f, s.processed.read f = shown (newest f s.since) := by
        rw [hsince]
        exact hs.processed_read hu
      rw [hu, Option.isSome_some, if_pos rfl, Run_eq] at hmsg
      split at hmsg
      · rw [Option.some.injEq] at hmsg
        subst hmsg
        exact reflects_of_read hstamped hread
      · exact absurd hmsg (by simp)

/-- In every run with a clock that does not run backwards, in which no publication
overwrites an unread joint value other than its own, each published state shows the
newest publication of every value. -/
theorem published_reflects_newest (o_size : ℕ) (es : List (Event K))
    (h : Trace.Always step (fun s e => Timed s e ∧ Keeps s e) (init K o_size) es) :
    Trace.Always step Shows (init K o_size) es :=
  Trace.always_of_invariant (I := Invariant)
    (fun _ _ hs he => ⟨hs.shows he.1, invariant_step hs he.1 he.2⟩) (invariant_init o_size) h

def publication (now : UInt64) (key : List Char) (value : ℚ) : Event ℚ :=
  .publish now (fun _ => ⟨0, fun _ => 0, 0⟩)
    ⟨now, fun i => (key.map Char.toUInt8).getD i 0, num value⟩

/-- Two values, each read before the next arrives. -/
theorem published_reflects_newest_two :
    Trace.Always step Shows (init ℚ 0)
      [.start, publication 1 ['A', 'J', 'Q', '0'] 1, .run 2 3,
        publication 20000 ['A', 'J', 'D', '1'] 1, .run 30000 30001] :=
  published_reflects_newest 0 _ (by decide)

def backToBack : List (Event ℚ) :=
  [.start,
    publication 1 ['A', 'J', 'Q', '0'] 1, publication 2 ['A', 'J', 'Q', '1'] 1,
    publication 3 ['A', 'J', 'Q', '2'] 1, publication 4 ['A', 'J', 'Q', '3'] 1,
    publication 5 ['A', 'J', 'D', '0'] 1, publication 6 ['A', 'J', 'D', '1'] 1,
    publication 7 ['A', 'J', 'D', '2'] 1, publication 8 ['A', 'J', 'D', '3'] 1,
    publication 9 ['A', 'J', 'V', 'A', 'L'] 1]

/-- Only the last of them reaches the bridge. -/
theorem backToBack_loses :
    Trace.Always step Timed (init ℚ 0) (backToBack ++ [.run 10 10]) ∧
    ¬ Trace.Always step Shows (init ℚ 0) (backToBack ++ [.run 10 10]) := by
  constructor
  · decide
  · intro h
    rw [Trace.always_append] at h
    have hshows : Shows (Trace.run step (init ℚ 0) backToBack) (.run 10 10) := h.2.1
    have hq : ((Trace.run step (init ℚ 0) backToBack).published 10 10).map (fun m => m.q 0) =
        some (num 0) := by decide
    have hnewest : (newest (.q 0) (Trace.run step (init ℚ 0) backToBack).since).map
        DebugKeyValue.value = some (num 1) := by decide
    obtain ⟨msg, hmsg, hzero⟩ := Option.map_eq_some_iff.mp hq
    obtain ⟨m, hm, hone⟩ := Option.map_eq_some_iff.mp hnewest
    have heq := (hshows msg hmsg).q 0 m hm
    rw [hzero, hone, num.injEq] at heq
    exact nomatch heq

end System

end ArmJointBridge
