/-
The hand-off of the log.

A chunk that needs an acknowledgement stays the last one that is published until it is acknowledged,
so that `handleUpdate` cannot copy another one before; and what is acknowledged was received.

* `Numbered` — the chunks and their numbers, and behind which of them the logger went on;
* `Traffic` — what was sent was copied, what was received was sent, what was acknowledged was
  received;
* **`handedOff`** — the logger only goes on when the chunk was received, and only this chunk is sent
  again.
-/
import AerialManipulator.Mavlink.UlogStream

namespace MavlinkULog

open Trace

variable {c : Config} {s s' : System}

def retries (sent : List Transmission) (sequence : UInt16) : ℕ :=
  (sent.filter fun t => t.again && t.packet.sequence = sequence).length

/-- The logger has gone on after the chunk `i`. -/
def Passed (s : System) (i : ℕ) : Prop :=
  i < s.published.length ∧
    (i + 1 = s.published.length → s.logger.is_started = true ∧ s.logger.waiting = none)

structure Numbered (c : Config) (s : System) : Prop where
  sequence : ∀ i chunk, s.published[i]? = some chunk → chunk.msg_sequence = UInt16.ofNat i
  idle : s.logger.is_started = true → s.logger.waiting = none →
    s.logger.ulog_stream_data.msg_sequence = UInt16.ofNat s.published.length
  waiting : s.logger.waiting ≠ none →
    s.logger.is_started = true ∧ s.published.getLast? = some s.logger.ulog_stream_data
  gone : ∀ chunk ∈ s.gone, chunk.needAck → packetOf c true chunk ∈ s.received
  passed : ∀ i chunk, s.published[i]? = some chunk → Passed s i → chunk ∈ s.gone

/-- The chunk that was copied last was not sent. -/
def ULog.Fresh (u : ULog) : Prop := u.pc = .arm ∨ u.pc = .send

structure Traffic (c : Config) (s : System) : Prop where
  sent : ∀ t ∈ s.sent, ∃ i chunk n, s.published[i]? = some chunk ∧
    t.packet = packetOf c chunk.needAck chunk ∧ s.ulog.next = some n ∧ i < n ∧
    (s.ulog.Fresh → i + 1 < n)
  received : ∀ p ∈ s.received, ∃ t ∈ s.sent, t.packet = p
  acks : ∀ sequence ∈ s.acks, ∃ p ∈ s.received, p.sequence = sequence
  publishing : ∀ sequence, s.publishing = some sequence → ∃ p ∈ s.received, p.sequence = sequence
  updated : s.updated = true → ∃ p ∈ s.received, p.sequence = s.ulog_stream_ack

/-- `handleUpdate` waits. -/
def ULog.Awaiting (u : ULog) : Prop :=
  u.pc = .resend ∨ (u.pc = .send ∧ u.ulog_data.needAck) ∨
    ((u.pc ≠ .arm ∧ u.pc ≠ .failed ∧ u.pc ≠ .stopped) ∧ u.last_sent_time ≠ 0 ∧
      u.ack_received = false)

/-- The acknowledgement of the chunk `n`, which was copied last, has been heard of behind the lock.
-/
def Heard (s : System) (n : ℕ) : Prop :=
  Passed s n ∨ s.publishing = some s.ulog.ulog_data.msg_sequence ∨
    (s.updated = true ∧ s.ulog_stream_ack = s.ulog.ulog_data.msg_sequence)

structure Waits (s : System) : Prop where
  next_le : ∀ n, s.ulog.next = some n → n ≤ s.published.length
  copied : ∀ n, s.ulog.next = some (n + 1) → s.published[n]? = some s.ulog.ulog_data
  fresh : s.ulog.Fresh → ∃ n, s.ulog.next = some (n + 1)
  arm : s.ulog.pc = .arm →
    s.ulog.ulog_data.needAck ∧ 0 < s.ulog.ulog_data.timestamp ∧ s.ulog.sent_tries = 1
  awaiting : s.ulog.Awaiting → (∃ n, s.ulog.next = some (n + 1)) ∧ s.ulog.ulog_data.needAck ∧
    0 < s.ulog.ulog_data.timestamp
  tries : s.ulog.Awaiting →
    retries s.sent s.ulog.ulog_data.msg_sequence + (if s.ulog.pc = .resend then 2 else 1) ≤
      s.ulog.sent_tries.toNat ∧ s.ulog.sent_tries.toNat ≤ 50
  armed : ∀ n, s.ulog.next = some (n + 1) → s.ulog.ulog_data.needAck →
    0 < s.ulog.ulog_data.timestamp → s.ulog.pc ≠ .arm →
      s.ulog.wait_for_ack_sequence = s.ulog.ulog_data.msg_sequence ∧
        (Heard s n → s.ulog.ack_received = true)

structure Resent (c : Config) (s : System) : Prop where
  resent : ∀ t ∈ s.sent, t.again = true → ∃ chunk ∈ s.published, chunk.needAck ∧
    t.wait_for_ack_sequence = chunk.msg_sequence ∧ t.packet = packetOf c true chunk
  tries : ∀ sequence, retries s.sent sequence ≤ 49

structure Invariant (c : Config) (s : System) : Prop where
  numbered : Numbered c s
  traffic : Traffic c s
  waits : Waits s
  resent : Resent c s

theorem Initial.invariant (h : Initial s) (c : Config) : Invariant c s := by
  have hlength : s.published.length = 0 := by rw [h.published, List.length_nil]
  have hidle : ¬ s.ulog.Awaiting := by
    rintro (hpc | ⟨hpc, -⟩ | ⟨-, htime, -⟩)
    · exact absurd (h.pc.symm.trans hpc) (by decide)
    · exact absurd (h.pc.symm.trans hpc) (by decide)
    · exact htime h.last_sent_time
  have hnext : ∀ n, s.ulog.next ≠ some (n + 1) := by
    intro n hn
    rcases h.next with hnone | hzero
    · exact Option.some_ne_none _ (hn.symm.trans hnone)
    · exact Nat.succ_ne_zero n (Option.some.inj (hn.symm.trans hzero))
  refine ⟨⟨?_, ?_, ?_, ?_, ?_⟩, ⟨?_, ?_, ?_, ?_, ?_⟩, ⟨?_, ?_, ?_, ?_, ?_, ?_, ?_⟩, ?_, ?_⟩
  · intro i chunk hchunk
    rw [h.published, List.getElem?_nil] at hchunk
    exact nomatch hchunk
  · intro _ _
    rw [h.sequence, hlength]
    rfl
  · exact fun hwaiting => absurd h.waiting hwaiting
  · rw [h.gone]
    exact List.forall_mem_nil _
  · intro i chunk hchunk
    rw [h.published, List.getElem?_nil] at hchunk
    exact nomatch hchunk
  · rw [h.sent]
    exact List.forall_mem_nil _
  · rw [h.received]
    exact List.forall_mem_nil _
  · rw [h.acks]
    exact List.forall_mem_nil _
  · intro sequence hpublishing
    exact absurd (hpublishing.symm.trans h.publishing) (Option.some_ne_none sequence)
  · intro hupdated
    exact absurd (h.updated.symm.trans hupdated) Bool.false_ne_true
  · intro n hn
    rcases h.next with hnone | hzero
    · exact absurd (hn.symm.trans hnone) (Option.some_ne_none n)
    · rw [Option.some.inj (hn.symm.trans hzero)]
      exact Nat.zero_le _
  · exact fun n hn => absurd hn (hnext n)
  · rintro (hpc | hpc)
    · exact absurd (h.pc.symm.trans hpc) (by decide)
    · exact absurd (h.pc.symm.trans hpc) (by decide)
  · exact fun hpc => absurd (h.pc.symm.trans hpc) (by decide)
  · exact fun hawaiting => absurd hawaiting hidle
  · exact fun hawaiting => absurd hawaiting hidle
  · exact fun n hn => absurd hn (hnext n)
  · rw [h.sent]
    exact List.forall_mem_nil _
  · intro sequence
    rw [h.sent]
    exact Nat.zero_le _

/-! ### Sequences -/

theorem ofNat_succ (n : ℕ) : UInt16.ofNat n + 1 = UInt16.ofNat (n + 1) := by
  rw [UInt16.ofNat_add]
  rfl

theorem Numbered.unique (h : Numbered c s) (hlen : s.published.length < 2 ^ 16) {i j : ℕ}
    {a b : Chunk} (ha : s.published[i]? = some a) (hb : s.published[j]? = some b)
    (hseq : a.msg_sequence = b.msg_sequence) : i = j := by
  have hi : i < s.published.length := (List.getElem?_eq_some_iff.mp ha).1
  have hj : j < s.published.length := (List.getElem?_eq_some_iff.mp hb).1
  rw [h.sequence i a ha, h.sequence j b hb] at hseq
  have hnat := congrArg UInt16.toNat hseq
  rwa [UInt16.toNat_ofNat_of_lt' (hi.trans hlen), UInt16.toNat_ofNat_of_lt' (hj.trans hlen)] at hnat

theorem Invariant.received (h : Invariant c s) (hlen : s.published.length < 2 ^ 16) {p : Packet}
    (hp : p ∈ s.received) {i : ℕ} {chunk : Chunk} (hi : s.published[i]? = some chunk)
    (hseq : p.sequence = chunk.msg_sequence) :
    packetOf c chunk.needAck chunk ∈ s.received ∧
      ∃ n, s.ulog.next = some n ∧ i < n ∧ (s.ulog.Fresh → i + 1 < n) := by
  obtain ⟨t, ht, rfl⟩ := h.traffic.received p hp
  obtain ⟨j, chunk', n, hj, hpacket, hn, hjn, hfresh⟩ := h.traffic.sent t ht
  rw [hpacket] at hp hseq
  obtain rfl := h.numbered.unique hlen hj hi hseq
  rw [Option.some.inj (hj.symm.trans hi)] at hp
  exact ⟨hp, n, hn, hjn, hfresh⟩

theorem Invariant.not_heard (h : Invariant c s) (hlen : s.published.length < 2 ^ 16)
    (hpc : s.ulog.pc = .arm) {n : ℕ} (hn : s.ulog.next = some (n + 1)) : ¬ Heard s n := by
  have hchunk := h.waits.copied n hn
  have hnot : ∀ p ∈ s.received, p.sequence ≠ s.ulog.ulog_data.msg_sequence := by
    intro p hp hseq
    obtain ⟨-, m, hm, -, hfresh⟩ := h.received hlen hp hchunk hseq
    have hlt := hfresh (.inl hpc)
    rw [Option.some.inj (hm.symm.trans hn)] at hlt
    exact lt_irrefl _ hlt
  rintro (hpassed | hpublishing | ⟨hupdated, hack⟩)
  · have hgone := h.numbered.passed n _ hchunk hpassed
    exact hnot _ (h.numbered.gone _ hgone (h.waits.arm hpc).1) rfl
  · obtain ⟨p, hp, hseq⟩ := h.traffic.publishing _ hpublishing
    exact hnot p hp hseq
  · obtain ⟨p, hp, hseq⟩ := h.traffic.updated hupdated
    exact hnot p hp (hseq.trans hack)

/-! ### The logger -/

theorem Traffic.publish (h : Traffic c s) (l : Logger) (chunk : Chunk) (gone : List Chunk) :
    Traffic c { s with logger := l, published := s.published ++ [chunk], gone := gone } := by
  refine ⟨fun t ht => ?_, h.received, h.acks, h.publishing, h.updated⟩
  obtain ⟨i, chunk', n, hi, hrest⟩ := h.sent t ht
  exact ⟨i, chunk', n, List.getElem?_append_left (List.getElem?_eq_some_iff.mp hi).1 ▸ hi, hrest⟩

theorem Waits.publish (h : Waits s) (hstarted : s.logger.is_started = true)
    (hwaiting : s.logger.waiting = none) (l : Logger) (chunk : Chunk) (gone : List Chunk) :
    Waits { s with logger := l, published := s.published ++ [chunk], gone := gone } := by
  have hlt : ∀ n, s.ulog.next = some (n + 1) → n < s.published.length := fun n hn => h.next_le _ hn
  refine ⟨fun n hn => ?_, fun n hn => ?_, h.fresh, h.arm, h.awaiting, h.tries,
    fun n hn hneed htime hpc => ?_⟩
  · rw [List.length_append]
    exact (h.next_le n hn).trans (Nat.le_add_right _ _)
  · rw [List.getElem?_append_left (hlt n hn)]
    exact h.copied n hn
  · obtain ⟨hwait, hheard⟩ := h.armed n hn hneed htime hpc
    refine ⟨hwait, fun hheard' => hheard ?_⟩
    rcases hheard' with - | hack
    · exact .inl ⟨hlt n hn, fun _ => ⟨hstarted, hwaiting⟩⟩
    · exact .inr hack

theorem Resent.publish (h : Resent c s) (l : Logger) (chunk : Chunk) (gone : List Chunk) :
    Resent c { s with logger := l, published := s.published ++ [chunk], gone := gone } := by
  refine ⟨fun t ht hagain => ?_, h.tries⟩
  obtain ⟨chunk', hchunk, hrest⟩ := h.resent t ht hagain
  exact ⟨chunk', List.mem_append_left _ hchunk, hrest⟩

theorem Numbered.sequence_append (h : Numbered c s) (hstarted : s.logger.is_started = true)
    (hwaiting : s.logger.waiting = none) {chunk : Chunk}
    (hchunk : chunk.msg_sequence = s.logger.ulog_stream_data.msg_sequence) (i : ℕ) (chunk' : Chunk)
    (hi : (s.published ++ [chunk])[i]? = some chunk') : chunk'.msg_sequence = UInt16.ofNat i := by
  rcases Nat.lt_or_ge i s.published.length with hlt | hge
  · rw [List.getElem?_append_left hlt] at hi
    exact h.sequence i chunk' hi
  · rw [List.getElem?_append_right hge, List.getElem?_singleton] at hi
    split_ifs at hi with heq
    rw [← Option.some.inj hi, hchunk, h.idle hstarted hwaiting]
    congr 1
    omega

theorem needAck_fill (l : Logger) (need_reliable : Bool) (now : UInt64)
    (length first_message_offset : UInt8) (data : List UInt8) :
    (l.fill need_reliable now length first_message_offset data).ulog_stream_data.needAck =
      need_reliable := by
  have htrue : decide (FLAGS_NEED_ACK &&& FLAGS_NEED_ACK ≠ 0) = true := by decide
  have hfalse : decide ((0 : UInt8) &&& FLAGS_NEED_ACK ≠ 0) = false := by decide
  cases need_reliable with
  | true => exact htrue
  | false => exact hfalse

theorem Numbered.publish (h : Numbered c s) (hstarted : s.logger.is_started = true)
    (hwaiting : s.logger.waiting = none) (need_reliable : Bool) (now started : UInt64)
    (length first_message_offset : UInt8) (data : List UInt8) :
    Numbered c (s.publish need_reliable now started length first_message_offset data) := by
  rw [System.publish]
  have hseq := fun chunk hchunk => @Numbered.sequence_append c s h hstarted hwaiting chunk hchunk
  cases need_reliable with
  | true =>
    rw [if_pos rfl]
    refine ⟨hseq _ rfl, fun _ hnone => absurd hnone (Option.some_ne_none started),
      fun _ => ⟨hstarted, List.getLast?_concat⟩, h.gone, fun i chunk hi hpassed => ?_⟩
    have hlt : i < s.published.length := by
      have hle := hpassed.1
      rw [List.length_append, List.length_singleton] at hle
      refine lt_of_le_of_ne (Nat.lt_succ_iff.mp hle) fun heq => ?_
      have hnone := (hpassed.2 (by rw [List.length_append, List.length_singleton, heq])).2
      exact Option.some_ne_none started hnone
    rw [List.getElem?_append_left hlt] at hi
    exact h.passed i chunk hi ⟨hlt, fun _ => ⟨hstarted, hwaiting⟩⟩
  | false =>
    rw [if_neg Bool.false_ne_true]
    refine ⟨hseq _ rfl, fun _ _ => ?_, fun hnot => absurd rfl hnot, fun chunk hchunk hneed => ?_,
      fun i chunk hi hpassed => ?_⟩
    · rw [List.length_append, List.length_singleton, ← ofNat_succ, ← h.idle hstarted hwaiting]
      rfl
    · rcases List.mem_append.mp hchunk with hgone | hlast
      · exact h.gone chunk hgone hneed
      · rw [List.mem_singleton.mp hlast, needAck_fill] at hneed
        exact nomatch hneed
    · rcases Nat.lt_or_ge i s.published.length with hlt | hge
      · rw [List.getElem?_append_left hlt] at hi
        exact List.mem_append_left _ (h.passed i chunk hi ⟨hlt, fun _ => ⟨hstarted, hwaiting⟩⟩)
      · rw [List.getElem?_append_right hge] at hi
        exact List.mem_append_right _ (List.mem_of_getElem? hi)

theorem Invariant.publish (h : Invariant c s) (hstarted : s.logger.is_started = true)
    (hwaiting : s.logger.waiting = none) (need_reliable : Bool) (now started : UInt64)
    (length first_message_offset : UInt8) (data : List UInt8) :
    Invariant c (s.publish need_reliable now started length first_message_offset data) := by
  refine ⟨h.numbered.publish hstarted hwaiting _ _ _ _ _ _, ?_, ?_, ?_⟩
  · cases need_reliable with
    | true => exact h.traffic.publish _ _ _
    | false => exact h.traffic.publish _ _ _
  · cases need_reliable with
    | true => exact h.waits.publish hstarted hwaiting _ _ _
    | false => exact h.waits.publish hstarted hwaiting _ _ _
  · cases need_reliable with
    | true => exact h.resent.publish _ _ _
    | false => exact h.resent.publish _ _ _

theorem Waits.of_heard (h : Waits s) (hulog : s'.ulog = s.ulog)
    (hpublished : s'.published = s.published) (hsent : s'.sent = s.sent)
    (hheard : ∀ n, s.ulog.next = some (n + 1) → Heard s' n → Heard s n) : Waits s' := by
  refine ⟨?_, ?_, ?_, ?_, ?_, ?_, ?_⟩
  · rw [hulog, hpublished]
    exact h.next_le
  · rw [hulog, hpublished]
    exact h.copied
  · rw [hulog]
    exact h.fresh
  · rw [hulog]
    exact h.arm
  · rw [hulog]
    exact h.awaiting
  · rw [hulog, hsent]
    exact h.tries
  · rw [hulog]
    intro n hn hneed htime hpc
    obtain ⟨hwait, himp⟩ := h.armed n hn hneed htime hpc
    exact ⟨hwait, fun hheard' => himp (hheard n hn hheard')⟩

theorem Invariant.stopLog (h : Invariant c s) (updated : Bool)
    (hupdated : updated = true → s.updated = true) :
    Invariant c { s with logger := s.logger.stopLog, updated := updated } := by
  have hpassed : ∀ n, Passed { s with logger := s.logger.stopLog, updated := updated } n →
      Passed s n := fun n hn => ⟨hn.1, fun heq => absurd (hn.2 heq).1 Bool.false_ne_true⟩
  refine ⟨⟨h.numbered.sequence, fun hfalse => absurd hfalse Bool.false_ne_true,
    fun hnot => absurd rfl hnot, h.numbered.gone,
    fun i chunk hi hp => h.numbered.passed i chunk hi (hpassed i hp)⟩,
    ⟨h.traffic.sent, h.traffic.received, h.traffic.acks, h.traffic.publishing,
      fun hup => h.traffic.updated (hupdated hup)⟩,
    h.waits.of_heard rfl rfl rfl fun n _ hheard => ?_, ⟨h.resent.resent, h.resent.tries⟩⟩
  rcases hheard with hp | hpublishing | ⟨hup, hack⟩
  · exact .inl (hpassed n hp)
  · exact .inr (.inl hpublishing)
  · exact .inr (.inr ⟨hupdated hup, hack⟩)

theorem Invariant.poll (h : Invariant c s) (hlen : s.published.length < 2 ^ 16)
    (hwaiting : s.logger.waiting ≠ none) (hupdated : s.updated = true) (started now : UInt64) :
    Invariant c (s.poll started now) := by
  rw [System.poll]
  split_ifs with hack
  · obtain ⟨hstarted, hlast⟩ := h.numbered.waiting hwaiting
    rw [List.getLast?_eq_getElem?] at hlast
    have hpos : s.published.length - 1 < s.published.length :=
      (List.getElem?_eq_some_iff.mp hlast).1
    have hreceived : packetOf c s.logger.ulog_stream_data.needAck s.logger.ulog_stream_data ∈
        s.received := by
      obtain ⟨p, hp, hseq⟩ := h.traffic.updated hupdated
      exact (h.received hlen hp hlast (hseq.trans hack)).1
    refine ⟨⟨h.numbered.sequence, fun _ _ => ?_, fun hnot => absurd rfl hnot,
      fun chunk hchunk hneed => ?_, fun i chunk hi hpassed => ?_⟩,
      ⟨h.traffic.sent, h.traffic.received, h.traffic.acks, h.traffic.publishing,
        fun hfalse => nomatch hfalse⟩,
      h.waits.of_heard rfl rfl rfl fun n hn hheard => ?_, ⟨h.resent.resent, h.resent.tries⟩⟩
    · have hsucc : s.published.length = s.published.length - 1 + 1 := by omega
      dsimp only
      rw [hsucc, ← ofNat_succ, ← h.numbered.sequence _ _ hlast]
      rfl
    · rcases List.mem_append.mp hchunk with hgone | hnew
      · exact h.numbered.gone chunk hgone hneed
      · rw [List.mem_singleton] at hnew
        rw [← hnew, hneed] at hreceived
        exact hreceived
    · rcases Nat.lt_or_ge (i + 1) s.published.length with hlt | hge
      · exact List.mem_append_left _ (h.numbered.passed i chunk hi ⟨hpassed.1, fun heq =>
          absurd heq hlt.ne⟩)
      · have heq : i = s.published.length - 1 := by
          have hlt := hpassed.1
          dsimp only at hlt
          omega
        rw [heq] at hi
        exact List.mem_append_right _
          (List.mem_singleton.mpr (Option.some.inj (hi.symm.trans hlast)))
    · rcases hheard with hp | hpublishing | ⟨hfalse, -⟩
      · rcases Nat.lt_or_ge (n + 1) s.published.length with hlt | hge
        · exact .inl ⟨hp.1, fun heq => absurd heq hlt.ne⟩
        · -- it is the chunk that the logger waited for
          have heq : n = s.published.length - 1 := by
            have hlt := hp.1
            dsimp only at hlt
            omega
          have hdata := h.waits.copied n hn
          rw [heq] at hdata
          rw [Option.some.inj (hlast.symm.trans hdata)] at hack
          exact .inr (.inr ⟨hupdated, hack⟩)
      · exact .inr (.inl hpublishing)
      · exact nomatch hfalse
  · refine ⟨⟨h.numbered.sequence, h.numbered.idle, h.numbered.waiting, h.numbered.gone,
      h.numbered.passed⟩,
      ⟨h.traffic.sent, h.traffic.received, h.traffic.acks, h.traffic.publishing,
        fun hfalse => nomatch hfalse⟩,
      h.waits.of_heard rfl rfl rfl fun n _ hheard => ?_, ⟨h.resent.resent, h.resent.tries⟩⟩
    rcases hheard with hp | hpublishing | ⟨hfalse, -⟩
    · exact .inl hp
    · exact .inr (.inl hpublishing)
    · exact nomatch hfalse
  · exact h.stopLog false fun hfalse => nomatch hfalse

/-! ### `handleUpdate` -/

theorem Invariant.withUlog (h : Invariant c s) {u : ULog}
    (hsent : ∀ t ∈ s.sent, ∃ i chunk n, s.published[i]? = some chunk ∧
      t.packet = packetOf c chunk.needAck chunk ∧ u.next = some n ∧ i < n ∧ (u.Fresh → i + 1 < n))
    (hwaits : Waits { s with ulog := u }) : Invariant c { s with ulog := u } :=
  ⟨⟨h.numbered.sequence, h.numbered.idle, h.numbered.waiting, h.numbered.gone, h.numbered.passed⟩,
    ⟨hsent, h.traffic.received, h.traffic.acks, h.traffic.publishing, h.traffic.updated⟩, hwaits,
    ⟨h.resent.resent, h.resent.tries⟩⟩

/-- Between two messages. -/
def Pc.Plain (pc : Pc) : Prop := pc = .idle ∨ pc = .loop ∨ pc = .rate

theorem Pc.Plain.ne {pc : Pc} (h : pc.Plain) : pc ≠ .arm ∧ pc ≠ .send ∧ pc ≠ .resend ∧
    pc ≠ .failed ∧
    pc ≠ .stopped := by
  rcases h with rfl | rfl | rfl
  · decide
  · decide
  · decide

theorem ULog.awaiting_plain {u : ULog} (h : u.pc.Plain) :
    u.Awaiting ↔ u.last_sent_time ≠ 0 ∧ u.ack_received = false := by
  obtain ⟨harm, hsend, hresend, hfailed, hstopped⟩ := h.ne
  constructor
  · rintro (hpc | ⟨hpc, -⟩ | ⟨-, hrest⟩)
    · exact absurd hpc hresend
    · exact absurd hpc hsend
    · exact hrest
  · exact fun hrest => .inr (.inr ⟨⟨harm, hfailed, hstopped⟩, hrest⟩)

theorem Invariant.turn (h : Invariant c s) (hold : s.ulog.pc ≠ .arm) {pc : Pc} (harm : pc ≠ .arm)
    (hsend : pc ≠ .send) (tries : UInt8) (time : UInt64) (num : ℕ) (check : UInt64)
    (hawaiting : { s.ulog with
      pc := pc, sent_tries := tries, last_sent_time := time, current_num_msgs := num,
      next_rate_check := check : ULog }.Awaiting → s.ulog.Awaiting ∧
        (retries s.sent s.ulog.ulog_data.msg_sequence + (if pc = .resend then 2 else 1) ≤
          tries.toNat ∧
          tries.toNat ≤ 50)) :
    Invariant c { s with ulog := { s.ulog with
      pc := pc, sent_tries := tries, last_sent_time := time, current_num_msgs := num,
      next_rate_check := check } } := by
  have hfresh : ¬ (pc = .arm ∨ pc = .send) := not_or.mpr ⟨harm, hsend⟩
  refine h.withUlog (fun t ht => ?_)
    ⟨h.waits.next_le, h.waits.copied, fun hf => absurd hf hfresh, fun hpc => absurd hpc harm,
      fun ha => h.waits.awaiting (hawaiting ha).1, fun ha => (hawaiting ha).2,
      fun n hn hneed htime _ => h.waits.armed n hn hneed htime hold⟩
  obtain ⟨i, chunk, n, hi, hpacket, hn, hin, -⟩ := h.traffic.sent t ht
  exact ⟨i, chunk, n, hi, hpacket, hn, hin, fun hf => absurd hf hfresh⟩

theorem Invariant.plain (h : Invariant c s) (hold : s.ulog.pc.Plain) {pc : Pc} (hnew : pc.Plain)
    (num : ℕ) (check : UInt64) :
    Invariant c { s with ulog := { s.ulog with
      pc := pc, current_num_msgs := num, next_rate_check := check } } := by
  refine h.turn hold.ne.1 hnew.ne.1 hnew.ne.2.1 s.ulog.sent_tries s.ulog.last_sent_time num check
    fun ha => ?_
  have hrest := (ULog.awaiting_plain (by exact hnew)).mp ha
  have hwaits : s.ulog.Awaiting := (ULog.awaiting_plain hold).mpr hrest
  have htries := h.waits.tries hwaits
  rw [if_neg hold.ne.2.2.1] at htries
  rw [if_neg hnew.ne.2.2.1]
  exact ⟨hwaits, htries⟩

theorem Invariant.start (h : Invariant c s) (hpc : s.ulog.pc = .idle) (t t' : UInt64) :
    Invariant c { s with ulog := s.ulog.start t t' } := by
  have hold : s.ulog.pc.Plain := .inl hpc
  rw [ULog.start]
  split_ifs with htime hack helapsed hmax
  · refine h.turn hold.ne.1 (by decide) (by decide) s.ulog.sent_tries 0 s.ulog.current_num_msgs
      s.ulog.next_rate_check fun ha => ?_
    exact absurd rfl ((ULog.awaiting_plain (by exact .inr (.inl rfl))).mp ha).1
  · refine h.turn hold.ne.1 (by decide) (by decide) (s.ulog.sent_tries + 1) s.ulog.last_sent_time
      s.ulog.current_num_msgs s.ulog.next_rate_check fun ha => ?_
    rcases ha with hpc' | ⟨hpc', -⟩ | ⟨⟨-, hpc', -⟩, -⟩
    · exact absurd hpc' (show Pc.failed ≠ Pc.resend by decide)
    · exact absurd hpc' (show Pc.failed ≠ Pc.send by decide)
    · exact absurd rfl hpc'
  · have hwaits : s.ulog.Awaiting :=
      (ULog.awaiting_plain hold).mpr ⟨htime, (Bool.not_eq_true _).mp hack⟩
    have htries := h.waits.tries hwaits
    rw [if_neg hold.ne.2.2.1] at htries
    have hsucc : (s.ulog.sent_tries + 1).toNat = s.ulog.sent_tries.toNat + 1 := by
      rw [UInt8.toNat_add]
      exact Nat.mod_eq_of_lt (Nat.lt_of_le_of_lt (Nat.succ_le_succ htries.2) (by decide))
    have hle : s.ulog.sent_tries.toNat + 1 ≤ 50 := by
      rw [← hsucc]
      exact UInt8.le_iff_toNat_le.mp (UInt8.not_lt.mp hmax)
    refine h.turn hold.ne.1 (by decide) (by decide)
      (s.ulog.sent_tries + 1) t' s.ulog.current_num_msgs
      s.ulog.next_rate_check fun _ => ⟨hwaits, ?_⟩
    rw [if_pos rfl, hsucc]
    exact ⟨Nat.succ_le_succ htries.1, hle⟩
  · exact h
  · exact h.plain hold (.inr (.inl rfl)) _ _

/-! ### Messages are copied and sent -/

/-- The message that `Subscription::update` copies is not older than the generation. -/
theorem update_eq_some {published : List Chunk} {next : Option ℕ} {chunk : Chunk} {k : ℕ}
    (h : update published next = some (chunk, k)) : ∃ n, k = n + 1 ∧ published[n]? = some chunk ∧
      ∀ g, next = some g → g ≤ n ∧ g ≠ published.length := by
  rw [update] at h
  dsimp only at h
  split_ifs at h with heq
  obtain ⟨chunk', hchunk, hpair⟩ := Option.map_eq_some_iff.mp h
  obtain ⟨rfl, rfl⟩ := Prod.mk.inj hpair
  refine ⟨_, rfl, hchunk, fun g hg => ?_⟩
  rw [hg, Option.getD_some] at heq ⊢
  exact ⟨le_max_left _ _, heq⟩

theorem Invariant.not_awaiting (h : Invariant c s) (hpc : s.ulog.pc = .loop) {n : ℕ}
    (hlt : n < s.published.length)
    (hn : ∀ g, s.ulog.next = some g → g ≤ n) : ¬ s.ulog.Awaiting := by
  intro ha
  obtain ⟨⟨m, hm⟩, hneed, htime⟩ := h.waits.awaiting ha
  have harm : s.ulog.pc ≠ .arm := by rw [hpc]; decide
  have hpassed : Passed s m := by
    have hmn := hn _ hm
    exact ⟨by omega, fun heq => absurd heq (by omega)⟩
  have hack := (h.waits.armed m hm hneed htime harm).2 (.inl hpassed)
  have hnot := ((ULog.awaiting_plain (.inr (.inl hpc))).mp ha).2
  exact absurd (hnot.symm.trans hack) Bool.false_ne_true

theorem Invariant.copy (h : Invariant c s) {chunk : Chunk} {k : ℕ}
    (hupdate : update s.published s.ulog.next = some (chunk, k)) (u : ULog)
    (hnext : u.next = some k) (hdata : u.ulog_data = chunk) (hnot : ¬ u.Awaiting)
    (hneed : chunk.needAck → 0 < chunk.timestamp → u.pc = .arm)
    (harm : u.pc = .arm → chunk.needAck ∧ 0 < chunk.timestamp ∧ u.sent_tries = 1) :
    Invariant c { s with ulog := u } := by
  obtain ⟨n, rfl, hchunk, hn⟩ := update_eq_some hupdate
  have hlt : n < s.published.length := (List.getElem?_eq_some_iff.mp hchunk).1
  refine h.withUlog (fun t ht => ?_)
    ⟨fun m hm => ?_, fun m hm => ?_, fun _ => ⟨n, hnext⟩, fun hpc => hdata ▸ harm hpc,
      fun ha => absurd ha hnot, fun ha => absurd ha hnot, fun m hm hack htime hpc => ?_⟩
  · obtain ⟨i, chunk', m, hi, hpacket, hm, him, -⟩ := h.traffic.sent t ht
    have hle := (hn m hm).1
    exact ⟨i, chunk', n + 1, hi, hpacket, hnext, by omega, fun _ => by omega⟩
  · rw [← Option.some.inj (hnext.symm.trans hm)]
    exact hlt
  · rw [← Nat.succ_inj.mp (Option.some.inj (hnext.symm.trans hm)), hdata]
    exact hchunk
  · rw [hdata] at hack htime
    exact absurd (hneed hack htime) hpc

theorem Invariant.copied (h : Invariant c s) (hpc : s.ulog.pc = .loop) {chunk : Chunk} {k : ℕ}
    (hupdate : update s.published s.ulog.next = some (chunk, k)) (t : UInt64) :
    Invariant c { s with ulog := s.ulog.copied t chunk k } := by
  have hnot : ¬ (s.ulog.last_sent_time ≠ 0 ∧ s.ulog.ack_received = false) := by
    obtain ⟨n, -, hchunk, hn⟩ := update_eq_some hupdate
    have hlt : n < s.published.length := (List.getElem?_eq_some_iff.mp hchunk).1
    rw [← ULog.awaiting_plain (.inr (.inl hpc))]
    exact h.not_awaiting hpc hlt fun g hg => (hn g hg).1
  rw [ULog.copied]
  dsimp only
  split_ifs with htime hneed
  · refine h.copy hupdate _ rfl rfl ?_ (fun _ _ => rfl) fun _ => ⟨hneed, htime, rfl⟩
    rintro (hpc' | ⟨hpc', -⟩ | ⟨⟨hpc', -⟩, -⟩)
    · exact absurd hpc' (show Pc.arm ≠ Pc.resend by decide)
    · exact absurd hpc' (show Pc.arm ≠ Pc.send by decide)
    · exact absurd rfl hpc'
  · refine h.copy hupdate _ rfl rfl ?_ (fun hack => absurd hack hneed)
      fun hpc' => absurd hpc' (show Pc.send ≠ Pc.arm by decide)
    rintro (hpc' | ⟨-, hack⟩ | ⟨-, hrest⟩)
    · exact absurd hpc' (show Pc.send ≠ Pc.resend by decide)
    · exact absurd hack hneed
    · exact absurd hrest hnot
  · refine h.copy hupdate _ rfl rfl ?_ (fun _ hpos => absurd hpos htime) fun hpc' => ?_
    · intro ha
      have hrest := (ULog.awaiting_plain (by exact .inr (.inl hpc))).mp ha
      exact hnot hrest
    · exact absurd (hpc.symm.trans hpc') (by decide)

theorem Invariant.arm (h : Invariant c s) (hlen : s.published.length < 2 ^ 16)
    (hpc : s.ulog.pc = .arm) :
    Invariant c { s with ulog := { s.ulog with
      wait_for_ack_sequence := s.ulog.ulog_data.msg_sequence, ack_received := false, pc :=
        .send } } := by
  obtain ⟨n, hn⟩ := h.waits.fresh (.inl hpc)
  obtain ⟨hneed, htime, htries⟩ := h.waits.arm hpc
  have hheard := h.not_heard hlen hpc hn
  have hnone : retries s.sent s.ulog.ulog_data.msg_sequence = 0 := by
    rw [retries, List.length_eq_zero_iff, List.filter_eq_nil_iff]
    intro t ht hagain
    rw [Bool.and_eq_true, decide_eq_true_eq] at hagain
    obtain ⟨i, chunk, m, hi, hpacket, hm, -, hfresh⟩ := h.traffic.sent t ht
    rw [hpacket] at hagain
    have heq := h.numbered.unique hlen hi (h.waits.copied n hn) hagain.2
    have hlt := hfresh (.inl hpc)
    rw [heq, Option.some.inj (hm.symm.trans hn)] at hlt
    exact lt_irrefl _ hlt
  refine h.withUlog (fun t ht => ?_)
    ⟨h.waits.next_le, h.waits.copied, fun _ => ⟨n, hn⟩,
      fun hpc' => absurd hpc' (show Pc.send ≠ Pc.arm by decide), fun _ => ⟨⟨n, hn⟩, hneed, htime⟩,
      fun _ => ?_, fun m hm _ _ _ => ⟨rfl, fun hheard' => ?_⟩⟩
  · obtain ⟨i, chunk, m, hi, hpacket, hm, him, hfresh⟩ := h.traffic.sent t ht
    exact ⟨i, chunk, m, hi, hpacket, hm, him, fun _ => hfresh (.inl hpc)⟩
  · dsimp only
    rw [hnone, htries, if_neg (show Pc.send ≠ Pc.resend by decide)]
    decide
  · have heq : m = n := Nat.succ_inj.mp (Option.some.inj (hm.symm.trans hn))
    rw [heq] at hheard'
    exact absurd hheard' hheard

theorem retries_concat (sent : List Transmission) (t : Transmission) (sequence : UInt16) :
    retries (sent ++ [t]) sequence =
      retries sent sequence + if t.again && t.packet.sequence = sequence then 1 else 0 := by
  rw [retries, List.filter_append, List.length_append, retries, Nat.add_left_cancel_iff]
  split_ifs with hagain
  · rw [List.filter_singleton, hagain]
    rfl
  · rw [List.filter_singleton, (Bool.not_eq_true _).mp hagain]
    rfl

theorem retries_concat_le (sent : List Transmission) (t : Transmission) (sequence : UInt16) :
    retries (sent ++ [t]) sequence ≤ retries sent sequence + 1 := by
  rw [retries_concat]
  split_ifs
  · exact le_rfl
  · exact Nat.le_succ _

theorem Invariant.transmit (h : Invariant c s) {n : ℕ} (hn : s.ulog.next = some (n + 1))
    (again : Bool) {pc : Pc} (hpc : pc.Plain) : Traffic c { s with
      sent := s.transmit c s.ulog.ulog_data.needAck again
      ulog := { s.ulog with pc := pc } } := by
  have hfresh : ¬ (pc = .arm ∨ pc = .send) := not_or.mpr ⟨hpc.ne.1, hpc.ne.2.1⟩
  refine ⟨fun t ht => ?_, fun p hp => ?_, h.traffic.acks, h.traffic.publishing, h.traffic.updated⟩
  · rcases List.mem_append.mp ht with hold | hnew
    · obtain ⟨i, chunk, m, hi, hpacket, hm, him, -⟩ := h.traffic.sent t hold
      exact ⟨i, chunk, m, hi, hpacket, hm, him, fun hf => absurd hf hfresh⟩
    · rw [List.mem_singleton] at hnew
      rw [hnew]
      exact ⟨n, _, n + 1, h.waits.copied n hn, rfl, hn, n.lt_succ_self, fun hf => absurd hf hfresh⟩
  · obtain ⟨t, ht, htp⟩ := h.traffic.received p hp
    exact ⟨t, List.mem_append_left _ ht, htp⟩

theorem Invariant.resend (h : Invariant c s) (hpc : s.ulog.pc = .resend) :
    Invariant c { s with sent := s.transmit c true true, ulog := { s.ulog with pc := .idle } } := by
  have hwaits : s.ulog.Awaiting := .inl hpc
  obtain ⟨⟨n, hn⟩, hneed, htime⟩ := h.waits.awaiting hwaits
  have htries := h.waits.tries hwaits
  rw [if_pos hpc] at htries
  have harm : s.ulog.pc ≠ .arm := by rw [hpc]; decide
  have hdata := h.waits.copied n hn
  obtain ⟨hwait, hheard⟩ := h.waits.armed n hn hneed htime harm
  have htraffic := h.transmit hn true (.inl rfl)
  rw [hneed] at htraffic
  refine ⟨⟨h.numbered.sequence, h.numbered.idle, h.numbered.waiting, h.numbered.gone,
    h.numbered.passed⟩, htraffic,
    ⟨h.waits.next_le, h.waits.copied, ?_, fun hpc' => absurd hpc' (show Pc.idle ≠ Pc.arm by decide),
      fun _ => ⟨⟨n, hn⟩, hneed, htime⟩, fun _ => ?_, ?_⟩, ?_, fun sequence => ?_⟩
  · rintro (hpc' | hpc')
    · exact absurd hpc' (show Pc.idle ≠ Pc.arm by decide)
    · exact absurd hpc' (show Pc.idle ≠ Pc.send by decide)
  · dsimp only
    rw [if_neg (show Pc.idle ≠ Pc.resend by decide)]
    have hle : retries (s.transmit c true true) s.ulog.ulog_data.msg_sequence ≤
        retries s.sent s.ulog.ulog_data.msg_sequence + 1 := retries_concat_le _ _ _
    refine ⟨?_, htries.2⟩
    omega
  · intro m hm _ _ _
    have heq : m = n := Nat.succ_inj.mp (Option.some.inj (hm.symm.trans hn))
    rw [heq]
    exact ⟨hwait, hheard⟩
  · intro t ht hagain
    rcases List.mem_append.mp ht with hold | hnew
    · exact h.resent.resent t hold hagain
    · rw [List.mem_singleton] at hnew
      rw [hnew]
      exact ⟨_, List.mem_of_getElem? hdata, hneed, hwait, rfl⟩
  · dsimp only
    rw [System.transmit, retries_concat]
    split_ifs with hseq
    · rw [Bool.true_and, decide_eq_true_eq] at hseq
      rw [← hseq]
      exact Nat.le_of_add_le_add_right (b := 1) (htries.1.trans htries.2)
    · exact h.resent.tries sequence

theorem Invariant.send (h : Invariant c s) (hpc : s.ulog.pc = .send) (num : ℕ) :
    Invariant c { s with
      sent := s.transmit c s.ulog.ulog_data.needAck false
      ulog := { s.ulog with current_num_msgs := num, pc := .loop } } := by
  obtain ⟨n, hn⟩ := h.waits.fresh (.inr hpc)
  have htraffic := h.transmit hn false (.inr (.inl rfl))
  have hcount : ∀ sequence, retries (s.transmit c s.ulog.ulog_data.needAck false) sequence =
      retries s.sent sequence := by
    intro sequence
    rw [System.transmit, retries_concat, Bool.false_and, if_neg Bool.false_ne_true, Nat.add_zero]
  have harm : s.ulog.pc ≠ .arm := by rw [hpc]; decide
  have hawaiting : { s.ulog with current_num_msgs := num, pc := .loop : ULog }.Awaiting →
      s.ulog.Awaiting := by
    intro ha
    have hrest := (ULog.awaiting_plain (by exact .inr (.inl rfl))).mp ha
    refine .inr (.inr ⟨?_, hrest⟩)
    rw [hpc]
    decide
  refine ⟨⟨h.numbered.sequence, h.numbered.idle, h.numbered.waiting, h.numbered.gone,
    h.numbered.passed⟩,
    ⟨htraffic.sent, htraffic.received, htraffic.acks, htraffic.publishing, htraffic.updated⟩,
    ⟨h.waits.next_le, h.waits.copied, ?_, fun hpc' => absurd hpc' (show Pc.loop ≠ Pc.arm by decide),
      fun ha => h.waits.awaiting (hawaiting ha), fun ha => ?_,
      fun m hm hneed htime _ => h.waits.armed m hm hneed htime harm⟩, ?_, fun sequence => ?_⟩
  · rintro (hpc' | hpc')
    · exact absurd hpc' (show Pc.loop ≠ Pc.arm by decide)
    · exact absurd hpc' (show Pc.loop ≠ Pc.send by decide)
  · have htries := h.waits.tries (hawaiting ha)
    rw [if_neg (by rw [hpc]; decide)] at htries
    dsimp only
    rw [hcount, if_neg (show Pc.loop ≠ Pc.resend by decide)]
    exact htries
  · intro t ht hagain
    rcases List.mem_append.mp ht with hold | hnew
    · exact h.resent.resent t hold hagain
    · rw [List.mem_singleton] at hnew
      rw [hnew] at hagain
      exact nomatch hagain
  · dsimp only
    rw [hcount]
    exact h.resent.tries sequence

theorem Invariant.handleUpdate (h : Invariant c s) (hlen : s.published.length < 2 ^ 16)
    (t t' : UInt64) : Invariant c (handleUpdate c s t t') := by
  rw [MavlinkULog.handleUpdate]
  cases hpc : s.ulog.pc with
  | idle => exact h.start hpc t t'
  | resend => exact h.resend hpc
  | loop =>
    have hplain : s.ulog.pc.Plain := .inr (.inl hpc)
    dsimp only
    split_ifs
    · cases hupdate : update s.published s.ulog.next with
      | none => exact h.plain hplain (.inr (.inr rfl)) _ _
      | some message => exact h.copied hpc hupdate t
    · exact h.plain hplain (.inr (.inr rfl)) _ _
  | arm =>
    dsimp only
    split_ifs
    · exact h.arm hlen hpc
    · exact h
  | send => exact h.send hpc _
  | rate =>
    have hplain : s.ulog.pc.Plain := .inr (.inr hpc)
    dsimp only
    split_ifs
    · exact h.plain hplain (.inl rfl) _ _
    · exact h.plain hplain (.inl rfl) _ _
  | failed => exact h
  | stopped => exact h

/-! ### Every run -/

theorem Invariant.stop (h : Invariant c s) (hpc : s.ulog.pc = .idle ∨ s.ulog.pc = .failed) :
    Invariant c { s with ulog := { s.ulog with pc := .stopped } } := by
  refine h.turn ?_ (by decide) (by decide) s.ulog.sent_tries s.ulog.last_sent_time
    s.ulog.current_num_msgs s.ulog.next_rate_check fun ha => ?_
  · rcases hpc with hpc | hpc
    · rw [hpc]
      decide
    · rw [hpc]
      decide
  · rcases ha with hpc' | ⟨hpc', -⟩ | ⟨⟨-, -, hpc'⟩, -⟩
    · exact absurd hpc' (show Pc.stopped ≠ Pc.resend by decide)
    · exact absurd hpc' (show Pc.stopped ≠ Pc.send by decide)
    · exact absurd rfl hpc'

theorem Invariant.deliver (h : Invariant c s) {packet : Packet}
    (hpacket : packet ∈ s.sent.map Transmission.packet) :
    Invariant c { s with received := s.received ++ [packet] } := by
  have hmono : ∀ sequence, (∃ p ∈ s.received, p.sequence = sequence) →
      ∃ p ∈ s.received ++ [packet], p.sequence = sequence := by
    rintro sequence ⟨p, hp, hseq⟩
    exact ⟨p, List.mem_append_left _ hp, hseq⟩
  refine ⟨⟨h.numbered.sequence, h.numbered.idle, h.numbered.waiting,
    fun chunk hchunk hneed => List.mem_append_left _ (h.numbered.gone chunk hchunk hneed),
    h.numbered.passed⟩,
    ⟨h.traffic.sent, fun p hp => ?_, fun sequence hack => hmono _ (h.traffic.acks sequence hack),
      fun sequence hpub => hmono _ (h.traffic.publishing sequence hpub),
      fun hupdated => hmono _ (h.traffic.updated hupdated)⟩,
    h.waits.of_heard rfl rfl rfl fun _ _ hheard => hheard, ⟨h.resent.resent, h.resent.tries⟩⟩
  rcases List.mem_append.mp hp with hold | hnew
  · exact h.traffic.received p hold
  · obtain ⟨t, ht, htp⟩ := List.mem_map.mp hpacket
    exact ⟨t, ht, htp.trans (List.mem_singleton.mp hnew).symm⟩

theorem Invariant.acknowledge (h : Invariant c s) {packet : Packet}
    (hpacket : packet ∈ s.received) :
    Invariant c { s with acks := s.acks ++ [packet.sequence] } := by
  refine ⟨⟨h.numbered.sequence, h.numbered.idle, h.numbered.waiting, h.numbered.gone,
    h.numbered.passed⟩,
    ⟨h.traffic.sent, h.traffic.received, fun sequence hack => ?_, h.traffic.publishing,
      h.traffic.updated⟩,
    h.waits.of_heard rfl rfl rfl fun _ _ hheard => hheard, ⟨h.resent.resent, h.resent.tries⟩⟩
  rcases List.mem_append.mp hack with hold | hnew
  · exact h.traffic.acks sequence hold
  · exact ⟨packet, hpacket, (List.mem_singleton.mp hnew).symm⟩

theorem Invariant.handle_ack (h : Invariant c s) {sequence : UInt16} (hack : sequence ∈ s.acks) :
    Invariant c { s with
      ulog := { s.ulog with ack_received := true }, publishing := some sequence } := by
  have hawaiting : { s.ulog with ack_received := true : ULog }.Awaiting → s.ulog.Awaiting := by
    rintro (hpc | hpc | ⟨-, -, hfalse⟩)
    · exact .inl hpc
    · exact .inr (.inl hpc)
    · exact nomatch hfalse
  refine ⟨⟨h.numbered.sequence, h.numbered.idle, h.numbered.waiting, h.numbered.gone,
    h.numbered.passed⟩,
    ⟨h.traffic.sent, h.traffic.received, h.traffic.acks, fun sequence' hpub => ?_,
      h.traffic.updated⟩,
    ⟨h.waits.next_le, h.waits.copied, h.waits.fresh, h.waits.arm,
      fun ha => h.waits.awaiting (hawaiting ha), fun ha => h.waits.tries (hawaiting ha),
      fun n hn hneed htime hpc => ⟨(h.waits.armed n hn hneed htime hpc).1, fun _ => rfl⟩⟩,
    ⟨h.resent.resent, h.resent.tries⟩⟩
  rw [← Option.some.inj hpub]
  exact h.traffic.acks sequence hack

theorem Invariant.publish_ack (h : Invariant c s) {sequence : UInt16}
    (hpublishing : s.publishing = some sequence) :
    Invariant c { s with ulog_stream_ack := sequence, updated := true, publishing := none } := by
  refine ⟨⟨h.numbered.sequence, h.numbered.idle, h.numbered.waiting, h.numbered.gone,
    h.numbered.passed⟩,
    ⟨h.traffic.sent, h.traffic.received, h.traffic.acks,
      fun sequence' hpub => absurd hpub.symm (Option.some_ne_none sequence'),
      fun _ => h.traffic.publishing sequence hpublishing⟩,
    h.waits.of_heard rfl rfl rfl fun n _ hheard => ?_, ⟨h.resent.resent, h.resent.tries⟩⟩
  rcases hheard with hp | hfalse | ⟨-, hseq⟩
  · exact .inl hp
  · exact nomatch hfalse
  · exact .inr (.inl (hpublishing.trans (congrArg some hseq)))

theorem Invariant.step (h : Invariant c s) (hlen : s.published.length < 2 ^ 16) (e : Event) :
    Invariant c (step c s e) := by
  cases e with
  | publish need_reliable now started length first_message_offset data =>
    rw [MavlinkULog.step]
    split_ifs with hidle
    · exact h.publish hidle.1 hidle.2 _ _ _ _ _ _
    · exact h
  | poll now =>
    rw [MavlinkULog.step]
    cases hwaiting : s.logger.waiting with
    | none => exact h
    | some started =>
      dsimp only
      split_ifs with hupdated
      · exact h.poll hlen (by rw [hwaiting]; exact Option.some_ne_none _) hupdated started now
      · exact h
  | stopLog => exact h.stopLog s.updated id
  | handleUpdate t t' => exact h.handleUpdate hlen t t'
  | stop =>
    rw [MavlinkULog.step]
    split_ifs with hstop
    · exact h.stop hstop.2
    · exact h
  | deliver packet =>
    rw [MavlinkULog.step]
    split_ifs with hpacket
    · exact h.deliver hpacket
    · exact h
  | acknowledge packet =>
    rw [MavlinkULog.step]
    split_ifs with hpacket
    · exact h.acknowledge hpacket
    · exact h
  | handle_ack sequence =>
    rw [MavlinkULog.step]
    split_ifs with hack
    · exact h.handle_ack hack.1
    · exact h
  | publish_ack =>
    rw [MavlinkULog.step]
    cases hpublishing : s.publishing with
    | none => exact h
    | some sequence => exact h.publish_ack hpublishing

theorem published_length_le (c : Config) (s : System) (e : Event) :
    s.published.length ≤ (step c s e).published.length := by
  cases e with
  | publish need_reliable now started length first_message_offset data =>
    rw [MavlinkULog.step]
    split_ifs
    · have happend :
        (s.publish need_reliable now started length first_message_offset data).published =
          s.published ++ [(s.logger.fill need_reliable now length first_message_offset
            data).ulog_stream_data] := by
        cases need_reliable with
        | true => rfl
        | false => rfl
      rw [happend, List.length_append]
      exact Nat.le_add_right _ _
    · exact le_rfl
  | poll now =>
    rw [MavlinkULog.step]
    cases s.logger.waiting with
    | none => exact le_rfl
    | some started =>
      dsimp only
      rw [System.poll]
      split_ifs
      · exact le_rfl
      · exact le_rfl
      · exact le_rfl
      · exact le_rfl
  | stopLog => exact le_rfl
  | handleUpdate t t' =>
    rw [MavlinkULog.step, MavlinkULog.handleUpdate]
    cases s.ulog.pc with
    | loop =>
      dsimp only
      split_ifs
      · cases update s.published s.ulog.next with
        | none => exact le_rfl
        | some message => exact le_rfl
      · exact le_rfl
    | arm =>
      dsimp only
      split_ifs
      · exact le_rfl
      · exact le_rfl
    | rate =>
      dsimp only
      split_ifs
      · exact le_rfl
      · exact le_rfl
    | _ => exact le_rfl
  | stop =>
    rw [MavlinkULog.step]
    split_ifs
    · exact le_rfl
    · exact le_rfl
  | deliver packet =>
    rw [MavlinkULog.step]
    split_ifs
    · exact le_rfl
    · exact le_rfl
  | acknowledge packet =>
    rw [MavlinkULog.step]
    split_ifs
    · exact le_rfl
    · exact le_rfl
  | handle_ack sequence =>
    rw [MavlinkULog.step]
    split_ifs
    · exact le_rfl
    · exact le_rfl
  | publish_ack =>
    rw [MavlinkULog.step]
    cases s.publishing with
    | none => exact le_rfl
    | some sequence => exact le_rfl

theorem published_run_le (c : Config) (s : System) (es : List Event) :
    s.published.length ≤ (run (step c) s es).published.length := by
  induction es generalizing s with
  | nil => exact le_rfl
  | cons e es ih => exact (published_length_le c s e).trans (ih (step c s e))

theorem invariant_run (h : Invariant c s) (es : List Event)
    (hlen : (run (step c) s es).published.length < 2 ^ 16) : Invariant c (run (step c) s es) := by
  induction es generalizing s with
  | nil => exact h
  | cons e es ih =>
    have hnow := (published_run_le c s (e :: es)).trans_lt hlen
    exact ih (h.step hnow e) hlen

/-- What is reliable about the hand-off: the chunks that need an acknowledgement. -/
structure HandedOff (c : Config) (s : System) : Prop where
  /-- the logger went on after each chunk but the last one, and then it was received -/
  gone : ∀ i chunk, s.published[i]? = some chunk → i + 1 < s.published.length → chunk ∈ s.gone
  received : ∀ chunk ∈ s.gone, chunk.needAck → packetOf c true chunk ∈ s.received
  resent : ∀ t ∈ s.sent, t.again = true → ∃ chunk ∈ s.published, chunk.needAck ∧
    t.wait_for_ack_sequence = chunk.msg_sequence ∧ t.packet = packetOf c true chunk
  tries : ∀ sequence, retries s.sent sequence ≤ ACK_MAX_TRIES.toNat - 1

/-- **The hand-off is reliable**, in every run with less than 2^16 chunks. -/
theorem handedOff (c : Config) (h : Initial s) (es : List Event)
    (hlen : (run (step c) s es).published.length < 2 ^ 16) : HandedOff c (run (step c) s es) := by
  have hrun := invariant_run (h.invariant c) es hlen
  exact ⟨fun i chunk hi hlt => hrun.numbered.passed i chunk hi
    ⟨Nat.lt_of_succ_lt hlt, fun heq => absurd heq hlt.ne⟩, hrun.numbered.gone, hrun.resent.resent,
    hrun.resent.tries⟩

/-! ### A session -/

def noChunk : Chunk := ⟨0, 0, 0, 0, 0, []⟩

def config : Config := ⟨1, 1, 5, fun t => t + 100000⟩

def session : System where
  logger := ⟨noChunk, true, none⟩
  published := []
  gone := []
  ulog := ⟨.idle, none, noChunk, 0, 0, false, 0, 0, 0⟩
  publishing := none
  ulog_stream_ack := 0
  updated := false
  sent := []
  received := []
  acks := []

theorem initial_session : Initial session :=
  ⟨rfl, rfl, rfl, rfl, rfl, rfl, .inl rfl, rfl, rfl, rfl, rfl, rfl, rfl⟩

def lostOnce : List Event :=
  [.publish true 1000 1000 2 0 [7, 8], .handleUpdate 2000 2000, .handleUpdate 2000 2000,
    .handleUpdate 2000 2000, .handleUpdate 2000 2000, .handleUpdate 2100 2100,
    .handleUpdate 2100 2100, .handleUpdate 60000 60000, .handleUpdate 60000 60000,
    .deliver ⟨true, 0, 2, 0, 1, 1, [7, 8]⟩, .acknowledge ⟨true, 0, 2, 0, 1, 1, [7, 8]⟩,
      .handle_ack 0,
    .publish_ack, .poll 61000]

theorem handedOff_lostOnce : HandedOff config (run (step config) session lostOnce) :=
  handedOff config initial_session lostOnce (by decide)

end MavlinkULog
