/-
The listing of the logs.

A request for the entries from `start` to `end` is answered with an entry a log, the cursor going
from the one to the other, both clamped to the logs there are; the listing is done when the cursor
is at the end.

* **`listing_correct_iff`** — after every history, a listing is correct just if there is no log or
  `start` is not above `end`.
-/
import AerialManipulator.Lib.Drain
import AerialManipulator.Mavlink.LogHandler

namespace LogHandler

variable {long : ℕ} {P : Type*}

/-- The list that a request is answered from: that of an earlier one, if it is taken for one that
repeats it. -/
def Handler.listed (s : Handler P) (start end_ : UInt16) (logs : List (LogEntry P)) :
    List (LogEntry P) :=
  if s.current_status = .Inactive ∨ (end_.toNat : ℤ) - start.toNat > s.log_count then logs
  else s.log_data

/-- The ids to answer with, if there are `n` logs. -/
def expectedIds (n : ℕ) (start end_ : UInt16) : List ℕ :=
  if n = 0 then [0]
  else if start ≤ end_ then
    let first := start.toNat ⊓ (n - 1)
    let last := end_.toNat ⊓ (n - 1)
    List.range' first (last + 1 - first)
  else []

/-- An entry for an id: it has the time and the size of the line, or, if the list file cannot be
opened, none. -/
def Describes (lines : List (LogEntry P)) (id : ℕ) (m : LogEntryMsg) : Prop :=
  m.id.toNat = id ∧ (m.time_utc = 0 ∧ m.size = 0 ∨
    ∃ line, lines[id]? = some line ∧ m.time_utc = line.time_utc ∧ m.size = line.size)

/-- If `send` has room for an entry often enough, the entries are those that are expected, each for
a log that there is, and then the handler is idle. -/
def Handler.ListingCorrect (long : ℕ) (s : Handler P) (start end_ : UInt16)
    (logs : List (LogEntry P)) : Prop :=
  let lines := s.listed start end_ logs
  ∃ enough : ℕ, ∀ calls : List (Send long P), enough ≤ calls.countP (0 < ·.entry_room) →
    let sent := (s.requestList start end_ logs).sends calls
    List.Forall₂ (Describes lines) (expectedIds lines.length start end_) sent.entries ∧
    (∀ m ∈ sent.entries, m.id.toNat ≤ lines.length - 1) ∧
    (lines = [] → ∀ m ∈ sent.entries, m.time_utc = 0 ∧ m.size = 0) ∧
    sent.handler.current_status = .Idle

namespace Handler

variable {s : Handler P} {start end_ : UInt16} {logs lines : List (LogEntry P)}

/-! ### The request -/

theorem prepareRequest_log_data :
    ((s.checkRequest start end_).prepareRequest logs).log_data = s.listed start end_ logs := by
  unfold checkRequest listed
  by_cases hstatus : s.current_status = .Inactive
  · rw [if_neg (not_not.mpr hstatus), if_pos (.inl hstatus)]
    unfold prepareRequest
    rw [if_pos hstatus]
    rfl
  · rw [if_pos hstatus]
    by_cases hnew : (end_.toNat : ℤ) - start.toNat > s.log_count
    · rw [if_pos hnew, if_pos (.inr hnew)]
      unfold prepareRequest
      rw [if_pos closeAndUnlinkFiles_status]
      rfl
    · rw [if_neg hnew, if_neg (not_or.mpr ⟨hstatus, hnew⟩)]
      rfl

theorem clampRange_cursor (hcount : s.log_count = s.log_data.length)
    (hcursor : s.log_count = 0 → s.next_entry = 0 ∧ s.last_entry = 0) :
    (s.clampRange start end_).log_data = s.log_data ∧
      (s.clampRange start end_).next_entry = (start.toNat ⊓ (s.log_data.length - 1) : ℕ) ∧
      (s.clampRange start end_).last_entry = (end_.toNat ⊓ (s.log_data.length - 1) : ℕ) := by
  unfold clampRange
  by_cases hzero : s.log_count ≠ 0
  · rw [if_pos hzero]
    refine ⟨rfl, ?_, ?_⟩
    · dsimp only
      split_ifs <;> omega
    · dsimp only
      split_ifs <;> omega
  · rw [if_neg hzero]
    obtain ⟨hnext, hlast⟩ := hcursor (not_not.mp hzero)
    refine ⟨rfl, ?_, ?_⟩
    · rw [hnext]
      omega
    · rw [hlast]
      omega

theorem Inv.requestList_cursor (h : s.Inv long) :
    (s.requestList start end_ logs).log_data = s.listed start end_ logs ∧
      (s.requestList start end_ logs).next_entry =
        (start.toNat ⊓ ((s.listed start end_ logs).length - 1) : ℕ) ∧
      (s.requestList start end_ logs).last_entry =
        (end_.toNat ⊓ ((s.listed start end_ logs).length - 1) : ℕ) := by
  obtain ⟨hprepare, hstatus⟩ := (h.checkRequest start end_).prepareRequest logs
  rw [← prepareRequest_log_data]
  exact clampRange_cursor (hprepare.count hstatus) (hprepare.cursor hstatus)

/-! ### The entries that remain -/

/-- The ids that are still to be answered with: none, or those from the cursor to its end. -/
inductive Remaining (lines : List (LogEntry P)) (s : Handler P) : List ℕ → Prop
  | idle : s.log_data = lines → s.current_status = .Idle → Remaining lines s []
  | listing (first count : ℕ) : s.log_data = lines → s.current_status = .Listing →
      s.next_entry = first → s.last_entry = (first + count : ℕ) → first + count < 2 ^ 16 →
      Remaining lines s (List.range' first (count + 1))

theorem Remaining.status {ids : List ℕ} (h : Remaining lines s ids) :
    s.current_status ≠ .SendingData := by
  cases h with
  | idle _ hidle => exact hidle ▸ nofun
  | listing _ _ _ hlisting => exact hlisting ▸ nofun

theorem describes_sendListing (d : Disk long P) {id : ℕ} (hnext : s.next_entry = id)
    (hid : id < 2 ^ 16) : Describes s.log_data id (s.sendListing d).1 := by
  unfold sendListing
  dsimp only
  rw [hnext]
  have hid' : (UInt16.ofInt (id : ℤ)).toNat = id := by
    rw [UInt16.ofInt, UInt16.toNat_ofNat']
    omega
  refine ⟨hid', ?_⟩
  cases hentry : s.getEntry d (id : ℤ) with
  | none => exact .inl ⟨rfl, rfl⟩
  | some entry => exact .inr ⟨entry, getEntry_eq_some hentry, rfl, rfl⟩

theorem Remaining.sendListing (d : Disk long P) {first count : ℕ} (hlist : s.log_data = lines)
    (hstatus : s.current_status = .Listing) (hnext : s.next_entry = first)
    (hlast : s.last_entry = (first + count : ℕ)) (hlt : first + count < 2 ^ 16) :
    Describes lines first (s.sendListing d).1 ∧
      Remaining lines (s.sendListing d).2 (List.range' (first + 1) count) := by
  refine ⟨hlist ▸ describes_sendListing d hnext (by omega), ?_⟩
  unfold Handler.sendListing
  dsimp only
  cases count with
  | zero =>
    rw [if_pos (hnext.trans hlast.symm)]
    exact .idle hlist rfl
  | succ count =>
    rw [if_neg (by omega)]
    have hlast' : s.last_entry = (first + 1 + count : ℕ) := by omega
    exact .listing (first + 1) count hlist hstatus (by rw [hnext]; rfl) hlast' (by omega)

theorem Remaining.sendEntries (d : Disk long P) (room : ℕ) :
    ∀ (s : Handler P) (sent : ℕ) {ids : List ℕ}, Remaining lines s ids →
      ∃ done rest, ids = done ++ rest ∧
        List.Forall₂ (Describes lines) done (sendEntries d room sent s).1 ∧
        Remaining lines (Handler.sendEntries d room sent s).2.2 rest ∧
        (0 < room → sent < MAX_BYTES_SEND → ids ≠ [] → done ≠ []) := by
  induction room with
  | zero =>
    intro s sent ids h
    exact ⟨[], _, rfl, .nil, h, fun hlt => absurd hlt (Nat.lt_irrefl 0)⟩
  | succ room ih =>
    intro s sent ids h
    unfold Handler.sendEntries
    cases h with
    | idle hlist hidle =>
      rw [if_neg fun hlisting => absurd (hidle ▸ hlisting.1) (by decide)]
      exact ⟨[], [], rfl, .nil, .idle hlist hidle, fun _ _ h => h⟩
    | listing first count hlist hstatus hnext hlast hlt =>
      by_cases hsent : sent < MAX_BYTES_SEND
      · rw [if_pos ⟨hstatus, hsent⟩]
        obtain ⟨hfirst, hrest⟩ := Remaining.sendListing d hlist hstatus hnext hlast hlt
        obtain ⟨done, rest, heq, hdone, hrest', -⟩ :=
          ih (s.sendListing d).2 (sent + LogEntryMsg.LEN) hrest
        exact ⟨first :: done, rest, by rw [List.range'_succ, heq]; rfl, .cons hfirst hdone, hrest',
          fun _ _ _ => List.cons_ne_nil _ _⟩
      · rw [if_neg fun hlisting => hsent hlisting.2]
        exact ⟨[], _, rfl, .nil, .listing first count hlist hstatus hnext hlast hlt,
          fun _ hlt => absurd hlt hsent⟩

theorem sendDatas_of_ne {d : Disk long P} {room sent : ℕ}
    (h : s.current_status ≠ .SendingData) : sendDatas d room sent s = ([], s) := by
  cases room with
  | zero => rfl
  | succ room =>
    unfold sendDatas
    exact if_neg fun hsending => h hsending.1

/-- A call of `send`, with the entries as what it hands out. -/
def sendEntriesOf (s : Handler P) (call : Send long P) : List LogEntryMsg × Handler P :=
  ((s.send call).entries, (s.send call).handler)

theorem sends_entries (calls : List (Send long P)) : ∀ s : Handler P,
    Drain.run sendEntriesOf s calls = ((s.sends calls).entries, (s.sends calls).handler) := by
  induction calls with
  | nil => exact fun _ => rfl
  | cons call calls ih =>
    intro s
    unfold Drain.run
    dsimp only
    rw [ih]
    rfl

theorem drains_entries : Drain.Drains (fun s (call : Send long P) => sendEntriesOf s call)
    (fun _ => True) (0 < ·.entry_room) (Describes lines) (Remaining lines) := by
  intro s call ids h _
  obtain ⟨done, rest, heq, hdone, hrest, hroom⟩ :=
    Remaining.sendEntries call.disk call.entry_room s 0 h
  have hsend : sendEntriesOf s call = ((sendEntries call.disk call.entry_room 0 s).1,
      (sendEntries call.disk call.entry_room 0 s).2.2) := by
    unfold sendEntriesOf send
    dsimp only
    rw [sendDatas_of_ne hrest.status]
  dsimp only
  rw [hsend]
  exact ⟨done, rest, heq, hdone, hrest, fun hready => hroom (of_decide_eq_true hready) (by decide)⟩

theorem sends_entries_ne_nil (hstatus : s.current_status = .Listing) {call : Send long P}
    (hroom : 0 < call.entry_room) (calls : List (Send long P)) :
    (s.sends (call :: calls)).entries ≠ [] := by
  have hfirst : (s.send call).entries ≠ [] := by
    obtain ⟨room, hsucc⟩ := Nat.exists_eq_succ_of_ne_zero hroom.ne'
    unfold send
    rw [hsucc]
    unfold Handler.sendEntries
    rw [if_pos ⟨hstatus, by decide⟩]
    exact List.cons_ne_nil _ _
  exact fun hnil => hfirst (List.append_eq_nil_iff.mp hnil).1

end Handler

/-! ### The listing -/

variable {start end_ : UInt16}

theorem expectedIds_le {n : ℕ} : ∀ id ∈ expectedIds n start end_, id ≤ n - 1 := by
  intro id hid
  unfold expectedIds at hid
  split_ifs at hid
  · rw [List.mem_singleton.mp hid]
    exact Nat.zero_le _
  · have hrange := (List.mem_range'_1.mp hid).2
    omega
  · exact nomatch hid

theorem Handler.Inv.remaining {s : Handler P} (h : s.Inv long) (logs : List (LogEntry P))
    (hrange : s.listed start end_ logs = [] ∨ start ≤ end_) :
    Remaining (s.listed start end_ logs) (s.requestList start end_ logs)
      (expectedIds (s.listed start end_ logs).length start end_) := by
  obtain ⟨hlist, hnext, hlast⟩ := @Handler.Inv.requestList_cursor _ _ _ start end_ logs h
  have hend := end_.toNat_lt
  unfold expectedIds
  by_cases hempty : (s.listed start end_ logs).length = 0
  · rw [if_pos hempty]
    rw [hempty, Nat.zero_sub, Nat.min_zero] at hnext hlast
    exact .listing 0 0 hlist rfl hnext hlast (by decide)
  · have hle := hrange.resolve_left fun hnil => hempty (List.length_eq_zero_iff.mpr hnil)
    rw [if_neg hempty, if_pos hle]
    rw [UInt16.le_iff_toNat_le] at hle
    obtain ⟨count, hcount⟩ : ∃ count, end_.toNat ⊓ ((s.listed start end_ logs).length - 1) =
        start.toNat ⊓ ((s.listed start end_ logs).length - 1) + count :=
      Nat.exists_eq_add_of_le (min_le_min_right _ hle)
    dsimp only
    rw [hcount, Nat.add_assoc, Nat.add_sub_cancel_left]
    exact .listing _ count hlist rfl hnext (hcount ▸ hlast) (by omega)

/-- Nothing is expected of a range that is upside down, and the first call of `send` with room for
an entry sends one. -/
theorem not_listingCorrect {s : Handler P} {logs : List (LogEntry P)}
    (hempty : s.listed start end_ logs ≠ []) (hlt : ¬ start ≤ end_) :
    ¬ s.ListingCorrect long start end_ logs := by
  rintro ⟨enough, hcorrect⟩
  have hnone : expectedIds (s.listed start end_ logs).length start end_ = [] := by
    unfold expectedIds
    rw [if_neg fun hzero => hempty (List.length_eq_zero_iff.mp hzero), if_neg hlt]
  let call : Send long P := ⟨default, 1, 0⟩
  obtain ⟨hsent, -⟩ := hcorrect (call :: List.replicate enough call) (by
    rw [List.countP_cons, List.countP_replicate]
    exact Nat.le_add_right _ _)
  rw [hnone, List.forall₂_nil_left_iff] at hsent
  exact Handler.sends_entries_ne_nil rfl Nat.one_pos _ hsent

/-- After every history, a listing is correct just if there is no log or the range is not upside
down. -/
theorem listing_correct_iff (filename : Option P) (events : List (Event long P))
    (start end_ : UInt16) (logs : List (LogEntry P)) :
    (after filename events).ListingCorrect long start end_ logs ↔
      (after filename events).listed start end_ logs = [] ∨ start ≤ end_ := by
  have h := after_inv filename events
  set s := after filename events
  constructor
  · intro hcorrect
    by_contra hrange
    obtain ⟨hempty, hlt⟩ := not_or.mp hrange
    exact not_listingCorrect hempty hlt hcorrect
  · intro hrange
    refine ⟨(expectedIds (s.listed start end_ logs).length start end_).length,
      fun calls henough => ?_⟩
    obtain ⟨hsent, hrest⟩ := Handler.drains_entries.complete (h.remaining logs hrange)
      (fun _ _ => trivial) henough
    rw [Handler.sends_entries] at hsent hrest
    refine ⟨hsent, fun m hm => ?_, fun hempty m hm => ?_, ?_⟩
    · obtain ⟨id, hid, hdescribes⟩ := Drain.exists_of_mem hsent hm
      exact hdescribes.1 ▸ expectedIds_le id hid
    · obtain ⟨id, -, hdescribes⟩ := Drain.exists_of_mem hsent hm
      rw [hempty] at hdescribes
      exact hdescribes.2.resolve_right fun ⟨_, hline, _⟩ => absurd hline nofun
    · cases hrest with
      | idle _ hidle => exact hidle

/-- Three logs are asked for from the last one to the first one. -/
theorem listing_upside_down :
    let logs : List (LogEntry ℕ) := [⟨1, 1000, 0⟩, ⟨2, 2000, 1⟩, ⟨3, 3000, 2⟩]
    let s := after none ([] : List (Event 32 ℕ))
    let sent := (s.requestList 2 0 logs).sends [(⟨default, 4, 0⟩ : Send 32 ℕ)]
    sent.entries.map LogEntryMsg.id = [2, 3, 4, 5] ∧ sent.handler.current_status = .Listing ∧
      ¬ s.ListingCorrect 32 2 0 logs :=
  ⟨by decide, by decide, not_listingCorrect nofun (by decide)⟩

end LogHandler
