/-
The download of a log.

The log that is current, its name and the file that is open for it are kept for the next request
for the same id.  The id is set first, before the line of the log has been read and the file
opened; if one of these fails, or a seek later, a request for the same id does not try again, and
is answered with nothing.

`Usable s id` says that there is nothing of the kind: the log is not the current one, or it is and
its name is known and its file open.

* **`download_correct_iff`** — after every history, a download of a log that can be read is correct
  just if the log is usable or the part asked for is empty.
-/
import AerialManipulator.Lib.Drain
import AerialManipulator.Mavlink.LogHandler

namespace LogHandler

variable {long : ℕ} {P : Type*}

/-- The file can be opened and read, from every position in it. -/
def Disk.Serves (d : Disk long P) (path : P) (bytes : List UInt8) : Prop :=
  d.content path = some bytes ∧ ∀ pos ≤ bytes.length, d.seekable path pos = true

/-- A log of the list whose line and whose file can be read, and which has the size it is listed
with. -/
structure Handler.Downloadable (s : Handler P) (d : Disk long P) (id : UInt16)
    (entry : LogEntry P) (bytes : List UInt8) : Prop where
  active : s.current_status ≠ .Inactive
  listed : s.log_data[id.toNat]? = some entry
  readable : d.list_readable = true
  serves : d.Serves entry.filename bytes
  size : bytes.length = entry.size.toNat

/-- Packets for a log, each from the offset on that the one before it ends at. -/
def Contiguous (id : UInt16) : ℕ → List LogDataMsg → Prop
  | _, [] => True
  | off, p :: ps => p.id = id ∧ p.ofs.toNat = off ∧ p.data.length ≤ DATA_LEN ∧
      Contiguous id (off + p.data.length) ps

def payload (ps : List LogDataMsg) : List UInt8 := ps.flatMap LogDataMsg.data

/-- While the file can be read, and if `send` has room for data often enough, the packets carry
the part of the file that was asked for, and then the handler is idle. -/
def Handler.DownloadCorrect (s : Handler P) (d : Disk long P) (id : UInt16) (ofs count : UInt32)
    (path : P) (bytes : List UInt8) : Prop :=
  ∃ enough : ℕ, ∀ calls : List (Send long P), (∀ call ∈ calls, call.disk.Serves path bytes) →
    enough ≤ calls.countP (0 < ·.data_room) →
    let sent := (s.requestData d id ofs count).sends calls
    Contiguous id ofs.toNat sent.datas ∧
      payload sent.datas = (bytes.drop ofs.toNat).take count.toNat ∧
      sent.handler.current_status = .Idle

/-- Nothing has failed since the log became the current one. -/
def Handler.Usable (s : Handler P) (id : UInt16) : Prop :=
  s.current_log_index ≠ id ∨
    s.current_log_filename.isSome = true ∧ s.current_log_filep.isSome = true

instance (s : Handler P) (id : UInt16) : Decidable (s.Usable id) :=
  inferInstanceAs (Decidable (_ ∨ _))

/-! ### The packets for some bytes -/

def packets (id : UInt16) (off : ℕ) (data : List UInt8) : List LogDataMsg :=
  if DATA_LEN < data.length then
    ⟨id, UInt32.ofNat off, data.take DATA_LEN⟩ :: packets id (off + DATA_LEN) (data.drop DATA_LEN)
  else [⟨id, UInt32.ofNat off, data⟩]
termination_by data.length
decreasing_by
  rw [List.length_drop]
  have hpos : 0 < DATA_LEN := by decide
  omega

theorem packets_ne_nil (id : UInt16) (off : ℕ) (data : List UInt8) : packets id off data ≠ [] := by
  rw [packets]
  split_ifs
  · exact List.cons_ne_nil _ _
  · exact List.cons_ne_nil _ _

theorem packets_payload (id : UInt16) (off : ℕ) (data : List UInt8) :
    payload (packets id off data) = data := by
  induction off, data using packets.induct with
  | case1 off data hmore ih =>
    rw [packets, if_pos hmore]
    exact (congrArg _ ih).trans (List.take_append_drop ..)
  | case2 off data hlast =>
    rw [packets, if_neg hlast]
    exact List.append_nil _

theorem packets_contiguous {id : UInt16} {off : ℕ} {data : List UInt8} (hoff : off < 2 ^ 32)
    (hdata : off + data.length ≤ 2 ^ 32) : Contiguous id off (packets id off data) := by
  induction off, data using packets.induct with
  | case1 off data hmore ih =>
    rw [packets, if_pos hmore]
    have hlen : (data.take DATA_LEN).length = DATA_LEN := List.length_take_of_le hmore.le
    refine ⟨rfl, UInt32.toNat_ofNat_of_lt' hoff, hlen.le, ?_⟩
    rw [hlen]
    refine ih (by omega) ?_
    rw [List.length_drop]
    omega
  | case2 off data hlast =>
    rw [packets, if_neg hlast]
    exact ⟨rfl, UInt32.toNat_ofNat_of_lt' hoff, not_lt.mp hlast, trivial⟩

namespace Handler

variable {s : Handler P} {d : Disk long P} {path : P} {bytes : List UInt8}

/-! ### One packet -/

theorem seekOffset_of_lt {offset : UInt32} {pos : ℕ} (hoffset : offset.toNat < 2 ^ (long - 1))
    (hpos : pos < 2 ^ (long - 1)) : seekOffset long offset pos = offset.toNat - pos := by
  unfold seekOffset
  cases long with
  | zero =>
    rw [Nat.zero_sub, Nat.pow_zero] at hoffset hpos
    rw [Nat.pow_zero, Int.bmod_one]
    omega
  | succ long =>
    rw [Nat.succ_sub_one] at hoffset hpos
    have hwidth : (2 ^ (long + 1) : ℕ) = 2 * 2 ^ long := Nat.pow_succ'
    apply Int.bmod_eq_of_le <;> omega

theorem getLogData_serves {file : OpenFile P} {len : ℕ} (h : d.Serves path bytes)
    (hname : s.current_log_filename = some path) (hfile : s.current_log_filep = some file)
    (hpath : file.path = path) (hpos : file.pos < 2 ^ (long - 1))
    (hoff : s.current_log_data_offset.toNat ≤ bytes.length) :
    (s.getLogData d len).1 = (bytes.drop s.current_log_data_offset.toNat).take len ∧
      ∃ file', (s.getLogData d len).2 = { s with current_log_filep := some file' } ∧
        file'.path = path ∧ file'.pos < 2 ^ (long - 1) := by
  obtain ⟨hcontent, hseekable⟩ := h
  have hfits := d.content_fits path bytes hcontent
  have hoffset := seekOffset_of_lt (hoff.trans_lt hfits) hpos
  have hseek : (if seekOffset long s.current_log_data_offset file.pos ≠ 0 then
      d.fseek file (seekOffset long s.current_log_data_offset file.pos) else some file) =
      some ⟨path, s.current_log_data_offset.toNat⟩ := by
    rw [hoffset]
    by_cases hzero : (s.current_log_data_offset.toNat : ℤ) - file.pos ≠ 0
    · rw [if_pos hzero]
      have hsum : (file.pos : ℤ) + (s.current_log_data_offset.toNat - file.pos) =
        s.current_log_data_offset.toNat := by omega
      unfold Disk.fseek
      dsimp only
      rw [hsum, Int.toNat_natCast, hpath, hseekable _ hoff,
        if_pos ⟨Int.natCast_nonneg _, by exact_mod_cast hoff.trans_lt hfits, rfl⟩]
    · rw [if_neg hzero, ← hpath]
      have hsame : file.pos = s.current_log_data_offset.toNat := by omega
      rw [← hsame]
  unfold getLogData
  rw [hname, hfile]
  dsimp only
  rw [hseek]
  have hread : (d.fread ⟨path, s.current_log_data_offset.toNat⟩ len).1 =
      (bytes.drop s.current_log_data_offset.toNat).take len := by
    unfold Disk.fread
    rw [hcontent]
    rfl
  exact ⟨hread, _, rfl, rfl, fread_pos (hoff.trans_lt hfits) len⟩

theorem getLogData_nothing {len : ℕ} (h : len = 0 ∨ s.current_log_filename = none ∨
    s.current_log_filep = none) : (s.getLogData d len).1 = [] := by
  unfold getLogData
  split
  · rename_i path file hname hfile
    obtain rfl : len = 0 := h.resolve_right (by simp [hname, hfile])
    dsimp only
    split
    · rfl
    · rfl
  · rfl

/-- What is read from now on: nothing, or some bytes of the file that is open. -/
inductive Fetches (long : ℕ) (path : P) (bytes : List UInt8) (s : Handler P) : List UInt8 → Prop
  | nothing : (s.current_log_data_remaining = 0 ∨ s.current_log_filename = none ∨
      s.current_log_filep = none) → Fetches long path bytes s []
  | part {data : List UInt8} {file : OpenFile P} : data ≠ [] →
      s.current_log_data_remaining.toNat = data.length →
      data <+: bytes.drop s.current_log_data_offset.toNat →
      s.current_log_filename = some path → s.current_log_filep = some file →
      file.path = path → file.pos < 2 ^ (long - 1) → Fetches long path bytes s data

/-- The packets that are still to be sent. -/
inductive Streaming (long : ℕ) (path : P) (bytes : List UInt8) (s : Handler P) :
    List LogDataMsg → Prop
  | idle : s.current_status = .Idle → Streaming long path bytes s []
  | sending {data : List UInt8} : s.current_status = .SendingData → Fetches long path bytes s data →
      Streaming long path bytes s (packets s.current_log_index s.current_log_data_offset.toNat data)

theorem sendData_nothing (h : s.current_log_data_remaining = 0 ∨ s.current_log_filename = none ∨
    s.current_log_filep = none) :
    (s.sendData d).1 = ⟨s.current_log_index, s.current_log_data_offset, []⟩ ∧
      (s.sendData d).2.current_status = .Idle := by
  have hlen : s.len = 0 ∨ s.current_log_filename = none ∨ s.current_log_filep = none := by
    refine h.imp_left fun hzero => ?_
    unfold len
    rw [hzero]
    rfl
  have hdata := @getLogData_nothing _ _ s d _ hlen
  obtain ⟨filep, hs', -⟩ := @getLogData_eq _ _ s d s.len
  unfold sendData
  rw [← Prod.mk.eta (p := s.getLogData d s.len), hdata, hs']
  exact ⟨rfl, rfl⟩

theorem sendData_part {file : OpenFile P} {data : List UInt8} (h : d.Serves path bytes)
    (hstatus : s.current_status = .SendingData) (hdata : data ≠ [])
    (hremaining : s.current_log_data_remaining.toNat = data.length)
    (hpart : data <+: bytes.drop s.current_log_data_offset.toNat)
    (hname : s.current_log_filename = some path) (hfile : s.current_log_filep = some file)
    (hpath : file.path = path) (hpos : file.pos < 2 ^ (long - 1)) (hsize : bytes.length < 2 ^ 32) :
    ∃ p rest, packets s.current_log_index s.current_log_data_offset.toNat data = p :: rest ∧
      (s.sendData d).1 = p ∧ Streaming long path bytes (s.sendData d).2 rest := by
  have hlength := List.length_pos_iff.mpr hdata
  have hbytes := hpart.length_le
  rw [List.length_drop] at hbytes
  obtain ⟨hread, file', hs', hpath', hpos'⟩ := @getLogData_serves _ _ s d path bytes file s.len h
    hname hfile hpath hpos (by omega)
  obtain ⟨tail, htail⟩ := hpart
  unfold sendData
  rw [← Prod.mk.eta (p := s.getLogData d s.len), hread, hs', packets]
  unfold len
  rw [hremaining]
  by_cases hmore : data.length > DATA_LEN
  · have hread' : (bytes.drop s.current_log_data_offset.toNat).take DATA_LEN =
        data.take DATA_LEN := by
      rw [← htail, List.take_append_of_le_length hmore.le]
    have hlen : (data.take DATA_LEN).length = DATA_LEN := List.length_take_of_le hmore.le
    have hremaining' : (s.current_log_data_remaining - UInt32.ofNat DATA_LEN).toNat =
        data.length - DATA_LEN := by
      have hconst : (UInt32.ofNat DATA_LEN).toNat = DATA_LEN := rfl
      rw [UInt32.toNat_sub_of_le, hremaining, hconst]
      rw [UInt32.le_iff_toNat_le, hremaining, hconst]
      exact hmore.le
    have hoffset' : (s.current_log_data_offset + UInt32.ofNat DATA_LEN).toNat =
        s.current_log_data_offset.toNat + DATA_LEN := by
      have hconst : (UInt32.ofNat DATA_LEN).toNat = DATA_LEN := rfl
      rw [UInt32.toNat_add, hconst, Nat.mod_eq_of_lt (by omega)]
    rw [if_pos hmore, if_pos hmore, hread']
    dsimp only
    rw [hlen, if_neg]
    · refine ⟨_, _, rfl, by rw [UInt32.ofNat_toNat], ?_⟩
      rw [← hoffset']
      refine .sending hstatus (.part ?_ ?_ ?_ hname rfl hpath' hpos')
      · exact fun hnil => absurd (List.drop_eq_nil_iff.mp hnil) (not_le.mpr hmore)
      · rw [List.length_drop]
        exact hremaining'
      · dsimp only
        rw [hoffset', ← List.drop_drop, ← htail, List.drop_append_of_le_length hmore.le]
        exact List.prefix_append _ _
    · rintro (hlt | hzero)
      · exact absurd hlt (lt_irrefl _)
      · rw [hzero, UInt32.toNat_zero] at hremaining'
        omega
  · have hread' : (bytes.drop s.current_log_data_offset.toNat).take data.length = data := by
      rw [← htail, List.take_left]
    rw [if_neg hmore, if_neg hmore, hread']
    dsimp only
    rw [if_pos]
    · exact ⟨_, [], rfl, by rw [UInt32.ofNat_toNat], .idle rfl⟩
    · refine .inr ?_
      rw [← hremaining, UInt32.ofNat_toNat]
      exact UInt32.sub_self _

theorem Streaming.sendData {data : List UInt8} (h : d.Serves path bytes)
    (hsize : bytes.length < 2 ^ 32) (hstatus : s.current_status = .SendingData)
    (hfetches : Fetches long path bytes s data) :
    ∃ p rest, packets s.current_log_index s.current_log_data_offset.toNat data = p :: rest ∧
      (s.sendData d).1 = p ∧ Streaming long path bytes (s.sendData d).2 rest := by
  cases hfetches with
  | nothing hnothing =>
    obtain ⟨hpacket, hidle⟩ := @sendData_nothing _ _ s d hnothing
    refine ⟨_, [], ?_, hpacket, .idle hidle⟩
    rw [packets, if_neg (by decide), UInt32.ofNat_toNat]
  | part hdata hremaining hpart hname hfile hpath hpos =>
    exact sendData_part h hstatus hdata hremaining hpart hname hfile hpath hpos hsize

theorem Streaming.sendDatas (h : d.Serves path bytes) (hsize : bytes.length < 2 ^ 32) (room : ℕ) :
    ∀ (s : Handler P) (sent : ℕ) {todo : List LogDataMsg}, Streaming long path bytes s todo →
      ∃ done rest, todo = done ++ rest ∧ (sendDatas d room sent s).1 = done ∧
        Streaming long path bytes (Handler.sendDatas d room sent s).2 rest ∧
        (0 < room → sent < MAX_BYTES_SEND → todo ≠ [] → done ≠ []) := by
  induction room with
  | zero =>
    intro s sent todo h
    exact ⟨[], _, rfl, rfl, h, fun hlt => absurd hlt (Nat.lt_irrefl 0)⟩
  | succ room ih =>
    intro s sent todo hstream
    unfold Handler.sendDatas
    cases hstream with
    | idle hidle =>
      rw [if_neg fun hsending => absurd (hidle ▸ hsending.1) (by decide)]
      exact ⟨[], [], rfl, rfl, .idle hidle, fun _ _ h => h⟩
    | sending hstatus hfetches =>
      by_cases hsent : sent < MAX_BYTES_SEND
      · rw [if_pos ⟨hstatus, hsent⟩]
        obtain ⟨p, rest, heq, hpacket, hrest⟩ := Streaming.sendData h hsize hstatus hfetches
        obtain ⟨done, rest', rfl, hdone, hrest', -⟩ :=
          ih (s.sendData d).2 (sent + LogDataMsg.LEN) hrest
        refine ⟨p :: done, rest', heq, ?_, hrest', fun _ _ _ => List.cons_ne_nil _ _⟩
        rw [← hpacket, ← hdone]
      · rw [if_neg fun hsending => hsent hsending.2]
        exact ⟨[], _, rfl, rfl, .sending hstatus hfetches, fun _ hlt => absurd hlt hsent⟩

theorem sendEntries_of_ne {room sent : ℕ} (h : s.current_status ≠ .Listing) :
    sendEntries d room sent s = ([], sent, s) := by
  cases room with
  | zero => rfl
  | succ room =>
    unfold sendEntries
    exact if_neg fun hlisting => h hlisting.1

theorem Streaming.status {todo : List LogDataMsg} (h : Streaming long path bytes s todo) :
    s.current_status ≠ .Listing := by
  cases h with
  | idle hidle => exact hidle ▸ nofun
  | sending hsending => exact hsending ▸ nofun

theorem Streaming.idle_of_nil {todo : List LogDataMsg} (h : Streaming long path bytes s todo)
    (hnil : todo = []) : s.current_status = .Idle := by
  cases h with
  | idle hidle => exact hidle
  | sending _ _ => exact absurd hnil (packets_ne_nil _ _ _)

/-- A call of `send`, with the data as what it hands out. -/
def sendDatasOf (s : Handler P) (call : Send long P) : List LogDataMsg × Handler P :=
  ((s.send call).datas, (s.send call).handler)

theorem sends_datas (calls : List (Send long P)) : ∀ s : Handler P,
    Drain.run sendDatasOf s calls = ((s.sends calls).datas, (s.sends calls).handler) := by
  induction calls with
  | nil => exact fun _ => rfl
  | cons call calls ih =>
    intro s
    unfold Drain.run
    dsimp only
    rw [ih]
    rfl

theorem drains_datas (hsize : bytes.length < 2 ^ 32) :
    Drain.Drains (fun s (call : Send long P) => sendDatasOf s call)
      (fun call => call.disk.Serves path bytes) (0 < ·.data_room) Eq
      (Streaming long path bytes) := by
  intro s call todo h hserves
  obtain ⟨done, rest, heq, hdone, hrest, hroom⟩ :=
    Streaming.sendDatas hserves hsize call.data_room s 0 h
  have hsend : sendDatasOf s call = Handler.sendDatas call.disk call.data_room 0 s := by
    unfold sendDatasOf send
    dsimp only
    rw [sendEntries_of_ne h.status]
  dsimp only
  rw [hsend]
  refine ⟨done, rest, heq, ?_, hrest, fun hready => hroom (of_decide_eq_true hready) (by decide)⟩
  rw [List.forall₂_eq_eq_eq, hdone]

/-! ### The request -/

variable {id : UInt16} {ofs count : UInt32} {entry : LogEntry P}

theorem startSending_remaining :
    (s.startSending ofs count).current_log_data_remaining.toNat =
      (s.current_log_size.toNat - ofs.toNat) ⊓ count.toNat := by
  unfold startSending
  dsimp only
  by_cases hend : ofs ≥ s.current_log_size
  · rw [if_pos hend, if_neg (UInt32.not_lt.mpr UInt32.zero_le), UInt32.toNat_zero]
    rw [ge_iff_le, UInt32.le_iff_toNat_le] at hend
    omega
  · have hle := UInt32.le_of_lt (UInt32.not_le.mp hend)
    rw [if_neg hend]
    split_ifs with hcount
    · rw [gt_iff_lt, UInt32.lt_iff_toNat_lt, UInt32.toNat_sub_of_le _ _ hle] at hcount
      exact (min_eq_right hcount.le).symm
    · rw [gt_iff_lt, UInt32.lt_iff_toNat_lt, UInt32.toNat_sub_of_le _ _ hle] at hcount
      rw [UInt32.toNat_sub_of_le _ _ hle]
      exact (min_eq_left (not_lt.mp hcount)).symm

theorem fetches_open {file : OpenFile P} (hname : s.current_log_filename = some path)
    (hfile : s.current_log_filep = some file) (hpath : file.path = path)
    (hpos : file.pos < 2 ^ (long - 1)) (hsize : bytes.length = s.current_log_size.toNat) :
    Fetches long path bytes (s.startSending ofs count)
      ((bytes.drop ofs.toNat).take count.toNat) := by
  have hlength : ((bytes.drop ofs.toNat).take count.toNat).length =
      (s.startSending ofs count).current_log_data_remaining.toNat := by
    rw [startSending_remaining, List.length_take, List.length_drop, hsize, min_comm]
  by_cases hdata : (bytes.drop ofs.toNat).take count.toNat = []
  · rw [hdata] at hlength ⊢
    exact .nothing (.inl (UInt32.toNat_inj.mp hlength.symm))
  · exact .part hdata hlength.symm (List.take_prefix _ _) hname hfile hpath hpos

theorem Inv.fetches (h : s.Inv long) (hlog : s.Downloadable d id entry bytes)
    (husable : s.Usable id) (ofs count : UInt32) :
    (s.requestData d id ofs count).current_status = .SendingData ∧
      (s.requestData d id ofs count).current_log_index = id ∧
      (s.requestData d id ofs count).current_log_data_offset = ofs ∧
      Fetches long entry.filename bytes (s.requestData d id ofs count)
        ((bytes.drop ofs.toNat).take count.toNat) := by
  obtain ⟨hactive, hlisted, hreadable, hserves, hsize⟩ := hlog
  have hid : (id.toNat : ℤ) < s.log_count := by
    rw [h.count hactive]
    exact_mod_cast (List.getElem?_eq_some_iff.mp hlisted).1
  by_cases hindex : s.current_log_index = id
  · obtain ⟨hname, hfile⟩ := husable.resolve_left (not_not.mpr hindex)
    obtain ⟨path, hname⟩ := Option.isSome_iff_exists.mp hname
    obtain ⟨file, hfile⟩ := Option.isSome_iff_exists.mp hfile
    obtain ⟨entry', hentry, hpath, hsize'⟩ := h.entry hactive path hname
    rw [hindex, hlisted] at hentry
    obtain rfl := Option.some.inj hentry
    rw [requestData_of_eq hactive hid hindex]
    exact ⟨rfl, hindex, rfl, fetches_open (hpath ▸ hname) hfile
      (hpath ▸ h.file path file hname hfile) (h.pos file hfile) (hsize'.symm ▸ hsize)⟩
  · have hentry : s.getEntry d id.toNat = some entry := by
      unfold getEntry
      rw [if_pos ⟨hreadable, Int.natCast_nonneg _⟩]
      exact hlisted
    have hopen : (((s.initDataset id).setEntry entry).openForTransmit d).current_log_filep =
        some ⟨entry.filename, 0⟩ := by
      unfold openForTransmit
      exact congrArg (Option.map _) hserves.1
    rw [requestData_of_ne hactive hid hindex, hentry]
    exact ⟨rfl, rfl, rfl, fetches_open rfl hopen rfl (Nat.two_pow_pos _) hsize⟩

theorem Inv.fetches_nothing (h : s.Inv long) (hlog : s.Downloadable d id entry bytes)
    (husable : ¬ s.Usable id) (ofs count : UInt32) :
    (s.requestData d id ofs count).current_status = .SendingData ∧
      (s.requestData d id ofs count).current_log_index = id ∧
      (s.requestData d id ofs count).current_log_data_offset = ofs ∧
      Fetches long entry.filename bytes (s.requestData d id ofs count) [] := by
  obtain ⟨hactive, hlisted, -, -, -⟩ := hlog
  have hid : (id.toNat : ℤ) < s.log_count := by
    rw [h.count hactive]
    exact_mod_cast (List.getElem?_eq_some_iff.mp hlisted).1
  obtain ⟨hindex, hlost⟩ := not_or.mp husable
  rw [requestData_of_eq hactive hid (not_not.mp hindex)]
  refine ⟨rfl, not_not.mp hindex, rfl, .nothing (.inr ?_)⟩
  rw [not_and_or, Option.not_isSome_iff_eq_none, Option.not_isSome_iff_eq_none] at hlost
  exact hlost

theorem sends_fetched {data : List UInt8} (hsize : bytes.length < 2 ^ 32)
    (hdata : data <+: bytes.drop s.current_log_data_offset.toNat)
    (hstatus : s.current_status = .SendingData) (hfetches : Fetches long path bytes s data)
    {calls : List (Send long P)} (hserves : ∀ call ∈ calls, call.disk.Serves path bytes)
    (henough : (packets s.current_log_index s.current_log_data_offset.toNat data).length ≤
      calls.countP (0 < ·.data_room)) :
    Contiguous s.current_log_index s.current_log_data_offset.toNat (s.sends calls).datas ∧
      payload (s.sends calls).datas = data ∧ (s.sends calls).handler.current_status = .Idle := by
  obtain ⟨hsent, hrest⟩ := (drains_datas hsize).complete (.sending hstatus hfetches) hserves henough
  rw [sends_datas, List.forall₂_eq_eq_eq] at hsent
  rw [sends_datas] at hrest
  have hlength := hdata.length_le
  rw [List.length_drop] at hlength
  have hoffset := s.current_log_data_offset.toNat_lt
  dsimp only at hsent hrest
  rw [← hsent]
  exact ⟨packets_contiguous hoffset (by omega), packets_payload _ _ _, hrest.idle_of_nil rfl⟩

end Handler

/-! ### The download -/

variable {d : Disk long P} {id : UInt16} {entry : LogEntry P} {bytes : List UInt8}
  {ofs count : UInt32}

theorem not_downloadCorrect {s : Handler P} (h : s.Inv long)
    (hlog : s.Downloadable d id entry bytes) (husable : ¬ s.Usable id)
    (hpart : (bytes.drop ofs.toNat).take count.toNat ≠ []) :
    ¬ s.DownloadCorrect d id ofs count entry.filename bytes := by
  rintro ⟨enough, hcorrect⟩
  obtain ⟨hstatus, -, -, hfetches⟩ := h.fetches_nothing hlog husable ofs count
  have hsize : bytes.length < 2 ^ 32 := hlog.size ▸ entry.size.toNat_lt
  set s' := s.requestData d id ofs count
  let call : Send long P := ⟨d, 0, 1⟩
  let calls := List.replicate
    (enough + (packets s'.current_log_index s'.current_log_data_offset.toNat []).length) call
  have hserves : ∀ c ∈ calls, c.disk.Serves entry.filename bytes := fun c hc =>
    List.eq_of_mem_replicate hc ▸ hlog.serves
  have hcount : calls.countP (0 < ·.data_room) =
      enough + (packets s'.current_log_index s'.current_log_data_offset.toNat []).length :=
    List.countP_replicate
  obtain ⟨-, hempty, -⟩ := Handler.sends_fetched hsize List.nil_prefix hstatus hfetches hserves
    (hcount ▸ Nat.le_add_left _ _)
  exact hpart ((hcorrect calls hserves (hcount ▸ Nat.le_add_right _ _)).2.1.symm.trans hempty)

theorem part_eq_nil_iff (hsize : bytes.length = entry.size.toNat) :
    (bytes.drop ofs.toNat).take count.toNat = [] ↔ count = 0 ∨ entry.size ≤ ofs := by
  rw [List.take_eq_nil_iff, List.drop_eq_nil_iff, hsize, UInt32.le_iff_toNat_le,
    ← UInt32.toNat_inj, UInt32.toNat_zero]

/-- After every history, a download of a log that can be read is correct just if nothing has
failed since the log became the current one, or the part asked for is empty. -/
theorem download_correct_iff (filename : Option P) (events : List (Event long P))
    (hlog : (after filename events).Downloadable d id entry bytes) (ofs count : UInt32) :
    (after filename events).DownloadCorrect d id ofs count entry.filename bytes ↔
      (after filename events).Usable id ∨ count = 0 ∨ entry.size ≤ ofs := by
  have h := after_inv filename events
  set s := after filename events
  rw [← part_eq_nil_iff hlog.size]
  have hsize : bytes.length < 2 ^ 32 := hlog.size ▸ entry.size.toNat_lt
  constructor
  · intro hcorrect
    by_contra hcon
    obtain ⟨husable, hpart⟩ := not_or.mp hcon
    exact not_downloadCorrect h hlog husable hpart hcorrect
  · intro hcondition
    have hfetches : (s.requestData d id ofs count).current_status = .SendingData ∧
        (s.requestData d id ofs count).current_log_index = id ∧
        (s.requestData d id ofs count).current_log_data_offset = ofs ∧
        Handler.Fetches long entry.filename bytes (s.requestData d id ofs count)
          ((bytes.drop ofs.toNat).take count.toNat) := by
      by_cases husable : s.Usable id
      · exact h.fetches hlog husable ofs count
      · rw [hcondition.resolve_left husable]
        exact h.fetches_nothing hlog husable ofs count
    obtain ⟨hstatus, hindex, hoffset, hfetches⟩ := hfetches
    refine ⟨(packets id ofs.toNat ((bytes.drop ofs.toNat).take count.toNat)).length,
      fun calls hserves henough => ?_⟩
    have hsent := Handler.sends_fetched hsize (by rw [hoffset]; exact List.take_prefix _ _) hstatus
      hfetches hserves (by rw [hindex, hoffset]; exact henough)
    rw [hindex, hoffset] at hsent
    exact hsent

/-- A file system with the list file and one log, which can be opened or not. -/
def Disk.oneLog (readable : Bool) : Disk 32 ℕ where
  list_readable := true
  content path := if readable ∧ path = 7 then some [1, 2, 3] else none
  seekable _ _ := true
  content_fits path bytes h := by
    split_ifs at h
    cases h
    decide

/-- A log is listed and then asked for, of which the list says that it has three bytes. -/
theorem oneLog_downloadable (events : List (Event 32 ℕ))
    (h : (after none events).current_status ≠ .Inactive ∧
      (after none events).log_data = [⟨1, 3, 7⟩]) :
    (after none events).Downloadable (Disk.oneLog true) 0 ⟨1, 3, 7⟩ [1, 2, 3] where
  active := h.1
  listed := by
    rw [h.2]
    rfl
  readable := rfl
  serves := ⟨rfl, fun _ _ => rfl⟩
  size := rfl

/-- A download right after the listing. -/
theorem download_listed :
    let s := after none [(.requestList 0 0 [⟨1, 3, 7⟩] : Event 32 ℕ)]
    s.DownloadCorrect (Disk.oneLog true) 0 1 9 7 [1, 2, 3] :=
  (download_correct_iff none _ (oneLog_downloadable _ ⟨by decide, by decide⟩) 1 9).mpr
    (.inl (by decide))

/-- The file cannot be opened for the first request; for the second one it can, but is not. -/
theorem download_after_failed_open :
    let s := after none [(.requestList 0 0 [⟨1, 3, 7⟩] : Event 32 ℕ),
      .requestData (Disk.oneLog false) 0 0 3, .send ⟨Disk.oneLog false, 1, 1⟩]
    s.Downloadable (Disk.oneLog true) 0 ⟨1, 3, 7⟩ [1, 2, 3] ∧
      ((s.requestData (Disk.oneLog true) 0 0 3).sends [⟨Disk.oneLog true, 1, 1⟩]).datas =
        [⟨0, 0, []⟩] ∧
      ¬ s.DownloadCorrect (Disk.oneLog true) 0 0 3 7 [1, 2, 3] := by
  intro s
  have hlog : s.Downloadable (Disk.oneLog true) 0 ⟨1, 3, 7⟩ [1, 2, 3] :=
    oneLog_downloadable _ ⟨by decide, by decide⟩
  exact ⟨hlog, by decide, not_downloadCorrect (after_inv none _) hlog (by decide) (by decide)⟩

end LogHandler
