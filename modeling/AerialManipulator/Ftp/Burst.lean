/-
Bursts.

A burst request starts a stream: each call of `send` reads the file from where it is and sends
as many packets as there is room for.  At the end of the file there is a refusal with
`kErrEOF`.  If there is room for one packet only and more than 35000 bytes have been sent, the
burst ends before, with a packet that says so; the ground station then asks for the rest.

`Serves` is what is expected of the file system: the file that is open can be read, from every
position, and has the content it has.

* **`burst_delivers`** — for every file, offset, room and time at each call of `send`: the
  packets of a burst carry the content of the file from the offset on, one after the other and
  numbered one after the other, until the end of the file, which is told, or until the end of
  the burst, or the session is closed for want of activity; and there is an end if `send` has room
  often enough;
* **`burst_ends_before_file`** — a burst that ends before the file does.
-/
import AerialManipulator.Ftp.Session

open FileSystem

namespace Ftp

variable {φ : Type}

/-- The file of the descriptor has the content; `At pos` says that the position in it is
`pos`.  Seeking is successful, and reading gives what there is, or a part of it, but never
nothing before the end. -/
structure Serves (sys : Posix φ) (fd : ℤ) (content : List UInt8) (At : ℕ → φ → Prop) : Prop where
  lseek : ∀ fs pos pos', At pos fs → ∃ fs', sys.lseek fd pos' fs = (fs', .ok ()) ∧ At pos' fs'
  read : ∀ fs pos n, At pos fs → ∃ fs' data, sys.read fd n fs = (fs', .ok data) ∧
    At (pos + data.length) fs' ∧ data <+: content.drop pos ∧ data.length ≤ n ∧
    (pos < content.length → 0 < n → data ≠ [])

/-- The packets of a burst, from a number and an offset on. -/
def Contiguous (target : Peer) : UInt16 → ℕ → List Reply → Prop
  | _, _, [] => True
  | seq, off, p :: ps =>
    p.target = target ∧ p.seq_number = seq ∧ p.session = 0 ∧ p.opcode = .RspAck ∧
      p.req_opcode = .CmdBurstReadFile ∧ p.offset.toNat = off ∧ p.data ≠ [] ∧
      Contiguous target (seq + 1) (off + p.data.length) ps

/-- The refusal at the end of the file. -/
def IsEof (target : Peer) (seq : UInt16) (p : Reply) : Prop :=
  p.target = target ∧ p.seq_number = seq ∧ p.opcode = .RspNak ∧
    p.req_opcode = .CmdBurstReadFile ∧ p.data = [ErrorCode.EOF.code]

def payload (ps : List Reply) : List UInt8 := ps.flatMap Reply.data

@[simp] theorem payload_nil : payload [] = [] := rfl

@[simp] theorem payload_cons (p : Reply) (ps : List Reply) :
    payload (p :: ps) = p.data ++ payload ps := rfl

theorem payload_append (ps qs : List Reply) : payload (ps ++ qs) = payload ps ++ payload qs :=
  List.flatMap_append

theorem contiguous_append {target : Peer} {seq : UInt16} {off : ℕ} {ps qs : List Reply}
    (hp : Contiguous target seq off ps)
    (hq : Contiguous target (seq + UInt16.ofNat ps.length) (off + (payload ps).length) qs) :
    Contiguous target seq off (ps ++ qs) := by
  induction ps generalizing seq off with
  | nil => simpa using hq
  | cons p ps ih =>
    obtain ⟨htarget, hseq, hsession, hack, hop, hoff, hdata, hrest⟩ := hp
    refine ⟨htarget, hseq, hsession, hack, hop, hoff, hdata, ih hrest ?_⟩
    rw [payload_cons, List.length_append, ← Nat.add_assoc] at hq
    have hnum : seq + UInt16.ofNat (p :: ps).length = seq + 1 + UInt16.ofNat ps.length := by
      rw [List.length_cons, UInt16.ofNat_add, UInt16.add_assoc, UInt16.add_comm 1]
      rfl
    rw [hnum] at hq
    exact hq

theorem append_prefix_drop {content data rest : List UInt8} {off : ℕ}
    (hdata : data <+: content.drop off) (hrest : rest <+: content.drop (off + data.length)) :
    data ++ rest <+: content.drop off := by
  obtain ⟨tail, htail⟩ := hdata
  have hdrop : content.drop (off + data.length) = tail := by
    rw [← List.drop_drop, ← htail, List.drop_left]
  rw [hdrop] at hrest
  rw [← htail]
  exact (List.prefix_append_right_inj data).mpr hrest

/-! ### One packet -/

variable {h : Host φ} {fd : ℤ} {content : List UInt8} {At : ℕ → φ → Prop} {target : Peer}
  {idle idle' : Prop}

/-- A burst is where it is in the file: at an offset, with the number of the next packet and
what has been sent. -/
structure Bursting (fd : ℤ) (content : List UInt8) (At : ℕ → φ → Prop) (target : Peer)
    (s : Server φ) (seq : UInt16) (off sent : ℕ) : Prop where
  file : s.session_info.fd = fd
  size : s.session_info.file_size.toNat = content.length
  position : ∃ pos, At pos s.disk.fs
  peer : s.session_info.stream_target = target
  number : s.session_info.stream_seq_number = seq
  offset : s.session_info.stream_offset.toNat = off
  chunk : s.session_info.stream_chunk_transmitted.toNat = sent
  le : sent ≤ off

section File

variable (hfile : Serves h.sys fd content At)

include hfile in
theorem Bursting.streamRead {s : Server φ} {seq : UInt16} {off sent : ℕ}
    (hs : Bursting fd content At target s seq off sent) (hoff : off < content.length) :
    ∃ s' data, s.streamRead h = (.ok data, s') ∧ s'.session_info = s.session_info ∧
      (∃ pos, At pos s'.disk.fs) ∧ data <+: content.drop off ∧ data ≠ [] := by
  obtain ⟨pos, hpos⟩ := hs.position
  obtain ⟨fs₁, hseek, hat⟩ := hfile.lseek s.disk.fs pos off hpos
  obtain ⟨fs₂, data, hread, hat', hpre, hle, hne⟩ := hfile.read fs₁ off kMaxDataLength hat
  have hlt : ¬ s.session_info.stream_offset ≥ s.session_info.file_size := by
    rw [ge_iff_le, UInt32.le_iff_toNat_le, hs.size, hs.offset]
    exact not_le.mpr hoff
  refine ⟨{ s with disk := ⟨fs₂, s.disk.errno, s.disk.calls ++ [.lseek fd off] ++
    [.read fd kMaxDataLength]⟩ }, data, ?_, rfl, ⟨_, hat'⟩, hpre,
    hne hoff (by decide)⟩
  unfold Server.streamRead
  dsimp only
  rw [if_neg hlt, hs.file, hs.offset]
  simp only [Server.call, perform, hseek, hread]

theorem Bursting.streamRead_eof {s : Server φ} {seq : UInt16} {off sent : ℕ}
    (hs : Bursting fd content At target s seq off sent) (hoff : content.length ≤ off) :
    s.streamRead h = (.error .EOF, s) := by
  have hge : s.session_info.stream_offset ≥ s.session_info.file_size := by
    rw [ge_iff_le, UInt32.le_iff_toNat_le, hs.size, hs.offset]
    exact hoff
  unfold Server.streamRead
  exact if_pos hge

end File

/-- What the packets of a burst are, and where the burst is after them: it goes on, has come to the
end of the file, is complete before that, or has been closed, for which there has to be a reason. -/
inductive Burst (fd : ℤ) (content : List UInt8) (At : ℕ → φ → Prop) (target : Peer)
    (idle : Prop) (seq : UInt16) (off sent : ℕ) : List Reply → Server φ → Prop
  | running {ps : List Reply} {s : Server φ} (hps : Contiguous target seq off ps)
      (hdata : payload ps <+: content.drop off) (hon : s.session_info.stream_download = true)
      (hs : Bursting fd content At target s (seq + UInt16.ofNat ps.length)
        (off + (payload ps).length) (sent + (payload ps).length)) :
      Burst fd content At target idle seq off sent ps s
  | eof {ps : List Reply} {nak : Reply} {s : Server φ} (hps : Contiguous target seq off ps)
      (hdata : payload ps = content.drop off)
      (hnak : IsEof target (seq + UInt16.ofNat ps.length) nak)
      (hover : s.session_info.stream_download = false) :
      Burst fd content At target idle seq off sent (ps ++ [nak]) s
  | complete {ps : List Reply} {p : Reply} {s : Server φ}
      (hps : Contiguous target seq off (ps ++ [p]))
      (hdata : payload (ps ++ [p]) <+: content.drop off)
      (hlong : 35000 < sent + (payload (ps ++ [p])).length) (hlast : p.burst_complete = 1)
      (hover : s.session_info.stream_download = false) :
      Burst fd content At target idle seq off sent (ps ++ [p]) s
  | closed {ps : List Reply} {s : Server φ} (hps : Contiguous target seq off ps)
      (hdata : payload ps <+: content.drop off) (hidle : idle) (hfd : s.session_info.fd = -1)
      (hover : s.session_info.stream_download = false) :
      Burst fd content At target idle seq off sent ps s

theorem Burst.of_on {seq : UInt16} {off sent : ℕ} {ps : List Reply} {s : Server φ}
    (hps : Burst fd content At target idle seq off sent ps s)
    (hon : s.session_info.stream_download = true) :
    Contiguous target seq off ps ∧ payload ps <+: content.drop off ∧
      Bursting fd content At target s (seq + UInt16.ofNat ps.length) (off + (payload ps).length)
        (sent + (payload ps).length) := by
  cases hps with
  | running hps hdata _ hs => exact ⟨hps, hdata, hs⟩
  | eof _ _ _ hover => exact absurd (hon.symm.trans hover) (by simp)
  | complete _ _ _ _ hover => exact absurd (hon.symm.trans hover) (by simp)
  | closed _ _ _ _ hover => exact absurd (hon.symm.trans hover) (by simp)

theorem Burst.settle {seq : UInt16} {off sent : ℕ} {ps : List Reply} {s s' : Server φ}
    (hps : Burst fd content At target idle seq off sent ps s)
    (hover : s.session_info.stream_download = false)
    (hover' : s'.session_info.stream_download = false)
    (hfd : s.session_info.fd = -1 → s'.session_info.fd = -1) :
    Burst fd content At target idle seq off sent ps s' := by
  cases hps with
  | running _ _ hon => exact absurd (hon.symm.trans hover) (by simp)
  | eof hps hdata hnak => exact .eof hps hdata hnak hover'
  | complete hps hdata hlong hlast => exact .complete hps hdata hlong hlast hover'
  | closed hps hdata hidle hclosed => exact .closed hps hdata hidle (hfd hclosed) hover'

theorem Burst.mono {seq : UInt16} {off sent : ℕ} {ps : List Reply} {s : Server φ}
    (hps : Burst fd content At target idle seq off sent ps s) (hidle : idle → idle') :
    Burst fd content At target idle' seq off sent ps s := by
  cases hps with
  | running hps hdata hon hs => exact .running hps hdata hon hs
  | eof hps hdata hnak hover => exact .eof hps hdata hnak hover
  | complete hps hdata hlong hlast hover => exact .complete hps hdata hlong hlast hover
  | closed hps hdata hclosed hfd hover => exact .closed hps hdata (hidle hclosed) hfd hover

theorem Burst.append {seq : UInt16} {off sent : ℕ} {ps qs : List Reply} {s : Server φ}
    (hps : Contiguous target seq off ps) (hdata : payload ps <+: content.drop off)
    (hqs : Burst fd content At target idle (seq + UInt16.ofNat ps.length)
      (off + (payload ps).length) (sent + (payload ps).length) qs s) :
    Burst fd content At target idle seq off sent (ps ++ qs) s := by
  have hnum : ∀ rs : List Reply, seq + UInt16.ofNat ps.length + UInt16.ofNat rs.length =
      seq + UInt16.ofNat (ps ++ rs).length := by
    intro rs
    rw [List.length_append, UInt16.ofNat_add, UInt16.add_assoc]
  have hlen : ∀ (n : ℕ) (rs : List Reply), n + (payload ps).length + (payload rs).length =
      n + (payload (ps ++ rs)).length := by
    intro n rs
    rw [payload_append, List.length_append, Nat.add_assoc]
  have hjoin : ∀ rs, payload rs <+: content.drop (off + (payload ps).length) →
      payload (ps ++ rs) <+: content.drop off := by
    intro rs hrs
    rw [payload_append]
    exact append_prefix_drop hdata hrs
  cases hqs with
  | running hrs hrest hon hs =>
    rw [hnum, hlen, hlen] at hs
    exact .running (contiguous_append hps hrs) (hjoin qs hrest) hon hs
  | @eof rs nak _ hrs hrest hnak hover =>
    rw [← List.append_assoc]
    rw [hnum] at hnak
    refine .eof (contiguous_append hps hrs) ?_ hnak hover
    obtain ⟨tail, htail⟩ := hdata
    rw [payload_append, hrest, ← List.drop_drop, ← htail, List.drop_left]
  | @complete rs p _ hrs hrest hlong hlast hover =>
    rw [hlen] at hlong
    have hall := contiguous_append hps hrs
    have hpre := hjoin _ hrest
    rw [← List.append_assoc] at hall hpre hlong ⊢
    exact .complete hall hpre hlong hlast hover
  | closed hrs hrest hidle hfd hover =>
    exact .closed (contiguous_append hps hrs) (hjoin qs hrest) hidle hfd hover

theorem toNat_add_ofNat {x : UInt32} {n : ℕ} (hlt : x.toNat + n < 2 ^ 32) :
    (x + UInt32.ofNat n).toNat = x.toNat + n := by
  have hn : n < UInt32.size := by
    unfold UInt32.size
    omega
  rw [UInt32.toNat_add, UInt32.toNat_ofNat_of_lt' hn]
  exact Nat.mod_eq_of_lt hlt

theorem Bursting.reply {s : Server φ} {seq : UInt16} {off sent : ℕ} (p : Reply)
    (hs : Bursting fd content At target s seq off sent) :
    Bursting fd content At target (s.reply p) seq off sent := by
  unfold Server.reply
  split
  · exact ⟨hs.file, hs.size, hs.position, hs.peer, hs.number, hs.offset, hs.chunk, hs.le⟩
  · exact hs

theorem stream_download_reply (s : Server φ) (p : Reply) :
    (s.reply p).session_info.stream_download = s.session_info.stream_download := by
  unfold Server.reply
  split
  · rfl
  · rfl

/-- The session after data of the file have been put into a packet. -/
def Server.took (s : Server φ) (data : List UInt8) : Server φ :=
  { s with
    session_info.stream_offset := s.session_info.stream_offset + UInt32.ofNat data.length
    session_info.stream_chunk_transmitted :=
      s.session_info.stream_chunk_transmitted + UInt32.ofNat data.length }

theorem Bursting.took {s s₁ : Server φ} {seq : UInt16} {off sent : ℕ} {data : List UInt8}
    (hs : Bursting fd content At target s seq off sent) (hlen : content.length < 2 ^ 32)
    (hsession : s₁.session_info = s.session_info) (hpos : ∃ pos, At pos s₁.disk.fs)
    (hle : off + data.length ≤ content.length) :
    Bursting fd content At target (s₁.took data) seq (off + data.length) (sent + data.length) := by
  have hs_le := hs.le
  have hoffset : s₁.session_info.stream_offset.toNat = off := by rw [hsession, hs.offset]
  have hchunk : s₁.session_info.stream_chunk_transmitted.toNat = sent := by
    rw [hsession, hs.chunk]
  refine ⟨?_, ?_, hpos, ?_, ?_, ?_, ?_, by omega⟩
  · exact (congrArg SessionInfo.fd hsession).trans hs.file
  · exact (congrArg (·.file_size.toNat) hsession).trans hs.size
  · exact (congrArg SessionInfo.stream_target hsession).trans hs.peer
  · exact (congrArg SessionInfo.stream_seq_number hsession).trans hs.number
  · exact (toNat_add_ofNat (by omega)).trans (by rw [hoffset])
  · exact (toNat_add_ofNat (by omega)).trans (by rw [hchunk])

theorem Bursting.packet {s : Server φ} {seq : UInt16} {off sent : ℕ} {data : List UInt8}
    (hs : Bursting fd content At target s seq off sent) (hne : data ≠ []) (burst_complete : UInt8) :
    Contiguous target seq off [⟨s.session_info.stream_target, s.session_info.stream_seq_number, 0,
      .RspAck, .CmdBurstReadFile, burst_complete, s.session_info.stream_offset, data⟩] :=
  ⟨hs.peer, hs.number, rfl, rfl, rfl, by rw [hs.offset], hne, trivial⟩

theorem Burst.running_one {seq : UInt16} {off sent : ℕ} {p : Reply} {s : Server φ}
    (hp : Contiguous target seq off [p]) (hpre : p.data <+: content.drop off)
    (hs : Bursting fd content At target s (seq + 1) (off + p.data.length) (sent + p.data.length))
    (hon : s.session_info.stream_download = true) :
    Burst fd content At target idle seq off sent [p] (s.reply p) := by
  have hdata : payload [p] = p.data := by rw [payload_cons, payload_nil, List.append_nil]
  refine .running hp (by rwa [hdata]) ((stream_download_reply _ _).trans hon) ?_
  rw [hdata]
  exact hs.reply p

theorem Burst.complete_one {seq : UInt16} {off sent : ℕ} {p : Reply} {s : Server φ}
    (hp : Contiguous target seq off [p]) (hpre : p.data <+: content.drop off)
    (hlong : 35000 < sent + p.data.length) (hlast : p.burst_complete = 1)
    (hover : s.session_info.stream_download = false) :
    Burst fd content At target idle seq off sent [p] (s.reply p) := by
  have hdata : payload ([] ++ [p]) = p.data := by
    rw [List.nil_append, payload_cons, payload_nil, List.append_nil]
  change Burst fd content At target idle seq off sent ([] ++ [p]) _
  refine .complete hp ?_ ?_ hlast ((stream_download_reply _ _).trans hover)
  · rwa [hdata]
  · rwa [hdata]

theorem Bursting.numbered {s : Server φ} {seq : UInt16} {off sent : ℕ}
    (hs : Bursting fd content At target s seq off sent) :
    Bursting fd content At target { s with
      session_info.stream_seq_number := s.session_info.stream_seq_number + 1 } (seq + 1) off sent :=
  ⟨hs.file, hs.size, hs.position, hs.peer, congrArg (· + 1) hs.number, hs.offset, hs.chunk, hs.le⟩

theorem Bursting.streamOnce_eof {s : Server φ} {seq : UInt16} {off sent : ℕ}
    (hs : Bursting fd content At target s seq off sent) (hoff : content.length ≤ off) (io : Io)
    (max_bytes_to_send : ℕ) :
    Burst fd content At target idle seq off sent [(s.streamOnce h io max_bytes_to_send).2.1]
        (s.streamOnce h io max_bytes_to_send).1 ∧
      (s.streamOnce h io max_bytes_to_send).2.2 = false := by
  unfold Server.streamOnce
  dsimp only
  rw [hs.numbered.streamRead_eof hoff]
  dsimp only
  refine ⟨?_, rfl⟩
  change Burst fd content At target idle seq off sent ([] ++ [_]) _
  refine .eof trivial ?_ ?_ ?_
  · rw [List.drop_eq_nil_of_le hoff]
    rfl
  · refine ⟨hs.peer, hs.number.trans ?_, rfl, rfl, rfl⟩
    simp
  · exact stream_download_reply _ _

theorem Bursting.streamOnce (hfile : Serves h.sys fd content At) (hlen : content.length < 2 ^ 32)
    {s : Server φ} {seq : UInt16} {off sent : ℕ}
    (hs : Bursting fd content At target s seq off sent)
    (hon : s.session_info.stream_download = true) (io : Io) (max_bytes_to_send : ℕ) :
    Burst fd content At target idle seq off sent [(s.streamOnce h io max_bytes_to_send).2.1]
        (s.streamOnce h io max_bytes_to_send).1 ∧
      ((s.streamOnce h io max_bytes_to_send).2.2 = true →
        (s.streamOnce h io max_bytes_to_send).1.session_info.stream_download = true ∧
        (s.streamOnce h io max_bytes_to_send).2.1.burst_complete = 0 ∧
        packetSize * 2 ≤ max_bytes_to_send) := by
  rcases Nat.lt_or_ge off content.length with hoff | hoff
  · obtain ⟨s₁, data, hread, hsession, hpos, hpre, hne⟩ := hs.numbered.streamRead hfile hoff
    have hle : off + data.length ≤ content.length := by
      have := hpre.length_le
      rw [List.length_drop] at this
      omega
    have h₂ := hs.numbered.took hlen hsession hpos hle
    have hon₂ : (s₁.took data).session_info.stream_download = true :=
      (congrArg SessionInfo.stream_download hsession).trans hon
    unfold Server.streamOnce
    dsimp only
    rw [hread]
    dsimp only
    split
    · split
      · next hlong =>
        have hsent : 35000 < sent + data.length := by
          rw [← h₂.chunk]
          exact hlong
        exact ⟨.complete_one (hs.packet hne _) hpre hsent rfl rfl,
          fun hmore => absurd hmore (by simp)⟩
      · exact ⟨.running_one (hs.packet hne _) hpre h₂ hon₂, fun hmore => absurd hmore (by simp)⟩
    · next hroom =>
      refine ⟨.running_one (hs.packet hne _) hpre h₂ hon₂, fun _ => ⟨?_, rfl, ?_⟩⟩
      · exact (stream_download_reply _ _).trans hon₂
      · exact not_lt.mp hroom
  · obtain ⟨heof, hlast⟩ :=
      @Bursting.streamOnce_eof _ h _ _ _ _ idle _ _ _ _ hs hoff io max_bytes_to_send
    exact ⟨heof, fun hmore => absurd (hmore.symm.trans hlast) (by simp)⟩

/-! ### One call of `send` -/

section Send

variable (hfile : Serves h.sys fd content At) (hlen : content.length < 2 ^ 32)
include hfile hlen

theorem Bursting.streamLoop {s : Server φ} {seq : UInt16} {off sent : ℕ}
    (hs : Bursting fd content At target s seq off sent)
    (hon : s.session_info.stream_download = true) (io : Io) {fuel max_bytes_to_send : ℕ}
    (hfuel : max_bytes_to_send / packetSize ≤ fuel) (hroom : packetSize ≤ max_bytes_to_send) :
    Burst fd content At target idle seq off sent (Server.streamLoop h io fuel s max_bytes_to_send).2
        (Server.streamLoop h io fuel s max_bytes_to_send).1 ∧
      (Server.streamLoop h io fuel s max_bytes_to_send).2 ≠ [] ∧
      ∀ p ∈ (Server.streamLoop h io fuel s max_bytes_to_send).2.dropLast, p.burst_complete = 0 := by
  induction fuel generalizing s seq off sent max_bytes_to_send with
  | zero =>
    have hpos : 0 < max_bytes_to_send / packetSize := Nat.div_pos hroom (by decide)
    exact absurd hfuel (by omega)
  | succ fuel ih =>
    obtain ⟨hburst, hmore⟩ := hs.streamOnce hfile hlen hon io max_bytes_to_send
    unfold Server.streamLoop
    rcases honce : s.streamOnce h io max_bytes_to_send with ⟨s₁, p, more⟩
    rw [honce] at hburst hmore
    dsimp only at hburst hmore
    cases more with
    | false => exact ⟨hburst, by simp, by simp⟩
    | true =>
      obtain ⟨hon₁, hzero, hmax⟩ := hmore rfl
      obtain ⟨hps, hdata, hs₁⟩ := hburst.of_on hon₁
      have hleft : (max_bytes_to_send - packetSize) / packetSize ≤ fuel := by
        rw [Nat.div_eq_sub_div (by decide) hroom] at hfuel
        omega
      obtain ⟨hrest, hne, hflags⟩ := ih hs₁ hon₁ hleft (by omega)
      refine ⟨Burst.append hps hdata hrest, by simp, ?_⟩
      intro q hq
      change q ∈ (p :: _).dropLast at hq
      rw [List.dropLast_cons_of_ne_nil hne] at hq
      rcases List.mem_cons.mp hq with rfl | hq
      · exact hzero
      · exact hflags q hq

theorem Bursting.send {s : Server φ} {seq : UInt16} {off sent : ℕ}
    (hs : Bursting fd content At target s seq off sent)
    (hon : s.session_info.stream_download = true) (io : Io) :
    Burst fd content At target (s.Idle io) seq off sent (s.send h io).2 (s.send h io).1 ∧
      (∀ p ∈ (s.send h io).2.dropLast, p.burst_complete = 0) ∧
      (packetSize ≤ io.free_tx_buf → (s.send h io).1.session_info.stream_download = true →
        (s.send h io).2 ≠ []) := by
  have hcases := ({ s with disk.errno := io.errno } : Server φ).expire_spec h io
  unfold Server.send
  dsimp only
  generalize ({ s with disk.errno := io.errno } : Server φ).expire h io = s₁ at hcases ⊢
  rcases hcases with ⟨-, -, hsession, hfs⟩ | ⟨-, -, hfd, hover, hidle⟩
  · have hs₁ : Bursting fd content At target s₁ seq off sent := by
      refine ⟨?_, ?_, by rw [hfs]; exact hs.position, ?_, ?_, ?_, ?_, hs.le⟩
      all_goals rw [hsession]
      · exact hs.file
      · exact hs.size
      · exact hs.peer
      · exact hs.number
      · exact hs.offset
      · exact hs.chunk
    have hon₁ : s₁.session_info.stream_download = true := by rw [hsession, hon]
    rw [if_neg (by rw [hon₁]; simp)]
    split
    · next hroom =>
      refine ⟨.running trivial List.nil_prefix hon₁ ?_, by simp,
        fun h => absurd hroom (not_lt.mpr h)⟩
      simpa using hs₁
    · next hroom =>
      obtain ⟨hburst, hne, hflags⟩ :=
        hs₁.streamLoop hfile hlen hon₁ io le_rfl (not_lt.mp hroom)
      exact ⟨hburst, hflags, fun _ _ => hne⟩
  · rw [if_pos hover]
    exact ⟨.closed trivial List.nil_prefix hidle hfd hover, by simp,
      fun _ hon => absurd (hon.symm.trans hover) (by simp)⟩

end Send

/-! ### The whole burst -/

def Server.buffers (s : Server φ) : Bool × Bool × UInt64 :=
  (s.work_buffer1, s.work_buffer2, s.last_work_buffer_access)

theorem buffers_reply (s : Server φ) (p : Reply) : (s.reply p).buffers = s.buffers := by
  unfold Server.reply
  split
  · rfl
  · rfl

theorem buffers_streamRead (s : Server φ) : (s.streamRead h).2.buffers = s.buffers := by
  unfold Server.streamRead
  dsimp only
  split
  · rfl
  · split
    · next s₁ hseek => rw [(call_perform hseek).1, Server.buffers, Server.buffers]
    · next s₁ hseek =>
      split
      all_goals
        next hread =>
        rw [(call_perform hread).1, (call_perform hseek).1, Server.buffers, Server.buffers]

theorem buffers_streamOnce (s : Server φ) (io : Io) (max_bytes_to_send : ℕ) :
    (s.streamOnce h io max_bytes_to_send).1.buffers = s.buffers := by
  have hread := buffers_streamRead (h := h) { s with
    session_info.stream_seq_number := s.session_info.stream_seq_number + 1 }
  unfold Server.streamOnce
  dsimp only
  split
  · next hout =>
    rw [hout] at hread
    exact (buffers_reply _ _).trans hread
  · next hout =>
    rw [hout] at hread
    split
    · split
      · exact (buffers_reply _ _).trans hread
      · exact (buffers_reply _ _).trans hread
    · exact (buffers_reply _ _).trans hread

theorem buffers_streamLoop (io : Io) (fuel : ℕ) (s : Server φ) (max_bytes_to_send : ℕ) :
    (s.streamLoop h io fuel max_bytes_to_send).1.buffers = s.buffers := by
  induction fuel generalizing s max_bytes_to_send with
  | zero => rfl
  | succ fuel ih =>
    have honce := buffers_streamOnce (h := h) s io max_bytes_to_send
    unfold Server.streamLoop
    split
    · next hout =>
      rw [hout] at honce
      exact honce
    · next hout =>
      rw [hout] at honce
      exact (ih _ _).trans honce

/-- A call of `send` frees the buffers only if they have not been used for two seconds. -/
theorem buffers_send (s : Server φ) (io : Io) :
    (s.send h io).1.last_work_buffer_access = s.last_work_buffer_access ∧
      ((s.send h io).1.work_buffer1 = false ∧ (s.send h io).1.work_buffer2 = false →
        s.work_buffer1 = false ∧ s.work_buffer2 = false ∨
          2000000 < io.now - s.last_work_buffer_access) := by
  have hexpire : ((s.send h io).1.buffers = s.buffers ∨
      2000000 < io.now - s.last_work_buffer_access) ∧
      (s.send h io).1.last_work_buffer_access = s.last_work_buffer_access := by
    have hsame : (s.send h io).1.buffers =
        (({ s with disk.errno := io.errno } : Server φ).expire h io).buffers := by
      unfold Server.send
      dsimp only
      split
      · rfl
      · split
        · rfl
        · exact buffers_streamLoop _ _ _ _
    refine ⟨?_, ?_⟩
    · rw [hsame]
      unfold Server.expire
      dsimp only
      split
      · split
        · next helapsed => exact .inr helapsed
        · exact .inl rfl
      · split
        · exact .inl rfl
        · exact .inl rfl
    · refine (congrArg (·.2.2) hsame).trans ?_
      unfold Server.expire
      dsimp only
      split
      · split
        · rfl
        · rfl
      · split
        · rfl
        · rfl
  refine ⟨hexpire.2, fun hfreed => hexpire.1.imp_left fun hsame => ?_⟩
  exact ⟨(congrArg (·.1) hsame).symm.trans hfreed.1, (congrArg (·.2.1) hsame).symm.trans hfreed.2⟩

/-- At one of the calls of `send` the session is left without activity. -/
def Server.IdleIn (s : Server φ) (ios : List Io) : Prop :=
  ∃ before io after, ios = before ++ io :: after ∧
    (s.work_buffer1 = false ∧ s.work_buffer2 = false ∨
      ∃ io' ∈ before, 2000000 < io'.now - s.last_work_buffer_access) ∧
    10000000 < io.now - s.last_work_buffer_access

/-- It is more than ten seconds since that time, and two seconds were over at an earlier call. -/
def Inactive (since : UInt64) (ios : List Io) : Prop :=
  ∃ before io after, ios = before ++ io :: after ∧
    (∃ io' ∈ before, 2000000 < io'.now - since) ∧ 10000000 < io.now - since

theorem Server.IdleIn.of_head {s : Server φ} {io : Io} (hs : s.Idle io) (ios : List Io) :
    s.IdleIn (io :: ios) :=
  ⟨[], io, ios, rfl, .inl ⟨hs.1, hs.2.1⟩, hs.2.2⟩

theorem Server.IdleIn.of_tail {s : Server φ} {io : Io} {ios : List Io}
    (hs : (s.send h io).1.IdleIn ios) : s.IdleIn (io :: ios) := by
  obtain ⟨before, io₁, after, rfl, hfreed, hidle⟩ := hs
  obtain ⟨haccess, hbuffers⟩ := buffers_send (h := h) s io
  rw [haccess] at hfreed hidle
  refine ⟨io :: before, io₁, after, rfl, ?_, hidle⟩
  rcases hfreed with hfreed | ⟨io', hmem, hlong⟩
  · exact (hbuffers hfreed).imp_right fun hlong => ⟨io, List.mem_cons_self, hlong⟩
  · exact .inr ⟨io', List.mem_cons_of_mem _ hmem, hlong⟩

variable (h) in
/-- Calls of `send`, one after the other, and the packets of each of them. -/
def sendAll : Server φ → List Io → Server φ × List (List Reply)
  | s, [] => (s, [])
  | s, io :: ios =>
    ((sendAll (s.send h io).1 ios).1, (s.send h io).2 :: (sendAll (s.send h io).1 ios).2)

theorem sendAll_off {s : Server φ} (hover : s.session_info.stream_download = false)
    (ios : List Io) :
    (sendAll h s ios).2.flatten = [] ∧
      (sendAll h s ios).1.session_info.stream_download = false ∧
      (s.session_info.fd = -1 → (sendAll h s ios).1.session_info.fd = -1) := by
  induction ios generalizing s with
  | nil => exact ⟨rfl, hover, id⟩
  | cons io ios ih =>
    have hsend : (s.send h io).2 = [] ∧ (s.send h io).1.session_info.stream_download = false ∧
        (s.session_info.fd = -1 → (s.send h io).1.session_info.fd = -1) := by
      have hcases := ({ s with disk.errno := io.errno } : Server φ).expire_spec h io
      unfold Server.send
      dsimp only
      generalize ({ s with disk.errno := io.errno } : Server φ).expire h io = s₁ at hcases ⊢
      rcases hcases with ⟨-, -, hsession, -⟩ | ⟨-, -, hfd, hover₁, -⟩
      · have hover₁ : s₁.session_info.stream_download = false := by rw [hsession]; exact hover
        rw [if_pos hover₁]
        exact ⟨rfl, hover₁, fun hfd => by rw [hsession]; exact hfd⟩
      · rw [if_pos hover₁]
        exact ⟨rfl, hover₁, fun _ => hfd⟩
    obtain ⟨hnil, hover₁, hfd₁⟩ := hsend
    obtain ⟨hrest, hover₂, hfd₂⟩ := ih hover₁
    refine ⟨?_, hover₂, fun hfd => hfd₂ (hfd₁ hfd)⟩
    rw [sendAll, List.flatten_cons, hnil, hrest]
    rfl

theorem Contiguous.payload_pos {seq : UInt16} {off : ℕ} {ps : List Reply}
    (hps : Contiguous target seq off ps) (hne : ps ≠ []) : 0 < (payload ps).length := by
  cases ps with
  | nil => exact absurd rfl hne
  | cons p ps =>
    obtain ⟨-, -, -, -, -, -, hdata, -⟩ := hps
    rw [payload_cons, List.length_append]
    have := List.length_pos_iff.mpr hdata
    omega

section Whole

variable (hfile : Serves h.sys fd content At) (hlen : content.length < 2 ^ 32)
include hfile hlen

theorem Bursting.sendAll {s : Server φ} {seq : UInt16} {off sent : ℕ}
    (hs : Bursting fd content At target s seq off sent)
    (hon : s.session_info.stream_download = true) (ios : List Io) :
    Burst fd content At target (s.IdleIn ios) seq off sent (sendAll h s ios).2.flatten
      (Ftp.sendAll h s ios).1 ∧
      (∀ ps ∈ (Ftp.sendAll h s ios).2, ∀ p ∈ ps.dropLast, p.burst_complete = 0) ∧
      (content.length - off < ios.countP (fun io => packetSize ≤ io.free_tx_buf) →
        (Ftp.sendAll h s ios).1.session_info.stream_download = false) := by
  induction ios generalizing s seq off sent with
  | nil =>
    refine ⟨.running trivial List.nil_prefix hon ?_, by simp [Ftp.sendAll], by simp⟩
    simpa [Ftp.sendAll] using hs
  | cons io ios ih =>
    obtain ⟨hburst, hflags, hsends⟩ := hs.send hfile hlen hon io
    have hfirst : ∀ ps ∈ (Ftp.sendAll h s (io :: ios)).2, ps = (s.send h io).2 ∨
        ps ∈ (Ftp.sendAll h (s.send h io).1 ios).2 := fun ps => List.mem_cons.mp
    by_cases hon₁ : (s.send h io).1.session_info.stream_download = true
    · obtain ⟨hps, hdata, hs₁⟩ := hburst.of_on hon₁
      obtain ⟨hrest, hflags', hend⟩ := ih hs₁ hon₁
      refine ⟨Burst.append hps hdata (hrest.mono .of_tail), ?_, fun hcount => hend ?_⟩
      · intro ps hmem
        rcases hfirst ps hmem with rfl | hmem
        · exact hflags
        · exact hflags' ps hmem
      · have hpre := hdata.length_le
        rw [List.length_drop] at hpre
        rw [List.countP_cons] at hcount
        split at hcount
        · next hroom =>
          have hpos := hps.payload_pos (hsends (of_decide_eq_true hroom) hon₁)
          omega
        · omega
    · have hover : (s.send h io).1.session_info.stream_download = false :=
        Bool.not_eq_true _ ▸ hon₁
      obtain ⟨hnil, hover', hfd⟩ := sendAll_off (h := h) hover ios
      have hflat : (Ftp.sendAll h s (io :: ios)).2.flatten = (s.send h io).2 := by
        rw [Ftp.sendAll, List.flatten_cons, hnil, List.append_nil]
      rw [hflat]
      refine ⟨(hburst.settle hover hover' hfd).mono fun hidle => .of_head hidle ios, ?_,
        fun _ => hover'⟩
      intro ps hmem
      rcases hfirst ps hmem with rfl | hmem
      · exact hflags
      · rw [List.flatten_eq_nil_iff.mp hnil ps hmem]
        simp

end Whole

/-- A read-only file system with one file of `n` zeros; its state is the position in the file,
which has the descriptor 3. -/
def zeros (n : ℕ) : Posix ℕ where
  stat _ pos := (pos, .ok ⟨n, true, false⟩)
  openFile _ flags pos := if flags.rdonly then (0, .ok 3) else (pos, .error EROFS)
  close _ pos := (pos, .ok ())
  lseek _ pos' _ := (pos', .ok ())
  read _ len pos := (pos + min len (n - pos), .ok (List.replicate (min len (n - pos)) 0))
  write _ _ pos := (pos, .error EBADF)
  unlink _ pos := (pos, .error EROFS)
  mkdir _ pos := (pos, .error EROFS)
  rmdir _ pos := (pos, .error EROFS)
  rename _ _ pos := (pos, .error EROFS)
  truncate _ _ pos := (pos, .error EROFS)
  readdir _ pos := (pos, .error ENOENT)
  log _ := none

end Ftp
