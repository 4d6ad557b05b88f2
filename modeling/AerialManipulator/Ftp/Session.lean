/-
The session of the file server.

There is one session, number 0, with one file.  `_workRead` and `_workTerminate` refuse a
request with another number or without a file; `_workBurst` and `_workWrite` refuse it only if
both are wrong.

To say which file may be touched, a run is watched: `opened` is the descriptor of the file that
was opened last, if it has not been terminated or reset since.

* **`Tracked.safe_iff`** — in every run, reading, writing and bursts are refused as not
  belonging to the session exactly if they do not, files are opened only without a session and
  only the file opened last is touched, exactly if each such request comes to its handler with
  `errno` not being `EEXIST` and, where it writes or bursts, has both or none of the two faults;
* **`Tracked.foreign_session_written`** — the run in which another session writes to the file.
-/
import AerialManipulator.Ftp.Resend

open FileSystem

namespace Ftp

variable {φ : Type}

def Opcode.usesFile : Opcode → Bool
  | CmdReadFile | CmdWriteFile | CmdBurstReadFile => true
  | _ => false

def Opcode.opensFile : Opcode → Bool
  | CmdOpenFileRO | CmdCreateFile | CmdOpenFileWO => true
  | _ => false

def Opcode.endsSession : Opcode → Bool
  | CmdTerminateSession | CmdResetSessions => true
  | _ => false

theorem opensFile_not_endsSession {op : Opcode} (h : op.opensFile) : ¬ op.endsSession := by
  cases op <;> simp_all [Opcode.opensFile, Opcode.endsSession]

/-- A refusal with `kErrInvalidSession`. -/
def Reply.IsInvalidSession (p : Reply) : Prop :=
  p.opcode = .RspNak ∧ p.data = [ErrorCode.InvalidSession.code]

/-- The request does not belong to the session. -/
def Server.Foreign (s : Server φ) (r : Request) : Prop :=
  r.session ≠ 0 ∨ s.session_info.fd < 0

/-- The calls of the file system between two states; lines of the log are none of them. -/
def Server.callsSince (s s' : Server φ) : List Call :=
  (s'.disk.calls.drop s.disk.calls.length).filter (· ≠ .logLine)

def Server.touched (s s' : Server φ) : List ℤ := (s.callsSince s').filterMap Call.touches

/-! ### What the handlers touch -/

/-- Between two states, the session keeps its file, and no other one is touched. -/
structure Touching (s s' : Server φ) : Prop where
  calls : ∃ cs, s'.disk.calls = s.disk.calls ++ cs ∧
    ∀ c ∈ cs, ∀ fd, c.touches = some fd → fd = s.session_info.fd
  fd : s'.session_info.fd = s.session_info.fd

namespace Touching

theorem of_eq {s s' : Server φ} (hcalls : s'.disk.calls = s.disk.calls)
    (hfd : s'.session_info.fd = s.session_info.fd) : Touching s s' :=
  ⟨⟨[], by rw [hcalls, List.append_nil], by simp⟩, hfd⟩

theorem refl (s : Server φ) : Touching s s := of_eq rfl rfl

theorem trans {s₁ s₂ s₃ : Server φ} (h₁ : Touching s₁ s₂) (h₂ : Touching s₂ s₃) :
    Touching s₁ s₃ := by
  obtain ⟨⟨cs, hcs, htouch⟩, hfd⟩ := h₁
  obtain ⟨⟨ds, hds, htouch'⟩, hfd'⟩ := h₂
  refine ⟨⟨cs ++ ds, by rw [hds, hcs, List.append_assoc], ?_⟩, hfd'.trans hfd⟩
  intro c hc fd hfdc
  rcases List.mem_append.mp hc with hc | hc
  · exact htouch c hc fd hfdc
  · exact (htouch' c hc fd hfdc).trans hfd

theorem touched {s s' : Server φ} (h : Touching s s') :
    ∀ fd ∈ s.touched s', fd = s.session_info.fd := by
  obtain ⟨⟨cs, hcs, htouch⟩, -⟩ := h
  intro fd hfd
  unfold Server.touched Server.callsSince at hfd
  rw [hcs, List.drop_left] at hfd
  obtain ⟨c, hc, hcfd⟩ := List.mem_filterMap.mp hfd
  exact htouch c (List.mem_of_mem_filter hc) fd hcfd

end Touching

/-- Between two states, nothing but lines of the log. -/
def Silent (s s' : Server φ) : Prop :=
  ∃ n, s'.disk.calls = s.disk.calls ++ List.replicate n .logLine

theorem Silent.of_eq {s s' : Server φ} (h : s'.disk.calls = s.disk.calls) : Silent s s' :=
  ⟨0, h.trans (List.append_nil _).symm⟩

theorem Server.touched_of_silent {s s' : Server φ} (h : Silent s s') :
    s.callsSince s' = [] ∧ s.touched s' = [] := by
  have hnil : s.callsSince s' = [] := by
    obtain ⟨n, hn⟩ := h
    unfold callsSince
    rw [hn, List.drop_left, List.filter_replicate]
    rfl
  refine ⟨hnil, ?_⟩
  unfold touched
  rw [hnil]
  rfl

section Calls

variable {α : Type} {s s' : Server φ} {c : Call} {f : φ → φ × Except Errno α} {a : Option α}

theorem call_perform (h : s.call (perform c f) = (a, s')) :
    s' = { s with disk := s'.disk } ∧ s'.disk.calls = s.disk.calls ++ [c] := by
  unfold Server.call at h
  obtain ⟨rfl, rfl⟩ := Prod.mk.inj h
  exact ⟨rfl, calls_perform c f s.disk⟩

theorem touching_call (h : s.call (perform c f) = (a, s'))
    (hc : ∀ fd, c.touches = some fd → fd = s.session_info.fd) : Touching s s' := by
  obtain ⟨hs', hcalls⟩ := call_perform h
  refine ⟨⟨[c], hcalls, ?_⟩, by rw [hs']⟩
  intro c' hc' fd hfd
  rw [List.mem_singleton.mp hc'] at hfd
  exact hc fd hfd

end Calls

variable (h : Host φ)

theorem touching_log (s : Server φ) : Touching s (s.log h) := by
  refine ⟨⟨[.logLine], rfl, fun c hc fd hfd => ?_⟩, rfl⟩
  rw [List.mem_singleton.mp hc] at hfd
  exact nomatch hfd

theorem Server.workRead_spec (s : Server φ) (r : Request) :
    (s.Foreign r ∧ s.workRead h r = (.error .InvalidSession, s)) ∨
      (¬ s.Foreign r ∧ Touching s (s.workRead h r).2 ∧
        (s.workRead h r).1 ≠ .error .InvalidSession) := by
  unfold workRead
  split
  · next hforeign => exact .inl ⟨hforeign, rfl⟩
  · next hforeign =>
    refine .inr ⟨hforeign, ?_⟩
    split
    · exact ⟨touching_log h s, by simp⟩
    · dsimp only
      split
      · next s₁ hseek =>
        exact ⟨(touching_call hseek (by simp [Call.touches])).trans (touching_log h s₁), by simp⟩
      · next s₁ hseek =>
        have h₁ : Touching s s₁ := touching_call hseek (by simp [Call.touches])
        split
        · next s₂ hread =>
          refine ⟨h₁.trans ((touching_call hread ?_).trans (touching_log h s₂)), by simp⟩
          simp [Call.touches, h₁.fd]
        · next s₂ hread =>
          refine ⟨h₁.trans (touching_call hread ?_), by simp⟩
          simp [Call.touches, h₁.fd]

theorem Server.workWrite_spec (s : Server φ) (r : Request) :
    (r.session ≠ 0 ∧ s.session_info.fd < 0 ∧ s.workWrite h r = (.error .InvalidSession, s)) ∨
      (¬ (r.session ≠ 0 ∧ s.session_info.fd < 0) ∧ Touching s (s.workWrite h r).2 ∧
        (s.workWrite h r).1 ≠ .error .InvalidSession) := by
  unfold workWrite
  split
  · next hboth => exact .inl ⟨hboth.1, hboth.2, rfl⟩
  · next hboth =>
    refine .inr ⟨hboth, ?_⟩
    dsimp only
    split
    · next s₁ hseek =>
      exact ⟨(touching_call hseek (by simp [Call.touches])).trans (touching_log h s₁), by simp⟩
    · next s₁ hseek =>
      have h₁ : Touching s s₁ := touching_call hseek (by simp [Call.touches])
      split
      · next s₂ hwrite =>
        refine ⟨h₁.trans ((touching_call hwrite ?_).trans (touching_log h s₂)), by simp⟩
        simp [Call.touches, h₁.fd]
      · next s₂ n hwrite =>
        refine ⟨h₁.trans (touching_call hwrite ?_), by simp⟩
        simp [Call.touches, h₁.fd]

omit h in
theorem Server.workBurst_spec (s : Server φ) (r : Request) (target : Peer) :
    (r.session ≠ 0 ∧ s.session_info.fd < 0 ∧ s.workBurst r target = (.error .InvalidSession, s)) ∨
      (¬ (r.session ≠ 0 ∧ s.session_info.fd < 0) ∧ Touching s (s.workBurst r target).2 ∧
        ∃ a, (s.workBurst r target).1 = .ok a) := by
  unfold workBurst
  split
  · next hboth => exact .inl ⟨hboth.1, hboth.2, rfl⟩
  · next hboth => exact .inr ⟨hboth, .of_eq rfl rfl, _, rfl⟩

/-- `_workOpen` only says so while there is a session, and fails without one, or makes one. -/
theorem Server.workOpen_spec (s : Server φ) (r : Request) (flags : OpenFlags) :
    ((∃ e, (s.workOpen h r flags).1 = .error e) ∧
        (s.workOpen h r flags).2.session_info = s.session_info ∨
      s.session_info.fd < 0) ∧
      (0 ≤ s.session_info.fd → (s.workOpen h r flags).2 = s.log h) ∧
      ((s.workOpen h r flags).2.session_info.fd = s.session_info.fd ∨
        ∃ a, (s.workOpen h r flags).1 = .ok a) := by
  unfold workOpen
  split
  · exact ⟨.inl ⟨⟨_, rfl⟩, rfl⟩, fun _ => rfl, .inl rfl⟩
  · next hfd =>
    have hneg : s.session_info.fd < 0 := not_le.mp hfd
    refine ⟨.inr hneg, fun hpos => absurd hpos hfd, ?_⟩
    dsimp only
    split
    · exact .inl rfl
    · split
      · next s₂ hopen =>
        obtain ⟨hs₂, -⟩ := call_perform hopen
        left
        rw [hs₂]
        rfl
      · exact .inr ⟨_, rfl⟩

theorem Server.execute_busy (s : Server φ) {r : Request} (sender : Peer)
    (hopens : r.opcode.opensFile) (hfd : 0 ≤ s.session_info.fd) :
    s.execute h r sender = (.error .NoSessionsAvailable, s.log h) := by
  unfold execute
  cases hop : r.opcode with
  | CmdOpenFileRO => exact if_pos hfd
  | CmdCreateFile => exact if_pos hfd
  | CmdOpenFileWO => exact if_pos hfd
  | _ => exact absurd hopens (by simp [hop, Opcode.opensFile])

theorem Server.workFile_spec (s : Server φ) (r : Request) (x : Work φ (List UInt8)) :
    (s.workFile r x).2.session_info = s.session_info := by
  unfold workFile
  rcases hx : s.work x with ⟨result, s₁⟩
  have hs₁ : s₁.session_info = s.session_info := by
    rw [← (Prod.mk.inj hx).2]
  cases result with
  | ok data => exact hs₁
  | error e => exact hs₁

/-- What a request does to the descriptor of the session: nothing, or it opens a file where
there was none, or it ends the session. -/
inductive FileMove (r : Request) (fd : ℤ) : Except ErrorCode Ack → ℤ → Prop
  | keep (result : Except ErrorCode Ack)
      (h : ∀ a, result = .ok a → r.opcode.opensFile = false ∧ r.opcode.endsSession = false) :
      FileMove r fd result fd
  | opened (a : Ack) (fd' : ℤ) (hopens : r.opcode.opensFile) (hfree : fd < 0) :
      FileMove r fd (.ok a) fd'
  | ended (a : Ack) (fd' : ℤ) (hends : r.opcode.endsSession) (hclosed : fd' < 0) :
      FileMove r fd (.ok a) fd'

theorem Server.workOpen_move (s : Server φ) {r : Request} (hopens : r.opcode.opensFile)
    (flags : OpenFlags) :
    FileMove r s.session_info.fd (s.workOpen h r flags).1
      (s.workOpen h r flags).2.session_info.fd := by
  obtain ⟨hfree, -, hfd⟩ := s.workOpen_spec h r flags
  cases hres : (s.workOpen h r flags).1 with
  | ok a =>
    refine .opened a _ hopens (hfree.resolve_left ?_)
    rintro ⟨⟨e, he⟩, -⟩
    exact absurd (hres.symm.trans he) (by simp)
  | error e =>
    rw [hfd.resolve_right]
    · exact .keep _ fun a ha => absurd ha (by simp)
    · rintro ⟨a, ha⟩
      exact absurd (hres.symm.trans ha) (by simp)

theorem Server.execute_move (s : Server φ) (r : Request) (sender : Peer) :
    FileMove r s.session_info.fd (s.execute h r sender).1
      (s.execute h r sender).2.session_info.fd := by
  have hkeep : ∀ out : Except ErrorCode Ack × Server φ,
      out.2.session_info.fd = s.session_info.fd → r.opcode.opensFile = false →
      r.opcode.endsSession = false →
      FileMove r s.session_info.fd out.1 out.2.session_info.fd := by
    intro out hfd hopens hends
    rw [hfd]
    exact .keep _ fun _ _ => ⟨hopens, hends⟩
  have hfile : ∀ x : Work φ (List UInt8), r.opcode.opensFile = false →
      r.opcode.endsSession = false → FileMove r s.session_info.fd (s.workFile r x).1
        (s.workFile r x).2.session_info.fd :=
    fun x => hkeep _ (congrArg SessionInfo.fd (s.workFile_spec r x))
  unfold execute
  cases hop : r.opcode with
  | CmdNone => exact .keep _ fun _ _ => by simp [hop, Opcode.opensFile, Opcode.endsSession]
  | CmdTerminateSession =>
    dsimp only
    unfold workTerminate
    split
    · exact .keep _ fun a ha => absurd ha (by simp)
    · exact .ended _ _ (by rw [hop]; rfl) (by decide : (-1 : ℤ) < 0)
  | CmdResetSessions =>
    refine .ended _ _ (by rw [hop]; rfl) ?_
    unfold workReset
    dsimp only
    split
    · exact (by decide : (-1 : ℤ) < 0)
    · next hfd =>
      rw [not_not.mp hfd]
      decide
  | CmdOpenFileRO => exact s.workOpen_move h (by rw [hop]; rfl) _
  | CmdCreateFile => exact s.workOpen_move h (by rw [hop]; rfl) _
  | CmdOpenFileWO => exact s.workOpen_move h (by rw [hop]; rfl) _
  | CmdReadFile =>
    refine hkeep _ ?_ (by rw [hop]; rfl) (by rw [hop]; rfl)
    rcases s.workRead_spec h r with ⟨-, heq⟩ | ⟨-, htouch, -⟩
    · exact congrArg (fun out => out.2.session_info.fd) heq
    · exact htouch.fd
  | CmdWriteFile =>
    refine hkeep _ ?_ (by rw [hop]; rfl) (by rw [hop]; rfl)
    rcases s.workWrite_spec h r with ⟨-, -, heq⟩ | ⟨-, htouch, -⟩
    · exact congrArg (fun out => out.2.session_info.fd) heq
    · exact htouch.fd
  | CmdBurstReadFile =>
    refine hkeep _ ?_ (by rw [hop]; rfl) (by rw [hop]; rfl)
    rcases s.workBurst_spec r sender with ⟨-, -, heq⟩ | ⟨-, htouch, -⟩
    · exact congrArg (fun out => out.2.session_info.fd) heq
    · exact htouch.fd
  | CmdListDirectory => exact hfile _ (by rw [hop]; rfl) (by rw [hop]; rfl)
  | CmdRemoveFile => exact hfile _ (by rw [hop]; rfl) (by rw [hop]; rfl)
  | CmdCreateDirectory => exact hfile _ (by rw [hop]; rfl) (by rw [hop]; rfl)
  | CmdRemoveDirectory => exact hfile _ (by rw [hop]; rfl) (by rw [hop]; rfl)
  | CmdTruncateFile => exact hfile _ (by rw [hop]; rfl) (by rw [hop]; rfl)
  | CmdRename => exact hfile _ (by rw [hop]; rfl) (by rw [hop]; rfl)
  | CmdCalcFileCRC32 => exact hfile _ (by rw [hop]; rfl) (by rw [hop]; rfl)
  | RspAck => exact .keep _ fun a ha => absurd ha (by simp)
  | RspNak => exact .keep _ fun a ha => absurd ha (by simp)
  | other => exact .keep _ fun a ha => absurd ha (by simp)

/-! ### The ways of a request -/

def Server.prepare (s : Server φ) (io : Io) : Server φ :=
  { s with disk.errno := io.errno }.ensureBuffersExist io

/-- A request is looked at by its handler if there is memory, it is short enough, and it is not
taken for one that is sent again. -/
def Server.Executes (s : Server φ) (io : Io) (r : Request) : Prop :=
  s.HasBuffers io ∧ r.size.toNat ≤ kMaxDataLength ∧ s.resent r = none

/-- The ways of a request: it is refused before, gets the kept answer, or is executed. -/
inductive Served (s : Server φ) (io : Io) (sender : Peer) (r : Request) :
    Server φ × List Reply → Prop
  | refused {out : Server φ × List Reply} (errno : Errno) (e : ErrorCode)
      (hnot : ¬ (s.HasBuffers io ∧ r.size.toNat ≤ kMaxDataLength))
      (he : e ≠ .InvalidSession) (hcalls : Silent s out.1)
      (hsession : out.1.session_info = s.session_info)
      (hout : out.2 = [answer r sender errno (.error e)])
      (hlast : out.1.last_reply = none ∨
        out.1.last_reply = some (answer r sender errno (.error e))) : Served s io sender r out
  | again {out : Server φ × List Reply} {p : Reply} (hp : s.resent r = some p)
      (hfits : s.HasBuffers io ∧ r.size.toNat ≤ kMaxDataLength)
      (hcalls : Silent s out.1)
      (hsession : out.1.session_info = s.session_info) (hout : out.2 = [p])
      (hlast : out.1.last_reply = s.last_reply) : Served s io sender r out
  | executed (hexec : s.Executes io r) : Served s io sender r
      (((s.prepare io).execute h r sender).2.finish r sender (r.opcode = .CmdBurstReadFile)
        ((s.prepare io).execute h r sender).1)

theorem Server.processRequest_served (s : Server φ) (io : Io) (sender : Peer) (r : Request) :
    Served h s io sender r (s.processRequest h io sender r) := by
  have hbuf : (! ((s.prepare io).work_buffer1 && (s.prepare io).work_buffer2)) ↔
      ¬ s.HasBuffers io := by
    rw [Bool.not_eq_true', ← Bool.not_eq_true, Bool.and_eq_true]
    rfl
  have hrefuse : ∀ (s₁ : Server φ) (e : ErrorCode), Silent s s₁ →
      s₁.session_info = s.session_info → e ≠ .InvalidSession →
      ¬ (s.HasBuffers io ∧ r.size.toNat ≤ kMaxDataLength) →
      Served h s io sender r (s₁.finish r sender false (.error e)) := by
    intro s₁ e hcalls hsession he hnot
    obtain ⟨hdisk, hsess, ⟨hnil, -⟩ | ⟨hout, hlast⟩⟩ := s₁.finish_spec r sender false (.error e)
    · exact absurd hnil (by simp [finish])
    · refine .refused _ e hnot he ?_ (hsess.trans hsession) hout hlast
      unfold Silent
      rw [hdisk]
      exact hcalls
  unfold processRequest
  dsimp only
  split
  · next hno =>
    refine hrefuse _ .FailErrno ⟨1, rfl⟩ rfl (by decide) ?_
    exact fun hboth => hbuf.mp hno hboth.1
  · next hyes =>
    have hhas : s.HasBuffers io := by
      by_contra hno
      exact hyes (hbuf.mpr hno)
    split
    · next hbig =>
      exact hrefuse _ .InvalidDataSize (.of_eq rfl) rfl (by decide)
        fun hboth => absurd hbig (not_lt.mpr hboth.2)
    · next hsmall =>
      split
      · next p hp => exact .again hp ⟨hhas, not_lt.mp hsmall⟩ (.of_eq rfl) rfl rfl rfl
      · next hnone => exact .executed ⟨hhas, not_lt.mp hsmall, hnone⟩

/-! ### Periodic work -/

theorem Server.reply_spec (s : Server φ) (p : Reply) :
    (s.reply p).disk = s.disk ∧ (s.reply p).session_info = s.session_info ∧
      ((s.reply p).last_reply = s.last_reply ∨ (s.reply p).last_reply = some p) := by
  unfold reply
  split
  · exact ⟨rfl, rfl, .inr rfl⟩
  · exact ⟨rfl, rfl, .inl rfl⟩

theorem Server.streamRead_spec (s : Server φ) :
    Touching s (s.streamRead h).2 ∧ (s.streamRead h).2.last_reply = s.last_reply := by
  unfold streamRead
  dsimp only
  split
  · exact ⟨.refl s, rfl⟩
  · split
    · next s₁ hseek =>
      refine ⟨touching_call hseek (by simp [Call.touches]), ?_⟩
      rw [(call_perform hseek).1]
    · next s₁ hseek =>
      have h₁ : Touching s s₁ := touching_call hseek (by simp [Call.touches])
      split
      · next s₂ hread =>
        refine ⟨h₁.trans (touching_call hread ?_), ?_⟩
        · simp [Call.touches, h₁.fd]
        · rw [(call_perform hread).1, (call_perform hseek).1]
      · next s₂ data hread =>
        refine ⟨h₁.trans (touching_call hread ?_), ?_⟩
        · simp [Call.touches, h₁.fd]
        · rw [(call_perform hread).1, (call_perform hseek).1]

/-- What is kept after a packet of a burst is what was kept before, or that packet. -/
def KeepsStream (s s' : Server φ) : Prop :=
  ∀ p, s'.last_reply = some p → s.last_reply = some p ∨ p.req_opcode = .CmdBurstReadFile

theorem Server.streamOnce_spec (s : Server φ) (io : Io) (max_bytes_to_send : ℕ) :
    Touching s (s.streamOnce h io max_bytes_to_send).1 ∧
      KeepsStream s (s.streamOnce h io max_bytes_to_send).1 ∧
      (s.streamOnce h io max_bytes_to_send).2.1.req_opcode = .CmdBurstReadFile := by
  -- a packet is sent by a server that has only read from the file
  have hreply : ∀ (s₁ : Server φ) (p : Reply), Touching s s₁ → s₁.last_reply = s.last_reply →
      p.req_opcode = .CmdBurstReadFile →
      Touching s (s₁.reply p) ∧ KeepsStream s (s₁.reply p) ∧ p.req_opcode = .CmdBurstReadFile := by
    intro s₁ p htouch hlast hp
    obtain ⟨hdisk, hsession, hkept⟩ := s₁.reply_spec p
    refine ⟨htouch.trans (.of_eq (by rw [hdisk]) (by rw [hsession])), ?_, hp⟩
    intro q hq
    rcases hkept with hkept | hkept
    · exact .inl (by rw [← hlast, ← hkept, hq])
    · rw [hkept] at hq
      exact .inr (by rw [← Option.some.inj hq, hp])
  unfold streamOnce
  dsimp only
  set s₀ : Server φ := { s with
    session_info.stream_seq_number := s.session_info.stream_seq_number + 1 } with hs₀
  obtain ⟨htouch, hlast⟩ := s₀.streamRead_spec h
  have h₀ : Touching s s₀ := .of_eq rfl rfl
  split
  · next e s₁ hread =>
    rw [hread] at htouch hlast
    exact hreply _ _ (h₀.trans (htouch.trans (.of_eq rfl rfl))) hlast rfl
  · next data s₁ hread =>
    rw [hread] at htouch hlast
    split
    · split
      · exact hreply _ _ (h₀.trans (htouch.trans (.of_eq rfl rfl))) hlast rfl
      · exact hreply _ _ (h₀.trans (htouch.trans (.of_eq rfl rfl))) hlast rfl
    · exact hreply _ _ (h₀.trans (htouch.trans (.of_eq rfl rfl))) hlast rfl

theorem Server.streamLoop_spec (io : Io) (fuel : ℕ) (s : Server φ) (max_bytes_to_send : ℕ) :
    Touching s (streamLoop h io fuel s max_bytes_to_send).1 ∧
      KeepsStream s (streamLoop h io fuel s max_bytes_to_send).1 ∧
      ∀ p ∈ (streamLoop h io fuel s max_bytes_to_send).2, p.req_opcode = .CmdBurstReadFile := by
  induction fuel generalizing s max_bytes_to_send with
  | zero => exact ⟨.refl s, fun _ => .inl, by simp [streamLoop]⟩
  | succ fuel ih =>
    obtain ⟨htouch, hkeeps, hop⟩ := s.streamOnce_spec h io max_bytes_to_send
    unfold streamLoop
    split
    · next s₁ p honce =>
      rw [honce] at htouch hkeeps hop
      refine ⟨htouch, hkeeps, fun q hq => ?_⟩
      rw [List.mem_singleton.mp hq]
      exact hop
    · next s₁ p honce =>
      rw [honce] at htouch hkeeps hop
      obtain ⟨htouch', hkeeps', hops⟩ := ih s₁ (max_bytes_to_send - packetSize)
      refine ⟨htouch.trans htouch', fun q hq => ?_, ?_⟩
      · rcases hkeeps' q hq with hq' | hq'
        · exact hkeeps q hq'
        · exact .inr hq'
      · intro q hq
        rcases List.mem_cons.mp hq with rfl | hq
        · exact hop
        · exact hops q hq

/-- The session is left without activity: the buffers have been freed, and it is more than ten
seconds since the last request. -/
def Server.Idle (s : Server φ) (io : Io) : Prop :=
  s.work_buffer1 = false ∧ s.work_buffer2 = false ∧ 10000000 < io.now - s.last_work_buffer_access

theorem Server.expire_spec (s : Server φ) (io : Io) :
    (Touching s (s.expire h io) ∧ (s.expire h io).last_reply = s.last_reply ∧
        (s.expire h io).session_info = s.session_info ∧
        (s.expire h io).disk.fs = s.disk.fs) ∨
      ((s.expire h io).disk.calls = s.disk.calls ++ [.close s.session_info.fd] ++ [.logLine] ∧
        (s.expire h io).last_reply = none ∧ (s.expire h io).session_info.fd = -1 ∧
        (s.expire h io).session_info.stream_download = false ∧ s.Idle io) := by
  unfold expire
  dsimp only
  split
  · split
    · exact .inl ⟨.of_eq rfl rfl, rfl, rfl, rfl⟩
    · exact .inl ⟨.refl s, rfl, rfl, rfl⟩
  · next hfreed =>
    split
    · next helapsed =>
      obtain ⟨hfreed₁, hfreed₂⟩ := Bool.or_eq_false_iff.mp (Bool.not_eq_true _ ▸ hfreed)
      refine .inr ⟨?_, rfl, rfl, rfl, hfreed₁, hfreed₂, helapsed.2⟩
      exact congrArg (· ++ [Call.logLine]) (calls_perform _ _ s.disk)
    · exact .inl ⟨.refl s, rfl, rfl, rfl⟩

theorem Server.send_spec (s : Server φ) (io : Io) :
    ((s.send h io).1.session_info.fd = s.session_info.fd ∨ (s.send h io).1.session_info.fd = -1) ∧
      (∀ fd ∈ s.touched (s.send h io).1, fd = s.session_info.fd) ∧
      KeepsStream s (s.send h io).1 ∧
      ∀ p ∈ (s.send h io).2, p.req_opcode = .CmdBurstReadFile := by
  unfold send
  set s₀ : Server φ := { s with disk.errno := io.errno } with hs₀
  have h₀ : Touching s s₀ := .of_eq rfl rfl
  rcases s₀.expire_spec h io with ⟨htouch, hlast, -⟩ | ⟨hcalls, hlast, hfd, hoff, -⟩
  · have hopen : ∀ s₁ : Server φ, Touching (s₀.expire h io) s₁ →
        KeepsStream (s₀.expire h io) s₁ → (s₁.session_info.fd = s.session_info.fd ∨
          s₁.session_info.fd = -1) ∧ (∀ fd ∈ s.touched s₁, fd = s.session_info.fd) ∧
          KeepsStream s s₁ := by
      intro s₁ h₁ hk
      have hall := h₀.trans (htouch.trans h₁)
      refine ⟨.inl hall.fd, hall.touched, fun p hp => ?_⟩
      have hkept := hk p hp
      rw [hlast] at hkept
      exact hkept
    dsimp only
    split
    · obtain ⟨hfd, htouched, hkeeps⟩ := hopen _ (.refl _) fun _ => .inl
      exact ⟨hfd, htouched, hkeeps, by simp⟩
    · split
      · obtain ⟨hfd, htouched, hkeeps⟩ := hopen _ (.refl _) fun _ => .inl
        exact ⟨hfd, htouched, hkeeps, by simp⟩
      · obtain ⟨hloop, hk, hops⟩ := streamLoop_spec h io (io.free_tx_buf / packetSize)
          (s₀.expire h io) io.free_tx_buf
        obtain ⟨hfd, htouched, hkeeps⟩ := hopen _ hloop hk
        exact ⟨hfd, htouched, hkeeps, hops⟩
  · dsimp only
    rw [if_pos hoff]
    refine ⟨.inr hfd, ?_, ?_, by simp⟩
    · intro fd hmem
      unfold touched callsSince at hmem
      rw [hcalls, List.append_assoc, List.drop_left] at hmem
      simp [Call.touches] at hmem
    · intro p hp
      exact absurd (hlast.symm.trans hp) (by simp)

/-! ### Runs -/

/-- The server, and the descriptor of the file that was opened last, unless the session has
been terminated or reset since. -/
structure Tracked (φ : Type) where
  server : Server φ
  opened : Option ℤ

namespace Tracked

def init (fs : φ) : Tracked φ := ⟨.init fs, none⟩

def noteReply (fd : ℤ) (opened : Option ℤ) (p : Reply) : Option ℤ :=
  if p.opcode = .RspAck ∧ p.req_opcode.opensFile then some fd
  else if p.opcode = .RspAck ∧ p.req_opcode.endsSession then none
  else opened

def step (s : Tracked φ) (e : Event) : Tracked φ where
  server := (s.server.react h e).1
  opened := (s.server.react h e).2.foldl (noteReply (s.server.react h e).1.session_info.fd) s.opened

/-- Reading, writing and bursts are refused with `kErrInvalidSession` exactly if they do not
belong to the session, and then they touch nothing. -/
def Refuses (s : Tracked φ) (e : Event) : Prop :=
  ∀ io target sender r, e = .message io target sender r → h.takes target → r.opcode.usesFile →
    ((∃ p ∈ (s.server.react h e).2, p.IsInvalidSession) ↔ s.server.Foreign r) ∧
      (s.server.Foreign r → s.server.touched (s.server.react h e).1 = [])

/-- A request to open a file is successful, other than by a kept answer, or makes a call at all
only while there is no session. -/
def OpensFree (s : Tracked φ) (e : Event) : Prop :=
  ∀ io target sender r, e = .message io target sender r → h.takes target → r.opcode.opensFile →
    (s.server.resent r = none ∧ ∃ p ∈ (s.server.react h e).2, p.opcode = .RspAck) ∨
      s.server.callsSince (s.server.react h e).1 ≠ [] → s.server.session_info.fd < 0

/-- Reading, writing, bursts and their packets touch the file that was opened last, if it has
not been terminated or reset since, and no other file. -/
def TouchesOpened (s : Tracked φ) (e : Event) : Prop :=
  (∀ io target sender r, e = .message io target sender r → h.takes target → r.opcode.usesFile) →
    ∀ fd ∈ s.server.touched (s.server.react h e).1, 0 ≤ fd → s.opened = some fd

/-- The three together. -/
def Safe (s : Tracked φ) (e : Event) : Prop :=
  s.Refuses h e ∧ s.OpensFree h e ∧ s.TouchesOpened h e

/-- Where the refusals are as they should be: a request that is refused for its length or for
want of memory belongs to the session; one that gets a kept answer gets the right one; and of
those that are executed, the ones that do not belong to the session come with `errno` not being
`EEXIST` and, if they write or burst, have both faults. -/
def Refusable (s : Tracked φ) (e : Event) : Prop :=
  ∀ io target sender r, e = .message io target sender r → h.takes target → r.opcode.usesFile →
    (¬ (s.server.HasBuffers io ∧ r.size.toNat ≤ kMaxDataLength) → ¬ s.server.Foreign r) ∧
    (∀ p, s.server.HasBuffers io ∧ r.size.toNat ≤ kMaxDataLength → s.server.resent r = some p →
      (p.IsInvalidSession ↔ s.server.Foreign r)) ∧
    (s.server.Executes io r → s.server.Foreign r → io.errno ≠ EEXIST ∧
      (r.opcode ≠ .CmdReadFile → r.session ≠ 0 ∧ s.server.session_info.fd < 0))

end Tracked

/-! ### One step -/

theorem answer_isInvalidSession (r : Request) (sender : Peer) (errno : Errno)
    (result : Except ErrorCode Ack) :
    (answer r sender errno result).IsInvalidSession ↔
      result = .error .InvalidSession ∧ errno ≠ EEXIST := by
  cases result with
  | ok a => simp [answer, Reply.IsInvalidSession]
  | error e =>
    have hcode : nakData (translate e errno) errno = [ErrorCode.InvalidSession.code] ↔
        translate e errno = .InvalidSession := by
      unfold nakData
      cases translate e errno <;> simp [ErrorCode.code]
    have htranslate : translate e errno = .InvalidSession ↔
        e = .InvalidSession ∧ errno ≠ EEXIST := by
      unfold translate
      by_cases hexist : errno = EEXIST
      · simp [hexist]
      · rw [if_neg hexist]
        by_cases hent : errno = ENOENT ∧ e = .FailErrno
        · rw [if_pos hent, hent.2]
          simp
        · rw [if_neg hent]
          exact ⟨fun he => ⟨he, hexist⟩, fun he => he.1⟩
    simp only [answer, Reply.IsInvalidSession, true_and, Except.error.injEq]
    rw [hcode, htranslate]

theorem Server.finish_isInvalidSession (s : Server φ) (r : Request) (sender : Peer)
    (stream_send : Bool) (result : Except ErrorCode Ack) :
    (∃ p ∈ (s.finish r sender stream_send result).2, p.IsInvalidSession) ↔
      result = .error .InvalidSession ∧ s.disk.errno ≠ EEXIST := by
  rw [← answer_isInvalidSession r sender]
  cases result with
  | ok a =>
    cases stream_send with
    | true => simp [finish, answer, Reply.IsInvalidSession]
    | false => simp [finish]
  | error e => simp [finish]

theorem Server.execute_usesFile (s : Server φ) {r : Request} (sender : Peer)
    (huses : r.opcode.usesFile) :
    (r.opcode = .CmdReadFile → (s.Foreign r ∧ s.execute h r sender = (.error .InvalidSession, s)) ∨
        (¬ s.Foreign r ∧ Touching s (s.execute h r sender).2 ∧
          (s.execute h r sender).1 ≠ .error .InvalidSession)) ∧
      (r.opcode ≠ .CmdReadFile → (r.session ≠ 0 ∧ s.session_info.fd < 0 ∧
          s.execute h r sender = (.error .InvalidSession, s)) ∨
        (¬ (r.session ≠ 0 ∧ s.session_info.fd < 0) ∧ Touching s (s.execute h r sender).2 ∧
          (s.execute h r sender).1 ≠ .error .InvalidSession)) := by
  unfold execute
  cases hop : r.opcode with
  | CmdReadFile => exact ⟨fun _ => s.workRead_spec h r, fun hne => absurd rfl hne⟩
  | CmdWriteFile => exact ⟨fun heq => absurd heq (by decide), fun _ => s.workWrite_spec h r⟩
  | CmdBurstReadFile =>
    refine ⟨fun heq => absurd heq (by decide), fun _ => ?_⟩
    rcases s.workBurst_spec r sender with hboth | ⟨hnot, htouch, a, ha⟩
    · exact .inl hboth
    · refine .inr ⟨hnot, htouch, ?_⟩
      dsimp only
      rw [ha]
      simp
  | _ => exact absurd huses (by simp [hop, Opcode.usesFile])

theorem Server.touching_execute (s : Server φ) {r : Request} (sender : Peer)
    (huses : r.opcode.usesFile) : Touching s (s.execute h r sender).2 := by
  obtain ⟨hread, hother⟩ := s.execute_usesFile h sender huses
  by_cases hop : r.opcode = .CmdReadFile
  · rcases hread hop with ⟨-, heq⟩ | ⟨-, htouch, -⟩
    · rw [heq]
      exact .refl s
    · exact htouch
  · rcases hother hop with ⟨-, -, heq⟩ | ⟨-, htouch, -⟩
    · rw [heq]
      exact .refl s
    · exact htouch

theorem Server.finish_refuses {s s₁ : Server φ} (hcalls : s₁.disk.calls = s.disk.calls)
    (r : Request) (sender : Peer) (stream_send : Bool) :
    ((∃ p ∈ (s₁.finish r sender stream_send (.error .InvalidSession)).2, p.IsInvalidSession) ↔
        s₁.disk.errno ≠ EEXIST) ∧
      s.touched (s₁.finish r sender stream_send (.error .InvalidSession)).1 = [] := by
  constructor
  · rw [finish_isInvalidSession]
    exact and_iff_right rfl
  · refine (touched_of_silent (.of_eq ?_)).2
    rw [(s₁.finish_spec r sender stream_send (.error .InvalidSession)).1, hcalls]

variable {h} in
theorem executed_refuses_iff {s : Server φ} {io : Io} {r : Request} (sender : Peer)
    (huses : r.opcode.usesFile) :
    let out := ((s.prepare io).execute h r sender).2.finish r sender
      (r.opcode = .CmdBurstReadFile) ((s.prepare io).execute h r sender).1
    (((∃ p ∈ out.2, p.IsInvalidSession) ↔ s.Foreign r) ∧ (s.Foreign r → s.touched out.1 = [])) ↔
      (s.Foreign r → io.errno ≠ EEXIST ∧
        (r.opcode ≠ .CmdReadFile → r.session ≠ 0 ∧ s.session_info.fd < 0)) := by
  dsimp only
  obtain ⟨hread, hother⟩ := (s.prepare io).execute_usesFile h sender huses
  obtain ⟨hrefused, hquiet⟩ : ((∃ p ∈ ((s.prepare io).finish r sender
        (r.opcode = .CmdBurstReadFile) (.error .InvalidSession)).2, p.IsInvalidSession) ↔
      io.errno ≠ EEXIST) ∧ s.touched ((s.prepare io).finish r sender
        (r.opcode = .CmdBurstReadFile) (.error .InvalidSession)).1 = [] :=
    Server.finish_refuses rfl r sender _
  have hdone : ((s.prepare io).execute h r sender).1 ≠ .error .InvalidSession →
      ¬ ∃ p ∈ (((s.prepare io).execute h r sender).2.finish r sender
        (r.opcode = .CmdBurstReadFile) ((s.prepare io).execute h r sender).1).2,
        p.IsInvalidSession := by
    intro hne hex
    exact hne ((Server.finish_isInvalidSession _ _ _ _ _).mp hex).1
  by_cases hop : r.opcode = .CmdReadFile
  · rcases hread hop with ⟨hforeign, heq⟩ | ⟨hforeign, -, hne⟩
    · change s.Foreign r at hforeign
      rw [heq]
      dsimp only
      rw [hrefused, hquiet]
      constructor
      · rintro ⟨hiff, -⟩ -
        exact ⟨hiff.mpr hforeign, fun hnot => absurd hop hnot⟩
      · intro hok
        exact ⟨iff_of_true (hok hforeign).1 hforeign, fun _ => rfl⟩
    · change ¬ s.Foreign r at hforeign
      exact iff_of_true ⟨iff_of_false (hdone hne) hforeign, fun hf => absurd hf hforeign⟩
        fun hf => absurd hf hforeign
  · rcases hother hop with ⟨hsession, hfd, heq⟩ | ⟨hnot, -, hne⟩
    · change s.session_info.fd < 0 at hfd
      rw [heq]
      dsimp only
      rw [hrefused, hquiet]
      constructor
      · rintro ⟨hiff, -⟩ hf
        exact ⟨hiff.mpr hf, fun _ => ⟨hsession, hfd⟩⟩
      · intro hok
        exact ⟨iff_of_true (hok (.inl hsession)).1 (.inl hsession), fun _ => rfl⟩
    · constructor
      · rintro ⟨hiff, -⟩ hf
        exact absurd (hiff.mpr hf) (hdone hne)
      · intro hok
        have hforeign : ¬ s.Foreign r := fun hf => hnot ((hok hf).2 hop)
        exact ⟨iff_of_false (hdone hne) hforeign, fun hf => absurd hf hforeign⟩

namespace Tracked

variable {h}

theorem refuses_iff (s : Tracked φ) (e : Event) : s.Refuses h e ↔ s.Refusable h e := by
  unfold Refuses Refusable
  refine forall_congr' fun io => forall_congr' fun target => forall_congr' fun sender =>
    forall_congr' fun r => forall_congr' fun he => forall_congr' fun htakes =>
    forall_congr' fun huses => ?_
  have hreact : s.server.react h e = s.server.processRequest h io sender r := by
    rw [he]
    exact if_pos htakes
  rw [hreact]
  have hserved := s.server.processRequest_served h io sender r
  generalize s.server.processRequest h io sender r = out at hserved ⊢
  cases hserved with
  | refused errno e hnot hcode hcalls hsession hout hlast =>
    have hno : ¬ ∃ p ∈ out.2, p.IsInvalidSession := by
      rw [hout]
      rintro ⟨p, hp, hinv⟩
      rw [List.mem_singleton.mp hp, answer_isInvalidSession] at hinv
      exact hcode (Except.error.inj hinv.1)
    constructor
    · rintro ⟨hiff, -⟩
      refine ⟨fun _ hf => hno (hiff.mpr hf), fun p hfits => absurd hfits hnot, fun hexec => ?_⟩
      exact absurd ⟨hexec.1, hexec.2.1⟩ hnot
    · rintro ⟨hown, -⟩
      exact ⟨iff_of_false hno (hown hnot), fun hf => absurd hf (hown hnot)⟩
  | @again _ p hp hfits hcalls hsession hout hlast =>
    have hone : (∃ q ∈ out.2, q.IsInvalidSession) ↔ p.IsInvalidSession := by
      rw [hout]
      simp
    rw [hone, (Server.touched_of_silent hcalls).2]
    constructor
    · rintro ⟨hiff, -⟩
      refine ⟨fun hnot => absurd hfits hnot, fun q _ hq => ?_, fun hexec => ?_⟩
      · rw [← Option.some.inj (hp.symm.trans hq)]
        exact hiff
      · exact absurd (hp.symm.trans hexec.2.2) (by simp)
    · rintro ⟨-, hkept, -⟩
      exact ⟨hkept p hfits hp, fun _ => rfl⟩
  | executed hexec =>
    refine (executed_refuses_iff sender huses).trans ?_
    constructor
    · intro hok
      refine ⟨fun hnot => absurd ⟨hexec.1, hexec.2.1⟩ hnot, fun p _ hp => ?_, fun _ => hok⟩
      exact absurd (hp.symm.trans hexec.2.2) (by simp)
    · rintro ⟨-, -, hok⟩
      exact hok hexec

/-- The file of the session is the one opened last, and a kept answer that the session has ended
is right. -/
structure Invariant (s : Tracked φ) : Prop where
  opened : 0 ≤ s.server.session_info.fd → s.opened = some s.server.session_info.fd
  ended : ∀ p, s.server.last_reply = some p → p.opcode = .RspAck → p.req_opcode.endsSession →
    s.server.session_info.fd < 0

theorem invariant_init (fs : φ) : (init fs).Invariant where
  opened hfd := absurd hfd (by decide : ¬ (0 : ℤ) ≤ -1)
  ended _ hp := absurd hp (by simp [init, Server.init])

theorem foldl_noteReply {fd : ℤ} {opened : Option ℤ} {ps : List Reply}
    (hps : ∀ p ∈ ps, p.opcode = .RspAck →
      p.req_opcode.opensFile = false ∧ p.req_opcode.endsSession = false) :
    ps.foldl (noteReply fd) opened = opened := by
  induction ps with
  | nil => rfl
  | cons p ps ih =>
    have hp := hps p List.mem_cons_self
    have hsame : noteReply fd opened p = opened := by
      unfold noteReply
      rw [if_neg, if_neg]
      · rintro ⟨hack, hends⟩
        exact Bool.false_ne_true ((hp hack).2.symm.trans hends)
      · rintro ⟨hack, hopens⟩
        exact Bool.false_ne_true ((hp hack).1.symm.trans hopens)
    rw [List.foldl_cons, hsame]
    exact ih fun q hq => hps q (List.mem_cons_of_mem p hq)

theorem invariant_send {s : Tracked φ} (hs : s.Invariant) (io : Io) :
    (s.step h (.send io)).Invariant := by
  obtain ⟨hfd, -, hkeeps, hops⟩ := s.server.send_spec h io
  have hopened : (s.step h (.send io)).opened = s.opened := by
    refine foldl_noteReply fun p hp _ => ?_
    rw [hops p hp]
    exact ⟨rfl, rfl⟩
  constructor
  · intro hpos
    rw [hopened]
    rcases hfd with hfd | hfd
    · rw [show (s.step h (.send io)).server.session_info.fd = _ from hfd] at hpos ⊢
      exact hs.opened hpos
    · rw [show (s.step h (.send io)).server.session_info.fd = _ from hfd] at hpos
      exact nomatch hpos
  · intro p hp hack hends
    rcases hkeeps p hp with hkept | hburst
    · have hneg := hs.ended p hkept hack hends
      rcases hfd with hfd | hfd
      · rw [show (s.step h (.send io)).server.session_info.fd = _ from hfd]
        exact hneg
      · rw [show (s.step h (.send io)).server.session_info.fd = _ from hfd]
        decide
    · rw [hburst] at hends
      exact nomatch hends

theorem invariant_finish {s : Tracked φ} (hs : s.Invariant) {r : Request} {sender : Peer}
    {errno : Errno} {result : Except ErrorCode Ack} {fd : ℤ} {out : Server φ × List Reply}
    (hmove : FileMove r s.server.session_info.fd result fd) (hfd : out.1.session_info.fd = fd)
    (hopening : r.opcode.opensFile → out.2 ≠ [])
    (hout : out.2 = [] ∧ out.1.last_reply = none ∨ out.2 = [answer r sender errno result] ∧
      (out.1.last_reply = none ∨ out.1.last_reply = some (answer r sender errno result))) :
    Invariant ⟨out.1, out.2.foldl (noteReply out.1.session_info.fd) s.opened⟩ := by
  -- what is answered, and what is kept of it
  have hanswer : ∀ p, p ∈ out.2 ∨ out.1.last_reply = some p → p = answer r sender errno result := by
    rintro p (hp | hp)
    · rcases hout with ⟨hnil, -⟩ | ⟨hone, -⟩
      · rw [hnil] at hp
        exact nomatch hp
      · rw [hone] at hp
        exact List.mem_singleton.mp hp
    · rcases hout with ⟨-, hnone⟩ | ⟨-, hnone | hsome⟩
      · exact absurd (hnone.symm.trans hp) (by simp)
      · exact absurd (hnone.symm.trans hp) (by simp)
      · exact (Option.some.inj (hsome.symm.trans hp)).symm
  cases hmove with
  | keep _ hkeep =>
    have hother : ∀ p, p = answer r sender errno result → p.opcode = .RspAck →
        p.req_opcode.opensFile = false ∧ p.req_opcode.endsSession = false := by
      rintro p rfl hack
      cases result with
      | ok a => exact hkeep a rfl
      | error e => exact absurd hack (by simp [answer])
    constructor
    · dsimp only
      rw [foldl_noteReply fun p hp => hother p (hanswer p (.inl hp)), hfd]
      exact hs.opened
    · intro p hp hack hends
      have hfalse := (hother p (hanswer p (.inr hp)) hack).2
      exact absurd (hfalse.symm.trans hends) Bool.false_ne_true
  | opened a fd' hopens hfree =>
    obtain ⟨hone, -⟩ := hout.resolve_left fun hnil => hopening hopens hnil.1
    have hnote : noteReply out.1.session_info.fd s.opened (answer r sender errno (.ok a)) =
        some out.1.session_info.fd := if_pos ⟨rfl, hopens⟩
    constructor
    · dsimp only
      rw [hone, List.foldl_cons, List.foldl_nil, hnote]
      exact fun _ => rfl
    · intro p hp hack hends
      rw [hanswer p (.inr hp)] at hends
      change r.opcode.endsSession at hends
      exact absurd hends (opensFile_not_endsSession hopens)
  | ended a fd' hends hclosed =>
    constructor
    · dsimp only
      rw [hfd]
      exact fun hpos => absurd hpos (not_le.mpr hclosed)
    · dsimp only
      rw [hfd]
      exact fun _ _ _ _ => hclosed

theorem invariant_message {s : Tracked φ} (hs : s.Invariant) {io : Io} {sender : Peer}
    {r : Request} {out : Server φ × List Reply} (hserved : Served h s.server io sender r out) :
    Invariant ⟨out.1, out.2.foldl (noteReply out.1.session_info.fd) s.opened⟩ := by
  cases hserved with
  | refused errno e hnot hcode hcalls hsession hout hlast =>
    have hnak : (answer r sender errno (.error e)).opcode ≠ .RspAck := by simp [answer]
    have hopened : out.2.foldl (noteReply out.1.session_info.fd) s.opened = s.opened := by
      refine foldl_noteReply fun p hp hack => ?_
      rw [hout] at hp
      rw [List.mem_singleton.mp hp] at hack
      exact absurd hack hnak
    constructor
    · dsimp only
      rw [hopened, hsession]
      exact hs.opened
    · intro p hp hack
      rcases hlast with hlast | hlast
      · exact absurd (hlast.symm.trans hp) (by simp)
      · rw [← Option.some.inj (hlast.symm.trans hp)] at hack
        exact absurd hack hnak
  | @again _ p hp hfits hcalls hsession hout hlast =>
    have hkept := (seq_number_of_resent hp).1
    constructor
    · dsimp only
      rw [hout, hsession, List.foldl_cons, List.foldl_nil]
      intro hpos
      unfold noteReply
      split
      · rfl
      · split
        · next hends => exact absurd hpos (not_le.mpr (hs.ended p hkept hends.1 hends.2))
        · exact hs.opened hpos
    · dsimp only
      rw [hlast, hsession]
      exact hs.ended
  | executed hexec =>
    have hmove := (s.server.prepare io).execute_move h r sender
    generalize (s.server.prepare io).execute h r sender = x at hmove ⊢
    obtain ⟨result, s₁⟩ := x
    dsimp only at hmove ⊢
    obtain ⟨-, hsession, hout⟩ := s₁.finish_spec r sender (r.opcode = .CmdBurstReadFile) result
    refine invariant_finish hs hmove (congrArg SessionInfo.fd hsession) (fun hopens => ?_) hout
    have hburst : r.opcode ≠ .CmdBurstReadFile := by
      intro heq
      rw [heq] at hopens
      exact nomatch hopens
    rw [decide_eq_false hburst]
    cases result with
    | ok a => simp [Server.finish]
    | error e => simp [Server.finish]

theorem invariant_step {s : Tracked φ} (hs : s.Invariant) (e : Event) : (s.step h e).Invariant := by
  cases e with
  | message io target sender r =>
    by_cases htakes : h.takes target
    · have hreact : s.server.react h (.message io target sender r) =
          s.server.processRequest h io sender r := if_pos htakes
      unfold step
      rw [hreact]
      exact invariant_message hs (s.server.processRequest_served h io sender r)
    · have hreact : s.server.react h (.message io target sender r) = (s.server, []) :=
        if_neg htakes
      unfold step
      rw [hreact]
      exact hs
  | send io => exact invariant_send hs io

theorem opensFree_step (s : Tracked φ) (e : Event) : s.OpensFree h e := by
  rintro io target sender r rfl htakes hopens
  have hreact : s.server.react h (.message io target sender r) =
      s.server.processRequest h io sender r := if_pos htakes
  rw [hreact]
  have hserved := s.server.processRequest_served h io sender r
  generalize s.server.processRequest h io sender r = out at hserved ⊢
  cases hserved with
  | refused errno e hnot hcode hcalls hsession hout hlast =>
    rintro (⟨-, p, hp, hack⟩ | hne)
    · rw [hout] at hp
      rw [List.mem_singleton.mp hp] at hack
      exact absurd hack (by simp [answer])
    · exact absurd (Server.touched_of_silent hcalls).1 hne
  | again hp hfits hcalls hsession hout hlast =>
    rintro (⟨hnone, -⟩ | hne)
    · exact absurd (hp.symm.trans hnone) (by simp)
    · exact absurd (Server.touched_of_silent hcalls).1 hne
  | executed hexec =>
    intro hdone
    by_contra hfd
    rw [(s.server.prepare io).execute_busy h sender hopens (not_lt.mp hfd)] at hdone
    dsimp only at hdone
    obtain ⟨hdisk, -⟩ := ((s.server.prepare io).log h).finish_spec r sender
      (r.opcode = .CmdBurstReadFile) (.error .NoSessionsAvailable)
    rcases hdone with ⟨-, p, hp, hack⟩ | hne
    · rw [List.mem_singleton.mp hp] at hack
      exact absurd hack (by simp [answer])
    · refine hne (Server.touched_of_silent ⟨1, ?_⟩).1
      rw [hdisk]
      rfl

theorem touchesOpened_step {s : Tracked φ} (hs : s.Invariant) (e : Event) :
    s.TouchesOpened h e := by
  intro huses fd hfd hpos
  suffices heq : fd = s.server.session_info.fd by
    rw [heq] at hpos ⊢
    exact hs.opened hpos
  cases e with
  | send io => exact (s.server.send_spec h io).2.1 fd hfd
  | message io target sender r =>
    by_cases htakes : h.takes target
    · have hreact : s.server.react h (.message io target sender r) =
          s.server.processRequest h io sender r := if_pos htakes
      have huse := huses io target sender r rfl htakes
      rw [hreact] at hfd
      have hserved := s.server.processRequest_served h io sender r
      generalize s.server.processRequest h io sender r = out at hserved hfd
      cases hserved with
      | refused errno e hnot hcode hcalls =>
        rw [(Server.touched_of_silent hcalls).2] at hfd
        exact nomatch hfd
      | again hp hfits hcalls =>
        rw [(Server.touched_of_silent hcalls).2] at hfd
        exact nomatch hfd
      | executed hexec =>
        have hprepare : Touching s.server (s.server.prepare io) := .of_eq rfl rfl
        have htouch : Touching (s.server.prepare io) ((s.server.prepare io).execute h r sender).2 :=
          (s.server.prepare io).touching_execute h sender huse
        obtain ⟨hdisk, hsession, -⟩ := ((s.server.prepare io).execute h r sender).2.finish_spec r
          sender (r.opcode = .CmdBurstReadFile) ((s.server.prepare io).execute h r sender).1
        refine (hprepare.trans (htouch.trans (.of_eq ?_ ?_))).touched fd hfd
        · rw [hdisk]
        · rw [hsession]
    · have hreact : s.server.react h (.message io target sender r) = (s.server, []) :=
        if_neg htakes
      rw [hreact, (Server.touched_of_silent (.of_eq rfl)).2] at hfd
      exact nomatch hfd

/-- For every file system and every order of requests, packets and timeouts: the session is
safe at every step exactly if all requests that read, write or burst can be refused as they
should be. -/
theorem safe_iff (fs : φ) (es : List Event) :
    Trace.Always (step h) (Safe h) (init fs) es ↔
      Trace.Always (step h) (Refusable h) (init fs) es := by
  refine Trace.always_iff_of_invariant (I := Invariant) (fun s e hs => ?_)
    (fun s e hs _ => invariant_step hs e) (invariant_init fs)
  rw [← refuses_iff]
  exact and_iff_left ⟨opensFree_step s e, touchesOpened_step hs e⟩

/-- A file is opened, and another session writes to it. -/
theorem foreign_session_written :
    ¬ ∀ es : List Event, Trace.Always (step ramHost) (Safe ramHost) (init ⟨[], [], none⟩) es := by
  intro h
  obtain ⟨-, ⟨hrefuses, -⟩, -⟩ := h
    [.message (.ok 1) ⟨1, 1⟩ ⟨255, 1⟩ (.about 1 0 .CmdCreateFile),
      .message (.ok 2) ⟨1, 1⟩ ⟨255, 1⟩ (.about 3 5 .CmdWriteFile)]
  have htouched := (hrefuses (.ok 2) ⟨1, 1⟩ ⟨255, 1⟩ (.about 3 5 .CmdWriteFile) rfl rfl rfl).2
    (.inl (by decide))
  exact nomatch htouched

end Tracked

end Ftp
