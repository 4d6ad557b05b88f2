/-
Requests that are sent again.

If the answer to a request gets lost, the ground station sends the request again.  The server
keeps its last answer, if that is small, and sends it again instead of executing the request
a second time.  It recognises the request by its number, which is one less than that of the
answer; numbers have 16 bits, and the comparison is made with more.

To say what the kept answer is an answer to, a run is watched: `held` is the request whose
answer is kept.

* **`Watched.once_of_recognised`** — in every run in which no request numbered `0xFFFF` is
  sent again (and memory is there), a request whose answer is kept gets that answer again,
  and nothing else happens;
* **`Watched.executed_twice`** — the run in which a directory is created twice.
-/
import AerialManipulator.Ftp.MavlinkFtp

open FileSystem

namespace Ftp

variable {φ : Type}

/-! ### The answer to a request -/

/-- The end of a request: it is answered, or left to the burst, and nothing else happens. -/
theorem Server.finish_spec (s : Server φ) (r : Request) (sender : Peer) (stream_send : Bool)
    (result : Except ErrorCode Ack) :
    let out := s.finish r sender stream_send result
    out.1.disk = s.disk ∧ out.1.session_info = s.session_info ∧
      ((out.2 = [] ∧ out.1.last_reply = none) ∨
        (out.2 = [answer r sender s.disk.errno result] ∧
          (out.1.last_reply = none ∨
            out.1.last_reply = some (answer r sender s.disk.errno result)))) := by
  have hreply : ∀ (s : Server φ) (p : Reply), s.last_reply = none →
      (s.reply p).disk = s.disk ∧ (s.reply p).session_info = s.session_info ∧
        ((s.reply p).last_reply = none ∨ (s.reply p).last_reply = some p) := by
    intro s p hnone
    unfold Server.reply
    split
    · exact ⟨rfl, rfl, .inr rfl⟩
    · exact ⟨rfl, rfl, .inl hnone⟩
  unfold Server.finish
  dsimp only
  split
  · exact ⟨rfl, rfl, .inl ⟨rfl, rfl⟩⟩
  · obtain ⟨hdisk, hsession, hlast⟩ :=
      hreply { s with last_reply := none } (answer r sender s.disk.errno result) rfl
    exact ⟨hdisk, hsession, .inr ⟨rfl, hlast⟩⟩

theorem answer_seq_number (r : Request) (sender : Peer) (errno : Errno)
    (result : Except ErrorCode Ack) :
    (answer r sender errno result).seq_number = r.seq_number + 1 := by
  cases result with
  | ok a => rfl
  | error e => rfl

theorem answer_error_congr {r : Request} {sender : Peer} {n m : Errno} {e f : ErrorCode}
    (h : nakData (translate e n) n = nakData (translate f m) m) :
    answer r sender n (.error e) = answer r sender m (.error f) := by
  dsimp only [answer]
  rw [h]

theorem seq_number_succ {n : UInt16} (h : n ≠ 0xFFFF) : (n + 1).toNat = n.toNat + 1 := by
  have hlt : n.toNat + 1 < 65536 := by
    have hn := n.toNat_lt
    have hne : n.toNat ≠ 65535 := fun hval => h (UInt16.toNat_inj.mp hval)
    omega
  rw [UInt16.toNat_add]
  exact Nat.mod_eq_of_lt hlt

theorem seq_number_of_resent {s : Server φ} {r : Request} {p : Reply}
    (h : s.resent r = some p) : s.last_reply = some p ∧ p.seq_number = r.seq_number + 1 := by
  obtain ⟨hlast, hseq⟩ := Option.filter_eq_some_iff.mp h
  refine ⟨hlast, UInt16.toNat_inj.mp ?_⟩
  have hnum : r.seq_number.toNat + 1 = p.seq_number.toNat := of_decide_eq_true hseq
  have hp := p.seq_number.toNat_lt
  rw [UInt16.toNat_add, ← hnum]
  exact (Nat.mod_eq_of_lt (by omega)).symm

/-- The memory for the work buffers is there. -/
def Server.HasBuffers (s : Server φ) (io : Io) : Prop :=
  (s.work_buffer1 || io.alloc1) ∧ (s.work_buffer2 || io.alloc2)

structure Held where
  sender : Peer
  request : Request
  reply : Reply

/-- What is known of the answer: its number, and that it is a refusal if the request is too
long. -/
structure Held.Fits (x : Held) : Prop where
  seq_number : x.reply.seq_number = x.request.seq_number + 1
  refused : x.request.size.toNat > kMaxDataLength →
    ∃ errno e, x.reply = answer x.request x.sender errno (.error e)

variable (h : Host φ)

theorem Server.processRequest_fits {s : Server φ} {io : Io} {sender : Peer} {r : Request}
    {p : Reply} (hout : (s.processRequest h io sender r).2 = [p]) :
    Held.Fits ⟨sender, r, p⟩ := by
  -- what `finish` sends is the answer to the request
  have hfinish : ∀ (s : Server φ) (stream_send : Bool) (result : Except ErrorCode Ack),
      (s.finish r sender stream_send result).2 = [p] →
      p = answer r sender s.disk.errno result := by
    intro s stream_send result hp
    obtain ⟨-, -, ⟨hnil, -⟩ | ⟨hone, -⟩⟩ := s.finish_spec r sender stream_send result
    · exact absurd (hnil.symm.trans hp) (by simp)
    · exact (List.singleton_injective (hone.symm.trans hp)).symm
  have hrefused : ∀ (s : Server φ) (e : ErrorCode),
      (s.finish r sender false (.error e)).2 = [p] → Held.Fits ⟨sender, r, p⟩ := by
    intro s e hp
    have hans := hfinish s false (.error e) hp
    refine ⟨?_, fun _ => ⟨_, _, hans⟩⟩
    rw [hans]
    exact answer_seq_number _ _ _ _
  unfold processRequest at hout
  dsimp only at hout
  split at hout
  · exact hrefused _ _ hout
  · split at hout
    · exact hrefused _ _ hout
    · next hsize =>
      split at hout
      · next q hq =>
        rw [← List.singleton_injective hout]
        exact ⟨(seq_number_of_resent hq).2, fun hbig => absurd hbig hsize⟩
      · refine ⟨?_, fun hbig => absurd hbig hsize⟩
        rw [hfinish _ _ _ hout]
        exact answer_seq_number _ _ _ _

/-- A request that is recognised gets the kept answer again, and nothing else happens. -/
theorem Server.processRequest_again {s : Server φ} {io : Io} {x : Held} (hfits : x.Fits)
    (hlast : s.last_reply = some x.reply) (hbuffers : s.HasBuffers io)
    (hseq : x.request.size.toNat ≤ kMaxDataLength → x.request.seq_number ≠ 0xFFFF)
    (hbig : x.request.size.toNat > kMaxDataLength →
      x.reply.data = nakData (translate .InvalidDataSize io.errno) io.errno) :
    let out := s.processRequest h io x.sender x.request
    out.2 = [x.reply] ∧ out.1.disk.calls = s.disk.calls ∧ out.1.disk.fs = s.disk.fs ∧
      out.1.session_info = s.session_info := by
  set s₁ : Server φ := { s with disk.errno := io.errno }.ensureBuffersExist io with hs₁
  have hbuf : (! (s₁.work_buffer1 && s₁.work_buffer2)) = false := by
    obtain ⟨h1, h2⟩ := hbuffers
    rw [show s₁.work_buffer1 = true from h1, show s₁.work_buffer2 = true from h2]
    rfl
  unfold processRequest
  dsimp only
  rw [← hs₁, hbuf, if_neg (by simp)]
  by_cases hsize : x.request.size.toNat > kMaxDataLength
  · rw [if_pos hsize]
    obtain ⟨hdisk, hsession, -⟩ :=
      s₁.finish_spec x.request x.sender false (.error .InvalidDataSize)
    obtain ⟨errno, e, hreply⟩ := hfits.refused hsize
    have hsame : answer x.request x.sender io.errno (.error .InvalidDataSize) = x.reply := by
      rw [hreply] at hbig ⊢
      exact answer_error_congr (hbig hsize).symm
    refine ⟨congrArg (fun p => [p]) hsame, ?_, ?_, hsession⟩
    · rw [hdisk]
      rfl
    · rw [hdisk]
      rfl
  · rw [if_neg hsize]
    have hresent : s₁.resent x.request = some x.reply := by
      refine Option.filter_eq_some_iff.mpr ⟨hlast, decide_eq_true ?_⟩
      rw [hfits.seq_number, seq_number_succ (hseq (not_lt.mp hsize))]
    rw [hresent]
    exact ⟨rfl, rfl, rfl, rfl⟩

/-! ### Runs -/

/-- The server, and the request whose answer it keeps. -/
structure Watched (φ : Type) where
  server : Server φ
  held : Option Held

namespace Watched

def init (fs : φ) : Watched φ := ⟨.init fs, none⟩

/-- A step.  The answer to a request is kept if it is the last reply then; it is no longer
kept where something else is. -/
def step (s : Watched φ) (e : Event) : Watched φ where
  server := (s.server.react h e).1
  held := match e with
    | .message _ target sender r =>
      if h.takes target then
        match (s.server.react h e).2 with
        | [p] => if (s.server.react h e).1.last_reply = some p then some ⟨sender, r, p⟩ else none
        | _ => none
      else s.held
    | .send _ => s.held.filter fun x => (s.server.react h e).1.last_reply = some x.reply

/-- A request whose answer is kept, from the same sender: it gets the same answer, no call is
made of the file system and the session stays as it is. -/
def Once (s : Watched φ) (e : Event) : Prop :=
  ∀ io target sender r p, e = .message io target sender r → h.takes target →
    s.held = some ⟨sender, r, p⟩ →
    (s.server.react h e).2 = [p] ∧
      (s.server.react h e).1.disk.calls = s.server.disk.calls ∧
      (s.server.react h e).1.disk.fs = s.server.disk.fs ∧
      (s.server.react h e).1.session_info = s.server.session_info

/-- A request whose answer is kept can be recognised: the memory for the work buffers is
there, its number is not the last one and, if it is too long to be looked at, `errno` says
the same as before. -/
def Recognised (s : Watched φ) (e : Event) : Prop :=
  ∀ io target sender r p, e = .message io target sender r → h.takes target →
    s.held = some ⟨sender, r, p⟩ →
    s.server.HasBuffers io ∧ (r.size.toNat ≤ kMaxDataLength → r.seq_number ≠ 0xFFFF) ∧
      (r.size.toNat > kMaxDataLength →
        p.data = nakData (translate .InvalidDataSize io.errno) io.errno)

/-- What is held is the last reply. -/
def Invariant (s : Watched φ) : Prop :=
  ∀ x, s.held = some x → s.server.last_reply = some x.reply ∧ x.Fits

theorem invariant_init (fs : φ) : (init fs).Invariant := fun _ hx => absurd hx (by simp [init])

variable {h}

theorem invariant_step {s : Watched φ} (hs : s.Invariant) (e : Event) : (s.step h e).Invariant := by
  intro x hx
  cases e with
  | message io target sender r =>
    unfold step at hx ⊢
    dsimp only at hx ⊢
    by_cases htakes : h.takes target
    · rw [if_pos htakes] at hx
      have hreact : s.server.react h (.message io target sender r) =
          s.server.processRequest h io sender r := if_pos htakes
      rw [hreact] at hx ⊢
      split at hx
      · next p hp =>
        split at hx
        · next hlast =>
          obtain rfl := Option.some.inj hx
          exact ⟨hlast, Server.processRequest_fits h hp⟩
        · exact absurd hx (by simp)
      · exact absurd hx (by simp)
    · rw [if_neg htakes] at hx
      have hreact : s.server.react h (.message io target sender r) = (s.server, []) :=
        if_neg htakes
      rw [hreact]
      exact hs x hx
  | send io =>
    obtain ⟨hheld, hlast⟩ := Option.filter_eq_some_iff.mp hx
    exact ⟨of_decide_eq_true hlast, (hs x hheld).2⟩

theorem once_step {s : Watched φ} (hs : s.Invariant) {e : Event} (hrec : s.Recognised h e) :
    s.Once h e := by
  rintro io target sender r p rfl htakes hheld
  obtain ⟨hlast, hfits⟩ := hs _ hheld
  obtain ⟨hbuffers, hseq, hbig⟩ := hrec io target sender r p rfl htakes hheld
  have hreact : s.server.react h (.message io target sender r) =
      s.server.processRequest h io sender r := if_pos htakes
  rw [hreact]
  exact Server.processRequest_again h (x := ⟨sender, r, p⟩) hfits hlast hbuffers hseq hbig

/-- In every run in which the requests that are sent again can be recognised: none of them is
executed again. -/
theorem once_of_recognised (fs : φ) (es : List Event)
    (hrec : Trace.Always (step h) (Recognised h) (init fs) es) :
    Trace.Always (step h) (Once h) (init fs) es :=
  Trace.always_of_invariant (fun _ e hs hr => ⟨once_step hs hr, invariant_step hs e⟩)
    (invariant_init fs) hrec

/-- A request to create a directory, and the same request again. -/
def twice (seq_number : UInt16) : List Event :=
  [.message (.ok 1) ⟨1, 1⟩ ⟨255, 1⟩ (.about seq_number 0 .CmdCreateDirectory),
    .message (.ok 2) ⟨1, 1⟩ ⟨255, 1⟩ (.about seq_number 0 .CmdCreateDirectory)]

/-- With the number 7, the second request gets the answer of the first one. -/
theorem directory_created_once :
    Trace.Always (step ramHost) (Recognised ramHost) (init ⟨[], [], none⟩) (twice 7) ∧
      Trace.Always (step ramHost) (Once ramHost) (init ⟨[], [], none⟩) (twice 7) := by
  have hrec : Trace.Always (step ramHost) (Recognised ramHost) (init ⟨[], [], none⟩) (twice 7) := by
    refine ⟨?_, ?_, trivial⟩
    · intro io target sender r p _ _ hheld
      exact absurd hheld (by simp [init])
    · rintro io target sender r p ⟨⟩ - -
      exact ⟨⟨rfl, rfl⟩, fun _ => by decide, fun hbig => nomatch hbig⟩
  exact ⟨hrec, once_of_recognised _ _ hrec⟩

/-- With the last number, the directory is created twice, and the second answer is that it is
there already. -/
theorem executed_twice :
    ¬ ∀ es : List Event, Trace.Always (step ramHost) (Once ramHost) (init ⟨[], [], none⟩) es := by
  intro h
  obtain ⟨-, hagain, -⟩ := h (twice 0xFFFF)
  have hcalls :=
    (hagain (.ok 2) ⟨1, 1⟩ ⟨255, 1⟩ (.about 0xFFFF 0 .CmdCreateDirectory) _ rfl rfl rfl).2.1
  exact nomatch hcalls

end Watched

end Ftp
