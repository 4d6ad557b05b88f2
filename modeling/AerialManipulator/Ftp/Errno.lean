/-
The errors that the file server reports.

`errno` is not cleared before a request, and `_process_request` reads it for every refusal: if it
says that a file exists, this is what is reported, whatever the handler has returned.

* `reports_workTruncateFile` and its kin — what a handler that fails leaves in `errno`;
* `execute_handled` — the same for the switch over the operation code, whatever `errno` was;
* **`honest_run`** — a refusal is a function of the request's own outcome, as long as no request
  is refused without a call while `errno` says that a file exists, no call is cut short in a
  truncation, a directory that cannot be opened does not exist, and a line of the log after a call
  that has failed leaves its error alone.
-/
import AerialManipulator.Ftp.Resend
import AerialManipulator.Lib.Errno

open FileSystem

namespace Ftp

variable {φ α β : Type} {h : Host φ}

/-! ### Handlers that do without the session -/

section Handlers

variable {chosen : List Errno} {cut : Prop}

/-- Such a handler fails with `kErrFailErrno` only, and `errno` says why. -/
def Reports (h : Host φ) (chosen : List Errno) (cut : Prop) (x : Work φ α) : Prop :=
  ∀ known fs, Does h.sys known x.run fs fun r _ cs o =>
    ∀ c, r = .error c → c = .FailErrno ∧ Cause h.sys chosen cut fs cs o

theorem does_work_bind {sys : Posix φ} {known : Option Errno} {fs : φ} {x : Work φ α}
    {f : α → Work φ β} {Q : Except ErrorCode β → φ → List Call → Option Errno → Prop}
    (hx : Does sys known x.run fs fun r fs' cs o => match r with
      | .ok a => Does sys (o.or known) (f a).run fs' fun r' fs'' ds o' =>
          Q r' fs'' (cs ++ ds) (o'.or o)
      | .error c => Q (.error c) fs' cs o) :
    Does sys known (x >>= f).run fs Q := by
  change Does sys known (x.run >>= ExceptT.bindCont f) fs Q
  refine does_bind (hx.mono fun r fs' cs o _ hr => ?_)
  cases r with
  | ok a => exact hr
  | error c =>
    refine does_pure ?_
    rw [List.append_nil]
    exact hr

theorem does_work_lift {sys : Posix φ} {known : Option Errno} {fs : φ} {m : StateM (Disk φ) α}
    {Q : Except ErrorCode α → φ → List Call → Option Errno → Prop}
    (hm : Does sys known m fs fun a => Q (.ok a)) :
    Does sys known (ExceptT.lift m : Work φ α).run fs Q := by
  change Does sys known (m >>= fun a => pure (Except.ok a)) fs Q
  refine does_bind (hm.mono fun a fs' cs o _ ha => does_pure ?_)
  rw [List.append_nil]
  exact ha

theorem does_work_get {sys : Posix φ} {k : Errno} {fs : φ} {f : Disk φ → Work φ α}
    {g : Errno → Work φ α} (hf : ∀ d, f d = g d.errno)
    {Q : Except ErrorCode α → φ → List Call → Option Errno → Prop}
    (hg : Does sys (some k) (g k).run fs Q) : Does sys (some k) (get >>= f).run fs Q :=
  does_get (f := fun d => (f d).run) (g := fun e => (g e).run)
    (fun d => congrArg ExceptT.run (hf d)) hg

theorem does_close {sys : Posix φ} {known : Option Errno} {fs : φ} {fd : ℤ}
    {Q : Option Unit → φ → List Call → Option Errno → Prop}
    (hQ : ∀ r fs' o, (∀ e, o = some e → e ∈ failures sys fs [.close fd]) → Q r fs' [.close fd] o) :
    Does sys known (perform (.close fd) (sys.close fd)) fs Q := by
  refine does_perform (fun _ => rfl) (fun fs' a _ => hQ _ _ _ fun e he => nomatch he) ?_
  intro fs' e _ he
  refine hQ _ _ _ fun e' he' => ?_
  obtain rfl := Option.some.inj he'
  change e ∈ (Call.run sys (.close fd) fs).2.toList ++ []
  rw [he]
  exact List.mem_singleton_self e

theorem reports_pure (a : α) : Reports h chosen cut (pure a) :=
  fun _ _ => does_pure fun _ hc => nomatch hc

theorem reports_bind {x : Work φ α} {f : α → Work φ β} (hx : Reports h chosen cut x)
    (hf : ∀ a, Reports h chosen cut (f a)) : Reports h chosen cut (x >>= f) := by
  intro known fs
  refine does_work_bind ((hx known fs).mono fun r fs' cs o hreplay hr => ?_)
  cases r with
  | error c => exact fun c' hc' => hr c' (congrArg Except.error (Except.error.inj hc'))
  | ok a =>
    refine (hf a (o.or known) fs').mono fun r' fs'' ds o' _ hr' c hc => ?_
    obtain ⟨hcode, hcause⟩ := hr' c hc
    exact ⟨hcode, (hreplay ▸ hcause).append_left⟩

theorem orFail_eq (x : StateM (Disk φ) (Option α)) :
    orFail x = ExceptT.lift x >>= fun o =>
      o.elim (throw ErrorCode.FailErrno) (pure : α → Work φ α) := by
  refine congrArg (ExceptT.lift x >>= ·) (funext fun o => ?_)
  cases o <;> rfl

theorem reports_orFail {c : Call} {f : φ → φ × Except Errno α} (hc : c.Is h.sys f)
    (hopen : c.cleansUp = false) : Reports h chosen cut (orFail (perform c f)) := by
  intro known fs
  rw [orFail_eq]
  refine does_work_bind (does_work_lift (does_perform hc (fun fs' a _ => ?_) fun fs' e _ he => ?_))
  · exact does_pure fun c' hc' => absurd hc' (by simp)
  · exact does_pure fun c' hc' =>
      ⟨(Except.error.inj hc').symm, Cause.of_fault (fault_singleton hopen he)⟩

variable (h) in
/-- A line of the log, and `return kErrFailErrno`, if a call fails. -/
def orLog (x : StateM (Disk φ) (Option α)) : Work φ α :=
  ExceptT.lift x >>= fun o =>
    o.elim (ExceptT.lift (logLine h.sys) >>= fun _ => throw ErrorCode.FailErrno) pure

theorem reports_orLog {c : Call} {f : φ → φ × Except Errno α} (hc : c.Is h.sys f)
    (hopen : c.cleansUp = false) :
    Reports h chosen cut (orLog h (perform c f)) := by
  intro known fs
  refine does_work_bind (does_work_lift (does_perform hc (fun fs' a _ => ?_) fun fs' e hf he => ?_))
  · exact does_pure fun c' hc' => absurd hc' (by simp)
  · refine does_work_bind (does_work_lift (does_logLine (does_pure fun c' hc' => ?_)))
    refine ⟨(Except.error.inj hc').symm, Cause.of_logged hopen ?_⟩
    rw [hc, hf]
    rfl

theorem reports_failWith {e : Errno} (he : e ∈ chosen) :
    Reports h chosen cut (failWith e : Work φ α) := by
  intro known fs
  change Does h.sys known ((ExceptT.lift (setErrno e) : Work φ Unit) >>= fun _ =>
    (throw ErrorCode.FailErrno : Work φ α)).run fs _
  exact does_work_bind (does_work_lift (does_setErrno (does_pure fun c' hc' =>
    ⟨(Except.error.inj hc').symm, .inl ⟨e, rfl, .inr he⟩⟩)))

theorem reports_perform {c : Call} {f : φ → φ × Except Errno α} (hc : c.Is h.sys f) :
    Reports h chosen cut (ExceptT.lift (perform c f) : Work φ (Option α)) := by
  intro known fs
  exact does_work_lift (does_perform hc (fun _ _ _ c hc => nomatch hc) fun _ _ _ _ c hc =>
    nomatch hc)

theorem reports_workRemoveFile (r : Request) : Reports h chosen cut (workRemoveFile h r) :=
  reports_bind (reports_orFail (fun _ => rfl) rfl) fun _ => reports_pure _

theorem reports_workRemoveDirectory (r : Request) :
    Reports h chosen cut (workRemoveDirectory h r) :=
  reports_bind (reports_orFail (fun _ => rfl) rfl) fun _ => reports_pure _

theorem reports_workCreateDirectory (r : Request) :
    Reports h chosen cut (workCreateDirectory h r) :=
  reports_bind (reports_orFail (fun _ => rfl) rfl) fun _ => reports_pure _

theorem reports_workRename (r : Request) : Reports h [EINVAL] cut (workRename h r) := by
  unfold workRename
  dsimp only
  split
  · exact reports_bind (reports_failWith (List.mem_singleton_self _)) fun _ =>
      reports_bind (reports_orFail (fun _ => rfl) rfl) fun _ => reports_pure _
  · exact reports_bind (reports_orFail (fun _ => rfl) rfl) fun _ => reports_pure _

theorem closes_close {fd : ℤ} : ∀ d ∈ [Call.close fd], d.cleansUp := by
  intro d hd
  rw [List.mem_singleton.mp hd]
  rfl

theorem does_keepErrno {c : Call} {fs fs' : φ} {e : Errno} (fd : ℤ) (hc : c.cleansUp = false)
    (he : (c.run h.sys fs).2 = some e) :
    Does h.sys (some e) (ExceptT.lift (perform (.close fd) (h.sys.close fd)) >>= fun _ =>
        (failWith e : Work φ α)).run fs' fun r _ ds o => ∀ code, r = .error code →
      code = .FailErrno ∧ Cause h.sys chosen cut fs ([c] ++ ds) (o.or (some e)) := by
  refine does_work_bind (does_work_lift (does_close fun _ _ _ _ => ?_))
  refine does_work_bind (does_work_lift (does_setErrno (does_pure fun code hcode => ?_)))
  refine ⟨(Except.error.inj hcode).symm, Cause.of_fault ?_⟩
  exact (fault_singleton hc he).append_right closes_close

theorem reports_crcLoop (fd : ℤ) : ∀ n checksum,
    Reports h chosen cut (crcLoop h fd n checksum) := by
  intro n
  induction n with
  | zero => exact fun _ => reports_pure _
  | succ n ih =>
    intro checksum known fs
    refine does_work_bind (does_work_lift (does_perform (fun _ => rfl) ?_ ?_))
    · intro fs' data hread
      dsimp only
      split
      · refine (ih _ _ fs').mono fun r _ ds o _ hr c hc => ?_
        obtain ⟨hcode, hcause⟩ := hr c hc
        obtain rfl : replay h.sys fs [.read fd workBuffer2Len] = fs' := congrArg Prod.fst hread
        exact ⟨hcode, hcause.append_left⟩
      · exact does_pure fun _ hc => nomatch hc
    · -- the error of the read is kept while the file is closed
      intro fs' e _ he
      exact does_work_get (g := fun e => ExceptT.lift (perform (.close fd) (h.sys.close fd)) >>=
        fun _ => failWith e) (fun _ => rfl) (does_keepErrno fd rfl he)

theorem reports_workCalcFileCRC32 (r : Request) : Reports h chosen cut (workCalcFileCRC32 h r) := by
  refine reports_bind (reports_orFail (fun _ => rfl) rfl) fun fd => ?_
  refine reports_bind (reports_crcLoop _ _ _) fun checksum => ?_
  exact reports_bind (reports_perform fun _ => rfl) fun _ => reports_pure _

/-! ### Files that are copied -/

theorem perform_ok {c : Call} {f : φ → φ × Except Errno α} {fs fs' : φ} {a : α}
    (hf : f fs = (fs', .ok a)) (e : Errno) (calls : List Call) :
    perform c f ⟨fs, e, calls⟩ = (some a, ⟨fs', e, calls ++ [c]⟩) := by
  unfold perform
  rw [hf]

theorem perform_error {c : Call} {f : φ → φ × Except Errno α} {fs fs' : φ} {k : Errno}
    (hf : f fs = (fs', .error k)) (e : Errno) (calls : List Call) :
    perform c f ⟨fs, e, calls⟩ = (none, ⟨fs', k, calls ++ [c]⟩) := by
  unfold perform
  rw [hf]

theorem run_bind (m : StateM (Disk φ) α) (f : α → StateM (Disk φ) β) (d : Disk φ) :
    (m >>= f) d = f (m d).1 (m d).2 := rfl

/-- What a run of the loop comes to: it copies all, or it says why not, which is the error of a call
that failed or, after a short one or a loud line of the log, what is left in `errno`. -/
def Copies (h : Host φ) (fs : φ) (m : StateM (Disk φ) (ℕ × Errno)) : Prop :=
  ∃ (left : ℕ) (op o : Option Errno) (fs' : φ) (cs : List Call),
    (∀ e calls, m ⟨fs, e, calls⟩ = ((left, op.getD e), ⟨fs', o.getD e, calls ++ cs⟩)) ∧
      replay h.sys fs cs = fs' ∧
      (left = 0 ∨ Cause h.sys [] True fs cs op)

section Copies

variable {fs fs₁ : φ} {m m' : StateM (Disk φ) (ℕ × Errno)} {c : Call} {ds : List Call}

theorem Copies.of_done (hrun : ∀ e calls, m ⟨fs, e, calls⟩ = ((0, 0), ⟨fs, e, calls⟩)) :
    Copies h fs m :=
  ⟨0, some 0, none, fs, [], fun e calls => by rw [List.append_nil]; exact hrun e calls, rfl,
    .inl rfl⟩

theorem Copies.of_fault (left : ℕ) {k : Errno} (hc : c.cleansUp = false)
    (hcall : c.run h.sys fs = (fs₁, some k))
    (hrun : ∀ e calls, m ⟨fs, e, calls⟩ = ((left, (h.sys.log fs₁).getD k),
      ⟨fs₁, (h.sys.log fs₁).getD k, calls ++ [c] ++ [.logLine]⟩)) :
    Copies h fs m := by
  refine ⟨left, (h.sys.log fs₁).or (some k), (h.sys.log fs₁).or (some k), fs₁, [c] ++ [.logLine],
    fun e calls => ?_, ?_, .inr (.of_logged hc hcall)⟩
  swap
  · change (c.run h.sys fs).1 = fs₁
    rw [hcall]
  rw [hrun, ← List.append_assoc]
  cases h.sys.log fs₁ <;> rfl

theorem Copies.of_short (left : ℕ) (op o : Option Errno) (ds : List Call)
    (hcall : c.run h.sys fs = (fs₁, none))
    (hshort : c.Short h.sys fs) (hds : replay h.sys fs₁ ds = fs₁)
    (hrun : ∀ e calls, m ⟨fs, e, calls⟩ =
      ((left, op.getD e), ⟨fs₁, o.getD e, calls ++ ([c] ++ ds)⟩)) :
    Copies h fs m := by
  obtain rfl : replay h.sys fs [c] = fs₁ := congrArg Prod.fst hcall
  exact ⟨left, op, o, _, [c] ++ ds, hrun, replay_append.trans hds,
    .inr (.inr (.inr ⟨trivial, (incomplete_singleton hshort).append_right⟩))⟩

theorem Copies.cons (hcall : c.run h.sys fs = (fs₁, none))
    (hrun : ∀ e calls, m ⟨fs, e, calls⟩ = m' ⟨fs₁, e, calls ++ [c]⟩) (hm : Copies h fs₁ m') :
    Copies h fs m := by
  obtain ⟨left, op, o, fs', cs, hrun', hreplay, hout⟩ := hm
  obtain rfl : replay h.sys fs [c] = fs₁ := congrArg Prod.fst hcall
  refine ⟨left, op, o, fs', [c] ++ cs, fun e calls => ?_, ?_, ?_⟩
  · rw [hrun, hrun', List.append_assoc]
  · rw [replay_append, hreplay]
  · refine hout.imp_right fun hcause => ?_
    have hleft : Cause h.sys [] True fs ([c] ++ cs) (op.or none) := hcause.append_left
    rwa [Option.or_none] at hleft

end Copies

def writeBlock (h : Host φ) (src dst : ℤ) (fuel length : ℕ) (data : List UInt8) :
    StateM (Disk φ) (ℕ × Errno) := do
  match ← perform (.write dst data) (h.sys.write dst data) with
  | none =>
    logLine h.sys
    return (length, (← get).errno)
  | some n =>
    if n ≠ data.length then
      logLine h.sys
      return (length, (← get).errno)
    copyLoop h src dst fuel (length - n)

def logged (h : Host φ) (d : Disk φ) : Disk φ := (logLine h.sys d).2

theorem copyLoop_succ (src dst : ℤ) {fuel length : ℕ} (hlength : length ≠ 0) (d : Disk φ) :
    copyLoop h src dst (fuel + 1) length d =
      match perform (.read src (min length workBuffer2Len))
        (h.sys.read src (min length workBuffer2Len)) d with
      | (none, d) => ((length, (logged h d).errno), logged h d)
      | (some data, d) =>
        if data.length = 0 then ((length, 0), d) else writeBlock h src dst fuel length data d := by
  rw [copyLoop, if_neg hlength, run_bind]
  rcases perform (.read src (min length workBuffer2Len))
    (h.sys.read src (min length workBuffer2Len)) d with ⟨_ | data, d'⟩
  · rfl
  · by_cases hdata : data.length = 0
    · dsimp only
      rw [if_pos hdata, if_pos hdata]
      rfl
    · dsimp only
      rw [if_neg hdata, if_neg hdata]
      rfl

theorem writeBlock_run (src dst : ℤ) (fuel length : ℕ) (data : List UInt8) (d : Disk φ) :
    writeBlock h src dst fuel length data d =
      match perform (.write dst data) (h.sys.write dst data) d with
      | (none, d) => ((length, (logged h d).errno), logged h d)
      | (some n, d) =>
        if n ≠ data.length then ((length, (logged h d).errno), logged h d)
        else copyLoop h src dst fuel (length - n) d := by
  unfold writeBlock
  rw [run_bind]
  rcases perform (.write dst data) (h.sys.write dst data) d with ⟨_ | n, d'⟩
  · rfl
  · dsimp only
    split
    · rfl
    · rfl

theorem writeBlock_copies (src dst : ℤ) (fuel length : ℕ) (data : List UInt8) (fs : φ)
    (hrest : ∀ n fs', n = data.length → Copies h fs' (copyLoop h src dst fuel (length - n))) :
    Copies h fs (writeBlock h src dst fuel length data) := by
  have hcall : Call.run h.sys (.write dst data) fs =
      ((h.sys.write dst data fs).1, failure (h.sys.write dst data fs).2) := rfl
  rcases hwrite : h.sys.write dst data fs with ⟨fs', k | n⟩
  · rw [hwrite] at hcall
    refine Copies.of_fault length rfl hcall fun e calls => ?_
    rw [writeBlock_run, perform_error hwrite]
    rfl
  · rw [hwrite] at hcall
    by_cases hn : n = data.length
    · refine Copies.cons hcall (fun e calls => ?_) (hrest n fs' hn)
      rw [writeBlock_run, perform_ok hwrite]
      exact if_neg (not_not.mpr hn)
    · refine Copies.of_short length (h.sys.log fs') (h.sys.log fs') [.logLine] hcall
        ⟨n, by rw [hwrite], hn⟩ rfl fun e calls => ?_
      rw [writeBlock_run, perform_ok hwrite, ← List.append_assoc]
      exact if_pos hn

theorem copyLoop_copies (src dst : ℤ) : ∀ fuel length fs, length ≤ fuel →
    Copies h fs (copyLoop h src dst fuel length) := by
  intro fuel
  induction fuel with
  | zero =>
    intro length fs hlength
    obtain rfl := Nat.le_zero.mp hlength
    exact Copies.of_done fun e calls => rfl
  | succ fuel ih =>
    intro length fs hlength
    by_cases hzero : length = 0
    · refine Copies.of_done fun e calls => ?_
      rw [copyLoop, if_pos hzero]
      rfl
    have hcall : Call.run h.sys (.read src (min length workBuffer2Len)) fs =
        ((h.sys.read src (min length workBuffer2Len) fs).1,
          failure (h.sys.read src (min length workBuffer2Len) fs).2) := rfl
    rcases hread : h.sys.read src (min length workBuffer2Len) fs with ⟨fs', k | data⟩
    · rw [hread] at hcall
      refine Copies.of_fault length rfl hcall fun e calls => ?_
      rw [copyLoop_succ src dst hzero, perform_error hread]
      rfl
    · rw [hread] at hcall
      by_cases hdata : data.length = 0
      · refine Copies.of_short length (some 0) none [] hcall ?_ rfl fun e calls => ?_
        · change (h.sys.read src _ fs).2 = _
          rw [hread, List.eq_nil_of_length_eq_zero hdata]
        · rw [copyLoop_succ src dst hzero, perform_ok hread, List.append_nil]
          exact if_pos hdata
      · refine Copies.cons hcall (fun e calls => ?_)
          (writeBlock_copies src dst fuel length data fs' ?_)
        · rw [copyLoop_succ src dst hzero, perform_ok hread]
          exact if_neg hdata
        · -- at least one byte has been written
          exact fun n fs'' hn => ih (length - n) fs'' (by omega)

theorem does_copies (chosen : List Errno) {fs : φ} {known : Option Errno}
    {m : StateM (Disk φ) (ℕ × Errno)} (hm : Copies h fs m) (src dst : ℤ) :
    Does h.sys known (m >>= fun x => do
        let _ ← perform (.close src) (h.sys.close src)
        let _ ← perform (.close dst) (h.sys.close dst)
        setErrno x.2
        return decide (x.1 = 0)) fs fun ok _ cs o =>
      ok = false → Cause h.sys chosen True fs cs o := by
  obtain ⟨left, op, o, fs', cs, hrun, rfl, hout⟩ := hm
  have hclose : Does h.sys none (perform (.close src) (h.sys.close src) >>= fun _ =>
      perform (.close dst) (h.sys.close dst)) (replay h.sys fs cs) fun _ _ ds _ =>
      ds = [.close src, .close dst] :=
    does_bind (does_close fun _ _ _ _ => does_close fun _ _ _ _ => rfl)
  obtain ⟨x, fs'', ds, o', hrun', hreplay', rfl⟩ := hclose
  refine ⟨decide (left = 0), fs'', cs ++ [.close src, .close dst], op, fun e calls _ => ?_, ?_, ?_⟩
  · rw [run_bind, hrun, ← List.append_assoc]
    have hthen := hrun' (o.getD e) (calls ++ cs) fun _ hk => nomatch hk
    rw [run_bind] at hthen
    dsimp only at hthen ⊢
    rw [run_bind, run_bind, hthen]
    rfl
  · rw [replay_append, hreplay']
  · intro hleft
    rcases hout with hzero | hcause
    · exact absurd hzero (of_decide_eq_false hleft)
    · refine hcause.append_right fun d hd => ?_
      rcases List.mem_cons.mp hd with rfl | hd
      · rfl
      · exact closes_close d hd

theorem does_copyFile (chosen : List Errno) (src_path dst_path : Path) (length : ℕ)
    (known : Option Errno) (fs : φ) :
    Does h.sys known (copyFile h src_path dst_path length) fs fun ok _ cs o =>
      ok = false → Cause h.sys chosen True fs cs o := by
  refine does_bind (does_perform (fun _ => rfl) ?_ fun fs' e _ he => ?_)
  · intro fs₁ src hsrc
    obtain rfl : replay h.sys fs [.openFile src_path ⟨true, false, false⟩] = fs₁ :=
      congrArg Prod.fst hsrc
    refine does_bind (does_perform (fun _ => rfl) ?_ fun fs₂ e _ he => ?_)
    · intro fs₂ dst hdst
      obtain rfl : replay h.sys _ [.openFile dst_path ⟨false, true, true⟩] = fs₂ :=
        congrArg Prod.fst hdst
      refine (does_copies chosen (copyLoop_copies src dst length length _ le_rfl) src dst).mono ?_
      exact fun ok fs' cs o _ hok hfalse => (hok hfalse).append_left.append_left
    · -- the error of the second `open` is kept while the first file is closed
      refine does_get (g := fun e => perform (.close (src : ℤ)) (h.sys.close src) >>= fun _ =>
        setErrno e >>= fun _ => pure false) (fun _ => rfl) ?_
      refine does_bind (does_close fun _ _ _ _ => does_bind (does_setErrno (does_pure fun _ => ?_)))
      exact Cause.of_fault (Fault.append_left ((fault_singleton rfl he).append_right closes_close))
  · exact does_pure fun _ => Cause.of_fault (fault_singleton rfl he)

theorem reports_copyFile (src_path dst_path : Path) (length : ℕ) {f : Unit → Work φ α}
    (hf : ∀ u, Reports h chosen True (f u)) :
    Reports h chosen True (ExceptT.lift (copyFile h src_path dst_path length) >>= fun ok =>
      if ! ok then throw ErrorCode.FailErrno >>= f else f ()) := by
  intro known fs
  have hcopy := does_copyFile (h := h) chosen src_path dst_path length known fs
  refine does_work_bind (does_work_lift (hcopy.mono ?_))
  intro ok fs' cs o hreplay hok
  cases ok with
  | true =>
    refine (hf () _ fs').mono fun r' fs'' ds o' _ hr' c hc => ?_
    obtain ⟨hcode, hcause⟩ := hr' c hc
    exact ⟨hcode, (hreplay ▸ hcause).append_left⟩
  | false =>
    refine does_pure fun c hc => ⟨(Except.error.inj hc).symm, ?_⟩
    rw [List.append_nil]
    exact hok rfl

theorem reports_check {c : Prop} [Decidable c] {x : Work φ Unit} {f : Unit → Work φ α}
    (hx : Reports h chosen cut x) (hf : ∀ u, Reports h chosen cut (f u)) :
    Reports h chosen cut (if c then x >>= f else f ()) := by
  split
  · exact reports_bind hx hf
  · exact hf ()

theorem cause_close {c : Call} {fs : φ} {e : Errno} {fd : ℤ} {o : Option Errno}
    (hc : c.cleansUp = false) (he : (c.run h.sys fs).2 = some e)
    (ho : ∀ k, o = some k → k ∈ failures h.sys (replay h.sys fs [c]) [.close fd]) :
    Cause h.sys chosen cut fs ([c] ++ [.close fd]) (o.or (some e)) := by
  cases o with
  | none => exact Cause.of_fault ((fault_singleton hc he).append_right closes_close)
  | some k => exact Cause.of_fault ((fault_singleton hc he).of_close closes_close (ho k rfl))

theorem reports_extend (fd offset : ℕ) : Reports h chosen True (do
    match ← perform (.lseek fd offset) (h.sys.lseek fd offset) with
    | none =>
      let _ ← perform (.close fd) (h.sys.close fd)
      throw .FailErrno
    | some () =>
      let written ← perform (.write fd [0]) (h.sys.write fd [0])
      let _ ← perform (.close fd) (h.sys.close fd)
      if written ≠ some 1 then throw .FailErrno) := by
  intro known fs
  refine does_work_bind (does_work_lift (does_perform (fun _ => rfl) ?_ ?_))
  · intro fs₁ u hseek
    obtain rfl : replay h.sys fs [.lseek fd offset] = fs₁ := congrArg Prod.fst hseek
    refine does_work_bind (does_work_lift (does_perform (fun _ => rfl) ?_ ?_))
    · intro fs₂ n hwrite
      refine does_work_bind (does_work_lift (does_close fun _ _ _ _ => ?_))
      dsimp only
      split
      · rename_i hn
        refine does_pure fun c hc => ⟨(Except.error.inj hc).symm, .inr (.inr ⟨trivial, ?_⟩)⟩
        refine Incomplete.append_left
          (Incomplete.append_right ?_ : Incomplete _ _ ([.write fd [0]] ++ _))
        refine incomplete_singleton ⟨n, ?_, fun hone => hn (congrArg some hone)⟩
        rw [hwrite]
      · exact does_pure fun _ hc => nomatch hc
    · intro fs₂ e hwrite he
      obtain rfl : replay h.sys _ [.write fd [0]] = fs₂ := congrArg Prod.fst hwrite
      refine does_work_bind (does_work_lift (does_close fun _ _ o ho => ?_))
      refine does_pure fun c hc => ⟨(Except.error.inj hc).symm, ?_⟩
      exact (cause_close rfl he ho).append_left
  · intro fs₁ e hseek he
    obtain rfl : replay h.sys fs [.lseek fd offset] = fs₁ := congrArg Prod.fst hseek
    refine does_work_bind (does_work_lift (does_close fun _ _ o ho => ?_))
    exact does_pure fun c hc => ⟨(Except.error.inj hc).symm, cause_close rfl he ho⟩

theorem reports_truncateByCopy (path : Path) (length : ℕ) :
    Reports h [EISDIR, EROFS] True (truncateByCopy h path length) := by
  unfold truncateByCopy
  refine reports_bind (reports_orFail (fun _ => rfl) rfl) fun st => ?_
  refine reports_check (reports_failWith ?_) fun _ => ?_
  · decide
  refine reports_check (reports_failWith ?_) fun _ => ?_
  · decide
  split
  · exact reports_pure _
  split
  · refine reports_bind (reports_orFail (fun _ => rfl) rfl) fun fd => ?_
    exact reports_bind (reports_perform fun _ => rfl) fun _ => reports_pure _
  split
  · refine reports_bind (reports_orFail (fun _ => rfl) rfl) fun fd => ?_
    exact reports_extend fd _
  · dsimp only
    refine reports_copyFile _ _ _ fun _ => ?_
    refine reports_copyFile _ _ _ fun _ => ?_
    exact reports_orFail (fun _ => rfl) rfl

theorem reports_workTruncateFile (r : Request) :
    Reports h [EISDIR, EROFS] True (workTruncateFile h r) := by
  unfold workTruncateFile
  dsimp only
  split
  · exact reports_bind (reports_truncateByCopy _ _) fun _ => reports_pure _
  · exact reports_bind (reports_orFail (fun _ => rfl) rfl) fun _ => reports_pure _

/-! ### Directories -/

theorem does_fileSize (dir : Path) (x : Entry) (known : Option Errno) (fs : φ) :
    Does h.sys known (fileSize h dir x) fs fun _ _ _ _ => True := by
  unfold fileSize
  dsimp only
  split
  · refine does_bind (does_perform (fun _ => rfl) ?_ ?_)
    · exact fun _ _ _ => does_pure trivial
    · exact fun _ _ _ _ => does_pure trivial
  · exact does_pure trivial

theorem does_listLoop (dir : Path) : ∀ es data known fs,
    Does h.sys known (listLoop h dir es data) fs fun x _ _ o => x.2 = true → o = some 0 := by
  intro es
  induction es with
  | nil => exact fun data known fs => does_bind (does_setErrno (does_pure fun _ => rfl))
  | cons x es ih =>
    intro data known fs
    refine does_bind (does_setErrno (does_bind ((does_fileSize dir x _ fs).mono ?_)))
    intro size fs' cs o _ _
    dsimp only
    split
    · exact does_pure fun hend => nomatch hend
    · refine (ih _ _ fs').mono fun x fs'' ds o' _ hx hend => ?_
      rw [hx hend]
      rfl

variable (h) in
/-- What a directory that cannot be opened leaves in `errno`, after a line of the log. -/
def unlisted (r : Request) (fs : φ) (e : Errno) : Errno :=
  (h.sys.log (h.sys.readdir (h.requestPath r) fs).1).getD e

theorem does_workList (r : Request) (known : Option Errno) (fs : φ) :
    Does h.sys known (workList h r).run fs fun res _ cs o => ∀ c, res = .error c →
      (c = .EOF ∧ o = some 0) ∨ c = .FileNotFound ∧ ∃ e, o = some (unlisted h r fs e) ∧
        Fault h.sys fs cs e ∧ (h.sys.readdir (h.requestPath r) fs).2 = .error e := by
  refine does_work_bind (does_work_lift (does_perform (fun _ => rfl) ?_ ?_))
  · intro fs' entries _
    refine does_work_bind (does_work_lift ((does_listLoop _ _ _ _ fs').mono ?_))
    rintro ⟨data, atEnd⟩ fs'' cs o _ ho
    cases atEnd with
    | false => exact does_pure fun _ hc => nomatch hc
    | true =>
      obtain rfl := ho rfl
      dsimp only
      split
      · refine does_work_bind (does_work_lift (does_setErrno ?_))
        exact does_work_bind (does_work_lift (does_logLine (does_pure fun _ hc => nomatch hc)))
      · split
        · exact does_pure fun c hc => .inl ⟨(Except.error.inj hc).symm, rfl⟩
        · exact does_pure fun _ hc => nomatch hc
  · intro fs' e hread he
    refine does_work_bind (does_work_lift (does_logLine (does_pure fun c hc => ?_)))
    refine .inr ⟨(Except.error.inj hc).symm, e, ?_, ?_, congrArg Prod.snd hread⟩
    · unfold unlisted
      rw [hread]
      cases h.sys.log fs' <;> rfl
    · refine (fault_singleton rfl he).append_right fun d hd => ?_
      rw [List.mem_singleton.mp hd]
      rfl

end Handlers

/-! ### The switch over the operation code -/

section Switch

variable {s : Server φ} {r : Request} {sender : Peer}

/-- A handler as a program on the disk, with its answer and the session that it leaves. -/
def Server.through (s : Server φ) (x : Work φ α) (ack : SessionInfo → α → Ack × SessionInfo) :
    Except ErrorCode Ack × Server φ :=
  match x.run s.disk with
  | (.ok a, d) => (.ok (ack s.session_info a).1,
      { s with disk := d, session_info := (ack s.session_info a).2 })
  | (.error c, d) => (.error c, { s with disk := d })

theorem work_bind_run (x : Work φ α) (f : α → Work φ β) (d : Disk φ) :
    (x >>= f).run d = match x.run d with
      | (.ok a, d) => (f a).run d
      | (.error c, d) => (.error c, d) := by
  change ExceptT.bindCont f (x.run d).1 (x.run d).2 = _
  rcases x.run d with ⟨_ | a, d'⟩
  · rfl
  · rfl

theorem lift_run (x : StateM (Disk φ) α) (d : Disk φ) :
    (ExceptT.lift x : Work φ α).run d = (.ok (x d).1, (x d).2) := rfl

theorem orFail_run (x : StateM (Disk φ) (Option α)) (d : Disk φ) :
    (orFail x).run d = ((x d).1.elim (.error .FailErrno) .ok, (x d).2) := by
  rw [orFail_eq, work_bind_run, lift_run]
  rcases x d with ⟨_ | a, d'⟩
  · rfl
  · rfl

theorem orLog_run (x : StateM (Disk φ) (Option α)) (d : Disk φ) :
    (orLog h x).run d = match x d with
      | (some a, d) => (.ok a, d)
      | (none, d) => (.error .FailErrno, logged h d) := by
  unfold orLog
  rw [work_bind_run, lift_run]
  rcases x d with ⟨_ | a, d'⟩
  · rfl
  · rfl

theorem workFile_through (x : Work φ (List UInt8)) :
    s.workFile r x = s.through x fun info data => (⟨r.session, data⟩, info) := by
  unfold Server.workFile Server.work Server.call Server.through
  rcases x.run s.disk with ⟨_ | a, d'⟩
  · rfl
  · rfl

/-- `lseek` and `read`. -/
def readAt (h : Host φ) (fd : ℤ) (offset : ℕ) : Work φ (List UInt8) := do
  orLog h (perform (.lseek fd offset) (h.sys.lseek fd offset))
  orLog h (perform (.read fd kMaxDataLength) (h.sys.read fd kMaxDataLength))

/-- `lseek` and `write`. -/
def writeAt (h : Host φ) (fd : ℤ) (offset : ℕ) (data : List UInt8) : Work φ ℕ := do
  orLog h (perform (.lseek fd offset) (h.sys.lseek fd offset))
  orLog h (perform (.write fd data) (h.sys.write fd data))

/-- `stat` and `open`. -/
def statAndOpen (h : Host φ) (path : Path) (flags : OpenFlags) : Work φ (Option Stat × ℕ) := do
  let st ← perform (.stat path) (h.sys.stat path)
  if st.isNone ∧ flags.rdonly ∧ h.nuttx then throw .FailErrno
  else
    let fd ← orFail (perform (.openFile path flags) (h.sys.openFile path flags))
    return (st, fd)

theorem workRead_through (hsession : ¬ (r.session ≠ 0 ∨ s.session_info.fd < 0))
    (hoffset : ¬ r.offset ≥ s.session_info.file_size) :
    s.workRead h r = s.through (readAt h s.session_info.fd r.offset.toNat) fun info data =>
      (⟨r.session, data⟩, info) := by
  unfold Server.workRead Server.through readAt Server.call
  rw [if_neg hsession, if_neg hoffset, work_bind_run, orLog_run]
  dsimp only
  rcases perform (.lseek s.session_info.fd r.offset.toNat) _ s.disk with ⟨_ | a, d⟩
  · rfl
  · dsimp only
    rw [orLog_run]
    rcases perform (.read s.session_info.fd kMaxDataLength) _ d with ⟨_ | data, d'⟩
    · rfl
    · rfl

theorem workWrite_through (hsession : ¬ (r.session ≠ 0 ∧ s.session_info.fd < 0)) :
    s.workWrite h r = s.through
      (writeAt h s.session_info.fd r.offset.toNat (r.bytes r.size.toNat)) fun info n =>
        (⟨r.session, bytes32 (UInt32.ofNat n)⟩, info) := by
  unfold Server.workWrite Server.through writeAt Server.call
  rw [if_neg hsession, work_bind_run, orLog_run]
  dsimp only
  rcases perform (.lseek s.session_info.fd r.offset.toNat) _ s.disk with ⟨_ | a, d⟩
  · rfl
  · dsimp only
    rw [orLog_run]
    rcases perform (.write s.session_info.fd (r.bytes r.size.toNat)) _ d with ⟨_ | n, d'⟩
    · rfl
    · rfl

theorem workOpen_through {flags : OpenFlags} (hfd : ¬ s.session_info.fd ≥ 0) :
    s.workOpen h r flags = s.through (statAndOpen h (h.openPath r) flags) fun info x =>
      let size : UInt32 := match x.1 with
        | some st => UInt32.ofNat st.size
        | none => 0
      (⟨0, bytes32 size⟩, { info with
        fd := x.2
        file_size := size
        stream_download := false }) := by
  unfold Server.workOpen Server.through Server.call
  have hprog : statAndOpen h (h.openPath r) flags =
      ExceptT.lift (perform (.stat (h.openPath r)) (h.sys.stat (h.openPath r))) >>= fun st =>
        if st.isNone ∧ flags.rdonly ∧ h.nuttx then throw ErrorCode.FailErrno
        else orFail (perform (.openFile (h.openPath r) flags)
          (h.sys.openFile (h.openPath r) flags)) >>= fun fd => pure (st, fd) := rfl
  rw [if_neg hfd, hprog, work_bind_run, lift_run]
  dsimp only
  rcases perform (.stat (h.openPath r)) _ s.disk with ⟨st, d⟩
  dsimp only
  split
  · rfl
  · rw [work_bind_run, orFail_run]
    rcases perform (.openFile (h.openPath r) flags) _ d with ⟨_ | fd, d'⟩
    · rfl
    · rfl

theorem reports_readAt (fd : ℤ) (offset : ℕ) : Reports h chosen cut (readAt h fd offset) :=
  reports_bind (reports_orLog (fun _ => rfl) rfl) fun _ => reports_orLog (fun _ => rfl) rfl

theorem reports_writeAt (fd : ℤ) (offset : ℕ) (data : List UInt8) :
    Reports h chosen cut (writeAt h fd offset data) :=
  reports_bind (reports_orLog (fun _ => rfl) rfl) fun _ => reports_orLog (fun _ => rfl) rfl

theorem reports_statAndOpen (path : Path) (flags : OpenFlags) :
    Reports h chosen cut (statAndOpen h path flags) := by
  have hopen : ∀ st, Reports h chosen cut
      (orFail (perform (.openFile path flags) (h.sys.openFile path flags)) >>= fun fd =>
        (pure (st, fd) : Work φ (Option Stat × ℕ))) := fun st =>
    reports_bind (reports_orFail (fun _ => rfl) rfl) fun _ => reports_pure _
  intro known fs
  refine does_work_bind (does_work_lift (does_perform (fun _ => rfl) ?_ ?_))
  · intro fs' st hst
    obtain rfl : replay h.sys fs [.stat path] = fs' := congrArg Prod.fst hst
    dsimp only
    rw [if_neg fun hnone => nomatch hnone.1]
    refine (hopen (some st) _ _).mono fun _ _ _ _ _ hr c hc => ?_
    exact ⟨(hr c hc).1, (hr c hc).2.append_left⟩
  · intro fs' e hst he
    obtain rfl : replay h.sys fs [.stat path] = fs' := congrArg Prod.fst hst
    dsimp only
    split
    · exact does_pure fun c hc =>
        ⟨(Except.error.inj hc).symm, Cause.of_fault (fault_singleton rfl he)⟩
    · refine (hopen none _ _).mono fun _ _ _ _ _ hr c hc => ?_
      exact ⟨(hr c hc).1, (hr c hc).2.append_left⟩

/-- The values that a handler sets `errno` to of its own accord. -/
def Opcode.chosen : Opcode → List Errno
  | .CmdRename => [EINVAL]
  | .CmdTruncateFile => [EISDIR, EROFS]
  | _ => []

/-- The handler of a request refuses it before it makes any call. -/
def Server.Uncalled (s : Server φ) (r : Request) : Prop :=
  match r.opcode with
  | .CmdTerminateSession => r.session ≠ 0 ∨ s.session_info.fd < 0
  | .CmdReadFile =>
    (r.session ≠ 0 ∨ s.session_info.fd < 0) ∨ r.offset ≥ s.session_info.file_size
  | .CmdBurstReadFile | .CmdWriteFile => r.session ≠ 0 ∧ s.session_info.fd < 0
  | .CmdOpenFileRO | .CmdCreateFile | .CmdOpenFileWO => s.session_info.fd ≥ 0
  | .RspAck | .RspNak | .other _ => True
  | _ => False

/-- The line of the log that goes with such a refusal: a handler that opens a file writes one, and
so does `_workRead` behind the end of the file. -/
def Server.logsRefusal (s : Server φ) (r : Request) : Bool :=
  match r.opcode with
  | .CmdReadFile => r.session = 0 ∧ 0 ≤ s.session_info.fd
  | .CmdOpenFileRO | .CmdCreateFile | .CmdOpenFileWO => true
  | _ => false

variable (h) in
/-- What such a refusal does to `errno`. -/
def Server.refusalErrno (s : Server φ) (r : Request) : Option Errno :=
  if s.logsRefusal r then h.sys.log s.disk.fs else none

/-- Why a request is refused. -/
def Refusal (h : Host φ) (s : Server φ) (r : Request) (c : ErrorCode) (cs : List Call)
    (o : Option Errno) : Prop :=
  (c = .FailErrno ∧ r.opcode ≠ .CmdListDirectory ∧
    Cause h.sys r.opcode.chosen (r.opcode = .CmdTruncateFile) s.disk.fs cs o) ∨
  (c = .EOF ∧ o = some 0) ∨
  (c = .FileNotFound ∧ r.opcode = .CmdListDirectory ∧ ∃ e, o = some (unlisted h r s.disk.fs e) ∧
    Fault h.sys s.disk.fs cs e ∧ (h.sys.readdir (h.requestPath r) s.disk.fs).2 = .error e) ∨
  (c ∈ [ErrorCode.InvalidSession, .NoSessionsAvailable, .EOF, .UnknownCommand] ∧
    o = s.refusalErrno h r ∧
    s.Uncalled r)

/-- Whatever `errno` is, a server on the same disk with the same session gives the same answer,
makes the same calls and leaves the same session; and a refusal has a reason. -/
def Handled (h : Host φ) (s : Server φ) (r : Request)
    (m : Server φ → Except ErrorCode Ack × Server φ) : Prop :=
  ∃ (result : Except ErrorCode Ack) (info : SessionInfo) (fs' : φ) (cs : List Call)
    (o : Option Errno), (∀ e calls, m { s with disk := ⟨s.disk.fs, e, calls⟩ } =
      (result, { s with disk := ⟨fs', o.getD e, calls ++ cs⟩, session_info := info })) ∧
    ∀ c, result = .error c → Refusal h s r c cs o

theorem handled_through {m : Server φ → Except ErrorCode Ack × Server φ} {x : Work φ α}
    {ack : SessionInfo → α → Ack × SessionInfo}
    (hm : ∀ e calls, m { s with disk := ⟨s.disk.fs, e, calls⟩ } =
      Server.through { s with disk := ⟨s.disk.fs, e, calls⟩ } x ack)
    (hx : Does h.sys none x.run s.disk.fs fun res _ cs o =>
      ∀ c, res = .error c → Refusal h s r c cs o) : Handled h s r m := by
  obtain ⟨res, fs', cs, o, hrun, -, hrefusal⟩ := hx
  have hrun' := fun e calls => hrun e calls fun _ hk => nomatch hk
  cases res with
  | ok a =>
    refine ⟨.ok (ack s.session_info a).1, (ack s.session_info a).2, fs', cs, o, fun e calls => ?_,
      fun c hc => nomatch hc⟩
    rw [hm]
    unfold Server.through
    rw [hrun']
  | error c =>
    refine ⟨.error c, s.session_info, fs', cs, o, fun e calls => ?_, fun c' hc => ?_⟩
    · rw [hm]
      unfold Server.through
      rw [hrun']
    · exact hrefusal c' (congrArg Except.error (Except.error.inj hc))

theorem handled_refused {m : Server φ → Except ErrorCode Ack × Server φ} {c : ErrorCode}
    (hm : ∀ e calls, m { s with disk := ⟨s.disk.fs, e, calls⟩ } =
      (.error c, if s.logsRefusal r then Server.log h { s with disk := ⟨s.disk.fs, e, calls⟩ }
        else { s with disk := ⟨s.disk.fs, e, calls⟩ }))
    (hc : c ∈ [ErrorCode.InvalidSession, .NoSessionsAvailable, .EOF, .UnknownCommand])
    (h' : s.Uncalled r) : Handled h s r m := by
  refine ⟨.error c, s.session_info, s.disk.fs, if s.logsRefusal r then [.logLine] else [],
    s.refusalErrno h r, fun e calls => ?_, fun c' hc' => ?_⟩
  · rw [hm]
    unfold Server.refusalErrno
    split
    · rfl
    · rw [List.append_nil]
      rfl
  · obtain rfl := Except.error.inj hc'
    exact .inr (.inr (.inr ⟨hc, rfl, h'⟩))

theorem handled_reports {m : Server φ → Except ErrorCode Ack × Server φ} {x : Work φ α}
    {ack : SessionInfo → α → Ack × SessionInfo}
    (hm : ∀ e calls, m { s with disk := ⟨s.disk.fs, e, calls⟩ } =
      Server.through { s with disk := ⟨s.disk.fs, e, calls⟩ } x ack)
    (hlist : r.opcode ≠ .CmdListDirectory)
    (hx : Reports h r.opcode.chosen (r.opcode = .CmdTruncateFile) x) : Handled h s r m :=
  handled_through hm ((hx none s.disk.fs).mono fun _ _ _ _ _ hr c hc =>
    .inl ⟨(hr c hc).1, hlist, (hr c hc).2⟩)

theorem closeSession_through (a : Ack) :
    (.ok a, s.closeSession h) =
      s.through (ExceptT.lift (perform (.close s.session_info.fd) (h.sys.close s.session_info.fd)))
        fun info _ => (a, { info with fd := -1, stream_download := false }) := by
  unfold Server.closeSession Server.through Server.call
  rw [lift_run]
  dsimp only
  rcases perform (.close s.session_info.fd) (h.sys.close s.session_info.fd) s.disk with ⟨x, d⟩
  rfl

theorem handled_workOpen (flags : OpenFlags) (hlist : r.opcode ≠ .CmdListDirectory)
    (hcalled : s.session_info.fd ≥ 0 → s.Uncalled r) (hlogs : s.logsRefusal r = true) :
    Handled h s r fun s => s.workOpen h r flags := by
  by_cases hfd : s.session_info.fd ≥ 0
  · refine handled_refused (c := .NoSessionsAvailable) (fun _ _ => ?_) (by decide) (hcalled hfd)
    rw [if_pos hlogs]
    exact if_pos hfd
  · exact handled_reports (fun _ _ => workOpen_through hfd) hlist (reports_statAndOpen _ _)

theorem handled_workRead (hop : r.opcode = .CmdReadFile) :
    Handled h s r fun s => s.workRead h r := by
  have hlogs : s.logsRefusal r = true ↔ r.session = 0 ∧ 0 ≤ s.session_info.fd := by
    unfold Server.logsRefusal
    rw [hop]
    exact decide_eq_true_iff
  have hcalled : (r.session ≠ 0 ∨ s.session_info.fd < 0) ∨
      r.offset ≥ s.session_info.file_size → s.Uncalled r := by
    intro hrefused
    unfold Server.Uncalled
    rwa [hop]
  by_cases hsession : r.session ≠ 0 ∨ s.session_info.fd < 0
  · refine handled_refused (c := .InvalidSession) (fun _ _ => ?_) (by decide)
      (hcalled (.inl hsession))
    rw [if_neg fun htrue => ?_]
    · exact if_pos hsession
    · obtain ⟨hzero, hpos⟩ := hlogs.mp htrue
      exact hsession.elim (fun hne => hne hzero) (not_lt.mpr hpos)
  by_cases hoffset : r.offset ≥ s.session_info.file_size
  · refine handled_refused (c := .EOF) (fun _ _ => ?_) (by decide) (hcalled (.inr hoffset))
    obtain ⟨hzero, hpos⟩ := not_or.mp hsession
    rw [if_pos (hlogs.mpr ⟨not_not.mp hzero, not_lt.mp hpos⟩)]
    exact (if_neg hsession).trans (if_pos hoffset)
  · exact @handled_reports _ _ h s r _ (readAt h s.session_info.fd r.offset.toNat) _
      (fun _ _ => workRead_through hsession hoffset) (by simp [hop]) (reports_readAt _ _)

/-- The handlers that refuse a request for its session do so without a line of the log. -/
theorem handled_refused_session {m : Server φ → Except ErrorCode Ack × Server φ}
    (hm : ∀ e calls, m { s with disk := ⟨s.disk.fs, e, calls⟩ } =
      (.error .InvalidSession, { s with disk := ⟨s.disk.fs, e, calls⟩ }))
    (hlogs : s.logsRefusal r = false) (h' : s.Uncalled r) : Handled h s r m := by
  refine handled_refused (c := .InvalidSession) (fun e calls => ?_) (by decide) h'
  rw [hm, if_neg (by rw [hlogs]; exact Bool.false_ne_true)]

theorem handled_workWrite (hop : r.opcode = .CmdWriteFile) :
    Handled h s r fun s => s.workWrite h r := by
  by_cases hsession : r.session ≠ 0 ∧ s.session_info.fd < 0
  · refine handled_refused_session (fun _ _ => if_pos hsession) ?_ ?_
    · rw [Server.logsRefusal, hop]
    · rwa [Server.Uncalled, hop]
  · exact @handled_reports _ _ h s r _
      (writeAt h s.session_info.fd r.offset.toNat (r.bytes r.size.toNat)) _
      (fun _ _ => workWrite_through hsession) (by simp [hop]) (reports_writeAt _ _ _)

theorem handled_done {m : Server φ → Except ErrorCode Ack × Server φ}
    (hlist : r.opcode ≠ .CmdListDirectory) (a : Ack) (info : SessionInfo)
    (hm : ∀ e calls, m { s with disk := ⟨s.disk.fs, e, calls⟩ } =
      (.ok a, { s with disk := ⟨s.disk.fs, e, calls⟩, session_info := info })) :
    Handled h s r m :=
  @handled_reports _ _ h s r _ (pure () : Work φ Unit) (fun _ _ => (a, info)) hm hlist
    (reports_pure ())

theorem handled_workBurst (hop : r.opcode = .CmdBurstReadFile) :
    Handled h s r fun s => s.workBurst r sender := by
  by_cases hsession : r.session ≠ 0 ∧ s.session_info.fd < 0
  · refine handled_refused_session (fun _ _ => if_pos hsession) ?_ ?_
    · rw [Server.logsRefusal, hop]
    · rwa [Server.Uncalled, hop]
  · exact handled_done (by simp [hop]) ⟨r.session, r.bytes r.size.toNat⟩
      { s.session_info with
        stream_download := true
        stream_offset := r.offset
        stream_chunk_transmitted := 0
        stream_seq_number := r.seq_number + 1
        stream_target := sender } fun _ _ => if_neg hsession

theorem handled_closeSession {m : Server φ → Except ErrorCode Ack × Server φ}
    (hlist : r.opcode ≠ .CmdListDirectory) (a : Ack)
    (hm : ∀ e calls, m { s with disk := ⟨s.disk.fs, e, calls⟩ } =
      (.ok a, Server.closeSession h { s with disk := ⟨s.disk.fs, e, calls⟩ })) :
    Handled h s r m :=
  @handled_reports _ _ h s r _
    (ExceptT.lift (perform (.close s.session_info.fd) (h.sys.close s.session_info.fd))) _
    (fun e calls => (hm e calls).trans (closeSession_through a)) hlist
    (reports_perform fun _ => rfl)

theorem handled_workTerminate (hop : r.opcode = .CmdTerminateSession) :
    Handled h s r fun s => s.workTerminate h r := by
  by_cases hsession : r.session ≠ 0 ∨ s.session_info.fd < 0
  · refine handled_refused_session (fun _ _ => if_pos hsession) ?_ ?_
    · rw [Server.logsRefusal, hop]
    · rwa [Server.Uncalled, hop]
  · exact handled_closeSession (by simp [hop]) _ fun _ _ => if_neg hsession

theorem handled_workReset (hlist : r.opcode ≠ .CmdListDirectory) :
    Handled h s r fun s => s.workReset h r := by
  by_cases hfd : s.session_info.fd ≠ -1
  · exact handled_closeSession hlist _ fun _ _ => congrArg (Prod.mk _) (if_pos hfd)
  · exact handled_done hlist _ s.session_info fun _ _ => congrArg (Prod.mk _) (if_neg hfd)

theorem handled_workFile {x : Work φ (List UInt8)} (hlist : r.opcode ≠ .CmdListDirectory)
    (hx : Reports h r.opcode.chosen (r.opcode = .CmdTruncateFile) x) :
    Handled h s r fun s => s.workFile r x :=
  handled_reports (fun _ _ => workFile_through x) hlist hx

theorem handled_workList (hop : r.opcode = .CmdListDirectory) :
    Handled h s r fun s => s.workFile r (workList h r) := by
  refine handled_through (fun _ _ => workFile_through _) ((does_workList r none _).mono ?_)
  rintro res fs' cs o - hres c hc
  rcases hres c hc with ⟨rfl, ho⟩ | ⟨rfl, hfound⟩
  · exact .inr (.inl ⟨rfl, ho⟩)
  · exact .inr (.inr (.inl ⟨rfl, hop, hfound⟩))

theorem execute_handled (s : Server φ) (r : Request) (sender : Peer) :
    Handled h s r fun s => s.execute h r sender := by
  unfold Server.execute
  cases hop : r.opcode with
  | CmdNone =>
    exact handled_done (by simp [hop]) ⟨r.session, r.bytes r.size.toNat⟩ s.session_info
      fun _ _ => rfl
  | CmdTerminateSession => exact handled_workTerminate hop
  | CmdResetSessions => exact handled_workReset (by simp [hop])
  | CmdListDirectory => exact handled_workList hop
  | CmdOpenFileRO | CmdCreateFile | CmdOpenFileWO =>
    refine handled_workOpen _ (by simp [hop]) (fun hrefused => ?_) ?_
    · rwa [Server.Uncalled, hop]
    · rw [Server.logsRefusal, hop]
  | CmdReadFile => exact handled_workRead hop
  | CmdBurstReadFile => exact handled_workBurst hop
  | CmdWriteFile => exact handled_workWrite hop
  | CmdRemoveFile => exact handled_workFile (by simp [hop]) (reports_workRemoveFile r)
  | CmdRename =>
    refine handled_workFile (by simp [hop]) ?_
    rw [hop]
    exact reports_workRename r
  | CmdTruncateFile =>
    refine handled_workFile (by simp [hop]) ?_
    rw [hop, eq_self]
    exact reports_workTruncateFile r
  | CmdCreateDirectory => exact handled_workFile (by simp [hop]) (reports_workCreateDirectory r)
  | CmdRemoveDirectory => exact handled_workFile (by simp [hop]) (reports_workRemoveDirectory r)
  | CmdCalcFileCRC32 => exact handled_workFile (by simp [hop]) (reports_workCalcFileCRC32 r)
  | RspAck | RspNak | other opcode =>
    refine handled_refused (c := .UnknownCommand) (fun _ _ => ?_) (by decide) ?_
    · rw [if_neg (by rw [Server.logsRefusal, hop]; exact Bool.false_ne_true)]
    · rw [Server.Uncalled, hop]
      trivial

end Switch

/-! ### Refusals -/

section Refusals

variable {s : Server φ} {io : Io} {sender : Peer} {r : Request}

variable (h) in
def Server.made (s : Server φ) (io : Io) (sender : Peer) (r : Request) : List Call :=
  (s.processRequest h io sender r).1.disk.calls.drop s.disk.calls.length

/-- The answer is a refusal with this error. -/
def Reply.Refuses (p : Reply) (c : ErrorCode) : Prop :=
  p.opcode = .RspNak ∧ p.data.head? = some c.code

variable (h) in
/-- What is sent is a function of the request's own outcome: it is what is sent if `errno` is
cleared before; with `kErrFailErrno` comes the error of the call that failed, or one that the
handler has set itself; and the errors that stand for a value of `errno` mean that a call has
failed with it.  (An answer that is sent again is one to an earlier request.) -/
structure Server.Honest (s : Server φ) (io : Io) (sender : Peer) (r : Request) : Prop where
  own : (s.processRequest h io sender r).2 = (s.processRequest h { io with errno := 0 } sender r).2
  failErrno : ∀ p ∈ (s.processRequest h io sender r).2, s.resent r ≠ some p →
    p.Refuses .FailErrno → ∃ e, p.data = [ErrorCode.FailErrno.code, UInt8.ofNat e] ∧
      (Fault h.sys s.disk.fs (s.made h io sender r) e ∨ e ∈ r.opcode.chosen ∨
        e = ENOMEM ∧ ¬ s.HasBuffers io)
  failFileExists : ∀ p ∈ (s.processRequest h io sender r).2, s.resent r ≠ some p →
    p.Refuses .FailFileExists → Fault h.sys s.disk.fs (s.made h io sender r) EEXIST
  failFileProtected : ∀ p ∈ (s.processRequest h io sender r).2, s.resent r ≠ some p →
    ¬ p.Refuses .FailFileProtected
  fileNotFound : ∀ p ∈ (s.processRequest h io sender r).2, s.resent r ≠ some p →
    p.Refuses .FileNotFound → Fault h.sys s.disk.fs (s.made h io sender r) ENOENT

variable (h) in
/-- `errno` does not say that a file exists when a request is refused without a call, after the line
of the log if there is one; no call is cut short in a truncation; a directory that cannot be opened
is not there; and otherwise a line of the log leaves the error of a call that has failed alone. -/
structure Server.Clean (s : Server φ) (io : Io) (sender : Peer) (r : Request) : Prop where
  sized : s.HasBuffers io → r.size.toNat > kMaxDataLength → io.errno ≠ EEXIST
  called : s.HasBuffers io → r.size.toNat ≤ kMaxDataLength → s.resent r = none → s.Uncalled r →
    (s.refusalErrno h r).getD io.errno ≠ EEXIST
  whole : r.opcode = .CmdTruncateFile → ¬ Incomplete h.sys s.disk.fs (s.made h io sender r)
  listed : r.opcode = .CmdListDirectory → ∀ e,
    (h.sys.readdir (h.requestPath r) s.disk.fs).2 = .error e →
      e = ENOENT ∧ unlisted h r s.disk.fs e ≠ EEXIST ∨
        e = EEXIST ∧ unlisted h r s.disk.fs e = EEXIST
  quiet : r.opcode ≠ .CmdListDirectory → ¬ Loud h.sys s.disk.fs (s.made h io sender r)

/-- Errors that do not speak of `errno`. -/
def plain : List ErrorCode :=
  [.InvalidDataSize, .InvalidSession, .NoSessionsAvailable, .EOF, .UnknownCommand]

variable (h) in
/-- What is sent for this error, when `errno` has this value, is so. -/
def Server.Reason (s : Server φ) (io : Io) (sender : Peer) (r : Request) (c : ErrorCode)
    (errno : Errno) : Prop :=
  (c = .FailErrno ∧ (Fault h.sys s.disk.fs (s.made h io sender r) errno ∨
    errno ∈ r.opcode.chosen ∨ errno = ENOMEM ∧ ¬ s.HasBuffers io)) ∨
  (c = .FileNotFound ∧ (Fault h.sys s.disk.fs (s.made h io sender r) ENOENT ∧ errno ≠ EEXIST ∨
    Fault h.sys s.disk.fs (s.made h io sender r) EEXIST ∧ errno = EEXIST)) ∨
  (c ∈ plain ∧ errno ≠ EEXIST)

theorem translate_cases (c : ErrorCode) (errno : Errno) :
    (errno = EEXIST ∧ translate c errno = .FailFileExists) ∨
    (errno = ENOENT ∧ c = .FailErrno ∧ translate c errno = .FileNotFound) ∨
    (errno ≠ EEXIST ∧ ¬ (errno = ENOENT ∧ c = .FailErrno) ∧ translate c errno = c) := by
  unfold translate
  by_cases hexist : errno = EEXIST
  · exact .inl ⟨hexist, if_pos hexist⟩
  rw [if_neg hexist]
  by_cases hfound : errno = ENOENT ∧ c = .FailErrno
  · exact .inr (.inl ⟨hfound.1, hfound.2, if_pos hfound⟩)
  · exact .inr (.inr ⟨hexist, hfound, if_neg hfound⟩)

theorem nakData_plain {c : ErrorCode} {errno : Errno} (hc : c ∈ plain) (hne : errno ≠ EEXIST) :
    nakData (translate c errno) errno = [c.code] := by
  have hcode : c ≠ .FailErrno := fun heq => absurd (heq ▸ hc) (by decide)
  rcases translate_cases c errno with ⟨hexist, -⟩ | ⟨-, hfail, -⟩ | ⟨-, -, heq⟩
  · exact absurd hexist hne
  · exact absurd hfail hcode
  · rw [heq]
    exact if_neg hcode

theorem notMem_chosen {e : Errno} (he : e ∉ [EINVAL, EISDIR, EROFS]) (op : Opcode) :
    e ∉ op.chosen := by
  have hsub : op.chosen ⊆ [EINVAL, EISDIR, EROFS] := by
    cases op with
    | CmdRename => exact fun x hx => List.mem_cons.mpr (.inl (List.mem_singleton.mp hx))
    | CmdTruncateFile => exact List.subset_cons_self _ _
    | _ => exact List.nil_subset _
  exact fun hmem => he (hsub hmem)

theorem refuses_answer {errno : Errno} {c d : ErrorCode}
    (h : (answer r sender errno (.error c)).Refuses d) : translate c errno = d := by
  have hcode : (nakData (translate c errno) errno).head? = some d.code := h.2
  have hhead : (nakData (translate c errno) errno).head? = some (translate c errno).code := by
    unfold nakData
    split
    · rename_i heq
      rw [heq]
      rfl
    · rfl
  have heq : (translate c errno).code = d.code := Option.some.inj (hhead.symm.trans hcode)
  revert heq
  generalize translate c errno = x
  cases x <;> cases d <;> decide

theorem honest_of_reason {c : ErrorCode} {errno : Errno} (hreason : s.Reason h io sender r c errno)
    (hout : (s.processRequest h io sender r).2 = [answer r sender errno (.error c)])
    (hown : (s.processRequest h { io with errno := 0 } sender r).2 =
      [answer r sender errno (.error c)]) : s.Honest h io sender r := by
  have honly : ∀ p ∈ (s.processRequest h io sender r).2, ∀ d, p.Refuses d →
      p = answer r sender errno (.error c) ∧ translate c errno = d := by
    intro p hp d hd
    rw [hout] at hp
    obtain rfl := List.mem_singleton.mp hp
    exact ⟨rfl, refuses_answer hd⟩
  refine ⟨hout.trans hown.symm, ?_, ?_, ?_, ?_⟩
  · intro p hp _ hd
    obtain ⟨rfl, hc⟩ := honly p hp _ hd
    refine ⟨errno, ?_, ?_⟩
    · change nakData (translate c errno) errno = _
      rw [hc]
      rfl
    · rcases translate_cases c errno with ⟨-, hx⟩ | ⟨-, -, hx⟩ | ⟨-, -, hx⟩
      · exact absurd (hx.symm.trans hc) (by decide)
      · exact absurd (hx.symm.trans hc) (by decide)
      · obtain rfl : c = .FailErrno := hx.symm.trans hc
        rcases hreason with ⟨-, hwhy⟩ | ⟨hcode, -⟩ | ⟨hplain, -⟩
        · exact hwhy
        · exact nomatch hcode
        · exact nomatch hplain
  · intro p hp _ hd
    obtain ⟨rfl, hc⟩ := honly p hp _ hd
    have hexist : errno = EEXIST := by
      rcases translate_cases c errno with ⟨hexist, -⟩ | ⟨-, -, hx⟩ | ⟨-, -, hx⟩
      · exact hexist
      · exact absurd (hx.symm.trans hc) (by decide)
      · obtain rfl : c = .FailFileExists := hx.symm.trans hc
        rcases hreason with ⟨hcode, -⟩ | ⟨hcode, -⟩ | ⟨hplain, -⟩
        · exact nomatch hcode
        · exact nomatch hcode
        · exact nomatch hplain
    subst hexist
    rcases hreason with ⟨-, hfault | hchosen | ⟨hmem, -⟩⟩ | ⟨-, ⟨-, hne⟩ | ⟨hfault, -⟩⟩ | ⟨-, hne⟩
    · exact hfault
    · exact absurd hchosen (notMem_chosen (by decide) _)
    · exact nomatch hmem
    · exact absurd rfl hne
    · exact hfault
    · exact absurd rfl hne
  · intro p hp _ hd
    obtain ⟨rfl, hc⟩ := honly p hp _ hd
    rcases translate_cases c errno with ⟨-, hx⟩ | ⟨-, -, hx⟩ | ⟨-, -, hx⟩
    · exact absurd (hx.symm.trans hc) (by decide)
    · exact absurd (hx.symm.trans hc) (by decide)
    · obtain rfl : c = .FailFileProtected := hx.symm.trans hc
      rcases hreason with ⟨hcode, -⟩ | ⟨hcode, -⟩ | ⟨hplain, -⟩
      · exact nomatch hcode
      · exact nomatch hcode
      · exact nomatch hplain
  · intro p hp _ hd
    obtain ⟨rfl, hc⟩ := honly p hp _ hd
    rcases translate_cases c errno with ⟨-, hx⟩ | ⟨rfl, rfl, -⟩ | ⟨hne, -, hx⟩
    · exact absurd (hx.symm.trans hc) (by decide)
    · rcases hreason with ⟨-, hfault | hchosen | ⟨hmem, -⟩⟩ | ⟨hcode, -⟩ | ⟨hplain, -⟩
      · exact hfault
      · exact absurd hchosen (notMem_chosen (by decide) _)
      · exact nomatch hmem
      · exact nomatch hcode
      · exact nomatch hplain
    · obtain rfl : c = .FileNotFound := hx.symm.trans hc
      rcases hreason with ⟨hcode, -⟩ | ⟨-, ⟨hfault, -⟩ | ⟨-, hexist⟩⟩ | ⟨hplain, -⟩
      · exact nomatch hcode
      · exact hfault
      · exact absurd hexist hne
      · exact nomatch hplain

theorem honest_of_ack {ps : List Reply} (hps : ∀ p ∈ ps, s.resent r ≠ some p → p.opcode = .RspAck)
    (hout : (s.processRequest h io sender r).2 = ps)
    (hown : (s.processRequest h { io with errno := 0 } sender r).2 = ps) :
    s.Honest h io sender r := by
  have hnone : ∀ p ∈ (s.processRequest h io sender r).2, s.resent r ≠ some p → ∀ d,
      ¬ p.Refuses d := by
    intro p hp hfresh d hd
    rw [hout] at hp
    exact absurd ((hps p hp hfresh).symm.trans hd.1) (by decide)
  exact ⟨hout.trans hown.symm, fun p hp hfresh hd => absurd hd (hnone p hp hfresh _),
    fun p hp hfresh hd => absurd hd (hnone p hp hfresh _), fun p hp hfresh => hnone p hp hfresh _,
    fun p hp hfresh hd => absurd hd (hnone p hp hfresh _)⟩

/-! ### Requests -/

theorem finish_error (s : Server φ) (stream_send : Bool) (c : ErrorCode) :
    (s.finish r sender stream_send (.error c)).2 = [answer r sender s.disk.errno (.error c)] := rfl

theorem finish_ok (s : Server φ) (stream_send : Bool) (a : Ack) :
    (s.finish r sender stream_send (.ok a)).2 =
      if stream_send then [] else [answer r sender 0 (.ok a)] := by
  cases stream_send <;> rfl

def Server.ready (s : Server φ) (io : Io) : Server φ :=
  { s with disk.errno := io.errno }.ensureBuffersExist io

theorem noBuffers_iff : (! ((s.ready io).work_buffer1 && (s.ready io).work_buffer2)) = true ↔
    ¬ s.HasBuffers io := by
  rw [Bool.not_eq_true', ← Bool.not_eq_true, Bool.and_eq_true]
  rfl

theorem processRequest_noBuffers (hbuf : ¬ s.HasBuffers io) :
    s.processRequest h io sender r =
      { (s.ready io).log h with disk.errno := ENOMEM }.finish r sender false
        (.error .FailErrno) := by
  unfold Server.processRequest
  exact if_pos (noBuffers_iff.mpr hbuf)

theorem processRequest_tooLong (hbuf : s.HasBuffers io) (hsize : r.size.toNat > kMaxDataLength) :
    s.processRequest h io sender r =
      (s.ready io).finish r sender false (.error .InvalidDataSize) := by
  unfold Server.processRequest
  exact (if_neg fun hno => noBuffers_iff.mp hno hbuf).trans (if_pos hsize)

theorem processRequest_resent {p : Reply} (hbuf : s.HasBuffers io)
    (hsize : ¬ r.size.toNat > kMaxDataLength) (hresent : s.resent r = some p) :
    s.processRequest h io sender r = (s.ready io, [p]) := by
  unfold Server.processRequest
  refine ((if_neg fun hno => noBuffers_iff.mp hno hbuf).trans (if_neg hsize)).trans ?_
  split
  next p' hp =>
    obtain rfl : p' = p := Option.some.inj (hp.symm.trans hresent)
    rfl
  next hp => exact absurd (hp.symm.trans hresent) (Option.some_ne_none p).symm

theorem processRequest_execute (hbuf : s.HasBuffers io)
    (hsize : ¬ r.size.toNat > kMaxDataLength) (hresent : s.resent r = none) :
    s.processRequest h io sender r =
      ((s.ready io).execute h r sender).2.finish r sender (r.opcode = .CmdBurstReadFile)
        ((s.ready io).execute h r sender).1 := by
  unfold Server.processRequest
  refine ((if_neg fun hno => noBuffers_iff.mp hno hbuf).trans (if_neg hsize)).trans ?_
  split
  next p hp => exact absurd (hp.symm.trans hresent) (Option.some_ne_none p)
  next => rfl

theorem made_execute (hbuf : s.HasBuffers io) (hsize : ¬ r.size.toNat > kMaxDataLength)
    (hresent : s.resent r = none) {cs : List Call}
    (hcalls : ((s.ready io).execute h r sender).2.disk.calls = s.disk.calls ++ cs) :
    s.made h io sender r = cs := by
  unfold Server.made
  rw [processRequest_execute hbuf hsize hresent, (Server.finish_spec _ _ _ _ _).1, hcalls]
  exact List.drop_left

theorem Refusal.reason (hclean : s.Clean h io sender r) {c : ErrorCode} {cs : List Call}
    {o : Option Errno} (hrefusal : Refusal h s r c cs o) (hmade : s.made h io sender r = cs)
    (hbuf : s.HasBuffers io) (hsize : r.size.toNat ≤ kMaxDataLength) (hresent : s.resent r = none) :
    (∃ e, o = some e ∧ s.Reason h io sender r c e) ∨
      (o = none ∧ c ∈ plain ∧ io.errno ≠ EEXIST) := by
  subst hmade
  rcases hrefusal with ⟨rfl, hlist, ⟨e, rfl, hwhy⟩ | hloud | ⟨htruncate, hcut⟩⟩ | ⟨rfl, rfl⟩ |
    ⟨rfl, hlist, e, rfl, hfault, hread⟩ | ⟨hcode, rfl, huncalled⟩
  · exact .inl ⟨e, rfl, .inl ⟨rfl, hwhy.imp_right .inl⟩⟩
  · exact absurd hloud (hclean.quiet hlist)
  · exact absurd hcut (hclean.whole htruncate)
  · exact .inl ⟨0, rfl, .inr (.inr ⟨by decide, by decide⟩)⟩
  · refine .inl ⟨_, rfl, .inr (.inl ⟨rfl, ?_⟩)⟩
    rcases hclean.listed hlist e hread with ⟨rfl, hne⟩ | ⟨rfl, hexist⟩
    · exact .inl ⟨hfault, hne⟩
    · exact .inr ⟨hfault, hexist⟩
  · have hplain : c ∈ plain := by
      revert hcode
      cases c <;> decide
    have hne := hclean.called hbuf hsize hresent huncalled
    cases herrno : s.refusalErrno h r with
    | none =>
      rw [herrno] at hne
      exact .inr ⟨rfl, hplain, hne⟩
    | some k =>
      rw [herrno] at hne
      exact .inl ⟨k, rfl, .inr (.inr ⟨hplain, hne⟩)⟩

theorem zero_ne_EEXIST : (0 : Errno) ≠ EEXIST := by decide

theorem answer_plain {c : ErrorCode} {e e' : Errno} (hc : c ∈ plain) (he : e ≠ EEXIST)
    (he' : e' ≠ EEXIST) : answer r sender e (.error c) = answer r sender e' (.error c) :=
  answer_error_congr ((nakData_plain hc he).trans (nakData_plain hc he').symm)

theorem honest_execute (hclean : s.Clean h io sender r) (hbuf : s.HasBuffers io)
    (hsize : ¬ r.size.toNat > kMaxDataLength) (hresent : s.resent r = none) :
    s.Honest h io sender r := by
  obtain ⟨result, info, fs', cs, o, hrun, hrefusal⟩ :=
    execute_handled (h := h) (s.ready io) r sender
  -- the handler is called with what is left in `errno`, and once more with zero
  have hexec : (s.ready io).execute h r sender = (result, { s.ready io with
      disk := ⟨fs', o.getD io.errno, s.disk.calls ++ cs⟩, session_info := info }) :=
    hrun io.errno s.disk.calls
  have hexec₀ : (s.ready { io with errno := 0 }).execute h r sender = (result, { s.ready io with
      disk := ⟨fs', o.getD 0, s.disk.calls ++ cs⟩, session_info := info }) :=
    hrun 0 s.disk.calls
  have hout := @processRequest_execute φ h s io sender r hbuf hsize hresent
  have hown := @processRequest_execute φ h s { io with errno := 0 } sender r hbuf hsize hresent
  have hmade : s.made h io sender r = cs :=
    made_execute hbuf hsize hresent (by rw [hexec])
  rw [hexec] at hout
  rw [hexec₀] at hown
  cases result with
  | ok a =>
    refine honest_of_ack ?_ ((congrArg Prod.snd hout).trans (finish_ok _ _ _))
      ((congrArg Prod.snd hown).trans (finish_ok _ _ _))
    intro p hp _
    split at hp
    · exact nomatch hp
    · rw [List.mem_singleton.mp hp]
      rfl
  | error c =>
    have hwhy : Refusal h s r c cs o := hrefusal c rfl
    rcases hwhy.reason hclean hmade hbuf (not_lt.mp hsize) hresent with
      ⟨e, rfl, hreason⟩ | ⟨rfl, hplain, hne⟩
    · exact honest_of_reason hreason ((congrArg Prod.snd hout).trans (finish_error _ _ _))
        ((congrArg Prod.snd hown).trans (finish_error _ _ _))
    · refine honest_of_reason (.inr (.inr ⟨hplain, hne⟩))
        ((congrArg Prod.snd hout).trans (finish_error _ _ _)) ?_
      refine ((congrArg Prod.snd hown).trans (finish_error _ _ _)).trans ?_
      exact congrArg (fun p => [p]) (answer_plain hplain zero_ne_EEXIST hne)

theorem honest_of_clean (hclean : s.Clean h io sender r) : s.Honest h io sender r := by
  by_cases hbuf : s.HasBuffers io
  swap
  · have hmem := fun io => @processRequest_noBuffers φ h s io sender r
    exact honest_of_reason (c := .FailErrno) (.inl ⟨rfl, .inr (.inr ⟨rfl, hbuf⟩)⟩)
      (congrArg Prod.snd (hmem io hbuf)) (congrArg Prod.snd (hmem { io with errno := 0 } hbuf))
  by_cases hsize : r.size.toNat > kMaxDataLength
  · have hne := hclean.sized hbuf hsize
    have hlong := fun io => @processRequest_tooLong φ h s io sender r
    refine honest_of_reason (c := .InvalidDataSize) (.inr (.inr ⟨by decide, hne⟩))
      (congrArg Prod.snd (hlong io hbuf hsize))
      ((congrArg Prod.snd (hlong { io with errno := 0 } hbuf hsize)).trans ?_)
    exact congrArg (fun p => [p]) (answer_plain (by decide) zero_ne_EEXIST hne)
  cases hresent : s.resent r with
  | some p =>
    have hagain := fun io => @processRequest_resent φ h s io sender r p
    have hout : (s.processRequest h io sender r).2 = [p] :=
      congrArg Prod.snd (hagain io hbuf hsize hresent)
    refine honest_of_ack ?_ hout
      (congrArg Prod.snd (hagain { io with errno := 0 } hbuf hsize hresent))
    intro q hq hfresh
    rw [List.mem_singleton.mp hq] at hfresh
    exact absurd hresent hfresh
  | none => exact honest_execute hclean hbuf hsize hresent

end Refusals

/-! ### Runs -/

/-- A property of the request that a message for this server brings. -/
def Event.Holds (h : Host φ) (P : Server φ → Io → Peer → Request → Prop) (s : Server φ) :
    Event → Prop
  | .message io target sender r => h.takes target → P s io sender r
  | .send _ => True

theorem honest_run (h : Host φ) (s : Server φ) (es : List Event)
    (hclean : Trace.Always (fun s e => (Server.react h s e).1)
      (Event.Holds h (Server.Clean h)) s es) :
    Trace.Always (fun s e => (Server.react h s e).1) (Event.Holds h (Server.Honest h)) s es := by
  refine Trace.always_of_invariant (I := fun _ => True) (fun s e _ he => ⟨?_, trivial⟩) trivial
    hclean
  cases e with
  | message io target sender r => exact fun htakes => honest_of_clean (he htakes)
  | send io => trivial

/-- A ground station at another address, which talks to this server. -/
def Event.ask (io : Io) (r : Request) : Event := .message io ⟨1, 1⟩ ⟨2, 2⟩ r

/-- A server on an empty file system, but for a directory `a`. -/
def Server.sample : Server Ram := .init ⟨[], ["a".toUTF8.toList], none⟩

theorem honest_run_sample : Trace.Always (fun s e => (Server.react ramHost s e).1)
    (Event.Holds ramHost (Server.Honest ramHost)) Server.sample
    [.ask (Io.ok 0) (.about 1 0 .CmdCreateDirectory),
      .ask (Io.ok 1) (.about 3 0 .CmdListDirectory)] := by
  have hlist : (ramHost.sys.readdir (ramHost.requestPath (.about 3 0 .CmdListDirectory))
      (Server.react ramHost Server.sample
        (.ask (Io.ok 0) (.about 1 0 .CmdCreateDirectory))).1.disk.fs).2.isOk = true := by
    decide +kernel
  have hquiet : ∀ (s : Server Ram) (cs : List Call), ¬ Loud ramHost.sys s.disk.fs cs := by
    rintro s cs ⟨before, c, after, fs', e, k, -, -, hlog, -⟩
    exact nomatch hlog
  refine honest_run ramHost Server.sample _
    ⟨fun _ => ⟨fun _ hsize => ?_, fun _ _ _ hcalled => ?_, ?_, ?_, fun _ => hquiet _ _⟩,
      fun _ => ⟨fun _ hsize => ?_, fun _ _ _ hcalled => ?_, ?_, fun _ e he => ?_, ?_⟩, trivial⟩
  · exact nomatch hsize
  · exact hcalled.elim
  · exact fun hop => nomatch hop
  · exact fun hop => nomatch hop
  · exact nomatch hsize
  · exact hcalled.elim
  · exact fun hop => nomatch hop
  · exact (Bool.false_ne_true ((congrArg Except.isOk he).symm.trans hlist)).elim
  · exact fun hop => absurd rfl hop

/-- A directory that exists is created; then a file is read without a session. -/
theorem exists_left_over :
    let s := (Server.sample.react ramHost (.ask (Io.ok 0) (.about 1 0 .CmdCreateDirectory))).1
    let io := { Io.ok 1 with errno := s.disk.errno }
    (s.react ramHost (.ask io (.about 3 0 .CmdReadFile))).2.map (·.data) =
        [[ErrorCode.FailFileExists.code]] ∧
      ¬ Trace.Always (fun s e => (Server.react ramHost s e).1)
        (Event.Holds ramHost (Server.Honest ramHost)) Server.sample
        [.ask (Io.ok 0) (.about 1 0 .CmdCreateDirectory), .ask io (.about 3 0 .CmdReadFile)] := by
  intro s io
  refine ⟨by decide +kernel, fun hruns => ?_⟩
  obtain ⟨-, hread, -⟩ := hruns
  have hhonest : s.Honest ramHost io ⟨2, 2⟩ (.about 3 0 .CmdReadFile) := hread (by decide)
  have hout : (s.processRequest ramHost io ⟨2, 2⟩ (.about 3 0 .CmdReadFile)).2 =
      [answer (.about 3 0 .CmdReadFile) ⟨2, 2⟩ EEXIST (.error .InvalidSession)] := by
    decide +kernel
  have hresent : s.resent (.about 3 0 .CmdReadFile) = none := by decide +kernel
  -- no call is made, so none can have failed
  have hmade : s.made ramHost io ⟨2, 2⟩ (.about 3 0 .CmdReadFile) = [] := by decide +kernel
  have hfault := hhonest.failFileExists _ (hout ▸ List.mem_singleton_self _)
    (by rw [hresent]; exact fun hnone => nomatch hnone) ⟨rfl, rfl⟩
  rw [hmade] at hfault
  obtain ⟨before, c, after, hnil, -⟩ := hfault
  exact List.append_ne_nil_of_right_ne_nil before (List.cons_ne_nil c after) hnil.symm

end Ftp
