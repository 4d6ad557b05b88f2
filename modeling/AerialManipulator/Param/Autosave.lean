/-
Automatic saving.

A change of a parameter puts the worker into a queue, unless it is there already or automatic
saving is disabled.  The worker, when its time has come, takes the mark that it is scheduled away
before it saves, so that a change that comes later schedules it again.  Disabling takes the worker
out of the queue.  Programs may also save by themselves.  Any of these can happen between any two
steps of the worker; what is done under the lock is one step.

* **`autosave_pending`** — after a change, until it has been saved, automatic saving has been
  disabled, or the automatic save that began after the change has failed, the worker is scheduled,
  or that save is under way;
* **`change_not_scheduled`** — after the last two of these nothing is scheduled.
-/
import AerialManipulator.Param.Persistence

open ByteStream

namespace Param

variable {F : Type}

namespace Autosave

/-- `param_control_autosave`. -/
def control (a : Autosave) (enable : Bool) : Autosave :=
  let a := if !enable && a.scheduled then { a with work := none, scheduled := false } else a
  { a with disabled := !enable }

/-- What `autosave_worker` does under the lock. -/
def take (a : Autosave) (now : UInt64) : Autosave :=
  { a with last_autosave_timestamp := now, scheduled := false }

def enqueue (a : Autosave) (delay : UInt64) : Autosave := { a with work := some delay }

def dequeue (a : Autosave) : Autosave := { a with work := none }

/-- Where the worker is: in the queue at most, at its beginning, or in `param_save_default` with
some attempts left. -/
inductive Worker
  | idle
  | started
  | saving (attempts : ℕ)
  deriving DecidableEq

/-- What is found when the parameters are to be saved: the file, if it can be opened, or for flash
memory how many entries there is room for, and whether they can be written. -/
structure Attempt where
  file : Option File
  room : ℕ
  written : Bool

end Autosave

/-- `flash_param_save`, whose loop marks the entries as well. -/
def Store.flashParamSave (s : Store F) (room : ℕ) (written : Bool) : Store F × Bool :=
  match s.changed.values with
  | none => (s, written)
  | some bs =>
    ({ s with changed.values := some ((bs.take (room + 1)).map
      (fun b => { b with unsaved := false }) ++ bs.drop (room + 1)) }, bs.length ≤ room && written)

/-- One attempt of `param_save_default`; without a file the parameters are saved to flash. -/
def Store.saveAttempt [Doubles F] (t : Table F) (flash : Bool) (s : Store F)
    (a : Autosave.Attempt) : Store F × Bool :=
  if flash then s.flashParamSave a.room a.written
  else
    match a.file with
    | none => (s, false)
    | some f =>
      match s.paramExport t f false none with
      | (s, _, ok) => (s, ok)

namespace Autosave

structure System (F : Type) where
  store : Store F
  worker : Worker

def System.init (F : Type) : System F := ⟨Store.init F, .idle⟩

/-- What can happen: an operation on the parameters, `param_control_autosave`, an attempt of a
program to save; and the steps of the worker, which is called by the queue, proceeds to the lock
unless the vehicle is armed, and attempts to save. -/
inductive Event (F : Type)
  | op (op : Op F)
  | control (enable : Bool)
  | save (a : Attempt)
  | start
  | proceed (armed : Bool) (now : UInt64)
  | attempt (a : Attempt)

section Step

variable [Doubles F] (t : Table F) (flash : Bool)

/-- The worker at its beginning.  Saving to flash is put off for a second while armed. -/
def System.proceed (x : System F) (armed : Bool) (now : UInt64) : System F :=
  if flash && armed then ⟨{ x.store with autosave := x.store.autosave.enqueue 1000000 }, .idle⟩
  else
    ⟨{ x.store with autosave := x.store.autosave.take now },
      if x.store.autosave.disabled then .idle else .saving (if flash then 1 else 5)⟩

def System.attempt (x : System F) (left : ℕ) (a : Attempt) : System F :=
  match x.store.saveAttempt t flash a with
  | (s, ok) => ⟨s, if ok || left = 0 then .idle else .saving left⟩

def System.step (x : System F) : Event F → System F
  | .op op => { x with store := x.store.step t op }
  | .control enable =>
    { x with store := { x.store with autosave := x.store.autosave.control enable } }
  | .save a => { x with store := (x.store.saveAttempt t flash a).1 }
  | .start =>
    if x.worker = .idle ∧ x.store.autosave.work.isSome then
      ⟨{ x.store with autosave := x.store.autosave.dequeue }, .started⟩
    else x
  | .proceed armed now => if x.worker = .started then x.proceed flash armed now else x
  | .attempt a =>
    match x.worker with
    | .saving (left + 1) => x.attempt t flash left a
    | _ => x

/-! ### What becomes of a change -/

/-- A change waits for the worker, is taken by it, or is settled: it has been saved, or there is
nothing to wait for any more. -/
inductive Debt
  | waiting
  | taken
  | settled
  deriving DecidableEq

def Debt.take : Debt → Debt
  | waiting => taken
  | d => d

def Debt.giveUp : Debt → Debt
  | taken => settled
  | d => d

def Debt.attempt (d : Debt) (left : ℕ) (ok : Bool) : Debt :=
  if ok then settled else if left = 0 then d.giveUp else d

def Debt.step (x : System F) (d : Debt) : Event F → Debt
  | .op _ => d
  | .control enable => if enable then d else settled
  | .save a => if (x.store.saveAttempt t flash a).2 then settled else d
  | .start => d
  | .proceed armed _ => if x.worker = .started ∧ (flash && armed) = false then d.take else d
  | .attempt a =>
    match x.worker with
    | .saving (left + 1) => d.attempt left (x.store.saveAttempt t flash a).2
    | _ => d

/-- The system, and what has become of one change. -/
structure Watched (F : Type) where
  system : System F
  debt : Debt

def Watched.step (w : Watched F) (e : Event F) : Watched F :=
  ⟨w.system.step t flash e, w.debt.step t flash w.system e⟩

end Step

/-! ### What the operations do to the variables -/

section Operations

theorem disabled_autosave (a : Autosave) (now : UInt64) :
    (a.autosave now).disabled = a.disabled := by
  unfold Autosave.autosave
  split
  · rfl
  · rfl

theorem scheduled_autosave {a : Autosave} (ha : a.disabled = false) (now : UInt64) :
    (a.autosave now).scheduled = true := by
  unfold Autosave.autosave
  split
  · next h => simpa [ha] using h
  · rfl

theorem autosave_autosave (a : Autosave) (now : UInt64) :
    (a.autosave now).autosave now = a.autosave now := by
  have hagain : ((a.autosave now).scheduled || (a.autosave now).disabled) = true := by
    cases hd : a.disabled with
    | true => rw [disabled_autosave, hd, Bool.or_true]
    | false => rw [scheduled_autosave hd, Bool.true_or]
  generalize a.autosave now = a' at hagain ⊢
  exact if_pos hagain

end Operations

end Autosave

section Change

variable {t : Table F} {s : Store F}

theorem autosave_resetInternal (s : Store F) (now : UInt64) (p : Handle) :
    (s.resetInternal t now p).1.autosave = s.autosave.autosave now := by
  unfold Store.resetInternal
  dsimp only
  split
  · rfl
  · rfl

def Table.hasName (t : Table F) (test : Name → Bool) : Bool :=
  (List.range t.paramInfoCount).any fun p => (t.paramName p).any test

theorem autosave_resetWhere (s : Store F) (now : UInt64) (test : Name → Bool) :
    (s.resetWhere t now test).autosave =
      if t.hasName test then s.autosave.autosave now else s.autosave := by
  unfold Store.resetWhere Table.hasName
  induction List.range t.paramInfoCount generalizing s with
  | nil => rfl
  | cons p ps ih =>
    rw [List.foldl_cons, ih, List.any_cons]
    cases hp : (t.paramName p).any test with
    | true =>
      rw [if_pos rfl, autosave_resetInternal, Autosave.autosave_autosave, Bool.true_or, if_pos rfl,
        ite_self]
    | false => rfl

variable [Doubles F]

theorem autosave_setDefaultValue (s : Store F) (p : Handle) (val : Option (Word F)) :
    (s.setDefaultValue t p val).1.autosave = s.autosave := by
  unfold Store.setDefaultValue
  split
  · rfl
  · rfl
  · dsimp only
    split
    · rfl
    · split
      · rfl
      · rfl

def Op.changes (t : Table F) : Op F → Bool
  | set _ p val => (t.paramType p).isSome && val.isSome
  | setDefaultValue _ _ => false
  | reset _ _ => true
  | resetAll _ => true
  | resetExcludes _ excludes => t.hasName fun name => ! Store.matchesAny excludes name
  | resetSpecific _ resets => t.hasName (Store.matchesAny resets)
  | find _ => false
  | get _ => false

theorem autosave_step (hs : Valid t s) (op : Op F) : ∃ now, (s.step t op).autosave =
    if op.changes t then s.autosave.autosave now else s.autosave := by
  cases op with
  | set now p val =>
    refine ⟨now, ?_⟩
    change (s.setInternal t now p val false).1.autosave =
      if ((t.paramType p).isSome && val.isSome) = true then s.autosave.autosave now else s.autosave
    cases htype : t.paramType p with
    | none =>
      rw [Store.setInternal_fail now false (.inl htype)]
      rfl
    | some type =>
      cases val with
      | none =>
        rw [Store.setInternal_fail now false (.inr rfl)]
        rfl
      | some w => exact (Store.setInternal_spec hs.changed htype now w false).2.2.2.2
  | setDefaultValue p val => exact ⟨0, autosave_setDefaultValue s p val⟩
  | reset now p => exact ⟨now, autosave_resetInternal s now p⟩
  | resetAll now => exact ⟨now, rfl⟩
  | resetExcludes now excludes => exact ⟨now, autosave_resetWhere s now _⟩
  | resetSpecific now resets => exact ⟨now, autosave_resetWhere s now _⟩
  | find name =>
    refine ⟨0, ?_⟩
    unfold Store.step Store.find Store.setUsed
    dsimp only
    split
    · split
      · rfl
      · rfl
    · rfl
  | get p => exact ⟨0, rfl⟩

omit [Doubles F] in
theorem marked_take (bs : List (WBuf F)) (n : ℕ) : List.Forall₂ Marked bs
    ((bs.take n).map (fun b => { b with unsaved := false }) ++ bs.drop n) := by
  have hboth : List.Forall₂ Marked (bs.take n ++ bs.drop n)
      ((bs.take n).map (fun b => { b with unsaved := false }) ++ bs.drop n) := by
    refine List.rel_append ?_ (List.forall₂_same.mpr fun b _ => .inl rfl)
    exact List.forall₂_map_right_iff.mpr (List.forall₂_same.mpr fun b _ => .inr rfl)
  rwa [List.take_append_drop] at hboth

/-- An attempt to save marks values, and leaves the variables of automatic saving alone. -/
theorem saveAttempt_spec (hs : Valid t s) (flash : Bool) (a : Autosave.Attempt) :
    Valid t (s.saveAttempt t flash a).1 ∧ (s.saveAttempt t flash a).1.autosave = s.autosave := by
  unfold Store.saveAttempt
  split
  · unfold Store.flashParamSave
    cases hv : s.changed.values with
    | none => exact ⟨hs, rfl⟩
    | some bs =>
      refine ⟨hs.of_marked rfl ?_ rfl, rfl⟩
      rw [hv]
      exact marked_take bs (a.room + 1)
  · cases a.file with
    | none => exact ⟨hs, rfl⟩
    | some f =>
      refine ⟨hs.paramExport f false none, ?_⟩
      change (s.paramExport t f false none).1.autosave = s.autosave
      rw [paramExport_store]

end Change

namespace Autosave

/-! ### The invariant -/

/-- The worker is in the queue or has been called if the mark says so; a change that waits has set
the mark, and one that has been taken is about to be saved. -/
structure Consistent (a : Autosave) (worker : Worker) (d : Debt) : Prop where
  scheduled : a.scheduled = true → a.work.isSome = true ∨ worker = .started
  waiting : d = .waiting → a.scheduled = true ∧ a.disabled = false
  taken : d = .taken → (∃ left, worker = .saving (left + 1)) ∧ a.disabled = false

namespace Consistent

variable {a : Autosave} {worker : Worker} {d : Debt}

theorem settled (h : Consistent a worker d) : Consistent a worker .settled :=
  ⟨h.scheduled, fun hd => absurd hd (by simp), fun hd => absurd hd (by simp)⟩

theorem autosave (h : Consistent a worker d) (now : UInt64) :
    Consistent (a.autosave now) worker d := by
  unfold Autosave.autosave
  split
  · exact h
  · exact ⟨fun _ => .inl rfl, fun hd => ⟨rfl, (h.waiting hd).2⟩, h.taken⟩

theorem control (h : Consistent a worker d) (enable : Bool) :
    Consistent (a.control enable) worker (if enable then d else .settled) := by
  cases enable with
  | true => exact ⟨h.scheduled, fun hd => ⟨(h.waiting hd).1, rfl⟩, fun hd => ⟨(h.taken hd).1, rfl⟩⟩
  | false =>
    refine ⟨fun hscheduled => ?_, fun hd => absurd hd (by simp), fun hd => absurd hd (by simp)⟩
    unfold Autosave.control at hscheduled ⊢
    cases ha : a.scheduled with
    | true => exact absurd hscheduled (by simp [ha])
    | false => exact absurd hscheduled (by simp [ha])

theorem start (h : Consistent a .idle d) : Consistent a.dequeue .started d := by
  refine ⟨fun _ => .inr rfl, h.waiting, fun hd => ?_⟩
  obtain ⟨⟨left, hleft⟩, -⟩ := h.taken hd
  exact absurd hleft (by simp)

theorem requeue (h : Consistent a .started d) (delay : UInt64) :
    Consistent (a.enqueue delay) .idle d := by
  refine ⟨fun _ => .inl rfl, h.waiting, fun hd => ?_⟩
  obtain ⟨⟨left, hleft⟩, -⟩ := h.taken hd
  exact absurd hleft (by simp)

theorem take (h : Consistent a .started d) (now : UInt64) (left : ℕ) :
    Consistent (a.take now) (if a.disabled then .idle else .saving (left + 1)) d.take := by
  refine ⟨fun hscheduled => absurd hscheduled (by simp [Autosave.take]), fun hd => ?_, fun hd => ?_⟩
  · cases d <;> exact absurd hd (by simp [Debt.take])
  · cases hdebt : d with
    | waiting =>
      obtain ⟨-, henabled⟩ := h.waiting hdebt
      rw [henabled]
      exact ⟨⟨left, rfl⟩, henabled⟩
    | taken =>
      obtain ⟨⟨left', hleft⟩, -⟩ := h.taken hdebt
      exact absurd hleft (by simp)
    | settled =>
      rw [hdebt] at hd
      exact absurd hd (by simp [Debt.take])

theorem attempt {left : ℕ} (h : Consistent a (.saving (left + 1)) d) (ok : Bool) :
    Consistent a (if ok || left = 0 then .idle else .saving left) (d.attempt left ok) := by
  have hscheduled : a.scheduled = true → a.work.isSome = true :=
    fun ha => (h.scheduled ha).resolve_right (by simp)
  unfold Debt.attempt
  cases ok with
  | true =>
    exact ⟨fun ha => .inl (hscheduled ha), fun hd => absurd hd (by simp),
      fun hd => absurd hd (by simp)⟩
  | false =>
    by_cases hleft : left = 0
    · simp only [hleft, decide_true, Bool.or_true, if_true, Bool.false_eq_true, if_false]
      refine ⟨fun ha => .inl (hscheduled ha), fun hd => h.waiting ?_, fun hd => ?_⟩
      · cases d with
        | waiting => rfl
        | taken => exact absurd hd (by simp [Debt.giveUp])
        | settled => exact absurd hd (by simp [Debt.giveUp])
      · cases d <;> exact absurd hd (by simp [Debt.giveUp])
    · simp only [hleft, decide_false, Bool.or_false, Bool.false_eq_true, if_false]
      obtain ⟨left', rfl⟩ := Nat.exists_eq_succ_of_ne_zero hleft
      exact ⟨fun ha => .inl (hscheduled ha), h.waiting, fun hd => ⟨⟨left', rfl⟩, (h.taken hd).2⟩⟩

end Consistent

section Invariant

variable [Doubles F] {t : Table F}

structure Inv (t : Table F) (w : Watched F) : Prop where
  valid : Valid t w.system.store
  consistent : Consistent w.system.store.autosave w.system.worker w.debt

theorem Inv.step {w : Watched F} (h : Inv t w) (flash : Bool) (e : Event F) :
    Inv t (w.step t flash e) := by
  obtain ⟨⟨s, worker⟩, d⟩ := w
  obtain ⟨hs, hc⟩ := h
  dsimp only at hs hc
  cases e with
  | op op =>
    refine ⟨hs.step op, ?_⟩
    obtain ⟨now, hstep⟩ := autosave_step hs op
    change Consistent (s.step t op).autosave worker d
    rw [hstep]
    split
    · exact hc.autosave now
    · exact hc
  | control enable => exact ⟨⟨hs.changed, hs.custom, hs.typed⟩, hc.control enable⟩
  | save a =>
    obtain ⟨hs', hsame⟩ := saveAttempt_spec hs flash a
    refine ⟨hs', ?_⟩
    change Consistent (s.saveAttempt t flash a).1.autosave worker
      (if (s.saveAttempt t flash a).2 then .settled else d)
    rw [hsame]
    split
    · exact hc.settled
    · exact hc
  | start =>
    unfold Watched.step System.step Debt.step
    dsimp only
    split
    · next hstart =>
      obtain rfl := hstart.1
      exact ⟨⟨hs.changed, hs.custom, hs.typed⟩, hc.start⟩
    · exact ⟨hs, hc⟩
  | proceed armed now =>
    unfold Watched.step System.step Debt.step System.proceed
    dsimp only
    by_cases hworker : worker = .started
    · subst hworker
      rw [if_pos rfl]
      cases hwait : flash && armed with
      | true =>
        rw [if_pos rfl, if_neg (by simp)]
        exact ⟨⟨hs.changed, hs.custom, hs.typed⟩, hc.requeue 1000000⟩
      | false =>
        rw [if_neg (by simp), if_pos (c := Worker.started = .started ∧ _) ⟨rfl, rfl⟩]
        refine ⟨⟨hs.changed, hs.custom, hs.typed⟩, ?_⟩
        cases flash with
        | true => exact hc.take now 0
        | false => exact hc.take now 4
    · rw [if_neg hworker, if_neg fun h => hworker h.1]
      exact ⟨hs, hc⟩
  | attempt a =>
    obtain ⟨hs', hsame⟩ := saveAttempt_spec hs flash a
    unfold Watched.step System.step Debt.step System.attempt
    dsimp only
    cases worker with
    | idle => exact ⟨hs, hc⟩
    | started => exact ⟨hs, hc⟩
    | saving attempts =>
      cases attempts with
      | zero => exact ⟨hs, hc⟩
      | succ left =>
        refine ⟨hs', ?_⟩
        change Consistent (s.saveAttempt t flash a).1.autosave _ _
        rw [hsame]
        exact hc.attempt (s.saveAttempt t flash a).2

end Invariant

/-! ### Whole runs -/

section Runs

variable [Doubles F] {t : Table F} (flash : Bool)

def after (t : Table F) (flash : Bool) (es : List (Event F)) : System F :=
  Trace.run (System.step t flash) (System.init F) es

omit [Doubles F] in
theorem inv_init (t : Table F) : Inv t ⟨System.init F, .settled⟩ :=
  ⟨valid_init t, ⟨fun h => absurd h (by simp [System.init, Store.init]),
    fun h => absurd h (by simp), fun h => absurd h (by simp)⟩⟩

theorem Inv.run {w : Watched F} (h : Inv t w) (es : List (Event F)) :
    Inv t (Trace.run (Watched.step t flash) w es) :=
  Trace.run_of_invariant (C := fun _ _ => True) (fun _ e h _ => h.step flash e) h
    (Trace.always_true _ es)

theorem system_run (w : Watched F) (es : List (Event F)) :
    (Trace.run (Watched.step t flash) w es).system = Trace.run (System.step t flash) w.system es :=
  Trace.run_simulation (R := fun (w : Watched F) x => w.system = x)
    (fun w x e h => congrArg (System.step t flash · e) (h : w.system = x)) rfl es

theorem valid_consistent_after (t : Table F) (flash : Bool) (es : List (Event F)) :
    Valid t (after t flash es).store ∧
      Consistent (after t flash es).store.autosave (after t flash es).worker .settled := by
  obtain ⟨hvalid, hconsistent⟩ := (inv_init t).run flash es
  rw [system_run] at hvalid hconsistent
  exact ⟨hvalid, hconsistent.settled⟩

/-- For every run, every change in it while automatic saving is enabled, and whatever happens
then: as long as the change waits, the worker is scheduled, and is in the queue or has just been
called; when the worker has taken it, the worker is saving.  A change that is made while the worker
is saving waits for the next time, whatever comes of this one. -/
theorem autosave_pending (es : List (Event F)) (op : Op F) (hop : op.changes t = true)
    (henabled : (after t flash es).store.autosave.disabled = false) (es' : List (Event F)) :
    let w := Trace.run (Watched.step t flash)
      ⟨(after t flash es).step t flash (.op op), .waiting⟩ es'
    (w.debt = .waiting → w.system.store.autosave.scheduled = true ∧
      (w.system.store.autosave.work.isSome = true ∨ w.system.worker = .started)) ∧
    (w.debt = .taken → ∃ left, w.system.worker = .saving (left + 1)) := by
  obtain ⟨hvalid, hconsistent⟩ := valid_consistent_after t flash es
  obtain ⟨now, hstep⟩ := autosave_step hvalid op
  rw [if_pos hop] at hstep
  have hinv : Inv t ⟨(after t flash es).step t flash (.op op), .waiting⟩ := by
    refine ⟨hvalid.step op, ?_⟩
    change Consistent ((after t flash es).store.step t op).autosave _ _
    rw [hstep]
    refine ⟨(hconsistent.autosave now).scheduled, fun _ => ?_, fun hd => absurd hd (by simp)⟩
    exact ⟨scheduled_autosave henabled now, (disabled_autosave _ now).trans henabled⟩
  obtain ⟨-, hw⟩ := hinv.run flash es'
  refine ⟨fun hd => ?_, fun hd => (hw.taken hd).1⟩
  obtain ⟨hscheduled, -⟩ := hw.waiting hd
  exact ⟨hscheduled, hw.scheduled hscheduled⟩

end Runs

end Autosave

namespace Sample

open Autosave

def setEvent : Op Sample := .set 0 1 (some (.ofFloat one))

def noFile : Attempt := ⟨none, 0, false⟩

/-- A change while the worker saves is covered though that save fails. -/
theorem second_change_waits :
    (after table false [.op setEvent, .start, .proceed false 0]).worker = .saving 5 ∧
    let w := Trace.run (Watched.step table false)
      ⟨(after table false [.op setEvent, .start, .proceed false 0]).step table false
        (.op setEvent), .waiting⟩ (List.replicate 5 (.attempt noFile))
    w.system.worker = .idle ∧ w.system.store.autosave.scheduled = true := by
  have hpending := autosave_pending (t := table) false
    [.op setEvent, .start, .proceed false 0] setEvent (by decide +kernel) (by decide +kernel)
    (List.replicate 5 (.attempt noFile))
  exact ⟨by decide +kernel, by decide +kernel, (hpending.1 (by decide +kernel)).1⟩

/-- The worker has nothing to do though it is enabled and a change has not been saved. -/
def forgotten (x : System Sample) : Bool :=
  x.store.autosave.disabled = false && x.store.valueUnsaved 1 && x.worker = .idle &&
    x.store.autosave.scheduled = false && x.store.autosave.work = none

/-- After a change, automatic saving is disabled and enabled, or the save of the worker fails. -/
theorem change_not_scheduled :
    forgotten (after table false [.op setEvent, .control false, .control true]) = true ∧
    forgotten (after table false ([.op setEvent, .start, .proceed false 0] ++
      List.replicate 5 (.attempt noFile))) = true := by
  decide +kernel

end Sample

end Param
