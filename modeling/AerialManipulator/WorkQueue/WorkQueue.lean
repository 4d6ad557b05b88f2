/-
The work queue.

Any number of threads add work items, and one worker runs them.  An item is pushed under the lock,
and after that the worker is woken up with a semaphore, unless its value is positive already.  The
worker waits for the semaphore, and then takes items until the queue is empty; the lock is free
while an item runs, and the item may add items itself.

* `Inv` — every queued item is owed by the worker, or its thread has still to signal; and if one is
  owed, the semaphore is positive or the worker is awake;
* `Inv.push`, `Inv.complete`, `Inv.semPost`, `Inv.drop`, `Inv.test`, `Inv.step` — the steps keep it;
* **`no_lost_wakeup`** — no run loses an item.
-/
import AerialManipulator.WorkQueue.IntrusiveQueue
import AerialManipulator.Lib.Trace
import Mathlib.Data.Int.Order.Basic

namespace WorkQueue

/-- Where a thread is in `Add`. -/
inductive AddPc (ι : Type*)
  | idle
  /-- the item has been pushed -/
  | pushed (item : ι)
  /-- the value of the semaphore was not positive -/
  | posting (item : ι)

/-- Where the worker is in `Run`. -/
inductive Worker (ι : Type*)
  /-- before `px4_sem_wait` -/
  | loop
  /-- in `px4_sem_wait`, with a value below zero -/
  | blocked
  /-- before the next test of the queue -/
  | awake
  | running (item : ι)

/-- The work queue and its threads; the worker itself adds items as the thread `none`.  `due` are
the items that were pushed and not run, removed or cleared since, `owed` those of them for which
`Add` has returned. -/
structure State (τ ι : Type*) where
  q : IntrusiveQueue ι
  process_lock : ℤ
  worker : Worker ι
  pc : Option τ → AddPc ι
  due : ι → Bool
  owed : ι → Bool

inductive Event (τ ι : Type*)
  | push (thread : Option τ) (item : ι)
  /-- `px4_sem_getvalue` -/
  | getvalue (thread : Option τ)
  /-- `px4_sem_post` -/
  | post (thread : Option τ)
  | remove (item : ι)
  | clear
  /-- `px4_sem_wait` -/
  | wait
  /-- "the wait may be interrupted by a signal" -/
  | interrupt
  /-- the test of the queue, and `pop` -/
  | test
  /-- `Run` of the item returns -/
  | finish

def Worker.isAwake {ι : Type*} : Worker ι → Bool
  | .awake | .running _ => true
  | .loop | .blocked => false

def AddPc.item? {ι : Type*} : AddPc ι → Option ι
  | .idle => none
  | .pushed item | .posting item => some item

variable {τ ι : Type*}

def init (τ ι : Type*) : State τ ι :=
  ⟨.init ι, 0, .loop, fun _ => .idle, fun _ => false, fun _ => false⟩

variable [DecidableEq τ] [DecidableEq ι]

/-- `Add` returns. -/
def State.complete (s : State τ ι) (t : Option τ) (x : ι) : State τ ι :=
  { s with
    pc := Function.update s.pc t .idle
    owed := Function.update s.owed x (s.due x) }

def State.drop (s : State τ ι) (q : IntrusiveQueue ι) (x : ι) : State τ ι :=
  { s with
    q := q
    due := Function.update s.due x false
    owed := Function.update s.owed x false }

/-- `px4_sem_post`: a worker that is blocked is woken up. -/
def State.semPost (s : State τ ι) : State τ ι :=
  { s with
    process_lock := s.process_lock + 1
    worker := match s.worker with
      | .blocked => if s.process_lock + 1 ≤ 0 then .awake else .blocked
      | w => w }

def State.mayAdd (s : State τ ι) : Option τ → Bool
  | some _ => true
  | none => match s.worker with
    | .running _ => true
    | _ => false

/-- A step; `fuel` bounds the loops over the queue. -/
def step (fuel : ℕ) (s : State τ ι) : Event τ ι → State τ ι
  | .push t x =>
    match s.pc t with
    | .idle =>
      if s.mayAdd t then
        { s with
          q := s.q.push x
          pc := Function.update s.pc t (.pushed x)
          due := Function.update s.due x true }
      else s
    | _ => s
  | .getvalue t =>
    match s.pc t with
    | .pushed x =>
      if s.process_lock ≤ 0 then { s with pc := Function.update s.pc t (.posting x) }
      else s.complete t x
    | _ => s
  | .post t =>
    match s.pc t with
    | .posting x => s.semPost.complete t x
    | _ => s
  | .remove x =>
    match s.q.remove fuel x with
    | some (q, _) => s.drop q x
    | none => s
  | .clear =>
    match s.q.clear fuel with
    | some q => { s with q := q, due := fun _ => false, owed := fun _ => false }
    | none => s
  | .wait =>
    match s.worker with
    | .loop =>
      { s with
        process_lock := s.process_lock - 1
        worker := if s.process_lock - 1 < 0 then .blocked else .awake }
    | _ => s
  | .interrupt =>
    match s.worker with
    | .blocked => { s with process_lock := s.process_lock + 1, worker := .loop }
    | _ => s
  | .test =>
    match s.worker with
    | .awake =>
      if s.q.isEmpty then { s with worker := .loop }
      else
        match s.q.pop with
        | (q, some x) => { s.drop q x with worker := .running x }
        | (_, none) => s
    | _ => s
  | .finish =>
    match s.worker, s.pc none with
    | .running _, .idle => { s with worker := .awake }
    | _, _ => s

/-- The invariant, for the items that are in the queue. -/
structure Inv (s : State τ ι) (l : List ι) : Prop where
  represents : s.q.Represents l
  blocked : s.worker = .blocked → s.process_lock = -1
  nonneg : s.worker ≠ .blocked → 0 ≤ s.process_lock
  due : ∀ x, s.due x = true ↔ x ∈ l
  owed : ∀ x, s.owed x = true → x ∈ l
  covered : ∀ x ∈ l, s.owed x = true ∨ ∃ t, (s.pc t).item? = some x
  safe : ∀ x, s.owed x = true → 0 < s.process_lock ∨ s.worker.isAwake = true

variable {s : State τ ι} {l : List ι} {t : Option τ} {x : ι}

theorem owed_complete : (s.complete t x).owed = Function.update s.owed x (s.due x) := rfl

omit [DecidableEq τ] in
theorem owed_drop {q : IntrusiveQueue ι} : (s.drop q x).owed = Function.update s.owed x false := rfl

omit [DecidableEq τ] in
theorem due_drop {q : IntrusiveQueue ι} : (s.drop q x).due = Function.update s.due x false := rfl

omit [DecidableEq τ] [DecidableEq ι] in
theorem inv_init : Inv (init τ ι) [] := by
  refine ⟨IntrusiveQueue.represents_init, fun h => ?_, fun _ => le_rfl,
    fun x => ?_, fun x hx => ?_, fun x hx => ?_, fun x hx => ?_⟩
  · cases (show (Worker.loop : Worker ι) = .blocked from h)
  · exact iff_of_false Bool.false_ne_true List.not_mem_nil
  · exact nomatch hx
  · exact nomatch hx
  · exact nomatch hx

theorem Inv.push (h : Inv s l) (hpc : s.pc t = .idle) (x : ι) :
    Inv { s with
      q := s.q.push x
      pc := Function.update s.pc t (.pushed x)
      due := Function.update s.due x true } (if x ∈ l then l else l ++ [x]) := by
  have hmem : ∀ y, y ∈ (if x ∈ l then l else l ++ [x]) ↔ y = x ∨ y ∈ l := by
    intro y
    split
    · next hx => exact ⟨.inr, fun hy => hy.elim (fun heq => heq ▸ hx) id⟩
    · rw [List.mem_append, List.mem_singleton, or_comm]
  refine ⟨h.represents.push x, h.blocked, h.nonneg, fun y => ?_, fun y hy => ?_, fun y hy => ?_,
    h.safe⟩
  · rw [hmem]
    by_cases hyx : y = x
    · rw [hyx]
      exact iff_of_true (Function.update_self x _ _) (.inl rfl)
    · dsimp only
      rw [Function.update_of_ne hyx, h.due, or_iff_right hyx]
  · exact (hmem y).mpr (.inr (h.owed y hy))
  · dsimp only
    rcases (hmem y).mp hy with rfl | hy
    · refine .inr ⟨t, ?_⟩
      rw [Function.update_self]
      rfl
    · rcases h.covered y hy with howed | ⟨t', ht'⟩
      · exact .inl howed
      · have hne : t' ≠ t := by
          rintro rfl
          rw [hpc] at ht'
          exact Option.some_ne_none y ht'.symm
        refine .inr ⟨t', ?_⟩
        rw [Function.update_of_ne hne]
        exact ht'

omit [DecidableEq ι] in
theorem Inv.posting (h : Inv s l) (hpc : s.pc t = .pushed x) :
    Inv { s with pc := Function.update s.pc t (.posting x) } l := by
  refine ⟨h.represents, h.blocked, h.nonneg, h.due, h.owed, fun y hy => ?_, h.safe⟩
  rcases h.covered y hy with howed | ⟨t', ht'⟩
  · exact .inl howed
  · refine .inr ⟨t', ?_⟩
    dsimp only
    by_cases hne : t' = t
    · rw [hne, hpc] at ht'
      rw [hne, Function.update_self]
      exact ht'
    · rw [Function.update_of_ne hne]
      exact ht'

theorem Inv.complete (h : Inv s l) (hpc : (s.pc t).item? = some x)
    (hsafe : 0 < s.process_lock ∨ s.worker.isAwake = true) : Inv (s.complete t x) l := by
  refine ⟨h.represents, h.blocked, h.nonneg, h.due, fun y hy => ?_, fun y hy => ?_,
    fun _ _ => hsafe⟩
  · by_cases hyx : y = x
    · rw [hyx, owed_complete, Function.update_self] at hy
      rw [hyx]
      exact (h.due x).mp hy
    · rw [owed_complete, Function.update_of_ne hyx] at hy
      exact h.owed y hy
  · by_cases hyx : y = x
    · left
      rw [hyx] at hy ⊢
      rw [owed_complete, Function.update_self]
      exact (h.due x).mpr hy
    · rw [owed_complete, Function.update_of_ne hyx]
      rcases h.covered y hy with howed | ⟨t', ht'⟩
      · exact .inl howed
      · have hne : t' ≠ t := by
          rintro rfl
          exact hyx (Option.some.inj (ht'.symm.trans hpc))
        refine .inr ⟨t', ?_⟩
        rw [State.complete]
        dsimp only
        rw [Function.update_of_ne hne]
        exact ht'

omit [DecidableEq τ] [DecidableEq ι] in
theorem Inv.semPost (h : Inv s l) : Inv s.semPost l ∧
    (0 < s.semPost.process_lock ∨ s.semPost.worker.isAwake = true) := by
  unfold State.semPost
  cases hw : s.worker with
  | blocked =>
    have hlock := h.blocked hw
    dsimp only
    rw [hlock, if_pos (by decide)]
    refine ⟨⟨h.represents, fun hb => ?_, fun _ => le_rfl, h.due, h.owed, h.covered,
      fun _ _ => .inr rfl⟩, .inr rfl⟩
    cases hb
  | loop | awake | running =>
    have hlock : 0 ≤ s.process_lock := h.nonneg (by rw [hw]; exact fun hb => by cases hb)
    have hpos : 0 < s.process_lock + 1 := by omega
    refine ⟨⟨h.represents, fun hb => ?_, fun _ => le_of_lt hpos, h.due, h.owed, h.covered,
      fun _ _ => .inl hpos⟩, .inl hpos⟩
    cases hb

omit [DecidableEq τ] in
theorem Inv.drop {q : IntrusiveQueue ι} (h : Inv s l) (hq : q.Represents (l.erase x)) :
    Inv (s.drop q x) (l.erase x) := by
  have hmem : ∀ y, y ∈ l.erase x ↔ y ≠ x ∧ y ∈ l := fun y => h.represents.nodup.mem_erase_iff
  have howed : ∀ y, (s.drop q x).owed y = true → y ≠ x ∧ s.owed y = true := by
    intro y hy
    by_cases hyx : y = x
    · rw [hyx, owed_drop, Function.update_self] at hy
      exact nomatch hy
    · rw [owed_drop, Function.update_of_ne hyx] at hy
      exact ⟨hyx, hy⟩
  refine ⟨hq, h.blocked, h.nonneg, fun y => ?_, fun y hy => ?_, fun y hy => ?_, fun y hy => ?_⟩
  · rw [hmem]
    by_cases hyx : y = x
    · rw [hyx, due_drop, Function.update_self]
      exact iff_of_false Bool.false_ne_true (fun hx => hx.1 rfl)
    · rw [due_drop, Function.update_of_ne hyx, h.due, and_iff_right hyx]
  · exact (hmem y).mpr ⟨(howed y hy).1, h.owed y (howed y hy).2⟩
  · obtain ⟨hyx, hy⟩ := (hmem y).mp hy
    rcases h.covered y hy with hyes | hpending
    · left
      rw [owed_drop, Function.update_of_ne hyx]
      exact hyes
    · exact .inr hpending
  · exact h.safe y (howed y hy).2

omit [DecidableEq τ] [DecidableEq ι] in
theorem Inv.clear {q : IntrusiveQueue ι} (h : Inv s l) (hq : q.Represents []) :
    Inv { s with q := q, due := fun _ => false, owed := fun _ => false } [] := by
  refine ⟨hq, h.blocked, h.nonneg, fun x => ?_, fun x hx => ?_, fun x hx => ?_, fun x hx => ?_⟩
  · exact iff_of_false Bool.false_ne_true List.not_mem_nil
  · exact nomatch hx
  · exact nomatch hx
  · exact nomatch hx

omit [DecidableEq τ] [DecidableEq ι] in
theorem Inv.worker {w : Worker ι} {n : ℤ} (h : Inv s l) (hblocked : w = .blocked → n = -1)
    (hnonneg : w ≠ .blocked → 0 ≤ n)
    (hsafe : ∀ x, s.owed x = true → 0 < n ∨ w.isAwake = true) :
    Inv { s with process_lock := n, worker := w } l :=
  ⟨h.represents, hblocked, hnonneg, h.due, h.owed, h.covered, hsafe⟩

omit [DecidableEq τ] [DecidableEq ι] in
theorem Inv.owed_of_blocked (h : Inv s l) (hw : s.worker = .blocked) (x : ι) :
    s.owed x = false := by
  rw [← Bool.not_eq_true]
  intro hx
  rcases h.safe x hx with hpos | hawake
  · rw [h.blocked hw] at hpos
    exact nomatch hpos
  · rw [hw] at hawake
    exact nomatch hawake

theorem Inv.test (h : Inv s l) (fuel : ℕ) :
    ∃ l', Inv (step fuel s .test) l' ∧ l'.length ≤ l.length := by
  cases hw : s.worker with
  | awake =>
    have hlock : 0 ≤ s.process_lock := h.nonneg (by rw [hw]; exact fun hb => by cases hb)
    simp only [step, hw]
    cases l with
    | nil =>
      rw [if_pos (h.represents.isEmpty_iff.mpr rfl)]
      refine ⟨[], h.worker (fun hb => ?_) (fun _ => hlock) (fun x hx => ?_), Nat.le_refl _⟩
      · cases hb
      · exact absurd (h.owed x hx) List.not_mem_nil
    | cons x l =>
      obtain ⟨hq, hx⟩ := h.represents.pop
      rw [if_neg (fun hempty => List.cons_ne_nil x l (h.represents.isEmpty_iff.mp hempty))]
      rcases hpop : s.q.pop with ⟨q, r⟩
      rw [hpop] at hq hx
      obtain rfl : r = some x := hx
      have hdrop := h.drop (by rwa [List.erase_cons_head] : q.Represents ((x :: l).erase x))
      rw [List.erase_cons_head] at hdrop
      refine ⟨l, hdrop.worker (fun hb => ?_) (fun _ => hlock) (fun _ _ => .inr rfl), Nat.le_succ _⟩
      cases hb
  | loop | blocked | running =>
    simp only [step, hw]
    exact ⟨l, h, Nat.le_refl _⟩

theorem Inv.step {fuel : ℕ} (h : Inv s l) (hfuel : l.length ≤ fuel) (e : Event τ ι) :
    ∃ l', Inv (step fuel s e) l' ∧ l'.length ≤ l.length + 1 := by
  have hstay : ∃ l', Inv s l' ∧ l'.length ≤ l.length + 1 := ⟨l, h, Nat.le_succ _⟩
  cases e with
  | push t x =>
    simp only [WorkQueue.step]
    split
    · next hpc =>
      split
      · refine ⟨_, h.push hpc x, ?_⟩
        split
        · exact Nat.le_succ _
        · exact Nat.le_of_eq (List.length_append ..)
      · exact hstay
    · exact hstay
  | getvalue t =>
    simp only [WorkQueue.step]
    split
    · next x hpc =>
      split
      · exact ⟨l, h.posting hpc, Nat.le_succ _⟩
      · next hpos =>
        exact ⟨l, h.complete (by rw [hpc]; rfl) (.inl (not_le.mp hpos)), Nat.le_succ _⟩
    · exact hstay
  | post t =>
    simp only [WorkQueue.step]
    split
    · next x hpc =>
      obtain ⟨hpost, hsafe⟩ := h.semPost
      have hitem : (s.semPost.pc t).item? = some x := by
        rw [show s.semPost.pc t = s.pc t from rfl, hpc]
        rfl
      exact ⟨l, hpost.complete hitem hsafe, Nat.le_succ _⟩
    · exact hstay
  | remove x =>
    obtain ⟨q, hremove, hq⟩ := h.represents.remove hfuel x
    simp only [WorkQueue.step, hremove]
    have hlen : (l.erase x).length ≤ l.length := List.erase_sublist.length_le
    exact ⟨_, h.drop hq, Nat.le_succ_of_le hlen⟩
  | clear =>
    obtain ⟨q, hclear, hq⟩ := h.represents.clear hfuel
    simp only [WorkQueue.step, hclear]
    exact ⟨[], h.clear hq, Nat.zero_le _⟩
  | wait =>
    simp only [WorkQueue.step]
    split
    · next hw =>
      have hlock : 0 ≤ s.process_lock := h.nonneg (by rw [hw]; exact fun hb => by cases hb)
      -- nothing is owed if the value was zero, since the worker was not awake
      have hpos : ∀ x, s.owed x = true → 0 < s.process_lock := by
        intro x hx
        refine (h.safe x hx).resolve_right fun hawake => ?_
        rw [hw] at hawake
        exact nomatch hawake
      refine ⟨l, h.worker (fun hb => ?_) (fun hb => ?_) (fun x hx => ?_), Nat.le_succ _⟩
      · split at hb
        · omega
        · cases hb
      · split at hb
        · exact absurd rfl hb
        · omega
      · right
        rw [if_neg (by have := hpos x hx; omega)]
        rfl
    · exact hstay
  | interrupt =>
    simp only [WorkQueue.step]
    split
    · next hw =>
      refine ⟨l, h.worker (fun hb => ?_) (fun _ => ?_) (fun x hx => ?_), Nat.le_succ _⟩
      · cases hb
      · rw [h.blocked hw]
        decide
      · rw [h.owed_of_blocked hw x] at hx
        exact nomatch hx
    · exact hstay
  | test =>
    obtain ⟨l', hl', hlen⟩ := h.test fuel
    exact ⟨l', hl', Nat.le_succ_of_le hlen⟩
  | finish =>
    simp only [WorkQueue.step]
    split
    · next hw _ =>
      have hlock : 0 ≤ s.process_lock := h.nonneg (by rw [hw]; exact fun hb => by cases hb)
      refine ⟨l, h.worker (fun hb => ?_) (fun _ => hlock) (fun _ _ => .inr rfl), Nat.le_succ _⟩
      cases hb
    · exact hstay

/-! ### Whole runs -/

theorem Inv.run {fuel : ℕ} (h : Inv s l) (es : List (Event τ ι))
    (hfuel : l.length + es.length ≤ fuel) :
    ∃ l', Inv (Trace.run (WorkQueue.step fuel) s es) l' ∧ l'.length ≤ l.length + es.length := by
  induction es generalizing s l with
  | nil => exact ⟨l, h, Nat.le_refl _⟩
  | cons e es ih =>
    rw [List.length_cons] at hfuel ⊢
    obtain ⟨l', hl', hlen⟩ := h.step (by omega : l.length ≤ fuel) e
    obtain ⟨l'', hl'', hlen'⟩ := ih hl' (by omega)
    exact ⟨l'', hl'', by omega⟩

/-- The item is taken to be run, removed or cleared. -/
def Settles (fuel : ℕ) (s : State τ ι) (e : Event τ ι) (x : ι) : Prop :=
  e = .remove x ∨ e = .clear ∨ (e = .test ∧ (step fuel s .test).worker = .running x)

omit [DecidableEq τ] in
theorem owed_drop_of_ne {q : IntrusiveQueue ι} {y : ι} (hne : x ≠ y) :
    (s.drop q y).owed x = s.owed x := by
  rw [owed_drop, Function.update_of_ne hne]

theorem Inv.owed_complete_of_owed {y : ι} (h : Inv s l) (hx : s.owed x = true) :
    (s.complete t y).owed x = true := by
  rw [owed_complete]
  by_cases hxy : x = y
  · rw [hxy, Function.update_self, ← hxy]
    exact (h.due x).mpr (h.owed x hx)
  · rw [Function.update_of_ne hxy]
    exact hx

theorem Inv.owed_step (h : Inv s l) (fuel : ℕ) (e : Event τ ι) (hx : s.owed x = true) :
    (WorkQueue.step fuel s e).owed x = true ∨ Settles fuel s e x := by
  cases e with
  | push t y =>
    left
    simp only [WorkQueue.step]
    split
    · split
      · exact hx
      · exact hx
    · exact hx
  | getvalue t =>
    left
    simp only [WorkQueue.step]
    split
    · split
      · exact hx
      · exact h.owed_complete_of_owed hx
    · exact hx
  | post t =>
    left
    simp only [WorkQueue.step]
    split
    · exact h.semPost.1.owed_complete_of_owed hx
    · exact hx
  | remove y =>
    by_cases hxy : x = y
    · exact .inr (.inl (by rw [hxy]))
    · left
      simp only [WorkQueue.step]
      split
      · rw [owed_drop_of_ne hxy]
        exact hx
      · exact hx
  | clear => exact .inr (.inr (.inl rfl))
  | wait | interrupt | finish =>
    left
    simp only [WorkQueue.step]
    split
    · exact hx
    · exact hx
  | test =>
    by_cases hrun : (WorkQueue.step fuel s .test).worker = .running x
    · exact .inr (.inr (.inr ⟨rfl, hrun⟩))
    · left
      revert hrun
      simp only [WorkQueue.step]
      split
      · split
        · exact fun _ => hx
        · split
          · next y _ =>
            intro hrun
            have hxy : x ≠ y := fun heq => hrun (by rw [heq])
            dsimp only
            rw [owed_drop_of_ne hxy]
            exact hx
          · exact fun _ => hx
      · exact fun _ => hx

theorem isAwake_step (fuel : ℕ) (e : Event τ ι) (hw : s.worker.isAwake = true) :
    (step fuel s e).worker.isAwake = true ∨ (e = .test ∧ s.q.isEmpty = true) := by
  cases e with
  | push t y | getvalue t =>
    left
    simp only [step]
    split
    · split
      · exact hw
      · exact hw
    · exact hw
  | post t =>
    left
    simp only [step]
    split
    · change s.semPost.worker.isAwake = true
      unfold State.semPost
      cases hworker : s.worker with
      | loop | blocked =>
        rw [hworker] at hw
        exact nomatch hw
      | awake | running => rfl
    · exact hw
  | remove | clear =>
    left
    simp only [step]
    split
    · exact hw
    · exact hw
  | wait | interrupt =>
    left
    simp only [step]
    split
    · next hworker =>
      rw [hworker] at hw
      exact nomatch hw
    · exact hw
  | test =>
    simp only [step]
    split
    · split
      · next hempty => exact .inr ⟨trivial, hempty⟩
      · split
        · exact .inl rfl
        · exact .inl hw
    · exact .inl hw
  | finish =>
    left
    simp only [step]
    split
    · rfl
    · exact hw

/-- The state of the queue between two steps. -/
structure Sound (fuel : ℕ) (s : State τ ι) : Prop where
  /-- each item occurs once -/
  queue : ∃ l : List ι, l.Nodup ∧ s.q.Represents l ∧ ∀ x, s.due x = true ↔ x ∈ l
  signalled : s.q.isEmpty = false → (∀ t, s.pc t = .idle) →
    0 < s.process_lock ∨ s.worker.isAwake = true
  tests : s.worker.isAwake = true → ∀ e : Event τ ι,
    (step fuel s e).worker.isAwake = true ∨ (e = .test ∧ s.q.isEmpty = true)
  blocked : s.worker = .blocked → ∀ x, s.owed x = false
  /-- the loops of `Remove` and `Clear` end -/
  ends : (∀ x, (s.q.remove fuel x).isSome = true) ∧ (s.q.clear fuel).isSome = true

theorem Inv.sound {fuel : ℕ} (h : Inv s l) (hfuel : l.length ≤ fuel) : Sound fuel s := by
  refine ⟨⟨l, h.represents.nodup, h.represents, h.due⟩, fun hne hidle => ?_,
    fun hw e => isAwake_step fuel e hw, h.owed_of_blocked, fun x => ?_, ?_⟩
  · cases l with
    | nil => exact absurd (h.represents.isEmpty_iff.mpr rfl) (by rw [hne]; exact Bool.false_ne_true)
    | cons x l =>
      rcases h.covered x List.mem_cons_self with howed | ⟨t, ht⟩
      · exact h.safe x howed
      · rw [hidle t] at ht
        exact nomatch ht
  · obtain ⟨q, hremove, -⟩ := h.represents.remove hfuel x
    rw [hremove]
    rfl
  · obtain ⟨q, hclear, -⟩ := h.represents.clear hfuel
    rw [hclear]
    rfl

theorem Inv.settled_of_blocked {fuel : ℕ} (h : Inv s l) (es : List (Event τ ι))
    (hfuel : l.length + es.length ≤ fuel) (hx : s.owed x = true)
    (hblocked : (Trace.run (WorkQueue.step fuel) s es).worker = .blocked) :
    ∃ pre e post, es = pre ++ e :: post ∧
      Settles fuel (Trace.run (WorkQueue.step fuel) s pre) e x := by
  induction es generalizing s l with
  | nil =>
    have := h.owed_of_blocked hblocked x
    rw [hx] at this
    exact nomatch this.symm
  | cons e es ih =>
    rw [List.length_cons] at hfuel
    obtain ⟨l', hl', hlen⟩ := h.step (by omega : l.length ≤ fuel) e
    rcases h.owed_step fuel e hx with howed | hsettles
    · obtain ⟨pre, e', post, rfl, hsettles⟩ := ih hl' (by omega) howed hblocked
      exact ⟨e :: pre, e', post, rfl, hsettles⟩
    · exact ⟨[], e, es, rfl, hsettles⟩

/-- No wake-up is lost: in every run of the threads and the worker, a queue that is not empty and
whose threads have signalled is going to be tested, each item occurs in it once, and an item that
was added is run before the worker is blocked, unless it is removed or cleared. -/
theorem no_lost_wakeup (es : List (Event τ ι)) (fuel : ℕ) (hfuel : es.length ≤ fuel) :
    Sound fuel (Trace.run (step fuel) (init τ ι) es) ∧
      ∀ es₁ es₂ x, es = es₁ ++ es₂ →
        (Trace.run (step fuel) (init τ ι) es₁).owed x = true →
        (Trace.run (step fuel) (init τ ι) es).worker = .blocked →
        ∃ pre e post, es₂ = pre ++ e :: post ∧
          Settles fuel (Trace.run (step fuel) (init τ ι) (es₁ ++ pre)) e x := by
  constructor
  · obtain ⟨l, hl, hlen⟩ := @Inv.run τ ι _ _ _ _ fuel inv_init es (by rw [List.length_nil]; omega)
    rw [List.length_nil] at hlen
    exact hl.sound (by omega)
  · rintro es₁ es₂ x rfl howed hblocked
    rw [List.length_append] at hfuel
    obtain ⟨l, hl, hlen⟩ := @Inv.run τ ι _ _ _ _ fuel inv_init es₁ (by rw [List.length_nil]; omega)
    rw [List.length_nil] at hlen
    rw [Trace.run_append] at hblocked
    simp only [Trace.run_append]
    exact hl.settled_of_blocked es₂ (by omega) howed hblocked

/-- An item is added, and adds itself again while it runs: the signal of the second time is left
over, and the worker is blocked once it has found the queue empty twice. -/
def requeue : List (Event Unit ℕ) :=
  [.push (some ()) 3, .getvalue (some ()), .post (some ()), .wait, .test, .push none 3,
    .getvalue none, .post none, .finish, .test, .finish, .test, .wait, .test, .wait]

theorem no_lost_wakeup_requeue :
    (Trace.run (step 15) (init Unit ℕ) requeue).worker = .blocked ∧
      Sound 15 (Trace.run (step 15) (init Unit ℕ) requeue) ∧
      ∃ pre e post, requeue.drop 3 = pre ++ e :: post ∧
        Settles 15 (Trace.run (step 15) (init Unit ℕ) (requeue.take 3 ++ pre)) e 3 := by
  have hblocked : (Trace.run (step 15) (init Unit ℕ) requeue).worker = .blocked := rfl
  obtain ⟨hsound, hsettled⟩ := no_lost_wakeup requeue 15 (by decide)
  exact ⟨hblocked, hsound, hsettled _ _ 3 (List.take_append_drop 3 requeue).symm rfl hblocked⟩

end WorkQueue
