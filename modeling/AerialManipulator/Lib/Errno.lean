/-
Where the value of `errno` comes from.

A program on a `Disk` is run from any value of `errno`.  `Does` says that what it returns, the calls
it makes and the file system it leaves do not depend on that value, and whether the program sets
`errno` itself; the rules follow the program.  `failures` are the errors of its calls, which are
found by making them again.

* `does_bind`, `does_perform`, `does_setErrno`, `does_logLine`, `does_get` — the rules;
* `Fault` — the calls end with one that fails;
* `Loud` — a call fails, and a line of the log changes `errno` after it.
-/
import AerialManipulator.Lib.FileSystem

namespace FileSystem

variable {φ α β : Type}

/-! ### The calls of a program -/

def failure : Except Errno α → Option Errno
  | .ok _ => none
  | .error e => some e

def Call.run (sys : Posix φ) (c : Call) (fs : φ) : φ × Option Errno :=
  match c with
  | .stat path => ((sys.stat path fs).1, failure (sys.stat path fs).2)
  | .openFile path flags => ((sys.openFile path flags fs).1, failure (sys.openFile path flags fs).2)
  | .close fd => ((sys.close fd fs).1, failure (sys.close fd fs).2)
  | .lseek fd offset => ((sys.lseek fd offset fs).1, failure (sys.lseek fd offset fs).2)
  | .read fd length => ((sys.read fd length fs).1, failure (sys.read fd length fs).2)
  | .write fd data => ((sys.write fd data fs).1, failure (sys.write fd data fs).2)
  | .unlink path => ((sys.unlink path fs).1, failure (sys.unlink path fs).2)
  | .mkdir path => ((sys.mkdir path fs).1, failure (sys.mkdir path fs).2)
  | .rmdir path => ((sys.rmdir path fs).1, failure (sys.rmdir path fs).2)
  | .rename path newPath => ((sys.rename path newPath fs).1, failure (sys.rename path newPath fs).2)
  | .truncate path length =>
    ((sys.truncate path length fs).1, failure (sys.truncate path length fs).2)
  | .readdir path => ((sys.readdir path fs).1, failure (sys.readdir path fs).2)
  | .logLine => (fs, none)

def replay (sys : Posix φ) (fs : φ) (cs : List Call) : φ :=
  cs.foldl (fun fs c => (c.run sys fs).1) fs

def failures (sys : Posix φ) : φ → List Call → List Errno
  | _, [] => []
  | fs, c :: cs => (c.run sys fs).2.toList ++ failures sys (c.run sys fs).1 cs

/-- A call that succeeds, but does not do all it is asked for: a write of fewer bytes, or a read at
the end of the file. -/
def Call.Short (sys : Posix φ) (c : Call) (fs : φ) : Prop :=
  match c with
  | .write fd data => ∃ n, (sys.write fd data fs).2 = .ok n ∧ n ≠ data.length
  | .read fd length => (sys.read fd length fs).2 = .ok []
  | _ => False

/-- One of the calls is short. -/
def Incomplete (sys : Posix φ) (fs : φ) (cs : List Call) : Prop :=
  ∃ before c after, cs = before ++ c :: after ∧ c.Short sys (replay sys fs before)

def Call.cleansUp : Call → Bool
  | .close _ | .logLine => true
  | _ => false

/-- The calls end with one that fails, after which files are only closed and lines of the log
written; `e` is its error, or that of closing a file. -/
def Fault (sys : Posix φ) (fs : φ) (cs : List Call) (e : Errno) : Prop :=
  ∃ before c after, cs = before ++ c :: after ∧ c.cleansUp = false ∧
    (c.run sys (replay sys fs before)).2.isSome ∧ (∀ d ∈ after, d.cleansUp) ∧
    e ∈ failures sys (replay sys fs before) (c :: after)

/-- After a call that fails, a line of the log leaves another value in `errno`. -/
def Loud (sys : Posix φ) (fs : φ) (cs : List Call) : Prop :=
  ∃ before c after fs' e k, cs = before ++ c :: .logLine :: after ∧
    c.run sys (replay sys fs before) = (fs', some e) ∧ sys.log fs' = some k ∧ k ≠ e

section Calls

variable {sys : Posix φ} {fs : φ} {cs ds : List Call} {e : Errno}

theorem replay_append : replay sys fs (cs ++ ds) = replay sys (replay sys fs cs) ds :=
  List.foldl_append

theorem failures_append (cs : List Call) : ∀ {fs : φ},
    failures sys fs (cs ++ ds) = failures sys fs cs ++ failures sys (replay sys fs cs) ds := by
  induction cs with
  | nil => exact fun {_} => rfl
  | cons c cs ih =>
    intro fs
    rw [List.cons_append, failures, ih, failures, List.append_assoc]
    rfl

theorem Incomplete.append_right (h : Incomplete sys fs cs) : Incomplete sys fs (cs ++ ds) := by
  obtain ⟨before, c, after, rfl, hshort⟩ := h
  exact ⟨before, c, after ++ ds, by rw [List.append_assoc, List.cons_append], hshort⟩

theorem Incomplete.append_left (h : Incomplete sys (replay sys fs cs) ds) :
    Incomplete sys fs (cs ++ ds) := by
  obtain ⟨before, c, after, rfl, hshort⟩ := h
  exact ⟨cs ++ before, c, after, (List.append_assoc _ _ _).symm, replay_append ▸ hshort⟩

theorem incomplete_singleton {c : Call} (h : c.Short sys fs) : Incomplete sys fs [c] :=
  ⟨[], c, [], rfl, h⟩

theorem Loud.append_right (h : Loud sys fs cs) : Loud sys fs (cs ++ ds) := by
  obtain ⟨before, c, after, fs', e, k, rfl, hloud⟩ := h
  refine ⟨before, c, after ++ ds, fs', e, k, ?_, hloud⟩
  rw [List.append_assoc, List.cons_append, List.cons_append]

theorem Loud.append_left (h : Loud sys (replay sys fs cs) ds) : Loud sys fs (cs ++ ds) := by
  obtain ⟨before, c, after, fs', e, k, rfl, hloud⟩ := h
  exact ⟨cs ++ before, c, after, fs', e, k, (List.append_assoc _ _ _).symm, replay_append ▸ hloud⟩

theorem fault_singleton {c : Call} (hc : c.cleansUp = false) (h : (c.run sys fs).2 = some e) :
    Fault sys fs [c] e := by
  refine ⟨[], c, [], rfl, hc, ?_, (fun d hd => nomatch hd), ?_⟩
  · change (c.run sys fs).2.isSome
    rw [h]
    rfl
  · change e ∈ (c.run sys fs).2.toList ++ []
    rw [h]
    exact List.mem_singleton_self e

theorem Fault.append_left (h : Fault sys (replay sys fs cs) ds e) : Fault sys fs (cs ++ ds) e := by
  obtain ⟨before, c, after, rfl, hc, hfail, hafter, he⟩ := h
  rw [← replay_append] at hfail he
  exact ⟨cs ++ before, c, after, (List.append_assoc _ _ _).symm, hc, hfail, hafter, he⟩

theorem Fault.append_right (h : Fault sys fs cs e) (hds : ∀ d ∈ ds, d.cleansUp) :
    Fault sys fs (cs ++ ds) e := by
  obtain ⟨before, c, after, rfl, hc, hfail, hafter, he⟩ := h
  refine ⟨before, c, after ++ ds, by rw [List.append_assoc, List.cons_append], hc, hfail, ?_, ?_⟩
  · exact fun d hd => (List.mem_append.mp hd).elim (hafter d) (hds d)
  · rw [← List.cons_append, failures_append]
    exact List.mem_append_left _ he

theorem Fault.of_close {e' : Errno} (h : Fault sys fs cs e) (hds : ∀ d ∈ ds, d.cleansUp)
    (he' : e' ∈ failures sys (replay sys fs cs) ds) : Fault sys fs (cs ++ ds) e' := by
  obtain ⟨before, c, after, rfl, hc, hfail, hafter, -⟩ := h
  refine ⟨before, c, after ++ ds, by rw [List.append_assoc, List.cons_append], hc, hfail, ?_, ?_⟩
  · exact fun d hd => (List.mem_append.mp hd).elim (hafter d) (hds d)
  · rw [← List.cons_append, failures_append, ← replay_append]
    exact List.mem_append_right _ he'

end Calls

/-! ### Programs -/

/-- Whatever `errno` is at the start (or if it is what is known of it), the program returns some
`a`, leaves some file system, makes some calls and sets `errno` to some value or leaves it alone;
and `Q` holds of these. -/
def Does (sys : Posix φ) (known : Option Errno) (m : StateM (Disk φ) α) (fs : φ)
    (Q : α → φ → List Call → Option Errno → Prop) : Prop :=
  ∃ a fs' cs o, (∀ e calls, (∀ k, known = some k → e = k) →
      m ⟨fs, e, calls⟩ = (a, ⟨fs', o.getD e, calls ++ cs⟩)) ∧
    replay sys fs cs = fs' ∧ Q a fs' cs o

section Rules

variable {sys : Posix φ} {known : Option Errno} {fs : φ}

theorem Does.mono {m : StateM (Disk φ) α} {Q R : α → φ → List Call → Option Errno → Prop}
    (h : Does sys known m fs Q) (hQR : ∀ a fs' cs o, replay sys fs cs = fs' → Q a fs' cs o →
      R a fs' cs o) : Does sys known m fs R := by
  obtain ⟨a, fs', cs, o, hrun, hreplay, hQ⟩ := h
  exact ⟨a, fs', cs, o, hrun, hreplay, hQR a fs' cs o hreplay hQ⟩

theorem does_pure {a : α} {Q : α → φ → List Call → Option Errno → Prop} (h : Q a fs [] none) :
    Does sys known (pure a) fs Q :=
  ⟨a, fs, [], none, fun e calls _ => by rw [List.append_nil]; rfl, rfl, h⟩

theorem does_bind {m : StateM (Disk φ) α} {f : α → StateM (Disk φ) β}
    {Q : β → φ → List Call → Option Errno → Prop}
    (h : Does sys known m fs fun a fs' cs o => Does sys (o.or known) (f a) fs'
      fun b fs'' ds o' => Q b fs'' (cs ++ ds) (o'.or o)) :
    Does sys known (m >>= f) fs Q := by
  obtain ⟨a, fs', cs, o, hrun, hreplay, b, fs'', ds, o', hrun', hreplay', hQ⟩ := h
  refine ⟨b, fs'', cs ++ ds, o'.or o, fun e calls hknown => ?_, ?_, hQ⟩
  · change f (m ⟨fs, e, calls⟩).1 (m ⟨fs, e, calls⟩).2 = _
    rw [hrun e calls hknown, hrun']
    · rw [List.append_assoc]
      cases o' <;> rfl
    · intro k hk
      cases o with
      | none => exact hknown k hk
      | some e' => exact Option.some.inj hk
  · rw [replay_append, hreplay, hreplay']

theorem does_setErrno {e : Errno} {Q : Unit → φ → List Call → Option Errno → Prop}
    (h : Q () fs [] (some e)) : Does sys known (setErrno e) fs Q :=
  ⟨(), fs, [], some e, fun _ calls _ => by rw [List.append_nil]; rfl, rfl, h⟩

theorem does_logLine {Q : Unit → φ → List Call → Option Errno → Prop}
    (h : Q () fs [.logLine] (sys.log fs)) : Does sys known (logLine sys) fs Q :=
  ⟨(), fs, [.logLine], sys.log fs, fun _ _ _ => rfl, rfl, h⟩

theorem does_get {k : Errno} {f : Disk φ → StateM (Disk φ) α} {g : Errno → StateM (Disk φ) α}
    (hf : ∀ d, f d = g d.errno) {Q : α → φ → List Call → Option Errno → Prop}
    (h : Does sys (some k) (g k) fs Q) : Does sys (some k) (get >>= f) fs Q := by
  obtain ⟨a, fs', cs, o, hrun, hreplay, hQ⟩ := h
  refine ⟨a, fs', cs, o, fun e calls hknown => ?_, hreplay, hQ⟩
  obtain rfl := hknown k rfl
  change f ⟨fs, e, calls⟩ ⟨fs, e, calls⟩ = _
  rw [hf]
  exact hrun e calls hknown

/-- The result of a call is one of the system. -/
def Call.Is (sys : Posix φ) (c : Call) (f : φ → φ × Except Errno α) : Prop :=
  ∀ fs, c.run sys fs = ((f fs).1, failure (f fs).2)

theorem does_perform {c : Call} {f : φ → φ × Except Errno α} (hc : c.Is sys f)
    {Q : Option α → φ → List Call → Option Errno → Prop}
    (hok : ∀ fs' a, f fs = (fs', .ok a) → Q (some a) fs' [c] none)
    (herror : ∀ fs' e, f fs = (fs', .error e) → (c.run sys fs).2 = some e →
      Q none fs' [c] (some e)) :
    Does sys known (perform c f) fs Q := by
  have hrun := hc fs
  cases hf : f fs with
  | mk fs' r =>
    rw [hf] at hrun
    cases r with
    | ok a =>
      refine ⟨some a, fs', [c], none, fun e calls _ => ?_, ?_, hok fs' a hf⟩
      · unfold perform
        rw [hf]
        rfl
      · exact congrArg Prod.fst hrun
    | error e =>
      refine ⟨none, fs', [c], some e, fun e' calls _ => ?_, ?_, herror fs' e hf ?_⟩
      · unfold perform
        rw [hf]
        rfl
      · exact congrArg Prod.fst hrun
      · exact congrArg Prod.snd hrun

/-- `errno` is the error of the call that failed, or a value of the program's own choice; or a line
of the log was loud or, if that counts, a call was cut short. -/
def Cause (sys : Posix φ) (chosen : List Errno) (cut : Prop) (fs : φ) (cs : List Call)
    (o : Option Errno) : Prop :=
  (∃ e, o = some e ∧ (Fault sys fs cs e ∨ e ∈ chosen)) ∨ Loud sys fs cs ∨ cut ∧ Incomplete sys fs cs

variable {chosen : List Errno} {cut : Prop} {cs ds : List Call} {o o' : Option Errno}

theorem Cause.of_fault {e : Errno} (h : Fault sys fs cs e) : Cause sys chosen cut fs cs (some e) :=
  .inl ⟨e, rfl, .inl h⟩

theorem Cause.append_left (h : Cause sys chosen cut (replay sys fs cs) ds o') :
    Cause sys chosen cut fs (cs ++ ds) (o'.or o) := by
  rcases h with ⟨e, rfl, hfault | hmem⟩ | hloud | ⟨hcut, h⟩
  · exact .inl ⟨e, rfl, .inl hfault.append_left⟩
  · exact .inl ⟨e, rfl, .inr hmem⟩
  · exact .inr (.inl hloud.append_left)
  · exact .inr (.inr ⟨hcut, h.append_left⟩)

theorem Cause.append_right (h : Cause sys [] cut fs cs o) (hds : ∀ d ∈ ds, d.cleansUp) :
    Cause sys chosen cut fs (cs ++ ds) o := by
  rcases h with ⟨e, rfl, hfault | hmem⟩ | hloud | ⟨hcut, h⟩
  · exact .of_fault (hfault.append_right hds)
  · exact nomatch hmem
  · exact .inr (.inl hloud.append_right)
  · exact .inr (.inr ⟨hcut, h.append_right⟩)

theorem Cause.of_logged {c : Call} {fs' : φ} {e : Errno} (hc : c.cleansUp = false)
    (h : c.run sys fs = (fs', some e)) :
    Cause sys chosen cut fs ([c] ++ [.logLine]) ((sys.log fs').or (some e)) := by
  have hfault : Cause sys chosen cut fs ([c] ++ [.logLine]) (some e) := by
    refine .of_fault ((fault_singleton hc (congrArg Prod.snd h)).append_right fun d hd => ?_)
    rw [List.mem_singleton.mp hd]
    rfl
  cases hlog : sys.log fs' with
  | none => exact hfault
  | some k =>
    by_cases hk : k = e
    · rw [hk]
      exact hfault
    · exact .inr (.inl ⟨[], c, [], fs', e, k, rfl, h, hlog, hk⟩)

end Rules

end FileSystem
