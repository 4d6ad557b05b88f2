/-
Any number of mission managers, and the exclusiveness of uploads.

A state of the system is what the managers share and what each of them has; a step is one
event at one manager.  `System.step_transition` passes on what a manager can do, and
`System.core_step_other` what the others see of it.

`_transfer_in_progress` is meant to say that one of the managers is in an upload.

* **`System.exclusive_iff`** — in every run it does, and at most one manager is in an
  upload, exactly if no request for a list is taken for the end of an upload and no download
  times out during somebody else's upload;
* **`System.second_upload_joins`** — the run in which it does not.
-/
import AerialManipulator.Mission.Transition
import AerialManipulator.Lib.Mutex

open WithNaN

namespace Mission

/-! ### Lists in a store -/

section Lists

variable {α : Type*}

def listOf (store : ℕ → Option α) (n : ℕ) : List (Option α) := (List.range n).map store

theorem listOf_succ_update (store : ℕ → Option α) (n : ℕ) (a : α) :
    listOf (Function.update store n (some a)) (n + 1) = listOf store n ++ [some a] := by
  have hold : (List.range n).map (Function.update store n (some a)) = (List.range n).map store := by
    refine List.map_congr_left fun k hk => ?_
    exact Function.update_of_ne (List.mem_range.mp hk).ne _ _
  rw [listOf, List.range_succ, List.map_append, hold, List.map_singleton, Function.update_self]
  rfl

end Lists

/-- The managers of all links and what they share. -/
structure System (ι K : Type*) where
  shared : Shared K
  inst : ι → Manager

/-- Nothing is stored yet; the system has the address `⟨1, 1⟩`. -/
def Shared.fresh {K : Type*} : Shared K where
  build := .nuttx
  own := ⟨1, 1⟩
  store := ⟨fun _ _ => none, fun _ _ => none, fun _ => none, none⟩
  dataman_id := .OFFBOARD_0
  count := ⟨0, 0, 0⟩
  current_seq := 0
  transfer_in_progress := false
  update_counter _ := 0

def Io.ok (now : UInt64) : Io := ⟨now, true, true, fun _ => true, true, true⟩

namespace Core

variable {K : Type*}

def sees (c d : Core K) : Core K :=
  { c with
    build := d.build, own := d.own, dataman_id := d.dataman_id, count := d.count
    in_progress := d.in_progress, waypoints := d.waypoints, points := d.points
    stats := d.stats }

end Core

section Transition

variable {K : Type*} [Field K] [LinearOrder K] [FloorRing K] [Elementary K] {cs : Casts K}
  {wrap_2pi : Flt K → Flt K} {due : Io → Bool} {c c' : Core K} {e : Event K}
  {acks : List (Address × MissionResult)}

/-- How a manager enters and leaves uploads, and what it does to the flag. -/
inductive Flagged (due : Io → Bool) (c : Core K) : Event K → WpmState → Bool → Prop
  | same {e : Event K} {st : WpmState} (h : st = .GETLIST ↔ c.state = .GETLIST) :
      Flagged due c e st c.in_progress
  | opened {e : Event K} (hfree : c.in_progress = false) : Flagged due c e .GETLIST true
  | closed {e : Event K} (h : c.state = .GETLIST) : Flagged due c e .IDLE false
  | left {io : Io} {msg : Message K} {t : MissionType} (haddressed : addressed c.own msg.target)
      (hbody : msg.body = .requestList t) (h : c.state = .GETLIST)
      (hdone : c.transfer_seq = c.count.of c.mission_type) :
      Flagged due c (.message io msg) .SENDLIST c.in_progress
  | timedOut {io : Io} {result : Option MissionResultTopic} {slow : Bool}
      (h : c.state = .SENDLIST) (hdue : due io) :
      Flagged due c (.send io false result slow) .IDLE false

theorem Transition.flagged (h : Transition cs wrap_2pi due c e c' acks) :
    Flagged due c e c'.state c'.in_progress := by
  cases h with
  | quiet => exact .same Iff.rfl
  | refuse => exact .same Iff.rfl
  | serve k st hsender hnot hstate hst => exact .same (by simp [hst, hstate])
  | endDownload hnot hstate => exact .same (by simp [hstate])
  | cancel hnot hstate => exact .closed hstate
  | download hbody haddressed hstate hn =>
    by_cases hget : c.state = .GETLIST
    · exact .left haddressed hbody hget (hstate.resolve_left (not_not.mpr hget))
    · exact .same (by simp [hget])
  | openUpload hopens => exact .opened hopens.free
  | clear r haddressed hstate hbody hempty =>
    obtain ⟨d, n, st, rfl, -⟩ := hempty
    exact .same Iff.rfl
  | reject r hexp => exact .closed hexp.state
  | rejectPolygon n k hexp => exact .closed hexp.state
  | store => exact .same Iff.rfl
  | complete hexp => exact .closed hexp.state
  | commitFails hexp => exact .closed hexp.state
  | @timeout io result slow hstate hdue =>
    cases hs : c.state with
    | IDLE => exact absurd hs hstate
    | SENDLIST => exact .timedOut hs hdue
    | GETLIST => exact .closed hs
  | report => exact .same Iff.rfl

end Transition

namespace System

variable {ι K : Type*}

/-- The managers as they are constructed, before any transfer. -/
def init (shared : Shared K) : System ι K where
  shared := { shared with transfer_in_progress := false }
  inst _ := .init shared.dataman_id

def world (s : System ι K) (i : ι) : World K := ⟨s.shared, s.inst i, []⟩

def core (s : System ι K) (i : ι) : Core K := (s.world i).core

variable [DecidableEq ι] [Field K] [LinearOrder K] [FloorRing K] [Elementary K]
  (cs : Casts K) (wrap_2pi : Flt K → Flt K)

def step (s : System ι K) (p : ι × Event K) : System ι K where
  shared := ((s.world p.1).react cs wrap_2pi p.2).shared
  inst := Function.update s.inst p.1 ((s.world p.1).react cs wrap_2pi p.2).me

def sent (s : System ι K) (p : ι × Event K) : List (Address × MissionResult) :=
  ((s.world p.1).react cs wrap_2pi p.2).acks

variable {cs wrap_2pi}

theorem core_step_self (s : System ι K) (i : ι) (e : Event K) :
    (s.step cs wrap_2pi (i, e)).core i = ((s.world i).react cs wrap_2pi e).core := by
  have hinst : (s.step cs wrap_2pi (i, e)).inst i = ((s.world i).react cs wrap_2pi e).me :=
    Function.update_self i _ _
  unfold core world
  rw [hinst]
  rfl

theorem core_step_other (s : System ι K) {i j : ι} (h : j ≠ i) (e : Event K) :
    (s.step cs wrap_2pi (i, e)).core j = (s.core j).sees ((s.step cs wrap_2pi (i, e)).core i) := by
  have hinst : (s.step cs wrap_2pi (i, e)).inst j = s.inst j := Function.update_of_ne h _ _
  unfold core world
  rw [hinst]
  rfl

variable (cs wrap_2pi) in
theorem step_transition (s : System ι K) (i : ι) (e : Event K) :
    Transition cs wrap_2pi (s.world i).timedOut (s.core i) e
      ((s.step cs wrap_2pi (i, e)).core i) (s.sent cs wrap_2pi (i, e)) := by
  rw [core_step_self]
  exact World.react_transition rfl e

/-! ### Exclusiveness -/

/-- The manager is in an upload. -/
def uploading (s : System ι K) (i : ι) : Prop := (s.inst i).state = .GETLIST

/-- At most one manager is in an upload, and `_transfer_in_progress` says whether one is. -/
def Exclusive (s : System ι K) : Prop :=
  Mutex.Held s.shared.transfer_in_progress s.uploading

/-- The steps that are not one of these: a request for a list is taken for the end of an
upload, and a download times out during an upload of another manager. -/
def Keeps (s : System ι K) (p : ι × Event K) : Prop :=
  match p.2 with
  | .message _ msg =>
    ¬ (addressed s.shared.own msg.target ∧ (∃ t, msg.body = .requestList t) ∧
      (s.inst p.1).state = .GETLIST ∧
      (s.inst p.1).transfer_seq = s.shared.count.of (s.inst p.1).mission_type)
  | .send io iridium _ _ =>
    ¬ (iridium = false ∧ (s.inst p.1).state = .SENDLIST ∧ (s.world p.1).timedOut io ∧
      ∃ j, (s.inst j).state = .GETLIST)
  | .checkActiveMission _ _ => True

theorem uploading_step (s : System ι K) (i : ι) (e : Event K) :
    (s.step cs wrap_2pi (i, e)).uploading =
      Function.update s.uploading i (((s.step cs wrap_2pi (i, e)).core i).state = .GETLIST) := by
  funext j
  by_cases hj : j = i
  · rw [hj, Function.update_self]
    rfl
  · rw [Function.update_of_ne hj]
    exact congrArg (· = WpmState.GETLIST) (congrArg Core.state (core_step_other s hj e))

variable (cs wrap_2pi) in
theorem core_step_requestList {s : System ι K} {i : ι} (io : Io) {msg : Message K}
    {t : MissionType} (haddressed : addressed s.shared.own msg.target)
    (hbody : msg.body = .requestList t)
    (hdone : (s.inst i).transfer_seq = s.shared.count.of (s.inst i).mission_type) :
    ((s.step cs wrap_2pi (i, .message io msg)).core i).state = .SENDLIST ∧
      ((s.step cs wrap_2pi (i, .message io msg)).core i).in_progress =
        s.shared.transfer_in_progress := by
  have hreact : (s.world i).react cs wrap_2pi (.message io msg) =
      (s.world i).switchToIdleState.startDownload io msg.sender t := by
    rw [World.react, World.handleMessage, hbody]
    exact (if_pos haddressed).trans (World.handleMissionRequestList_done hdone io msg.sender t)
  obtain ⟨n, k, hcore, -⟩ := World.core_startDownload (s.world i).switchToIdleState io msg.sender t
  rw [core_step_self, hreact, hcore]
  exact ⟨rfl, rfl⟩

variable (cs wrap_2pi) in
theorem core_step_timeout {s : System ι K} {i : ι} {io : Io} (hstate : (s.inst i).state = .SENDLIST)
    (hdue : (s.world i).timedOut io) (result : Option MissionResultTopic) (slow : Bool) :
    ((s.step cs wrap_2pi (i, .send io false result slow)).core i).state = .IDLE ∧
      ((s.step cs wrap_2pi (i, .send io false result slow)).core i).in_progress = false := by
  have hbusy : (s.world i).core.state ≠ .IDLE := by
    rw [show (s.world i).core.state = .SENDLIST from hstate]
    decide
  have hretry : (s.world i).retryDue io = false := by
    simp [World.retryDue, world, hstate]
  rw [core_step_self, World.react, (World.send_busy cs hbusy io result slow).2,
    if_pos ⟨hretry, hdue⟩]
  exact ⟨rfl, rfl⟩

theorem exclusive_step_iff {s : System ι K} (h : s.Exclusive) (p : ι × Event K) :
    (s.step cs wrap_2pi p).Exclusive ↔ s.Keeps p := by
  obtain ⟨i, e⟩ := p
  have hflag := (step_transition cs wrap_2pi s i e).flagged
  rw [Exclusive, uploading_step]
  by_cases hkeeps : s.Keeps (i, e)
  · refine iff_of_true ?_ hkeeps
    change Mutex.Held ((s.step cs wrap_2pi (i, e)).core i).in_progress _
    generalize ((s.step cs wrap_2pi (i, e)).core i).state = st at hflag ⊢
    generalize ((s.step cs wrap_2pi (i, e)).core i).in_progress = flag at hflag ⊢
    cases hflag with
    | same hsame => exact h.stay hsame
    | opened hfree =>
      rw [Exclusive, show s.shared.transfer_in_progress = false from hfree] at h
      exact h.acquire rfl
    | closed hget => exact h.release hget (by decide)
    | left haddressed hbody hget hdone => exact absurd ⟨haddressed, ⟨_, hbody⟩, hget, hdone⟩ hkeeps
    | timedOut hsend hdue =>
      have hnot : ¬ s.uploading i := by
        rw [uploading, show (s.inst i).state = .SENDLIST from hsend]
        decide
      refine (Mutex.held_clear_iff hnot (by decide)).mpr ?_
      intro j hj
      exact hkeeps ⟨rfl, hsend, hdue, j, hj⟩
  · refine iff_of_false ?_ hkeeps
    cases e with
    | message io msg =>
      obtain ⟨haddressed, ⟨t, hbody⟩, hget, hdone⟩ := not_not.mp hkeeps
      obtain ⟨hst, hin⟩ := core_step_requestList cs wrap_2pi io haddressed hbody hdone
      rw [hst, show (s.step cs wrap_2pi (i, .message io msg)).shared.transfer_in_progress =
        s.shared.transfer_in_progress from hin]
      exact Mutex.Held.not_leak h hget (by decide)
    | send io iridium result slow =>
      obtain ⟨rfl, hsend, hdue, j, hj⟩ := not_not.mp hkeeps
      obtain ⟨hst, hin⟩ := core_step_timeout cs wrap_2pi hsend hdue result slow
      have hnot : ¬ s.uploading i := by
        rw [uploading, hsend]
        decide
      rw [hst, show (s.step cs wrap_2pi (i, .send io false result slow)).shared.transfer_in_progress
        = false from hin, Mutex.held_clear_iff hnot (by decide)]
      exact fun hnone => hnone j hj
    | checkActiveMission io iridium => exact absurd trivial hkeeps

omit [DecidableEq ι] [Field K] [LinearOrder K] [FloorRing K] [Elementary K] in
theorem exclusive_init (shared : Shared K) : (init shared : System ι K).Exclusive :=
  .of_none fun _ => by simp [uploading, init, Manager.init]

/-- For any number of managers and any order of messages, timeouts and periodic calls:
uploads are exclusive after every step, and `_transfer_in_progress` says whether there is one,
exactly if no request for a list is taken for the end of an upload and no download times out
during an upload. -/
theorem exclusive_iff (shared : Shared K) (es : List (ι × Event K)) :
    Trace.Always (step cs wrap_2pi) (fun s p => (s.step cs wrap_2pi p).Exclusive) (init shared) es ↔
      Trace.Always (step cs wrap_2pi) Keeps (init shared) es :=
  Trace.always_iff_of_invariant (fun _ p h => exclusive_step_iff h p)
    (fun _ p h hkeeps => (exclusive_step_iff h p).mpr hkeeps) (exclusive_init shared)

/-- A manager opens an upload while the other one is in a download, whose timeout lets that
one open an upload, too. -/
def joinRun : List (Bool × Event ℝ) :=
  [(true, .message (.ok 1) ⟨⟨255, 2⟩, ⟨1, 1⟩, .requestList .MISSION⟩),
    (false, .message (.ok 1) ⟨⟨255, 1⟩, ⟨1, 1⟩, .count 2 .MISSION⟩),
    (true, .send (.ok 6000000) false none false),
    (true, .message (.ok 6000001) ⟨⟨255, 2⟩, ⟨1, 1⟩, .count 1 .MISSION⟩)]

theorem second_upload_joins :
    let s := Trace.run (step realCasts realWrap) (init .fresh : System Bool ℝ) joinRun
    s.uploading false ∧ s.uploading true ∧ ¬ s.Exclusive := by
  refine ⟨rfl, rfl, fun h => ?_⟩
  exact Bool.false_ne_true (h.unique false true rfl rfl)

end System

end Mission
