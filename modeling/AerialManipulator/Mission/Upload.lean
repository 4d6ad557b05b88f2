/-
The active list of waypoints and the uploads that replace it.

An upload goes to the store that is not in use; the list is made the active one when the last
item has been written.  Several managers swap the two stores, so what an upload may rely on is
that nobody else uploads a mission at the same time: then its store is not in use, or the
active list is empty.

* **`Recorded.atomic_of_alone`** — in every run in which no upload of a mission is opened
  during another one, the active list changes only where an upload is accepted or the list is
  cleared, and an accepted upload makes the received items the active list;
* **`Recorded.active_list_overwritten`** — the run with two uploads in which it does not.
-/
import AerialManipulator.Mission.System

open WithNaN

namespace Mission

namespace Core

variable {K : Type*}

/-- The manager is in an upload of a mission. -/
def Uploads (c : Core K) : Prop := c.state = .GETLIST ∧ c.mission_type = .MISSION

def active (c : Core K) : List (Option (MissionItem K)) :=
  listOf (c.waypoints c.dataman_id) c.count.mission

/-- An item for the store of an upload is not seen in the active list while that is kept in
the other store, or empty. -/
theorem active_put {c c' : Core K} {item : MissionItem K} (hup : c.Uploads)
    (h : c.transfer_dataman_id ≠ c.dataman_id ∨ c.count.mission = 0)
    (hway : c'.waypoints = c.putWaypoint item) (hid : c'.dataman_id = c.dataman_id)
    (hcount : c'.count.mission = c.count.mission) : c'.active = c.active := by
  unfold active
  rw [hway, hid, hcount, putWaypoint_mission hup.2]
  rcases h with hne | hzero
  · rw [Function.update_of_ne hne.symm]
  · rw [hzero]
    rfl

end Core

section Transition

variable {K : Type*} [Field K] [LinearOrder K] [FloorRing K] [Elementary K] {cs : Casts K}
  {wrap_2pi : Flt K → Flt K} {due : Io → Bool} {c c' : Core K} {e : Event K}
  {acks : List (Address × MissionResult)}

/-- What a step can do to the waypoints and to an upload of them. -/
inductive Move (cs : Casts K) (wrap_2pi : Flt K → Flt K) (c : Core K) (e : Event K)
    (c' : Core K) (acks : List (Address × MissionResult)) : Prop
  /-- Nothing. -/
  | other (hway : c'.waypoints = c.waypoints) (hid : c'.dataman_id = c.dataman_id)
      (hcount : c'.count.mission = c.count.mission)
      (hup : c'.Uploads → c.Uploads ∧ c'.transfer_seq = c.transfer_seq ∧
        c'.transfer_dataman_id = c.transfer_dataman_id ∧
        ∀ io msg wp, e = .message io msg → ¬ c.Expected msg wp)
      (hacks : c.Uploads → ∀ a ∈ acks, a.2 ≠ .ACCEPTED)
  /-- An upload begins. -/
  | opened {io : Io} {msg : Message K} {n : ℕ} (he : e = .message io msg)
      (h : c.Opens msg n .MISSION) (hway : c'.waypoints = c.waypoints)
      (hid : c'.dataman_id = c.dataman_id) (hcount : c'.count.mission = c.count.mission)
      (hseq : c'.transfer_seq = 0) (hto : c'.transfer_dataman_id = c.dataman_id.alternate)
  /-- The list is cleared. -/
  | cleared {io : Io} {msg : Message K} {t : MissionType} (he : e = .message io msg)
      (haddressed : addressed c.own msg.target) (ht : t = .MISSION ∨ t = .ALL)
      (hbody : msg.body = .clearAll t ∨ msg.body = .count 0 t) (hidle : c.state = .IDLE)
      (hidle' : c'.state = .IDLE) (hcount : c'.count.mission = 0)
      (hway : c'.waypoints = c.waypoints)
  /-- An item is stored, and the list is not the active one yet. -/
  | stored {io : Io} {msg : Message K} {wp : WireItem K} {item : MissionItem K}
      (he : e = .message io msg) (hup : c.Uploads) (hexp : c.Expected msg wp)
      (hparse : parseMavlinkMissionItem cs wrap_2pi wp = .ok item)
      (hway : c'.waypoints = c.putWaypoint item) (hid : c'.dataman_id = c.dataman_id)
      (hcount : c'.count.mission = c.count.mission)
      (hseq : c'.transfer_seq = c.transfer_seq + 1)
      (hto : c'.transfer_dataman_id = c.transfer_dataman_id)
      (hacks : ∀ a ∈ acks, a.2 ≠ .ACCEPTED)
  /-- The last item is stored, and the list is the active one. -/
  | accepted {io : Io} {msg : Message K} {wp : WireItem K} {item : MissionItem K}
      (he : e = .message io msg) (hup : c.Uploads) (hexp : c.Expected msg wp)
      (hparse : parseMavlinkMissionItem cs wrap_2pi wp = .ok item)
      (hway : c'.waypoints = c.putWaypoint item)
      (hid : c'.dataman_id = c.transfer_dataman_id)
      (hcount : c'.count.mission = c.transfer_seq + 1) (hidle : c'.state = .IDLE)
      (hacks : acks = [(c.partner, .ACCEPTED)]) (hlast : c.transfer_seq + 1 = c.transfer_count)

/-- Steps of managers that are not in an upload of a mission, and do not begin one. -/
theorem Move.of_not_uploads (hway : c'.waypoints = c.waypoints)
    (hid : c'.dataman_id = c.dataman_id) (hcount : c'.count.mission = c.count.mission)
    (hup : ¬ c.Uploads) (hup' : ¬ c'.Uploads) : Move cs wrap_2pi c e c' acks :=
  .other hway hid hcount (fun h => absurd h hup') (fun h => absurd h hup)

theorem Transition.move (h : Transition cs wrap_2pi due c e c' acks) :
    Move cs wrap_2pi c e c' acks := by
  cases h with
  | quiet hnot =>
    refine .other rfl rfl rfl (fun hup => ⟨hup, rfl, rfl, ?_⟩) (by simp)
    intro io msg wp he hexp
    exact hnot io msg he hexp.concerns
  | @refuse io msg t r hconcerns hfree ht hr =>
    by_cases hget : c.state = .GETLIST
    · have hnot : r ≠ .ACCEPTED := fun hacc => absurd (hget.symm.trans (hr hacc)) (by decide)
      have htype : t = c.mission_type := by
        rcases ht with ht | hidle
        · exact ht
        · exact absurd (hget.symm.trans hidle) (by decide)
      refine .other rfl rfl rfl (fun hup => ⟨⟨hget, htype ▸ hup.2⟩, rfl, rfl, ?_⟩) ?_
      · intro io' msg' wp he
        cases he
        exact hfree wp
      · intro hup a ha
        rw [List.mem_singleton.mp ha]
        exact hnot
    · exact .of_not_uploads rfl rfl rfl (fun h => hget h.1) (fun h => hget h.1)
  | serve k st hsender hnot hstate hst =>
    exact .of_not_uploads rfl rfl rfl (by simp [Core.Uploads, hstate]) (fun h => hst h.1)
  | endDownload hnot hstate =>
    exact .of_not_uploads rfl rfl rfl (by simp [Core.Uploads, hstate]) (by simp [Core.Uploads])
  | cancel => exact .other rfl rfl rfl (by simp [Core.Uploads]) (by simp)
  | download hbody haddressed hstate hn =>
    exact .other rfl rfl hn (by simp [Core.Uploads]) (by simp)
  | @openUpload io msg n t hopens =>
    by_cases ht : t = .MISSION
    · subst ht
      exact .opened rfl hopens rfl rfl rfl rfl rfl
    · exact .of_not_uploads rfl rfl rfl (by simp [Core.Uploads, hopens.state]) (fun h => ht h.2)
  | clear r haddressed hstate hbody hempty =>
    obtain ⟨d, n, st, rfl, hmission, -⟩ := hempty
    rcases hmission with ⟨hd, hn⟩ | ⟨ht, hzero⟩
    · exact .of_not_uploads rfl hd hn (by simp [Core.Uploads, hstate])
        (by simp [Core.Uploads, hstate])
    · exact .cleared rfl haddressed ht (hbody.imp id And.left) hstate hstate hzero rfl
  | reject r hexp hitem hr =>
    refine .other rfl rfl rfl (by simp [Core.Uploads]) ?_
    intro hup a ha
    rw [List.mem_singleton.mp ha]
    exact hr
  | rejectPolygon n k hexp hitem htype hfew hn =>
    exact .of_not_uploads rfl rfl hn (by simp [Core.Uploads, htype]) (by simp [Core.Uploads])
  | @store io msg wp item hexp hitem hstore hmore =>
    by_cases ht : c.mission_type = .MISSION
    · exact .stored rfl ⟨hexp.state, ht⟩ hexp hitem rfl rfl rfl rfl rfl (by simp)
    · exact .of_not_uploads (Core.putWaypoint_of_ne ht item) rfl rfl (fun h => ht h.2)
        (fun h => ht h.2)
  | @complete io msg wp item c₁ hexp hitem hstore hlast hcommit =>
    obtain ⟨d, n, st, rfl, hmission, -⟩ := hcommit
    by_cases ht : c.mission_type = .MISSION
    · rw [if_pos (show (c.put item).mission_type = .MISSION from ht)] at hmission
      exact .accepted rfl ⟨hexp.state, ht⟩ hexp hitem rfl hmission.1
        (hmission.2.trans hlast.symm) rfl rfl hlast
    · rw [if_neg (show (c.put item).mission_type ≠ .MISSION from ht)] at hmission
      exact .of_not_uploads (Core.putWaypoint_of_ne ht item) hmission.1 hmission.2
        (fun h => ht h.2) (by simp [Core.Uploads])
  | @commitFails io msg wp item hexp hitem hstore hlast =>
    by_cases ht : c.mission_type = .MISSION
    · exact .stored rfl ⟨hexp.state, ht⟩ hexp hitem rfl rfl rfl rfl rfl (by simp)
    · exact .of_not_uploads (Core.putWaypoint_of_ne ht item) rfl rfl (fun h => ht h.2)
        (by simp [Core.Uploads])
  | timeout => exact .other rfl rfl rfl (by simp [Core.Uploads]) (by simp)
  | report t hstate =>
    exact .of_not_uploads rfl rfl rfl (by simp [Core.Uploads, hstate])
      (by simp [Core.Uploads, hstate])

/-! ### Received items -/

variable (cs wrap_2pi) in
/-- The items of an upload that have been received in their order, after one more message. -/
def received (c : Core K) (items : List (MissionItem K)) (msg : Message K) : List (MissionItem K) :=
  match msg.body with
  | .item wp =>
    if addressed c.own msg.target ∧ wp.mission_type = c.mission_type ∧ wp.seq = items.length then
      match parseMavlinkMissionItem cs wrap_2pi wp with
      | .ok item => items ++ [item]
      | .error _ => items
    else items
  | _ => items

variable (cs wrap_2pi) in
def recorded (c : Core K) (items : List (MissionItem K)) : Event K → List (MissionItem K)
  | .message _ msg => if c.state = .GETLIST then received cs wrap_2pi c items msg else []
  | _ => items

theorem recorded_expected {items : List (MissionItem K)} {io : Io} {msg : Message K}
    {wp : WireItem K} {item : MissionItem K} (hlen : items.length = c.transfer_seq)
    (hexp : c.Expected msg wp) (hparse : parseMavlinkMissionItem cs wrap_2pi wp = .ok item) :
    recorded cs wrap_2pi c items (.message io msg) = items ++ [item] := by
  rw [recorded, if_pos hexp.state, received, hexp.body]
  dsimp only
  rw [if_pos ⟨hexp.addressed, hexp.mission_type, hexp.seq.trans hlen.symm⟩, hparse]

theorem recorded_not_expected {items : List (MissionItem K)} (hlen : items.length = c.transfer_seq)
    (hget : c.state = .GETLIST) (h : ∀ io msg wp, e = .message io msg → ¬ c.Expected msg wp) :
    recorded cs wrap_2pi c items e = items := by
  unfold recorded
  split
  · next io msg =>
    rw [if_pos hget, received]
    split
    · next wp hbody =>
      refine if_neg fun hitem => h io msg wp rfl ?_
      exact ⟨hbody, hitem.1, hitem.2.1, hget, hitem.2.2.trans hlen⟩
    · rfl
  · rfl

/-- What an upload may rely on: its store is not in use, and has what was received. -/
structure Kept (c : Core K) (items : List (MissionItem K)) : Prop where
  inactive : c.transfer_dataman_id ≠ c.dataman_id ∨ c.count.mission = 0
  stored : items.map some = listOf (c.waypoints c.transfer_dataman_id) c.transfer_seq

omit [Field K] [LinearOrder K] [FloorRing K] [Elementary K] in
theorem Kept.length {items : List (MissionItem K)} (h : Kept c items) :
    items.length = c.transfer_seq := by
  have hlen := congrArg List.length h.stored
  simpa [listOf] using hlen

variable {items : List (MissionItem K)}

omit [Field K] [LinearOrder K] [FloorRing K] [Elementary K] in
theorem Kept.put {item : MissionItem K} (h : Kept c items) (hup : c.Uploads) :
    (items ++ [item]).map some =
      listOf (c.putWaypoint item c.transfer_dataman_id) (c.transfer_seq + 1) := by
  rw [Core.putWaypoint_mission hup.2, Function.update_self, listOf_succ_update, List.map_append,
    h.stored]
  rfl

theorem Move.uploads (h : Move cs wrap_2pi c e c' acks) (hup' : c'.Uploads) :
    c.Uploads ∨ ∃ io msg n, e = .message io msg ∧ c.Opens msg n .MISSION := by
  cases h with
  | other hway hid hcount hup => exact .inl (hup hup').1
  | opened he hopens => exact .inr ⟨_, _, _, he, hopens⟩
  | cleared he haddressed ht hbody hidle hidle' =>
    exact absurd (hidle'.symm.trans hup'.1) (by decide)
  | stored he hup => exact .inl hup
  | accepted he hup => exact .inl hup

theorem Move.kept (h : Move cs wrap_2pi c e c' acks) (hk : c.Uploads → Kept c items)
    (hup' : c'.Uploads) : Kept c' (recorded cs wrap_2pi c items e) := by
  cases h with
  | other hway hid hcount hup hacks =>
    obtain ⟨hup, hseq, hto, hfree⟩ := hup hup'
    have hk := hk hup
    rw [recorded_not_expected hk.length hup.1 hfree]
    constructor
    · rw [hto, hid, hcount]
      exact hk.inactive
    · rw [hway, hto, hseq]
      exact hk.stored
  | opened he hopens hway hid hcount hseq hto =>
    have hitems : recorded cs wrap_2pi c items e = [] := by
      rw [he, recorded, if_neg (by simp [hopens.state])]
    rw [hitems]
    constructor
    · rw [hto, hid]
      exact .inl (Offboard.alternate_ne _)
    · rw [hseq]
      rfl
  | cleared he haddressed ht hbody hidle hidle' =>
    exact absurd (hidle'.symm.trans hup'.1) (by decide)
  | stored he hup hexp hparse hway hid hcount hseq hto hacks =>
    have hk := hk hup
    rw [he, recorded_expected hk.length hexp hparse]
    constructor
    · rw [hto, hid, hcount]
      exact hk.inactive
    · rw [hway, hto, hseq]
      exact hk.put hup
  | accepted he hup hexp hparse hway hid hcount hidle =>
    exact absurd (hidle.symm.trans hup'.1) (by decide)

/-- A step of another manager keeps it, too, unless that has an upload of a mission itself or
opens one. -/
theorem Move.kept_other {d : Core K} (h : Move cs wrap_2pi c e c' acks)
    (hd : d.sees c = d) (hk : Kept d items) (hup : ¬ c.Uploads)
    (hopen : ∀ io msg n, e = .message io msg → ¬ c.Opens msg n .MISSION) :
    Kept (d.sees c') items := by
  have hid₀ : d.dataman_id = c.dataman_id := (congrArg Core.dataman_id hd).symm
  have hcount₀ : d.count = c.count := (congrArg Core.count hd).symm
  have hway₀ : d.waypoints = c.waypoints := (congrArg Core.waypoints hd).symm
  cases h with
  | other hway hid hcount =>
    constructor
    · have hin := hk.inactive
      rw [hid₀, hcount₀, ← hid, ← hcount] at hin
      exact hin
    · have hst := hk.stored
      rw [hway₀, ← hway] at hst
      exact hst
  | opened he hopens => exact absurd hopens (hopen _ _ _ he)
  | cleared he haddressed ht hbody hidle hidle' hcount hway =>
    refine ⟨.inr hcount, ?_⟩
    have hst := hk.stored
    rw [hway₀, ← hway] at hst
    exact hst
  | stored he hc => exact absurd hc hup
  | accepted he hc => exact absurd hc hup

/-- The active list changes only where an upload is accepted or the list is cleared. -/
theorem Move.active (h : Move cs wrap_2pi c e c' acks) (hk : c.Uploads → Kept c items) :
    c'.active = c.active ∨ (c.Uploads ∧ ∃ a ∈ acks, a.2 = .ACCEPTED) ∨
      ∃ io msg t, e = .message io msg ∧ (t = .MISSION ∨ t = .ALL) ∧
        (msg.body = .clearAll t ∨ msg.body = .count 0 t) := by
  cases h with
  | other hway hid hcount =>
    refine .inl ?_
    rw [Core.active, hway, hid, hcount]
    rfl
  | opened he hopens hway hid hcount =>
    refine .inl ?_
    rw [Core.active, hway, hid, hcount]
    rfl
  | cleared he haddressed ht hbody => exact .inr (.inr ⟨_, _, _, he, ht, hbody⟩)
  | stored he hup hexp hparse hway hid hcount =>
    exact .inl (Core.active_put hup (hk hup).inactive hway hid hcount)
  | accepted he hup hexp hparse hway hid hcount hidle hacks =>
    refine .inr (.inl ⟨hup, (c.partner, .ACCEPTED), ?_, rfl⟩)
    rw [hacks]
    exact List.mem_singleton_self _

theorem Move.active_accepted (h : Move cs wrap_2pi c e c' acks) (hup : c.Uploads)
    (hk : Kept c items) (hacc : ∃ a ∈ acks, a.2 = .ACCEPTED) :
    c'.active = (recorded cs wrap_2pi c items e).map some ∧
      (recorded cs wrap_2pi c items e).length = c.transfer_count := by
  obtain ⟨a, ha, hacc⟩ := hacc
  cases h with
  | other hway hid hcount hup' hacks => exact absurd hacc (hacks hup a ha)
  | opened he hopens => exact absurd (hup.1.symm.trans hopens.state) (by decide)
  | cleared he haddressed ht hbody hidle => exact absurd (hup.1.symm.trans hidle) (by decide)
  | stored he hup hexp hparse hway hid hcount hseq hto hacks => exact absurd hacc (hacks a ha)
  | accepted he hup hexp hparse hway hid hcount _ _ hlast =>
    rw [he, recorded_expected hk.length hexp hparse, Core.active, hway, hid, hcount,
      List.length_append, hk.length]
    exact ⟨(hk.put hup).symm, hlast⟩

end Transition

/-! ### Runs -/

namespace System

variable {ι K : Type*}

/-- The active list of waypoints: the first `_count` items of the store `_dataman_id`. -/
def active (s : System ι K) : List (Option (MissionItem K)) :=
  listOf (s.shared.store.waypoints s.shared.dataman_id) s.shared.count.mission

variable [DecidableEq ι] [Field K] [LinearOrder K] [FloorRing K] [Elementary K]
  (cs : Casts K) (wrap_2pi : Flt K → Flt K)

/-- The steps that may change the active list: an upload is accepted, or the list is cleared
by a message or by an upload of zero items. -/
def Replaces (s : System ι K) (p : ι × Event K) : Prop :=
  ((s.core p.1).Uploads ∧ ∃ a ∈ s.sent cs wrap_2pi p, a.2 = .ACCEPTED) ∨
    ∃ io msg t, p.2 = .message io msg ∧ (t = .MISSION ∨ t = .ALL) ∧
      (msg.body = .clearAll t ∨ msg.body = .count 0 t)

/-- No upload of a mission is opened during another one. -/
def Alone (s : System ι K) (p : ι × Event K) : Prop :=
  ∀ io msg n, p.2 = .message io msg → (s.core p.1).Opens msg n .MISSION → ∀ j, ¬ (s.core j).Uploads

end System

/-- The system, and what each manager has received in its upload. -/
structure Recorded (ι K : Type*) where
  sys : System ι K
  items : ι → List (MissionItem K)

namespace Recorded

variable {ι K : Type*}

def init (shared : Shared K) : Recorded ι K := ⟨.init shared, fun _ => []⟩

variable [DecidableEq ι] [Field K] [LinearOrder K] [FloorRing K] [Elementary K]
  (cs : Casts K) (wrap_2pi : Flt K → Flt K)

def step (s : Recorded ι K) (p : ι × Event K) : Recorded ι K where
  sys := s.sys.step cs wrap_2pi p
  items := Function.update s.items p.1 (recorded cs wrap_2pi (s.sys.core p.1) (s.items p.1) p.2)

/-- The active list changes only where it may, and is what was received, with as many items as were
announced, where an upload of it is accepted. -/
structure Atomic (s : Recorded ι K) (p : ι × Event K) : Prop where
  changed : (s.sys.step cs wrap_2pi p).active ≠ s.sys.active → s.sys.Replaces cs wrap_2pi p
  accepted : (s.sys.core p.1).Uploads → (∃ a ∈ s.sys.sent cs wrap_2pi p, a.2 = .ACCEPTED) →
    (s.step cs wrap_2pi p).sys.active = ((s.step cs wrap_2pi p).items p.1).map some ∧
      ((s.step cs wrap_2pi p).items p.1).length = (s.sys.core p.1).transfer_count

/-- Nobody else uploads a mission, and every upload of one is kept. -/
structure Invariant (s : Recorded ι K) : Prop where
  single : ∀ i j, (s.sys.core i).Uploads → (s.sys.core j).Uploads → i = j
  kept : ∀ i, (s.sys.core i).Uploads → Kept (s.sys.core i) (s.items i)

omit [DecidableEq ι] [Field K] [LinearOrder K] [FloorRing K] [Elementary K] in
theorem invariant_init (shared : Shared K) : (init shared : Recorded ι K).Invariant := by
  have hidle : ∀ i, ¬ ((init shared : Recorded ι K).sys.core i).Uploads := fun _ h =>
    absurd h.1 (by simp [init, System.init, System.core, System.world, World.core, Manager.init])
  exact ⟨fun i _ hi => absurd hi (hidle i), fun i hi => absurd hi (hidle i)⟩

variable {cs wrap_2pi}

theorem invariant_step {s : Recorded ι K} (h : s.Invariant) {p : ι × Event K}
    (halone : s.sys.Alone p) : (s.step cs wrap_2pi p).Invariant := by
  obtain ⟨i, e⟩ := p
  have hmove := (System.step_transition cs wrap_2pi s.sys i e).move
  have hother : ∀ j, j ≠ i → (s.step cs wrap_2pi (i, e)).sys.core j =
      (s.sys.core j).sees ((s.sys.step cs wrap_2pi (i, e)).core i) := fun j hj =>
    System.core_step_other s.sys hj e
  -- whoever is in an upload of a mission after the step, the others are not
  have hself : ∀ j, j ≠ i → ((s.step cs wrap_2pi (i, e)).sys.core i).Uploads →
      ¬ (s.sys.core j).Uploads := by
    intro j hj hi hup
    rcases hmove.uploads hi with hbefore | ⟨io, msg, n, he, hopens⟩
    · exact hj (h.single j i hup hbefore)
    · exact halone io msg n he hopens j hup
  constructor
  · intro j k hup hup'
    by_cases hj : j = i
    · by_cases hk : k = i
      · rw [hj, hk]
      · rw [hother k hk] at hup'
        rw [hj] at hup
        exact absurd hup' (hself k hk hup)
    · rw [hother j hj] at hup
      by_cases hk : k = i
      · rw [hk] at hup'
        exact absurd hup (hself j hj hup')
      · rw [hother k hk] at hup'
        exact h.single j k hup hup'
  · intro j hup
    by_cases hj : j = i
    · subst hj
      rw [show (s.step cs wrap_2pi (j, e)).items j = _ from Function.update_self j _ _]
      exact hmove.kept (h.kept j) hup
    · rw [show (s.step cs wrap_2pi (i, e)).items j = s.items j from Function.update_of_ne hj _ _,
        hother j hj]
      rw [hother j hj] at hup
      refine hmove.kept_other rfl (h.kept j hup) (fun hi => hj (h.single j i hup hi)) ?_
      exact fun io msg n he hopens => halone io msg n he hopens j hup

theorem atomic_step {s : Recorded ι K} (h : s.Invariant) (p : ι × Event K) :
    s.Atomic cs wrap_2pi p := by
  obtain ⟨i, e⟩ := p
  have hmove := (System.step_transition cs wrap_2pi s.sys i e).move
  constructor
  · intro hne
    rcases hmove.active (h.kept i) with hsame | hrep
    · exact absurd hsame hne
    · exact hrep
  · intro hup hacc
    rw [show (s.step cs wrap_2pi (i, e)).items i = _ from Function.update_self i _ _]
    exact hmove.active_accepted hup (h.kept i hup) hacc

/-- For any number of managers and any order of messages, timeouts and periodic calls: if no
upload of a mission is opened during another one, every step is atomic. -/
theorem atomic_of_alone (shared : Shared K) (es : List (ι × Event K))
    (h : Trace.Always (step cs wrap_2pi) (fun s p => s.sys.Alone p) (init shared) es) :
    Trace.Always (step cs wrap_2pi) (Atomic cs wrap_2pi) (init shared) es :=
  Trace.always_of_invariant
    (fun _ p hinv halone => ⟨atomic_step hinv p, invariant_step hinv halone⟩)
    (invariant_init shared) h

def singleUpload : List (Unit × Event ℝ) :=
  [((), .message (.ok 1) ⟨⟨255, 1⟩, ⟨1, 1⟩, .count 1 .MISSION⟩),
    ((), .message (.ok 2) ⟨⟨255, 1⟩, ⟨1, 1⟩, .item (itemAt .NAV_TAKEOFF .GLOBAL_INT 0 0)⟩)]

theorem atomic_singleUpload :
    Trace.Always (step realCasts realWrap) (fun s p => s.sys.Alone p) (init .fresh) singleUpload ∧
      Trace.Always (step realCasts realWrap) (Atomic realCasts realWrap) (init .fresh)
        singleUpload := by
  have halone : ∀ (s : System Unit ℝ) (p : Unit × Event ℝ), s.Alone p := by
    intro s p io msg n he hopens j hup
    exact absurd (hup.1.symm.trans hopens.state) (by decide)
  have h : Trace.Always (step realCasts realWrap) (fun s p => s.sys.Alone p) (init .fresh)
      singleUpload := ⟨halone _ _, halone _ _, trivial⟩
  exact ⟨h, atomic_of_alone .fresh singleUpload h⟩

/-- The timeout of a download lets a second upload begin; it goes on when the first one is
accepted, and writes into the active list. -/
theorem active_list_overwritten :
    ¬ ∀ es : List (Bool × Event ℝ), Trace.Always (step realCasts realWrap)
      (Atomic realCasts realWrap) (init .fresh) es := by
  intro h
  obtain ⟨-, -, -, -, -, hstep, -⟩ := h
    [(true, .message (.ok 1) ⟨⟨255, 2⟩, ⟨1, 1⟩, .requestList .MISSION⟩),
      (false, .message (.ok 1) ⟨⟨255, 1⟩, ⟨1, 1⟩, .count 1 .MISSION⟩),
      (true, .send (.ok 6000000) false none false),
      (true, .message (.ok 6000001) ⟨⟨255, 2⟩, ⟨1, 1⟩, .count 2 .MISSION⟩),
      (false, .message (.ok 6000002)
        ⟨⟨255, 1⟩, ⟨1, 1⟩, .item (itemAt .NAV_TAKEOFF .GLOBAL_INT 0 0)⟩),
      (true, .message (.ok 6000003) ⟨⟨255, 2⟩, ⟨1, 1⟩, .item (itemAt .NAV_LAND .GLOBAL_INT 0 0)⟩)]
  have hreplaces := hstep.changed fun heq =>
    absurd (congrArg (List.map (Option.map MissionItem.nav_cmd)) heq) (by decide)
  rcases hreplaces with ⟨-, a, ha, -⟩ | ⟨io, msg, t, hmsg, -, hbody⟩
  · exact absurd ha (List.not_mem_nil)
  · cases hmsg
    rcases hbody with hbody | hbody
    · exact absurd hbody (by simp)
    · exact absurd hbody (by simp)

end Recorded

end Mission
