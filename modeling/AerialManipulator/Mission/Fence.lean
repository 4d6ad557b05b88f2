/-
Uploads of fences and rally points that are given up.

There is one store for the points of a kind, so an upload overwrites the stored points one by
one; their number is written at the end.  An upload that ends without being accepted has
overwritten as many points as items were written, and a fence polygon with too few vertices
also sets the number to zero.

`Uploading i key s₀ s items` says that the manager `i` is in an upload of that kind which was
opened in the state `s₀`, and has written the items; what the other managers do in the
meantime leaves these points alone.

* `Uploading.accepted` — when an upload of a fence is accepted, its items are the stored points;
* **`Uploading.abandoned_iff`** — when such an upload ends without being accepted, the stored
  points are what they were exactly if each written item agrees with the stored point of its
  index, and a polygon with too few vertices is refused only while there are no points;
* **`Uploading.cancelled_upload_differs`** — the cancelled upload after which they are not.
-/
import AerialManipulator.Mission.System

open WithNaN

namespace Mission

/-- The number of points that the entry in front of them gives. -/
def numItems (stats : Option Stats) : ℕ :=
  match stats with
  | some s => s.num_items
  | none => 0

/-- The points with the indices `1` to their number. -/
def pointList {K : Type*} (points : ℕ → Option (Point K)) (stats : Option Stats) :
    List (Option (Point K)) :=
  listOf (fun k => points (k + 1)) (numItems stats)

namespace Core

variable {K : Type*}

def stored (c : Core K) (key : PointKey) : List (Option (Point K)) :=
  pointList (c.points key) (c.stats key)

/-- The points of `c` are those of `c₀`, the first ones overwritten by the items. -/
def Overwritten (key : PointKey) (items : List (MissionItem K)) (c₀ c : Core K) : Prop :=
  ∀ k, c.points key (k + 1) = (items[k]?.map key.point).or (c₀.points key (k + 1))

theorem Overwritten.nil (key : PointKey) (c : Core K) : Overwritten key [] c c := fun _ => rfl

theorem Overwritten.of_eq {key : PointKey} {items : List (MissionItem K)} {c₀ c c' : Core K}
    (h : Overwritten key items c₀ c) (heq : c'.points key = c.points key) :
    Overwritten key items c₀ c' := by
  intro k
  rw [heq]
  exact h k

theorem Overwritten.put {key : PointKey} {items : List (MissionItem K)} {c₀ c c' : Core K}
    (h : Overwritten key items c₀ c) (hlen : items.length = c.transfer_seq)
    (htype : c.mission_type = key.type) {item : MissionItem K}
    (heq : c'.points = c.putPoint item) : Overwritten key (items ++ [item]) c₀ c' := by
  intro k
  rw [heq, putPoint_key key htype, Function.update_self]
  by_cases hk : k = c.transfer_seq
  · rw [hk, Function.update_self, ← hlen, List.getElem?_concat_length]
    rfl
  · rw [Function.update_of_ne (by omega), h k]
    rcases Nat.lt_or_ge k items.length with hlt | hge
    · rw [List.getElem?_append_left hlt]
    · rw [List.getElem?_eq_none hge, List.getElem?_eq_none (by simp; omega)]

theorem Overwritten.stored_eq_iff {key : PointKey} {items : List (MissionItem K)} {c₀ c : Core K}
    (h : Overwritten key items c₀ c) (hstats : c.stats key = c₀.stats key) :
    c.stored key = c₀.stored key ↔ ∀ k < numItems (c₀.stats key), ∀ item, items[k]? = some item →
      c₀.points key (k + 1) = some (key.point item) := by
  rw [stored, stored, hstats, pointList, pointList, listOf, listOf, List.map_inj_left]
  refine forall_congr' fun k => ?_
  rw [List.mem_range, h k]
  refine imp_congr_right fun _ => ?_
  cases items[k]? with
  | none => simp
  | some item =>
    constructor
    · rintro heq item' ⟨⟩
      exact heq.symm
    · intro heq
      exact (heq item rfl).symm

end Core

def System.stored {ι K : Type*} (s : System ι K) (key : PointKey) : List (Option (Point K)) :=
  pointList (s.shared.store.points key) (s.shared.store.stats key)

section Transition

variable {K : Type*} [Field K] [LinearOrder K] [FloorRing K] [Elementary K] {cs : Casts K}
  {wrap_2pi : Flt K → Flt K} {due : Io → Bool} {c₀ c c' : Core K} {e : Event K}
  {acks : List (Address × MissionResult)} {key : PointKey} {items : List (MissionItem K)}

variable (cs wrap_2pi) in
/-- The items of an upload that have been written, after one more event. -/
def written (c : Core K) (items : List (MissionItem K)) : Event K → List (MissionItem K)
  | .message io msg =>
    match msg.body with
    | .item wp =>
      if addressed c.own msg.target ∧ wp.mission_type = c.mission_type ∧ wp.seq = items.length then
        match parseMavlinkMissionItem cs wrap_2pi wp with
        | .ok item => if c.Storable io item then items ++ [item] else items
        | .error _ => items
      else items
    | _ => items
  | _ => items

theorem written_storable {io : Io} {msg : Message K} {wp : WireItem K} {item : MissionItem K}
    (hlen : items.length = c.transfer_seq) (hexp : c.Expected msg wp)
    (hparse : parseMavlinkMissionItem cs wrap_2pi wp = .ok item) (hstore : c.Storable io item) :
    written cs wrap_2pi c items (.message io msg) = items ++ [item] := by
  rw [written, hexp.body]
  dsimp only
  rw [if_pos ⟨hexp.addressed, hexp.mission_type, hexp.seq.trans hlen.symm⟩, hparse]
  exact if_pos hstore

theorem written_eq (hlen : items.length = c.transfer_seq) (hget : c.state = .GETLIST)
    (h : ∀ io msg wp item, e = .message io msg → c.Expected msg wp →
      parseMavlinkMissionItem cs wrap_2pi wp = .ok item → ¬ c.Storable io item) :
    written cs wrap_2pi c items e = items := by
  unfold written
  split
  · next io msg =>
    split
    · next wp hbody =>
      split
      · next hitem =>
        have hexp : c.Expected msg wp :=
          ⟨hbody, hitem.1, hitem.2.1, hget, hitem.2.2.trans hlen⟩
        split
        · next item hparse => exact if_neg (h io msg wp item rfl hexp hparse)
        · rfl
      · rfl
    · rfl
  · rfl

variable (cs wrap_2pi) in
/-- A fence polygon with too few vertices is refused, and the fence is emptied. -/
def EmptiesFence (c : Core K) (e : Event K) : Prop :=
  c.mission_type = .FENCE ∧ ∃ io msg wp item, e = .message io msg ∧ c.Expected msg wp ∧
    parseMavlinkMissionItem cs wrap_2pi wp = .ok item ∧ item.tooFew ∧ io.writeStats .FENCE_POINTS

theorem emptiesFence_iff {io : Io} {msg : Message K} {wp : WireItem K} (hexp : c.Expected msg wp) :
    EmptiesFence cs wrap_2pi c (.message io msg) ↔ c.mission_type = .FENCE ∧
      ∃ item, parseMavlinkMissionItem cs wrap_2pi wp = .ok item ∧ item.tooFew ∧
        io.writeStats .FENCE_POINTS := by
  refine and_congr_right fun _ => ⟨?_, ?_⟩
  · rintro ⟨io', msg', wp', item, he, hexp', hitem⟩
    cases he
    cases hexp.body.symm.trans hexp'.body
    exact ⟨item, hitem⟩
  · rintro ⟨item, hitem⟩
    exact ⟨io, msg, wp, item, rfl, hexp, hitem⟩

theorem not_emptiesFence_of_storable {io : Io} {msg : Message K} {wp : WireItem K}
    {item : MissionItem K} (hexp : c.Expected msg wp)
    (hparse : parseMavlinkMissionItem cs wrap_2pi wp = .ok item) (hstore : c.Storable io item) :
    ¬ EmptiesFence cs wrap_2pi c (.message io msg) := by
  rw [emptiesFence_iff hexp]
  rintro ⟨hfence, item', hparse', hfew, -⟩
  cases hparse.symm.trans hparse'
  rw [Core.Storable, hfence] at hstore
  exact Bool.false_ne_true (hstore.1.symm.trans hfew)

/-- What a step of an upload does to the points of its kind: the items that were written are
there, and the number is the old one unless the upload is accepted or the fence emptied. -/
structure Progress (cs : Casts K) (wrap_2pi : Flt K → Flt K) (key : PointKey) (c₀ : Core K)
    (items : List (MissionItem K)) (c : Core K) (e : Event K) (c' : Core K)
    (acks : List (Address × MissionResult)) : Prop where
  points : Core.Overwritten key (written cs wrap_2pi c items e) c₀ c'
  stats : c'.stats key = c.stats key ∨ (∃ a ∈ acks, a.2 = .ACCEPTED) ∨
    (EmptiesFence cs wrap_2pi c e ∧ numItems (c'.stats key) = 0)
  emptied : EmptiesFence cs wrap_2pi c e → numItems (c'.stats key) = 0
  goesOn : c'.state = .GETLIST → c'.mission_type = c.mission_type ∧
    (written cs wrap_2pi c items e).length = c'.transfer_seq ∧ c'.stats key = c.stats key

theorem Progress.of_not_expected (hlen : items.length = c.transfer_seq)
    (hget : c.state = .GETLIST) (hpts : Core.Overwritten key items c₀ c)
    (h : ∀ io msg wp, e = .message io msg → ¬ c.Expected msg wp) (heq : c'.points = c.points)
    (hstats : c'.stats = c.stats) (hgoes : c'.state = .GETLIST →
      c'.mission_type = c.mission_type ∧ c'.transfer_seq = c.transfer_seq) :
    Progress cs wrap_2pi key c₀ items c e c' acks := by
  have hsame : written cs wrap_2pi c items e = items :=
    written_eq hlen hget fun io msg wp item he hexp _ => absurd hexp (h io msg wp he)
  refine ⟨?_, .inl (congrFun hstats key), ?_, ?_⟩
  · rw [hsame]
    exact hpts.of_eq (congrFun heq key)
  · rintro ⟨-, io, msg, wp, item, he, hexp, -⟩
    exact absurd hexp (h io msg wp he)
  · intro hget'
    obtain ⟨htype, hseq⟩ := hgoes hget'
    rw [hsame, hseq, hlen]
    exact ⟨htype, rfl, congrFun hstats key⟩

theorem Progress.of_not_storable {io : Io} {msg : Message K} {wp : WireItem K}
    (hlen : items.length = c.transfer_seq) (hget : c.state = .GETLIST)
    (hpts : Core.Overwritten key items c₀ c) (hexp : c.Expected msg wp)
    (hnot : ∀ item, parseMavlinkMissionItem cs wrap_2pi wp = .ok item → ¬ c.Storable io item)
    (heq : c'.points = c.points) (hstate : c'.state ≠ .GETLIST)
    (hstats : (¬ EmptiesFence cs wrap_2pi c (.message io msg) ∧ c'.stats key = c.stats key) ∨
      (EmptiesFence cs wrap_2pi c (.message io msg) ∧ numItems (c'.stats key) = 0)) :
    Progress cs wrap_2pi key c₀ items c (.message io msg) c' acks := by
  have hsame : written cs wrap_2pi c items (.message io msg) = items := by
    refine written_eq hlen hget fun io' msg' wp' item he hexp' hparse => ?_
    cases he
    cases hexp.body.symm.trans hexp'.body
    exact hnot item hparse
  refine ⟨?_, ?_, ?_, fun h => absurd h hstate⟩
  · rw [hsame]
    exact hpts.of_eq (congrFun heq key)
  · rcases hstats with ⟨-, hst⟩ | hempty
    · exact .inl hst
    · exact .inr (.inr hempty)
  · rcases hstats with ⟨hno, -⟩ | ⟨-, hzero⟩
    · exact fun h => absurd h hno
    · exact fun _ => hzero

theorem Progress.of_storable {io : Io} {msg : Message K} {wp : WireItem K} {item : MissionItem K}
    (hlen : items.length = c.transfer_seq) (htype : c.mission_type = key.type)
    (hpts : Core.Overwritten key items c₀ c) (hexp : c.Expected msg wp)
    (hparse : parseMavlinkMissionItem cs wrap_2pi wp = .ok item) (hstore : c.Storable io item)
    (heq : c'.points = c.putPoint item)
    (hstats : c'.stats key = c.stats key ∨ ∃ a ∈ acks, a.2 = .ACCEPTED)
    (hgoes : c'.state = .GETLIST → c'.mission_type = c.mission_type ∧
      c'.transfer_seq = c.transfer_seq + 1 ∧ c'.stats = c.stats) :
    Progress cs wrap_2pi key c₀ items c (.message io msg) c' acks := by
  have hitems : written cs wrap_2pi c items (.message io msg) = items ++ [item] :=
    written_storable hlen hexp hparse hstore
  have hnot := not_emptiesFence_of_storable hexp hparse hstore
  refine ⟨?_, hstats.imp id .inl, fun h => absurd h hnot, ?_⟩
  · rw [hitems]
    exact hpts.put hlen htype heq
  · intro hget'
    obtain ⟨ht, hseq, hst⟩ := hgoes hget'
    rw [hitems, hseq, List.length_append, hlen, hst]
    exact ⟨ht, rfl, rfl⟩

theorem Transition.begins (h : Transition cs wrap_2pi due c e c' acks)
    (hbefore : c.state ≠ .GETLIST) (hget : c'.state = .GETLIST) :
    c'.transfer_seq = 0 ∧ c'.points = c.points ∧ c'.stats = c.stats := by
  cases h with
  | openUpload => exact ⟨rfl, rfl, rfl⟩
  | quiet => exact absurd hget hbefore
  | refuse => exact absurd hget hbefore
  | serve k st hsender hnot hstate hst => exact absurd hget hst
  | clear r haddressed hstate hbody hempty =>
    obtain ⟨d, n, st, rfl, -⟩ := hempty
    exact absurd hget hbefore
  | store hexp => exact absurd hexp.state hbefore
  | report => exact absurd hget hbefore
  | _ => exact absurd hget (by simp)

theorem Transition.progress (h : Transition cs wrap_2pi due c e c' acks)
    (hlen : items.length = c.transfer_seq) (hget : c.state = .GETLIST)
    (htype : c.mission_type = key.type) (hpts : Core.Overwritten key items c₀ c) :
    Progress cs wrap_2pi key c₀ items c e c' acks := by
  cases h with
  | quiet hnot =>
    refine .of_not_expected hlen hget hpts ?_ rfl rfl fun _ => ⟨rfl, rfl⟩
    exact fun io msg wp he hexp => hnot io msg he hexp.concerns
  | @refuse io msg t r hconcerns hfree ht =>
    refine .of_not_expected hlen hget hpts ?_ rfl rfl fun _ => ⟨?_, rfl⟩
    · intro io' msg' wp he
      cases he
      exact hfree wp
    · rcases ht with ht | hidle
      · exact ht
      · exact absurd (hget.symm.trans hidle) (by decide)
  | serve k st hsender hnot hstate => exact absurd (hget.symm.trans hstate) (by decide)
  | endDownload hnot hstate => exact absurd (hget.symm.trans hstate) (by decide)
  | cancel hnot =>
    refine .of_not_expected hlen hget hpts ?_ rfl rfl (by simp)
    intro io' msg' wp he hexp
    cases he
    exact hnot hexp.concerns
  | download hbody =>
    refine .of_not_expected hlen hget hpts ?_ rfl rfl (by simp)
    intro io' msg' wp he hexp
    cases he
    exact absurd (hbody.symm.trans hexp.body) (by simp)
  | openUpload hopens => exact absurd (hget.symm.trans hopens.state) (by decide)
  | clear r haddressed hstate => exact absurd (hget.symm.trans hstate) (by decide)
  | reject r hexp hitem =>
    refine .of_not_storable hlen hget hpts hexp (fun item hparse => (hitem item hparse).1) rfl
      (by simp) (.inl ⟨?_, rfl⟩)
    rw [emptiesFence_iff hexp]
    rintro ⟨hfence, item, hparse, hfew⟩
    exact absurd ⟨hfence, hfew⟩ (hitem item hparse).2
  | @rejectPolygon io msg wp item n k hexp hparse hfence hfew hn hio =>
    have hempties : EmptiesFence cs wrap_2pi c (.message io msg) :=
      (emptiesFence_iff hexp).mpr ⟨hfence, item, hparse, hfew, hio⟩
    have hkey : key = .FENCE_POINTS := by
      cases key with
      | FENCE_POINTS => rfl
      | SAFE_POINTS => exact absurd (hfence.symm.trans htype) (by decide)
    subst hkey
    refine .of_not_storable hlen hget hpts hexp ?_ rfl (by simp) (.inr ⟨hempties, ?_⟩)
    · intro item' hparse' hstore
      exact not_emptiesFence_of_storable hexp hparse' hstore hempties
    · dsimp only
      rw [Function.update_self]
      rfl
  | store hexp hitem hstore hmore =>
    exact .of_storable hlen htype hpts hexp hitem hstore rfl (.inl rfl) fun _ => ⟨rfl, rfl, rfl⟩
  | complete hexp hitem hstore hlast hcommit =>
    obtain ⟨d, n, st, rfl, -⟩ := hcommit
    exact .of_storable hlen htype hpts hexp hitem hstore rfl
      (.inr ⟨_, List.mem_singleton_self _, rfl⟩) (by simp)
  | commitFails hexp hitem hstore hlast =>
    exact .of_storable hlen htype hpts hexp hitem hstore rfl (.inl rfl) (by simp)
  | timeout =>
    refine .of_not_expected hlen hget hpts ?_ rfl rfl (by simp)
    simp
  | report t hstate => exact absurd (hget.symm.trans hstate) (by decide)

/-! ### Accepted uploads -/

open World

theorem Transition.completes (h : Transition cs wrap_2pi due c e c' acks)
    (hget : c.state = .GETLIST) (hacc : ∃ a ∈ acks, a.2 = .ACCEPTED) :
    ∃ io msg wp item, e = .message io msg ∧ c.Expected msg wp ∧
      parseMavlinkMissionItem cs wrap_2pi wp = .ok item ∧ c.Storable io item ∧
      c.transfer_seq + 1 = c.transfer_count := by
  obtain ⟨a, ha, hacc⟩ := hacc
  cases h with
  | @complete io msg wp item c' hexp hitem hstore hlast hcommit =>
    exact ⟨io, msg, wp, item, rfl, hexp, hitem, hstore, hlast⟩
  | refuse t r hconcerns hfree ht hr =>
    rw [List.mem_singleton.mp ha] at hacc
    exact absurd (hget.symm.trans (hr hacc)) (by decide)
  | serve k st hsender hnot hstate => exact absurd (hget.symm.trans hstate) (by decide)
  | clear r haddressed hstate => exact absurd (hget.symm.trans hstate) (by decide)
  | reject r hexp hitem hr =>
    rw [List.mem_singleton.mp ha] at hacc
    exact absurd hacc hr
  | rejectPolygon =>
    rw [List.mem_singleton.mp ha] at hacc
    exact absurd (show MissionResult.ERROR = .ACCEPTED from hacc) (by decide)
  | commitFails =>
    rw [List.mem_singleton.mp ha] at hacc
    exact absurd (show MissionResult.ERROR = .ACCEPTED from hacc) (by decide)
  | report t hstate => exact absurd (hget.symm.trans hstate) (by decide)
  | _ => exact nomatch ha

omit [Field K] [LinearOrder K] [FloorRing K] [Elementary K] in
theorem World.commitUpload_fence {w w' : World K} {io : Io} (htype : w.me.mission_type = .FENCE)
    (hacks : w.acks = [])
    (hw' : w' = match w.commitUpload io with
      | (w, ret) => { w.switchToIdleState.ackPartner (if ret then .ACCEPTED else .ERROR) with
          shared.transfer_in_progress := false })
    (hacc : ∃ a ∈ w'.acks, a.2 = .ACCEPTED) :
    numItems (w'.shared.store.stats .FENCE_POINTS) = w.me.transfer_count := by
  have hcommit : w.commitUpload io = updateCount .FENCE_POINTS w io w.me.transfer_count := by
    unfold World.commitUpload
    rw [htype]
    rfl
  have hcore := core_updateCount .FENCE_POINTS w io w.me.transfer_count
  have hsnd := snd_updateCount .FENCE_POINTS w io w.me.transfer_count
  have hacks₁ := (acks_updateCount .FENCE_POINTS w io w.me.transfer_count).trans hacks
  rw [hcommit] at hw'
  generalize updateCount .FENCE_POINTS w io w.me.transfer_count = r at hcore hsnd hacks₁ hw'
  obtain ⟨w₁, ret⟩ := r
  obtain rfl : ret = io.writeStats .FENCE_POINTS := hsnd
  have hstats : w'.shared.store.stats = w₁.core.stats := by
    rw [hw']
    rfl
  by_cases hio : io.writeStats .FENCE_POINTS = true
  · rw [if_pos hio] at hcore
    rw [hstats, hcore]
    dsimp only
    rw [Function.update_self]
    rfl
  · have hone : w'.acks =
        [(w₁.me.partner, if io.writeStats .FENCE_POINTS then .ACCEPTED else .ERROR)] := by
      rw [hw']
      refine (acks_ackPartner _ _).trans ?_
      rw [show w₁.switchToIdleState.acks = [] from hacks₁]
      rfl
    obtain ⟨a, ha, hacc⟩ := hacc
    rw [hone, if_neg hio] at ha
    rw [List.mem_singleton.mp ha] at hacc
    exact absurd (show MissionResult.ERROR = .ACCEPTED from hacc) (by decide)

theorem World.takeItem_fence {w : World K} (hacks : w.acks = []) {io : Io} {wp : WireItem K}
    {item : MissionItem K} (hseq : wp.seq = w.me.transfer_seq)
    (hparse : parseMavlinkMissionItem cs wrap_2pi wp = .ok item)
    (hstore : w.core.Storable io item) (hlast : w.core.transfer_seq + 1 = w.core.transfer_count)
    (htype : w.me.mission_type = .FENCE)
    (hacc : ∃ a ∈ (w.takeItem cs wrap_2pi io wp).acks, a.2 = .ACCEPTED) :
    numItems ((w.takeItem cs wrap_2pi io wp).shared.store.stats .FENCE_POINTS) =
      w.core.transfer_count := by
  obtain ⟨w₁, heq, hcore, hme, hacks₁⟩ := storeItem_of_storable hstore
  revert hacc
  unfold takeItem
  rw [hparse]
  dsimp only
  rw [hseq, heq]
  dsimp only
  rw [if_neg (by simp), if_pos (by rw [hme]; exact hlast)]
  intro hacc
  refine (commitUpload_fence ?_ ?_ rfl hacc).trans ?_
  · rw [hme]
    exact htype
  · exact hacks₁.trans hacks
  · rw [hme]
    rfl

theorem World.react_expected {w : World K} {io : Io} {msg : Message K} {wp : WireItem K}
    (hexp : w.core.Expected msg wp) :
    w.react cs wrap_2pi (.message io msg) = World.takeItem cs wrap_2pi
      { w with me.int_mode := wp.intMode, me.time_last_recv := io.now } io wp := by
  have haddressed : addressed w.shared.own msg.target = true := hexp.addressed
  have hitem : wp.mission_type = w.me.mission_type := hexp.mission_type
  have hstate : w.me.state = .GETLIST := hexp.state
  have hseq : wp.seq = w.me.transfer_seq := hexp.seq
  dsimp only [react]
  unfold handleMessage
  rw [hexp.body]
  dsimp only [takeMode]
  rw [if_pos haddressed]
  unfold dispatch handleMissionItemBoth
  dsimp only
  rw [if_neg (not_not.mpr hitem), hstate]
  dsimp only
  rw [if_neg (not_not.mpr hseq)]

theorem World.react_fence {w : World K} (hacks : w.acks = []) {io : Io} {msg : Message K}
    {wp : WireItem K} {item : MissionItem K} (hexp : w.core.Expected msg wp)
    (hparse : parseMavlinkMissionItem cs wrap_2pi wp = .ok item)
    (hstore : w.core.Storable io item) (hlast : w.core.transfer_seq + 1 = w.core.transfer_count)
    (htype : w.me.mission_type = .FENCE)
    (hacc : ∃ a ∈ (w.react cs wrap_2pi (.message io msg)).acks, a.2 = .ACCEPTED) :
    numItems ((w.react cs wrap_2pi (.message io msg)).shared.store.stats .FENCE_POINTS) =
      w.core.transfer_count := by
  rw [react_expected hexp] at hacc ⊢
  exact takeItem_fence (w := { w with me.int_mode := wp.intMode, me.time_last_recv := io.now })
    hacks hexp.seq hparse hstore hlast htype hacc

theorem written_not_tooFew (htype : c.mission_type = .FENCE)
    (h : ∀ item ∈ items, item.tooFew = false) :
    ∀ item ∈ written cs wrap_2pi c items e, item.tooFew = false := by
  unfold written
  split
  · split
    · split
      · split
        · split
          · next hstore =>
            intro item hitem
            rcases List.mem_append.mp hitem with hold | hnew
            · exact h item hold
            · rw [Core.Storable, htype] at hstore
              rw [List.mem_singleton.mp hnew]
              exact hstore.1
          · exact h
        · exact h
      · exact h
    · exact h
  · exact h

end Transition

/-- The upload of the manager `i` that was opened in `s₀` and has come to `s`. -/
inductive Uploading {ι K : Type*} [DecidableEq ι] [Field K] [LinearOrder K] [FloorRing K]
    [Elementary K] (cs : Casts K) (wrap_2pi : Flt K → Flt K) (i : ι) (key : PointKey)
    (s₀ : System ι K) : System ι K → List (MissionItem K) → Prop
  | opened {e : Event K} (hbefore : (s₀.inst i).state ≠ .GETLIST)
      (hget : ((s₀.step cs wrap_2pi (i, e)).inst i).state = .GETLIST)
      (htype : ((s₀.step cs wrap_2pi (i, e)).inst i).mission_type = key.type) :
      Uploading cs wrap_2pi i key s₀ (s₀.step cs wrap_2pi (i, e)) []
  | own {s : System ι K} {items : List (MissionItem K)} {e : Event K}
      (h : Uploading cs wrap_2pi i key s₀ s items)
      (hget : ((s.step cs wrap_2pi (i, e)).inst i).state = .GETLIST) :
      Uploading cs wrap_2pi i key s₀ (s.step cs wrap_2pi (i, e))
        (written cs wrap_2pi (s.core i) items e)
  | other {s : System ι K} {items : List (MissionItem K)} {j : ι} {e : Event K}
      (h : Uploading cs wrap_2pi i key s₀ s items) (hj : i ≠ j)
      (hpoints : (s.step cs wrap_2pi (j, e)).shared.store.points key = s.shared.store.points key)
      (hstats : (s.step cs wrap_2pi (j, e)).shared.store.stats key = s.shared.store.stats key) :
      Uploading cs wrap_2pi i key s₀ (s.step cs wrap_2pi (j, e)) items

namespace Uploading

variable {ι K : Type*} [DecidableEq ι] [Field K] [LinearOrder K] [FloorRing K] [Elementary K]
  {cs : Casts K} {wrap_2pi : Flt K → Flt K} {i : ι} {key : PointKey} {s₀ s : System ι K}
  {items : List (MissionItem K)}

/-- What holds all through an upload. -/
structure Invariant (key : PointKey) (c₀ c : Core K) (items : List (MissionItem K)) : Prop where
  state : c.state = .GETLIST
  mission_type : c.mission_type = key.type
  length : items.length = c.transfer_seq
  points : Core.Overwritten key items c₀ c
  stats : c.stats key = c₀.stats key

theorem invariant (h : Uploading cs wrap_2pi i key s₀ s items) :
    Invariant key (s₀.core i) (s.core i) items := by
  induction h with
  | @opened e hbefore hget htype =>
    obtain ⟨hseq, hpoints, hstats⟩ :=
      (System.step_transition cs wrap_2pi s₀ i e).begins hbefore hget
    exact ⟨hget, htype, hseq.symm, (Core.Overwritten.nil key _).of_eq (congrFun hpoints key),
      congrFun hstats key⟩
  | @own s items e h hget ih =>
    have hprog := (System.step_transition cs wrap_2pi s i e).progress ih.length ih.state
      ih.mission_type ih.points
    obtain ⟨htype, hlen, hstats⟩ := hprog.goesOn hget
    exact ⟨hget, htype.trans ih.mission_type, hlen, hprog.points, hstats.trans ih.stats⟩
  | @other s items j e h hj hpoints hstats ih =>
    rw [System.core_step_other s hj e]
    exact ⟨ih.state, ih.mission_type, ih.length, ih.points.of_eq hpoints,
      (show _ = (s.core i).stats key from hstats).trans ih.stats⟩

theorem not_tooFew (h : Uploading cs wrap_2pi i .FENCE_POINTS s₀ s items) :
    ∀ item ∈ items, item.tooFew = false := by
  induction h with
  | opened => exact fun item hitem => nomatch hitem
  | own h hget ih => exact written_not_tooFew h.invariant.mission_type ih
  | other h hj hpoints hstats ih => exact ih

/-- After an upload of a fence that was accepted, the points are the written items, and their
number is known. -/
theorem accepted (h : Uploading cs wrap_2pi i .FENCE_POINTS s₀ s items) {e : Event K}
    (hacc : ∃ a ∈ s.sent cs wrap_2pi (i, e), a.2 = .ACCEPTED) :
    numItems ((s.step cs wrap_2pi (i, e)).shared.store.stats .FENCE_POINTS) =
        (written cs wrap_2pi (s.core i) items e).length ∧
      (∀ k item, (written cs wrap_2pi (s.core i) items e)[k]? = some item →
        (s.step cs wrap_2pi (i, e)).shared.store.points .FENCE_POINTS (k + 1) =
          some (fencePoint item)) ∧
      ∀ item ∈ written cs wrap_2pi (s.core i) items e, item.tooFew = false := by
  have hinv := h.invariant
  have htrans := System.step_transition cs wrap_2pi s i e
  obtain ⟨io, msg, wp, item, rfl, hexp, hparse, hstore, hlast⟩ := htrans.completes hinv.state hacc
  have hprog := htrans.progress hinv.length hinv.state hinv.mission_type hinv.points
  have hwritten := written_storable hinv.length hexp hparse hstore
  refine ⟨?_, fun k item' hk => ?_, written_not_tooFew hinv.mission_type h.not_tooFew⟩
  · rw [hwritten, List.length_append, hinv.length, List.length_singleton, hlast]
    exact World.react_fence rfl hexp hparse hstore hlast hinv.mission_type hacc
  · have hpoint := hprog.points k
    rw [hk] at hpoint
    exact hpoint

/-- After any event in an upload with which it is not accepted, and so whatever ends it, be it
a refused item, a failed write, the partner, a timeout or a request for a list: the stored
points are the same as before the upload exactly if the written items agree with them, and no
polygon with too few vertices has emptied a fence that had points. -/
theorem abandoned_iff (h : Uploading cs wrap_2pi i key s₀ s items) {e : Event K}
    (hacks : ∀ a ∈ s.sent cs wrap_2pi (i, e), a.2 ≠ .ACCEPTED) :
    (s.step cs wrap_2pi (i, e)).stored key = s₀.stored key ↔
      (∀ k < numItems (s₀.shared.store.stats key), ∀ item,
        (written cs wrap_2pi (s.core i) items e)[k]? = some item →
        s₀.shared.store.points key (k + 1) = some (key.point item)) ∧
      (EmptiesFence cs wrap_2pi (s.core i) e → numItems (s₀.shared.store.stats key) = 0) := by
  have hinv := h.invariant
  have hprog := (System.step_transition cs wrap_2pi s i e).progress hinv.length hinv.state
    hinv.mission_type hinv.points
  by_cases hempties : EmptiesFence cs wrap_2pi (s.core i) e
  · -- the fence is empty now, so it was before
    have hnow : (s.step cs wrap_2pi (i, e)).stored key = [] := by
      have hzero := hprog.emptied hempties
      rw [System.stored, pointList]
      exact congrArg (listOf _) hzero
    rw [hnow]
    constructor
    · intro hnil
      have hzero : numItems (s₀.shared.store.stats key) = 0 := by
        have hlen := congrArg List.length hnil
        simpa [System.stored, pointList, listOf] using hlen.symm
      refine ⟨fun k hk => ?_, fun _ => hzero⟩
      rw [hzero] at hk
      exact absurd hk (Nat.not_lt_zero k)
    · rintro ⟨-, hzero⟩
      rw [System.stored, pointList, hzero hempties]
      rfl
  · have hstats : ((s.step cs wrap_2pi (i, e)).core i).stats key = (s₀.core i).stats key := by
      rcases hprog.stats with hsame | ⟨a, ha, hacc⟩ | ⟨hempty, -⟩
      · exact hsame.trans hinv.stats
      · exact absurd hacc (hacks a ha)
      · exact absurd hempty hempties
    refine (hprog.points.stored_eq_iff hstats).trans ?_
    exact (and_iff_left fun h => absurd h hempties).symm

/-- An upload of a fence is begun in `s`, and the first of `count` items is sent. -/
noncomputable def partialUpload (count : ℕ) (s : System Unit ℝ) (wp : WireItem ℝ) : System Unit ℝ :=
  (s.step realCasts realWrap ((), .message (.ok 1) ⟨⟨255, 1⟩, ⟨1, 1⟩, .count count .FENCE⟩)).step
    realCasts realWrap ((), .message (.ok 2) ⟨⟨255, 1⟩, ⟨1, 1⟩, .item wp⟩)

def cancel : Event ℝ :=
  .message (.ok 3) ⟨⟨255, 1⟩, ⟨1, 1⟩, .ack .OPERATION_CANCELLED .FENCE⟩

def exclusion : WireItem ℝ :=
  { itemAt .NAV_FENCE_CIRCLE_EXCLUSION .GLOBAL_INT 0 0 with mission_type := .FENCE }

def fenced : Shared ℝ :=
  { (Shared.fresh : Shared ℝ) with
    store := ⟨fun _ _ => none,
      fun _ _ => some (.fence 0 0 0 (.radius 0) .NAV_FENCE_CIRCLE_INCLUSION .GLOBAL),
      fun _ => some ⟨1, 0⟩, none⟩
    count := ⟨0, 1, 1⟩ }

/-- The circle of a fence is sent again, before the partner cancels. -/
theorem abandoned_again :
    let stored := partialUpload 1 (.init .fresh) exclusion
    (stored.stored .FENCE_POINTS).length = 1 ∧
      ((partialUpload 2 stored exclusion).step realCasts realWrap ((), cancel)).stored
        .FENCE_POINTS = stored.stored .FENCE_POINTS := by
  have h : Uploading realCasts realWrap () .FENCE_POINTS (partialUpload 1 (.init .fresh) exclusion)
      (partialUpload 2 (partialUpload 1 (.init .fresh) exclusion) exclusion) _ :=
    .own (.opened (by decide) rfl rfl) rfl
  refine ⟨rfl, (abandoned_iff h ?_).mpr ⟨?_, ?_⟩⟩
  · exact fun a ha => nomatch ha
  · intro k hk item hitem
    obtain rfl : k = 0 := Nat.lt_one_iff.mp hk
    obtain rfl := Option.some.inj hitem
    rfl
  · rintro ⟨-, io, msg, wp, item, he, hexp, -⟩
    obtain ⟨-, rfl⟩ := Event.message.inj he
    cases hexp.body

/-- The partner cancels after it has replaced the circle. -/
theorem cancelled_upload_differs :
    ¬ ∀ (s₀ s : System Unit ℝ) (items : List (MissionItem ℝ)) (e : Event ℝ),
      Uploading realCasts realWrap () .FENCE_POINTS s₀ s items →
      ((s.step realCasts realWrap ((), e)).inst ()).state ≠ .GETLIST →
      (∀ a ∈ s.sent realCasts realWrap ((), e), a.2 ≠ .ACCEPTED) →
      (s.step realCasts realWrap ((), e)).stored .FENCE_POINTS = s₀.stored .FENCE_POINTS := by
  intro hclaim
  have h : Uploading realCasts realWrap () .FENCE_POINTS (.init fenced)
      (partialUpload 2 (.init fenced) exclusion) _ :=
    .own (.opened (by decide) rfl rfl) rfl
  have heq := hclaim _ _ _ cancel h (by decide) (fun a ha => nomatch ha)
  have hpoint := Point.fence.inj (Option.some.inj (List.cons.inj heq).1)
  exact nomatch hpoint.2.2.2.2.1

end Uploading

end Mission
