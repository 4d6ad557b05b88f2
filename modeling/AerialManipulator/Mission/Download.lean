/-
Downloads.

A ground station asks for a list, is told how many items there are, and then asks for one
item after the other.  `_transfer_seq` is the number of the next item.  The lists are shared
by all managers, so they may change in the middle of a download; `handle_mission_request_both`
looks at their length again before it sends an item.

To say in what order the items are sent, a run is recorded: `requested` are the numbers that
the partner of a manager has asked for since it asked for the list, `lastSent` is the last
one that it got.

* **`Logged.served`** — in every run, an item of a download is sent to the partner, on its
  request for that number, from the list of that type and after all items before it have been
  asked for; an item that is asked for again is sent again as long as it is the last one asked
  for, is still in the list and can be read, and the download never advances on that;
* **`Logged.item_not_resent`** — the run in which it is not sent again.
-/
import AerialManipulator.Mission.System

open WithNaN

namespace Mission

variable {K : Type*}

structure SentItem (K : Type*) where
  target : Address
  seq : ℕ
  wp : WireItem K

def Out.delivers : Out K → Option (SentItem K)
  | .item target seq _ wp => some ⟨target, seq, wp⟩
  | _ => none

def Out.isCount : Out K → Bool
  | .count _ _ _ => true
  | _ => false

def Body.isRequestList : Body K → Bool
  | .requestList _ => true
  | _ => false

def Body.isRequestInt : Body K → Bool
  | .requestInt _ _ => true
  | _ => false

/-- The number of the item that the partner asks for in a download. -/
def Core.asked (c : Core K) (msg : Message K) : Option ℕ :=
  if addressed c.own msg.target ∧ c.state = .SENDLIST ∧ msg.sender = c.partner then
    match msg.body with
    | .request seq t | .requestInt seq t => if t = c.mission_type then some seq else none
    | _ => none
  else none

theorem Core.asked_eq_some {c : Core K} {msg : Message K} {seq : ℕ}
    (h : c.asked msg = some seq) :
    addressed c.own msg.target ∧ c.state = .SENDLIST ∧ msg.sender = c.partner ∧
      (msg.body = .request seq c.mission_type ∨ msg.body = .requestInt seq c.mission_type) := by
  unfold asked at h
  split at h
  · next hcond =>
    obtain ⟨haddressed, hstate, hsender⟩ := hcond
    refine ⟨haddressed, hstate, hsender, ?_⟩
    cases hbody : msg.body with
    | request k t =>
      rw [hbody] at h
      obtain ⟨rfl, rfl⟩ : t = c.mission_type ∧ k = seq := by simpa using h
      exact .inl rfl
    | requestInt k t =>
      rw [hbody] at h
      obtain ⟨rfl, rfl⟩ : t = c.mission_type ∧ k = seq := by simpa using h
      exact .inr rfl
    | _ => simp [hbody] at h
  · exact absurd h (by simp)

theorem Core.asked_not_list {c : Core K} {msg : Message K} {seq : ℕ}
    (h : c.asked msg = some seq) : msg.body.isRequestList = false := by
  obtain ⟨-, -, -, hbody | hbody⟩ := asked_eq_some h
  · rw [hbody]
    rfl
  · rw [hbody]
    rfl

theorem Core.asked_eq_none {c : Core K} {msg : Message K} (h : c.asked msg = none)
    (haddressed : addressed c.own msg.target) (hstate : c.state = .SENDLIST)
    (hsender : msg.sender = c.partner) (seq : ℕ) :
    msg.body ≠ .request seq c.mission_type ∧ msg.body ≠ .requestInt seq c.mission_type := by
  unfold asked at h
  rw [if_pos ⟨haddressed, hstate, hsender⟩] at h
  constructor
  · intro hbody
    simp [hbody] at h
  · intro hbody
    simp [hbody] at h

namespace World

def items (w : World K) : List (SentItem K) := w.out.filterMap Out.delivers

def counted (w : World K) : Bool := w.out.any Out.isCount

theorem items_say (w : World K) (o : Out K) :
    (w.say o).items = w.items ++ (Out.delivers o).toList := by
  unfold items say
  rw [List.filterMap_append]
  cases h : Out.delivers o with
  | none => simp [h]
  | some a => simp [h]

@[simp] theorem items_critical (w : World K) (text : String) :
    (w.say (.critical text)).items = w.items := by
  rw [items_say]
  exact List.append_nil _

@[simp] theorem items_reached (w : World K) (seq : ℤ) : (w.say (.reached seq)).items = w.items := by
  rw [items_say]
  exact List.append_nil _

@[simp] theorem items_ackPartner (w : World K) (type : MissionResult) :
    (w.ackPartner type).items = w.items := by
  unfold ackPartner sendMissionAck
  rw [items_say]
  exact List.append_nil _

@[simp] theorem items_sendMissionCount (w : World K) (io : Io) (target : Address) (count : ℕ)
    (mission_type : MissionType) :
    (w.sendMissionCount io target count mission_type).items = w.items := by
  unfold sendMissionCount
  rw [items_say]
  exact List.append_nil _

@[simp] theorem items_filesystemError (w : World K) (text : String) :
    (w.filesystemError text).items = w.items := by
  unfold filesystemError
  split
  · exact items_critical _ _
  · rfl

@[simp] theorem items_sendMissionCurrent (w : World K) (seq : ℤ) :
    (w.sendMissionCurrent seq).items = w.items := by
  unfold sendMissionCurrent
  split
  · rw [items_say]
    exact List.append_nil _
  · split
    · rfl
    · exact items_critical _ _

@[simp] theorem items_noteResult (w : World K) (r : MissionResultTopic) :
    (w.noteResult r).items = w.items := by
  unfold noteResult
  dsimp only
  split
  · split
    · exact items_reached _ _
    · rfl
  · rfl

@[simp] theorem items_repeatProgress (w : World K) : w.repeatProgress.items = w.items := by
  unfold repeatProgress
  dsimp only
  split
  · exact (items_reached _ _).trans (items_sendMissionCurrent _ _)
  · exact items_sendMissionCurrent _ _

@[simp] theorem items_warnUnknownType (w : World K) : w.warnUnknownType.items = w.items := by
  unfold warnUnknownType
  split
  · rfl
  · rfl
  · rfl
  · exact items_critical _ _

theorem items_rejectRequest (w : World K) :
    w.rejectRequest.items = w.items ∧ (w.me.partner, .ERROR) ∈ w.rejectRequest.acks := by
  unfold rejectRequest
  constructor
  · exact (items_critical _ _).trans (items_ackPartner _ _)
  · rw [acks_critical, acks_ackPartner]
    exact List.mem_append_right _ (List.mem_singleton_self _)

theorem out_startDownload (w : World K) (io : Io) (sender : Address) (t : MissionType) :
    ∃ k, (w.startDownload io sender t).out = w.out ++ [.count sender k t] := by
  unfold startDownload
  dsimp only
  split
  · unfold loadGeofenceStats
    dsimp only
    split
    · exact ⟨_, rfl⟩
    · split
      · exact ⟨_, rfl⟩
      · exact ⟨_, rfl⟩
  · unfold loadSafepointStats
    dsimp only
    split
    · exact ⟨_, rfl⟩
    · split
      · exact ⟨_, rfl⟩
      · exact ⟨_, rfl⟩
  · exact ⟨_, rfl⟩

/-- No item is sent and the download is where it was, though it may be over. -/
structure Steady (w w' : World K) : Prop where
  items : w'.items = w.items
  seq : w'.me.transfer_seq = w.me.transfer_seq
  count : w'.me.transfer_count = w.me.transfer_count

theorem Steady.trans {w w₁ w₂ : World K} (h₁ : Steady w w₁) (h₂ : Steady w₁ w₂) : Steady w w₂ :=
  ⟨h₂.items.trans h₁.items, h₂.seq.trans h₁.seq, h₂.count.trans h₁.count⟩

theorem steady_ignored (w : World K) (text : String) (r : MissionResult) :
    Steady w ((w.say (.critical text)).ackPartner r) :=
  ⟨(items_ackPartner _ _).trans (items_critical _ _), rfl, rfl⟩

theorem steady_critical (w : World K) (text : String) : Steady w (w.say (.critical text)) :=
  ⟨items_critical _ _, rfl, rfl⟩

theorem takeMode_steady (w : World K) (body : Body K) : Steady w (w.takeMode body) := by
  unfold takeMode
  split
  all_goals exact ⟨rfl, rfl, rfl⟩

theorem checkActiveMission_steady (w : World K) (io : Io) (iridium : Bool) :
    Steady w (w.checkActiveMission io iridium) := by
  unfold checkActiveMission
  split
  · exact ⟨rfl, rfl, rfl⟩
  · split
    · exact ⟨items_sendMissionCount _ _ _ _ _, rfl, rfl⟩
    · exact ⟨rfl, rfl, rfl⟩

/-! ### What a request is answered with -/

section Requests

variable [Field K] [LinearOrder K] [FloorRing K] [Elementary K]
  (cs : Casts K) {wrap_2pi : Flt K → Flt K}

/-- The item that is sent for a request, if it is in the list and can be read. -/
def offered (w : World K) (io : Io) (seq : ℕ) : Option (SentItem K) :=
  if seq < w.currentItemCount ∧ io.read then
    (w.readItem seq).map fun item =>
      ⟨w.me.partner, seq, (formatMavlinkMissionItem cs w.me.int_mode item).2⟩
  else none

variable {cs} in
theorem offered_eq_some {w : World K} {io : Io} {seq : ℕ} {x : SentItem K}
    (h : w.offered cs io seq = some x) :
    x.seq = seq ∧ x.target = w.me.partner ∧ ∃ item, w.readItem seq = some item ∧
      x.wp = (formatMavlinkMissionItem cs w.me.int_mode item).2 := by
  unfold offered at h
  split at h
  · obtain ⟨item, hitem, rfl⟩ := Option.map_eq_some_iff.mp h
    exact ⟨rfl, rfl, item, hitem, rfl⟩
  · exact absurd h (by simp)

theorem offered_isSome (w : World K) (io : Io) (seq : ℕ) :
    (w.offered cs io seq).isSome ↔
      seq < w.currentItemCount ∧ io.read ∧ (w.readItem seq).isSome := by
  unfold offered
  by_cases h : seq < w.currentItemCount ∧ io.read
  · rw [if_pos h, Option.isSome_map]
    exact ⟨fun hr => ⟨h.1, h.2, hr⟩, fun hr => hr.2.2⟩
  · rw [if_neg h]
    exact iff_of_false (by simp) fun hr => h ⟨hr.1, hr.2.1⟩

omit [LinearOrder K] [FloorRing K] [Elementary K] in
theorem readItem_warnUnknownType (w : World K) (seq : ℕ) :
    w.warnUnknownType.readItem seq = w.readItem seq := by
  unfold warnUnknownType
  split
  · rfl
  · rfl
  · rfl
  · rfl

theorem items_sendMissionItem (w : World K) (io : Io) (target : Address) (seq : ℕ) :
    (w.sendMissionItem cs io target seq).items = w.items ++
        ((if io.read then w.readItem seq else none).map fun item =>
          (⟨target, seq, (formatMavlinkMissionItem cs w.me.int_mode item).2⟩ : SentItem K)).toList ∧
      ((if io.read then w.readItem seq else none) = none →
        (w.me.partner, .ERROR) ∈ (w.sendMissionItem cs io target seq).acks) := by
  have hme : w.warnUnknownType.me = w.me := (warnUnknownType_spec w).2.2
  unfold sendMissionItem
  dsimp only
  rw [readItem_warnUnknownType]
  cases hitem : if io.read then w.readItem seq else none with
  | some item =>
    dsimp only
    rw [items_say]
    constructor
    · rw [hme]
      exact congrArg (· ++ _) (items_warnUnknownType w)
    · exact fun h => absurd h (by simp)
  | none =>
    dsimp only
    constructor
    · rw [items_filesystemError, items_ackPartner, items_warnUnknownType]
      exact (List.append_nil _).symm
    · intro _
      rw [acks_filesystemError, acks_ackPartner, hme]
      exact List.mem_append_right _ (List.mem_singleton_self _)

theorem items_answerRequest (w : World K) (io : Io) (seq : ℕ) :
    (w.answerRequest cs io seq).items = w.items ++ (w.offered cs io seq).toList ∧
      (w.offered cs io seq = none → (w.me.partner, .ERROR) ∈ (w.answerRequest cs io seq).acks) := by
  unfold answerRequest offered
  by_cases hlt : seq < w.currentItemCount
  · obtain ⟨hitems, hacks⟩ := items_sendMissionItem cs w io w.me.partner seq
    rw [if_pos hlt, hitems]
    by_cases hread : io.read
    · rw [if_pos hread] at hacks ⊢
      rw [if_pos ⟨hlt, hread⟩]
      exact ⟨rfl, fun h => hacks (Option.map_eq_none_iff.mp h)⟩
    · rw [if_neg hread] at hacks ⊢
      rw [if_neg fun h => hread h.2]
      exact ⟨rfl, fun _ => hacks rfl⟩
  · obtain ⟨hitems, hacks⟩ := items_rejectRequest w
    rw [if_neg hlt, if_neg fun h => hlt h.1, hitems]
    exact ⟨(List.append_nil _).symm, fun _ => hacks⟩

/-- The next item, or the last one again. -/
def Expects (w : World K) (seq : ℕ) : Prop :=
  seq = w.me.transfer_seq ∧ w.me.transfer_seq < w.me.transfer_count ∨ seq + 1 = w.me.transfer_seq

/-- What a request of the partner leads to. -/
structure Answered (w : World K) (io : Io) (seq : ℕ) (w' : World K) : Prop where
  count : w'.me.transfer_count = w.me.transfer_count
  served : w.Expects seq → w'.me.transfer_seq = seq + 1 ∧ w'.items = (w.offered cs io seq).toList
  refused : ¬ w.Expects seq →
    w'.me.transfer_seq = w.me.transfer_seq ∧ w'.me.state = .IDLE ∧ w'.items = []
  error : w'.items = [] → (w.me.partner, .ERROR) ∈ w'.acks

theorem answerRequest_answered {w w₁ : World K} (hitems : w₁.items = []) {io : Io} {seq : ℕ}
    (hexp : w.Expects seq) (hcount : w₁.me.transfer_count = w.me.transfer_count)
    (hseq : w₁.me.transfer_seq = seq + 1) (hpartner : w₁.me.partner = w.me.partner)
    (hoffered : w₁.offered cs io seq = w.offered cs io seq) :
    Answered cs w io seq (w₁.answerRequest cs io seq) := by
  obtain ⟨hsent, hacks⟩ := items_answerRequest cs w₁ io seq
  rw [hitems, List.nil_append] at hsent
  have hcore := (answerRequest_spec cs w₁ io seq).1
  refine ⟨?_, fun _ => ⟨?_, ?_⟩, fun hnot => absurd hexp hnot, ?_⟩
  · rw [← hcount]
    rcases hcore with h | h
    · exact congrArg Core.transfer_count h
    · exact congrArg Core.transfer_count h
  · rw [← hseq]
    rcases hcore with h | h
    · exact congrArg Core.transfer_seq h
    · exact congrArg Core.transfer_seq h
  · rw [hsent, hoffered]
  · intro hnone
    rw [hsent] at hnone
    rw [← hpartner]
    exact hacks (by simpa using hnone)

theorem handleMissionRequestBoth_answered {w : World K} (hitems : w.items = []) (io : Io)
    {sender : Address} {seq : ℕ} {t : MissionType} (hsender : sender = w.me.partner)
    (hstate : w.me.state = .SENDLIST) (htype : w.me.mission_type = t) :
    Answered cs w io seq (w.handleMissionRequestBoth cs io sender seq t) := by
  unfold handleMissionRequestBoth
  rw [if_pos hsender]
  split
  · rw [if_neg (not_not.mpr htype)]
    dsimp only
    split
    · next hnext =>
      refine answerRequest_answered cs ?_ (.inl hnext) rfl ?_ rfl rfl
      · exact hitems
      · exact congrArg (· + 1) hnext.1.symm
    · next hnext =>
      split
      · next hagain =>
        refine answerRequest_answered cs ?_ (.inr hagain) rfl hagain.symm rfl rfl
        exact hitems
      · next hagain =>
        set w₁ : World K := { w with me.time_last_recv := io.now } with hw₁
        obtain ⟨hsent, hacks⟩ := items_rejectRequest w₁
        refine ⟨rfl, fun hexp => absurd hexp (not_or.mpr ⟨hnext, hagain⟩), fun _ => ?_,
          fun _ => hacks⟩
        exact ⟨rfl, rfl, hsent.trans hitems⟩
  · next hidle => exact absurd (hstate.symm.trans hidle) (by decide)
  · next hget => exact absurd (hstate.symm.trans hget) (by decide)

variable (wrap_2pi) in
theorem react_asked {w : World K} (hitems : w.items = []) (io : Io) {msg : Message K} {seq : ℕ}
    (h : w.core.asked msg = some seq) :
    Answered cs { w with me.int_mode := msg.body.isRequestInt } io seq
      (w.react cs wrap_2pi (.message io msg)) := by
  obtain ⟨haddressed, hstate, hsender, hbody⟩ := Core.asked_eq_some h
  have hreact : w.react cs wrap_2pi (.message io msg) =
      { w with me.int_mode := msg.body.isRequestInt }.handleMissionRequestBoth cs io msg.sender seq
        w.me.mission_type := by
    rw [react, handleMessage]
    rcases hbody with hbody | hbody
    · rw [hbody]
      exact if_pos haddressed
    · rw [hbody]
      exact if_pos haddressed
  rw [hreact]
  refine handleMissionRequestBoth_answered cs ?_ io hsender hstate rfl
  exact hitems

/-! ### What other events do -/

/-- A message in a download that is neither a request of the partner nor for a list. -/
theorem dispatch_steady {w : World K} (hstate : w.me.state = .SENDLIST) (io : Io)
    {sender : Address} {body : Body K}
    (hlist : body.isRequestList = false)
    (hasked : ∀ seq, sender = w.me.partner →
      body ≠ .request seq w.me.mission_type ∧ body ≠ .requestInt seq w.me.mission_type) :
    Steady w (w.dispatch cs wrap_2pi io sender body) := by
  have hboth : ∀ seq t, (body = .request seq t ∨ body = .requestInt seq t) →
      Steady w (w.handleMissionRequestBoth cs io sender seq t) := by
    intro seq t hbody
    unfold handleMissionRequestBoth
    split
    · next hsender =>
      split
      · split
        · exact ⟨rfl, rfl, rfl⟩
        · next htype =>
          rw [not_not] at htype
          rw [← htype] at hbody
          exact absurd hbody (not_or.mpr (hasked seq hsender))
      · exact ⟨rfl, rfl, rfl⟩
      · exact steady_critical _ _
    · exact steady_critical _ _
  unfold dispatch
  split
  · unfold handleMissionAck
    split
    · split
      · exact ⟨rfl, rfl, rfl⟩
      · rw [if_neg (by rw [hstate]; decide)]
        exact ⟨rfl, rfl, rfl⟩
    · exact steady_critical _ _
  · unfold handleMissionSetCurrent
    rw [if_neg (by rw [hstate]; decide)]
    exact steady_critical _ _
  · exact absurd hlist (by simp [Body.isRequestList])
  · exact hboth _ _ (.inl rfl)
  · exact hboth _ _ (.inr rfl)
  · unfold handleMissionCount
    rw [hstate]
    exact steady_ignored _ _ _
  · unfold handleMissionItemBoth
    split
    · exact ⟨items_ackPartner _ _, rfl, rfl⟩
    · rw [hstate]
      exact steady_ignored _ _ _
  · unfold handleMissionClearAll
    rw [if_neg (by rw [hstate]; decide)]
    exact steady_critical _ _

theorem handleMessage_steady {w : World K} (hstate : w.me.state = .SENDLIST) (io : Io)
    {msg : Message K} (hlist : msg.body.isRequestList = false) (hasked : w.core.asked msg = none) :
    Steady w (w.handleMessage cs wrap_2pi io msg) := by
  have hmode := takeMode_steady w msg.body
  have hcore := (takeMode_spec w msg.body).1
  unfold handleMessage
  dsimp only
  split
  · next haddressed =>
    have hstate' : (w.takeMode msg.body).me.state = .SENDLIST :=
      (congrArg Core.state hcore).trans hstate
    have hown : addressed w.core.own msg.target := by
      rw [← hcore]
      exact haddressed
    refine hmode.trans (dispatch_steady cs hstate' io hlist fun seq hsender => ?_)
    have hpartner : (w.takeMode msg.body).me.partner = w.core.partner :=
      congrArg Core.partner hcore
    have htype : (w.takeMode msg.body).me.mission_type = w.core.mission_type :=
      congrArg Core.mission_type hcore
    rw [htype]
    exact Core.asked_eq_none hasked hown hstate (hsender.trans hpartner) seq
  · exact hmode

theorem send_steady {w : World K} (hstate : w.me.state = .SENDLIST) (io : Io) (iridium : Bool)
    (result : Option MissionResultTopic) (slow : Bool) :
    Steady w (w.send cs io iridium result slow) := by
  have hbusy : w.core.state ≠ .IDLE := by
    rw [show w.core.state = .SENDLIST from hstate]
    decide
  have hrep := sendProgress_busy cs hbusy io result slow
  have hprogress : Steady w (w.sendProgress cs io result slow) := by
    refine ⟨?_, congrArg Core.transfer_seq hrep.core, congrArg Core.transfer_count hrep.core⟩
    unfold sendProgress
    split
    · next r =>
      have hstill : (w.noteResult r).me.state = w.me.state := (reported_noteResult w r).state
      dsimp only
      unfold resendJump
      rw [if_neg]
      · exact (items_sendMissionCurrent _ _).trans (items_noteResult _ _)
      · rintro ⟨-, hidle⟩
        rw [(reported_sendMissionCurrent _ _).state, hstill] at hidle
        exact hbusy hidle
    · split
      · exact items_repeatProgress w
      · rfl
  have hstill : (w.sendProgress cs io result slow).me.state = .SENDLIST := hrep.state.trans hstate
  unfold send
  split
  · exact ⟨rfl, rfl, rfl⟩
  · refine hprogress.trans ?_
    unfold checkTimeouts
    rw [if_neg (by simp [retryDue, hstill])]
    split
    · exact ⟨items_critical _ _, rfl, rfl⟩
    · rw [if_neg (by rw [hstill]; decide)]
      exact ⟨rfl, rfl, rfl⟩

variable (wrap_2pi) in
/-- Every event in a download that is neither a request of the partner nor for a list. -/
theorem react_steady {w : World K} (hstate : w.me.state = .SENDLIST) (e : Event K)
    (h : ∀ io msg, e = .message io msg → msg.body.isRequestList = false ∧ w.core.asked msg = none) :
    Steady w (w.react cs wrap_2pi e) := by
  cases e with
  | message io msg =>
    obtain ⟨hlist, hasked⟩ := h io msg rfl
    exact handleMessage_steady cs hstate io hlist hasked
  | send io iridium result slow => exact send_steady cs hstate io iridium result slow
  | checkActiveMission io iridium => exact checkActiveMission_steady w io iridium

variable (wrap_2pi) in
/-- A request for a list begins a download, which is told to the sender, or is ignored. -/
theorem react_requestList {w : World K} (io : Io) {msg : Message K}
    (hlist : msg.body.isRequestList) :
    let w' := w.react cs wrap_2pi (.message io msg)
    w'.items = w.items ∧
      ((w'.counted ∧ w'.me.transfer_seq = 0) ∨ (w'.core = w.core ∧ w'.counted = w.counted)) := by
  obtain ⟨t, hbody⟩ : ∃ t, msg.body = .requestList t := by
    cases hbody : msg.body with
    | requestList t => exact ⟨t, rfl⟩
    | _ => simp [hbody, Body.isRequestList] at hlist
  have hstart : ∀ w₁ : World K, (w₁.startDownload io msg.sender t).items = w₁.items ∧
      (w₁.startDownload io msg.sender t).counted ∧
      (w₁.startDownload io msg.sender t).me.transfer_seq = 0 := by
    intro w₁
    obtain ⟨k, hout⟩ := out_startDownload w₁ io msg.sender t
    obtain ⟨n, k', hcore, -⟩ := core_startDownload w₁ io msg.sender t
    refine ⟨?_, ?_, congrArg Core.transfer_seq hcore⟩
    · unfold items
      rw [hout, List.filterMap_append]
      exact List.append_nil _
    · unfold counted
      rw [hout, List.any_append]
      exact Bool.or_true _
  have hreact : w.react cs wrap_2pi (.message io msg) =
      if addressed w.shared.own msg.target then w.handleMissionRequestList io msg.sender t
      else w := by
    rw [react, handleMessage, hbody]
    rfl
  rw [hreact]
  dsimp only
  split
  · by_cases hdone : w.me.transfer_seq = w.currentItemCount
    · rw [handleMissionRequestList_done hdone]
      obtain ⟨hitems, hcounted, hseq⟩ := hstart w.switchToIdleState
      exact ⟨hitems, .inl ⟨hcounted, hseq⟩⟩
    · unfold handleMissionRequestList
      rw [if_neg hdone]
      dsimp only
      split
      · obtain ⟨hitems, hcounted, hseq⟩ := hstart w
        exact ⟨hitems, .inl ⟨hcounted, hseq⟩⟩
      · refine ⟨?_, .inr ⟨rfl, ?_⟩⟩
        · rw [items_say]
          exact List.append_nil _
        · unfold counted say
          rw [List.any_append]
          exact Bool.or_false _
  · exact ⟨rfl, .inr ⟨rfl, rfl⟩⟩

end Requests

end World

/-! ### Runs -/

section Transition

variable [Field K] [LinearOrder K] [FloorRing K] [Elementary K] {cs : Casts K}
  {wrap_2pi : Flt K → Flt K} {due : Io → Bool} {c c' : Core K} {e : Event K}
  {acks : List (Address × MissionResult)}

/-- The cursor is in the list, and in an upload there is something left to receive. -/
def Core.Bounded (c : Core K) : Prop :=
  c.transfer_seq ≤ c.transfer_count ∧ (c.state = .GETLIST → c.transfer_seq < c.transfer_count)

/-- Outside of downloads, the cursor stays in the list, and a request for a list is what begins
a download. -/
theorem Transition.bounded (h : Transition cs wrap_2pi due c e c' acks)
    (hstate : c.state ≠ .SENDLIST) (hc : c.Bounded) :
    c'.Bounded ∧ (c'.state = .SENDLIST →
      ∃ io msg, e = .message io msg ∧ msg.body.isRequestList ∧ c'.transfer_seq = 0) := by
  have hidle : ¬ (WpmState.IDLE = .SENDLIST) := by decide
  cases h with
  | quiet => exact ⟨hc, fun h => absurd h hstate⟩
  | refuse => exact ⟨hc, fun h => absurd h hstate⟩
  | serve k st hsender hnot hsend => exact absurd hsend hstate
  | endDownload hnot hsend => exact absurd hsend hstate
  | cancel => exact ⟨⟨hc.1, fun h => absurd h (by simp)⟩, fun h => absurd h hidle⟩
  | download hbody =>
    refine ⟨⟨Nat.zero_le _, fun h => absurd h (by simp)⟩, fun _ => ⟨_, _, rfl, ?_, rfl⟩⟩
    rw [hbody]
    rfl
  | openUpload hopens =>
    exact ⟨⟨Nat.zero_le _, fun _ => Nat.pos_of_ne_zero hopens.pos⟩, fun h => absurd h (by simp)⟩
  | clear r haddressed hst hbody hempty =>
    obtain ⟨d, n, st, rfl, -⟩ := hempty
    exact ⟨hc, fun h => absurd h hstate⟩
  | reject => exact ⟨⟨hc.1, fun h => absurd h (by simp)⟩, fun h => absurd h hidle⟩
  | rejectPolygon => exact ⟨⟨hc.1, fun h => absurd h (by simp)⟩, fun h => absurd h hidle⟩
  | store hexp hitem hstore hmore =>
    have hlt : c.transfer_seq + 1 < c.transfer_count :=
      lt_of_le_of_ne (hc.2 hexp.state) hmore
    exact ⟨⟨hlt.le, fun _ => hlt⟩, fun h => absurd h hstate⟩
  | complete hexp hitem hstore hlast hcommit =>
    obtain ⟨d, n, st, rfl, -⟩ := hcommit
    exact ⟨⟨hlast.le, fun h => absurd h (by simp)⟩, fun h => absurd h hidle⟩
  | commitFails hexp hitem hstore hlast =>
    exact ⟨⟨hlast.le, fun h => absurd h (by simp)⟩, fun h => absurd h hidle⟩
  | timeout => exact ⟨⟨hc.1, fun h => absurd h (by simp)⟩, fun h => absurd h hidle⟩
  | report => exact ⟨hc, fun h => absurd h hstate⟩

theorem Transition.not_getlist (h : Transition cs wrap_2pi due c e c' acks)
    (hstate : c.state = .SENDLIST) : c'.state ≠ .GETLIST := by
  have hsend : WpmState.SENDLIST ≠ .GETLIST := by decide
  have hidle : WpmState.IDLE ≠ .GETLIST := by decide
  cases h with
  | quiet => exact hstate ▸ hsend
  | refuse => exact fun h => hsend (hstate.symm.trans h)
  | serve k st hsender hnot hs hst => exact hst
  | endDownload => exact hidle
  | cancel => exact hidle
  | download => exact hsend
  | openUpload hopens => exact absurd (hstate.symm.trans hopens.state) (by decide)
  | clear r haddressed hst => exact absurd (hstate.symm.trans hst) (by decide)
  | reject => exact hidle
  | rejectPolygon => exact hidle
  | store hexp => exact absurd (hstate.symm.trans hexp.state) (by decide)
  | complete => exact hidle
  | commitFails => exact hidle
  | timeout => exact hidle
  | report t hst => exact absurd (hstate.symm.trans hst) (by decide)

end Transition

/-- What a manager has been asked for and has sent in its download. -/
structure Log where
  requested : List ℕ
  lastSent : Option ℕ

structure Logged (ι K : Type*) where
  sys : System ι K
  log : ι → Log

namespace Logged

variable {ι : Type*}

def init (shared : Shared K) : Logged ι K := ⟨.init shared, fun _ => ⟨[], none⟩⟩

variable [DecidableEq ι] [Field K] [LinearOrder K] [FloorRing K] [Elementary K]
  (cs : Casts K) (wrap_2pi : Flt K → Flt K)

def delivered (s : Logged ι K) (p : ι × Event K) : List (SentItem K) :=
  ((s.sys.world p.1).react cs wrap_2pi p.2).items

/-- The log of the manager that takes a step: a new download begins where a request for a list
is answered with its length. -/
def note (s : Logged ι K) (p : ι × Event K) : Log :=
  match p.2 with
  | .message _ msg =>
    if msg.body.isRequestList ∧ ((s.sys.world p.1).react cs wrap_2pi p.2).counted then ⟨[], none⟩
    else
      ⟨(s.log p.1).requested ++ ((s.sys.core p.1).asked msg).toList,
        ((s.delivered cs wrap_2pi p).getLast?.map SentItem.seq).or (s.log p.1).lastSent⟩
  | _ => s.log p.1

def step (s : Logged ι K) (p : ι × Event K) : Logged ι K where
  sys := s.sys.step cs wrap_2pi p
  log := Function.update s.log p.1 (s.note cs wrap_2pi p)

/-! The properties of a step. -/

/-- `_transfer_seq` is at most `_transfer_count`. -/
def InBounds (s : Logged ι K) : Prop :=
  ∀ i, (s.sys.inst i).transfer_seq ≤ (s.sys.inst i).transfer_count

/-- An item that is sent in a download goes to the partner, has been asked for by it, is the
stored one, and the ones before it have been asked for. -/
def Delivers (s : Logged ι K) (p : ι × Event K) : Prop :=
  (s.sys.inst p.1).state = .SENDLIST → ∀ x ∈ s.delivered cs wrap_2pi p, ∃ io msg item,
    p.2 = .message io msg ∧ (s.sys.core p.1).asked msg = some x.seq ∧
    x.target = (s.sys.inst p.1).partner ∧ (s.sys.world p.1).readItem x.seq = some item ∧
    x.wp = (formatMavlinkMissionItem cs msg.body.isRequestInt item).2 ∧
    ∀ k < x.seq, k ∈ (s.log p.1).requested

/-- The last item is sent again if it is asked for again, and the download does not advance. -/
def Resends (s : Logged ι K) (p : ι × Event K) : Prop :=
  ∀ io msg seq, p.2 = .message io msg → (s.sys.core p.1).asked msg = some seq →
    (s.log p.1).lastSent = some seq →
    ((s.step cs wrap_2pi p).sys.inst p.1).transfer_seq = (s.sys.inst p.1).transfer_seq ∧
    ∃ x ∈ s.delivered cs wrap_2pi p, x.seq = seq

/-- The download does not advance on that; the item is sent again exactly if it is also the
last one that was asked for, is still in the list and can be read, and otherwise the partner is
told of an error. -/
def Repeats (s : Logged ι K) (p : ι × Event K) : Prop :=
  ∀ io msg seq, p.2 = .message io msg → (s.sys.core p.1).asked msg = some seq →
    (s.log p.1).lastSent = some seq →
    ((s.step cs wrap_2pi p).sys.inst p.1).transfer_seq = (s.sys.inst p.1).transfer_seq ∧
    ((∃ x ∈ s.delivered cs wrap_2pi p, x.seq = seq) ↔
      (s.log p.1).requested.getLast? = some seq ∧
      seq < s.sys.shared.count.of (s.sys.inst p.1).mission_type ∧ io.read ∧
      ((s.sys.world p.1).readItem seq).isSome) ∧
    ((¬ ∃ x ∈ s.delivered cs wrap_2pi p, x.seq = seq) →
      ((s.sys.inst p.1).partner, .ERROR) ∈ s.sys.sent cs wrap_2pi p)

/-- The log of a download says where its cursor is. -/
structure Follows (c : Core K) (log : Log) : Prop where
  requested : ∀ k < c.transfer_seq, k ∈ log.requested
  last : ∀ k, log.requested.getLast? = some k → c.transfer_seq = k + 1
  sent : ∀ k, log.lastSent = some k → k < c.transfer_seq

/-- The invariant of the managers. -/
structure Consistent (c : Core K) (log : Log) : Prop where
  bounded : c.Bounded
  follows : c.state = .SENDLIST → Follows c log

omit [Field K] [LinearOrder K] [FloorRing K] [Elementary K] in
theorem Follows.of_zero {c : Core K} (h : c.transfer_seq = 0) : Follows c ⟨[], none⟩ :=
  ⟨fun k hk => absurd hk (by omega), fun _ h => absurd h (by simp), fun _ h => absurd h (by simp)⟩

variable {cs wrap_2pi}

omit [DecidableEq ι] in
theorem note_message (s : Logged ι K) (i : ι) (io : Io) {msg : Message K}
    (h : msg.body.isRequestList = false) :
    s.note cs wrap_2pi (i, .message io msg) =
      ⟨(s.log i).requested ++ ((s.sys.core i).asked msg).toList,
        ((s.delivered cs wrap_2pi (i, .message io msg)).getLast?.map SentItem.seq).or
          (s.log i).lastSent⟩ :=
  if_neg fun hlist => Bool.false_ne_true (h.symm.trans hlist.1)

theorem consistent_answered {s : Logged ι K} {i : ι} {io : Io} {msg : Message K} {seq : ℕ}
    (h : Consistent (s.sys.core i) (s.log i)) (hstate : (s.sys.core i).state = .SENDLIST)
    (hasked : (s.sys.core i).asked msg = some seq) :
    Consistent ((s.sys.step cs wrap_2pi (i, .message io msg)).core i)
      (s.note cs wrap_2pi (i, .message io msg)) := by
  obtain ⟨hcount, hserved, hrefused, -⟩ : World.Answered cs
      { s.sys.world i with me.int_mode := msg.body.isRequestInt } io seq
      ((s.sys.world i).react cs wrap_2pi (.message io msg)) :=
    World.react_asked cs wrap_2pi rfl io hasked
  have hget := (System.step_transition cs wrap_2pi s.sys i (.message io msg)).not_getlist hstate
  have hfollows := h.follows hstate
  have hbound : (s.sys.core i).transfer_seq ≤ (s.sys.core i).transfer_count := h.bounded.1
  rw [note_message s i io (Core.asked_not_list hasked), hasked]
  rw [System.core_step_self] at hget ⊢
  unfold delivered
  dsimp only
  set w' := (s.sys.world i).react cs wrap_2pi (.message io msg)
  change w'.core.transfer_count = (s.sys.core i).transfer_count at hcount
  by_cases hexp : (s.sys.world i).Expects seq
  · obtain ⟨hseq, hitems⟩ := hserved hexp
    change w'.core.transfer_seq = seq + 1 at hseq
    rw [hitems]
    have hle : (s.sys.core i).transfer_seq ≤ seq + 1 ∧ seq ≤ (s.sys.core i).transfer_seq ∧
        seq + 1 ≤ (s.sys.core i).transfer_count := by
      rcases hexp with ⟨hnext, hlt⟩ | hagain
      · change seq = (s.sys.core i).transfer_seq at hnext
        change (s.sys.core i).transfer_seq < (s.sys.core i).transfer_count at hlt
        omega
      · change seq + 1 = (s.sys.core i).transfer_seq at hagain
        omega
    refine ⟨⟨by rw [hseq, hcount]; exact hle.2.2, fun h => absurd h hget⟩, fun _ => ⟨?_, ?_, ?_⟩⟩
    · intro k hk
      rw [hseq] at hk
      rcases Nat.lt_succ_iff_lt_or_eq.mp hk with hlt | rfl
      · exact List.mem_append_left _ (hfollows.requested k (by omega))
      · exact List.mem_append_right _ (by simp)
    · intro k hk
      rw [hseq]
      simpa using hk
    · intro k hk
      rw [hseq]
      rcases Option.or_eq_some_iff.mp hk with hnew | ⟨-, hold⟩
      · obtain ⟨x, hx, rfl⟩ := Option.map_eq_some_iff.mp hnew
        have hoff := Option.mem_toList.mp (List.mem_of_getLast? hx)
        exact Nat.lt_succ_of_le (World.offered_eq_some hoff).1.le
      · exact (hfollows.sent k hold).trans_le hle.1
  · obtain ⟨hseq, hidle, -⟩ := hrefused hexp
    change w'.core.transfer_seq = (s.sys.core i).transfer_seq at hseq
    change w'.core.state = .IDLE at hidle
    refine ⟨⟨by rw [hseq, hcount]; exact hbound, fun h => absurd h hget⟩, fun hsend => ?_⟩
    exact absurd (hidle.symm.trans hsend) (by decide)

omit [DecidableEq ι] in
theorem note_steady {s : Logged ι K} {i : ι} {e : Event K}
    (hitems : s.delivered cs wrap_2pi (i, e) = [])
    (h : ∀ io msg, e = .message io msg → (s.sys.core i).asked msg = none ∧
      (msg.body.isRequestList → ((s.sys.world i).react cs wrap_2pi e).counted = false)) :
    s.note cs wrap_2pi (i, e) = s.log i := by
  cases e with
  | message io msg =>
    obtain ⟨hasked, hlist⟩ := h io msg rfl
    have hnot : ¬ (msg.body.isRequestList ∧
        ((s.sys.world i).react cs wrap_2pi (.message io msg)).counted) :=
      fun hboth => Bool.false_ne_true ((hlist hboth.1).symm.trans hboth.2)
    refine (if_neg hnot).trans ?_
    rw [hitems, hasked]
    simp
  | send => rfl
  | checkActiveMission => rfl

theorem consistent_requestList {s : Logged ι K} {i : ι} (io : Io) {msg : Message K}
    (hlist : msg.body.isRequestList) (h : Consistent (s.sys.core i) (s.log i)) :
    Consistent ((s.sys.step cs wrap_2pi (i, .message io msg)).core i)
      (s.note cs wrap_2pi (i, .message io msg)) := by
  have htrans := System.step_transition cs wrap_2pi s.sys i (.message io msg)
  have hcore : (s.sys.step cs wrap_2pi (i, .message io msg)).core i = _ :=
    System.core_step_self s.sys i (.message io msg)
  obtain ⟨hitems, ⟨hcounted, hzero⟩ | ⟨hsame, hcounted⟩⟩ :=
    World.react_requestList (w := s.sys.world i) cs wrap_2pi io hlist
  · have hseq : ((s.sys.step cs wrap_2pi (i, .message io msg)).core i).transfer_seq = 0 := by
      rw [hcore]
      exact hzero
    rw [show s.note cs wrap_2pi (i, .message io msg) = ⟨[], none⟩ from
      if_pos ⟨hlist, hcounted⟩]
    refine ⟨?_, fun _ => Follows.of_zero hseq⟩
    by_cases hstate : (s.sys.core i).state = .SENDLIST
    · refine ⟨by rw [hseq]; exact Nat.zero_le _, fun hget => ?_⟩
      exact absurd hget (htrans.not_getlist hstate)
    · exact (htrans.bounded hstate h.bounded).1
  · have hasked : (s.sys.core i).asked msg = none := by
      by_contra hne
      obtain ⟨seq, hseq⟩ := Option.ne_none_iff_exists'.mp hne
      exact Bool.false_ne_true ((Core.asked_not_list hseq).symm.trans hlist)
    rw [hcore, hsame, note_steady hitems]
    · exact h
    · rintro io msg ⟨⟩
      exact ⟨hasked, fun _ => hcounted⟩

theorem consistent_steady {s : Logged ι K} {i : ι} {e : Event K}
    (h : Consistent (s.sys.core i) (s.log i)) (hstate : (s.sys.core i).state = .SENDLIST)
    (hother : ∀ io msg, e = .message io msg →
      msg.body.isRequestList = false ∧ (s.sys.core i).asked msg = none) :
    Consistent ((s.sys.step cs wrap_2pi (i, e)).core i) (s.note cs wrap_2pi (i, e)) := by
  have hget := (System.step_transition cs wrap_2pi s.sys i e).not_getlist hstate
  obtain ⟨hitems, hseq, hcount⟩ :=
    World.react_steady (w := s.sys.world i) cs wrap_2pi hstate e hother
  rw [note_steady hitems fun io msg he => ⟨(hother io msg he).2, fun hl =>
    absurd ((hother io msg he).1.symm.trans hl) Bool.false_ne_true⟩]
  rw [System.core_step_self] at hget ⊢
  set w' := (s.sys.world i).react cs wrap_2pi e
  change w'.core.transfer_seq = (s.sys.core i).transfer_seq at hseq
  change w'.core.transfer_count = (s.sys.core i).transfer_count at hcount
  obtain ⟨hreq, hlast, hsent⟩ := h.follows hstate
  refine ⟨⟨by rw [hseq, hcount]; exact h.bounded.1, fun hg => absurd hg hget⟩, fun _ => ?_⟩
  refine ⟨?_, ?_, ?_⟩
  · rw [hseq]
    exact hreq
  · rw [hseq]
    exact hlast
  · rw [hseq]
    exact hsent

theorem consistent_self {s : Logged ι K} {i : ι} (e : Event K)
    (h : Consistent (s.sys.core i) (s.log i)) :
    Consistent ((s.sys.step cs wrap_2pi (i, e)).core i) (s.note cs wrap_2pi (i, e)) := by
  by_cases hlist : ∃ io msg, e = .message io msg ∧ msg.body.isRequestList
  · obtain ⟨io, msg, rfl, hlist⟩ := hlist
    exact consistent_requestList io hlist h
  · by_cases hstate : (s.sys.core i).state = .SENDLIST
    · by_cases hmsg : ∃ io msg seq, e = .message io msg ∧ (s.sys.core i).asked msg = some seq
      · obtain ⟨io, msg, seq, rfl, hasked⟩ := hmsg
        exact consistent_answered h hstate hasked
      · refine consistent_steady h hstate fun io msg he => ⟨?_, ?_⟩
        · rw [← Bool.not_eq_true]
          exact fun hl => hlist ⟨io, msg, he, hl⟩
        · by_contra hne
          obtain ⟨seq, hseq⟩ := Option.ne_none_iff_exists'.mp hne
          exact hmsg ⟨io, msg, seq, he, hseq⟩
    · obtain ⟨hbounded, hsend⟩ :=
        (System.step_transition cs wrap_2pi s.sys i e).bounded hstate h.bounded
      refine ⟨hbounded, fun hst => ?_⟩
      obtain ⟨io, msg, he, hl, -⟩ := hsend hst
      exact absurd ⟨io, msg, he, hl⟩ hlist

/-- All logs are in step with the cursors. -/
def Invariant (s : Logged ι K) : Prop := ∀ i, Consistent (s.sys.core i) (s.log i)

omit [DecidableEq ι] [Field K] [LinearOrder K] [FloorRing K] [Elementary K] in
theorem invariant_init (shared : Shared K) : (init shared : Logged ι K).Invariant := by
  intro i
  refine ⟨⟨le_rfl, fun h => absurd h ?_⟩, fun _ => Follows.of_zero rfl⟩
  exact (by decide : WpmState.IDLE ≠ .GETLIST)

theorem invariant_step {s : Logged ι K} (h : s.Invariant) (p : ι × Event K) :
    (s.step cs wrap_2pi p).Invariant := by
  obtain ⟨i, e⟩ := p
  intro j
  by_cases hj : j = i
  · subst hj
    rw [show (s.step cs wrap_2pi (j, e)).log j = s.note cs wrap_2pi (j, e) from
      Function.update_self _ _ _]
    exact consistent_self e (h j)
  · rw [show (s.step cs wrap_2pi (i, e)).log j = s.log j from Function.update_of_ne hj _ _]
    change Consistent ((s.sys.step cs wrap_2pi (i, e)).core j) (s.log j)
    rw [System.core_step_other s.sys hj e]
    obtain ⟨hbounded, hfollows⟩ := h j
    exact ⟨hbounded,
      fun hst => ⟨(hfollows hst).requested, (hfollows hst).last, (hfollows hst).sent⟩⟩

omit [DecidableEq ι] in
theorem asked_of_delivered {s : Logged ι K} {i : ι} {e : Event K}
    (hstate : (s.sys.core i).state = .SENDLIST) {x : SentItem K}
    (hx : x ∈ s.delivered cs wrap_2pi (i, e)) :
    ∃ io msg seq, e = .message io msg ∧ (s.sys.core i).asked msg = some seq := by
  by_contra hnot
  have hnone : ((s.sys.world i).react cs wrap_2pi e).items = [] := by
    by_cases hlist : ∃ io msg, e = .message io msg ∧ msg.body.isRequestList
    · obtain ⟨io, msg, rfl, hlist⟩ := hlist
      exact (World.react_requestList (w := s.sys.world i) cs wrap_2pi io hlist).1
    · refine (World.react_steady (w := s.sys.world i) cs wrap_2pi hstate e ?_).items
      intro io msg he
      refine ⟨?_, ?_⟩
      · rw [← Bool.not_eq_true]
        exact fun hl => hlist ⟨io, msg, he, hl⟩
      · by_contra hne
        obtain ⟨seq, hseq⟩ := Option.ne_none_iff_exists'.mp hne
        exact hnot ⟨io, msg, seq, he, hseq⟩
  rw [delivered, hnone] at hx
  exact nomatch hx

omit [DecidableEq ι] in
theorem delivers_step {s : Logged ι K} (h : s.Invariant) (p : ι × Event K) :
    s.Delivers cs wrap_2pi p := by
  obtain ⟨i, e⟩ := p
  intro hstate x hx
  obtain ⟨io, msg, seq, rfl, hasked⟩ := asked_of_delivered hstate hx
  obtain ⟨-, hserved, hrefused, -⟩ :=
    World.react_asked (w := s.sys.world i) cs wrap_2pi rfl io hasked
  by_cases hexp : (s.sys.world i).Expects seq
  · rw [delivered, (hserved hexp).2] at hx
    obtain ⟨rfl, htarget, item, hitem, hwp⟩ := World.offered_eq_some (Option.mem_toList.mp hx)
    refine ⟨io, msg, item, rfl, hasked, htarget, hitem, hwp, fun k hk => ?_⟩
    refine ((h i).follows hstate).requested k ?_
    change k < (s.sys.world i).me.transfer_seq
    rcases hexp with ⟨hnext, -⟩ | hagain
    · omega
    · omega
  · rw [delivered, (hrefused hexp).2.2] at hx
    exact nomatch hx

theorem repeats_step {s : Logged ι K} (h : s.Invariant) (p : ι × Event K) :
    s.Repeats cs wrap_2pi p := by
  obtain ⟨i, e⟩ := p
  rintro io msg seq rfl hasked hsent
  have hstate := (Core.asked_eq_some hasked).2.1
  obtain ⟨hreq, hlast, hbefore⟩ := (h i).follows hstate
  obtain ⟨-, hserved, hrefused, herror⟩ :=
    World.react_asked (w := s.sys.world i) cs wrap_2pi rfl io hasked
  have hlt : seq < (s.sys.world i).me.transfer_seq := hbefore seq hsent
  have hinst : (s.step cs wrap_2pi (i, .message io msg)).sys.inst i =
      ((s.sys.world i).react cs wrap_2pi (.message io msg)).me := Function.update_self _ _ _
  -- the last number asked for is the one before the cursor
  have hagain : (s.log i).requested.getLast? = some seq ↔
      seq + 1 = (s.sys.world i).me.transfer_seq := by
    constructor
    · exact fun hl => (hlast seq hl).symm
    · intro heq
      cases hl : (s.log i).requested.getLast? with
      | none =>
        rw [List.getLast?_eq_none_iff] at hl
        exact absurd (hreq seq hlt) (by rw [hl]; exact List.not_mem_nil)
      | some k =>
        have hk : (s.sys.world i).me.transfer_seq = k + 1 := hlast k hl
        exact congrArg some (by omega)
  have hexp : (s.sys.world i).Expects seq ↔ seq + 1 = (s.sys.world i).me.transfer_seq :=
    ⟨fun hexp => hexp.resolve_left fun hnext => hlt.ne hnext.1, .inr⟩
  rw [hinst]
  unfold delivered
  dsimp only
  by_cases hnext : (s.sys.world i).Expects seq
  · obtain ⟨hseq, hitems⟩ := hserved hnext
    have hsome := World.offered_isSome cs
      { s.sys.world i with me.int_mode := msg.body.isRequestInt } io seq
    have hmem : (∃ x ∈ ((s.sys.world i).react cs wrap_2pi (.message io msg)).items, x.seq = seq) ↔
        (World.offered cs { s.sys.world i with me.int_mode := msg.body.isRequestInt } io
          seq).isSome := by
      rw [hitems]
      constructor
      · rintro ⟨x, hx, -⟩
        exact Option.isSome_iff_exists.mpr ⟨x, Option.mem_toList.mp hx⟩
      · intro hs
        obtain ⟨x, hx⟩ := Option.isSome_iff_exists.mp hs
        exact ⟨x, Option.mem_toList.mpr hx, (World.offered_eq_some hx).1⟩
    refine ⟨hseq.trans (hexp.mp hnext), ?_, fun hnone => ?_⟩
    · rw [hmem, hsome]
      exact (and_iff_right (hagain.mpr (hexp.mp hnext))).symm
    · rw [hmem, Bool.not_eq_true, Option.isSome_eq_false_iff, Option.isNone_iff_eq_none] at hnone
      refine herror ?_
      rw [hitems, hnone]
      rfl
  · obtain ⟨hseq, -, hitems⟩ := hrefused hnext
    refine ⟨hseq, ?_, fun _ => herror hitems⟩
    rw [hitems]
    refine iff_of_false ?_ fun hall => hnext (hexp.mpr (hagain.mp hall.1))
    rintro ⟨x, hx, -⟩
    exact nomatch hx

/-- For any number of managers and any order of messages, timeouts and periodic calls: the
cursor of every manager is in its list, items of a download are sent to the partner on its
request, in order and as they are stored, and an item that is asked for again is sent again
if it is the last one asked for, is still in the list and can be read. -/
theorem served (shared : Shared K) (es : List (ι × Event K)) :
    Trace.Always (step cs wrap_2pi)
      (fun s p => s.InBounds ∧ s.Delivers cs wrap_2pi p ∧ s.Repeats cs wrap_2pi p)
      (init shared) es := by
  refine Trace.always_of_invariant (I := Invariant) (C := fun _ _ => True) (fun s p h _ => ?_)
    (invariant_init shared) (Trace.always_true _ es)
  exact ⟨⟨fun i => (h i).bounded.1, delivers_step h p, repeats_step h p⟩, invariant_step h p⟩

/-- The list is cleared over one link between two requests for its item over the other. -/
def clearedRun : List (Bool × Event ℝ) :=
  [(false, .message (.ok 1) ⟨⟨255, 1⟩, ⟨1, 1⟩, .count 1 .MISSION⟩),
    (false, .message (.ok 2) ⟨⟨255, 1⟩, ⟨1, 1⟩, .item (itemAt .NAV_TAKEOFF .GLOBAL_INT 0 0)⟩),
    (true, .message (.ok 3) ⟨⟨255, 2⟩, ⟨1, 1⟩, .requestList .MISSION⟩),
    (true, .message (.ok 4) ⟨⟨255, 2⟩, ⟨1, 1⟩, .requestInt 0 .MISSION⟩),
    (false, .message (.ok 5) ⟨⟨255, 1⟩, ⟨1, 1⟩, .clearAll .MISSION⟩),
    (true, .message (.ok 6) ⟨⟨255, 2⟩, ⟨1, 1⟩, .requestInt 0 .MISSION⟩)]

theorem item_not_resent :
    ¬ ∀ es : List (Bool × Event ℝ), Trace.Always (step realCasts realWrap)
      (fun s p => s.InBounds ∧ s.Delivers realCasts realWrap p ∧ s.Resends realCasts realWrap p)
      (init .fresh) es := by
  intro h
  obtain ⟨-, -, -, -, -, ⟨-, -, hresends⟩, -⟩ := h clearedRun
  obtain ⟨-, x, hx, -⟩ := hresends (.ok 6) ⟨⟨255, 2⟩, ⟨1, 1⟩, .requestInt 0 .MISSION⟩ 0 rfl rfl rfl
  exact nomatch hx

end Logged

end Mission
