/-
Who is answered, and whose items are stored.

Acknowledgements go to the partner of the last transfer, whoever has sent the message.  The
partner is set where a transfer begins; the handlers for acknowledgements and requests check
it, the ones for items, counts and clearing do not.

To say whose upload it is, a run is watched: `opener` keeps the sender of the message that
has opened it.

* **`Watched.faithful_iff`** — in every run, acknowledgements go to the sender of the message
  and nobody but the opener has an effect on an upload, exactly if each message that is
  answered or carries the expected item is from the partner;
* **`Watched.foreign_item_stored`** — the run in which it is not.
-/
import AerialManipulator.Mission.System

open WithNaN

namespace Mission

section Transition

variable {K : Type*} [Field K] [LinearOrder K] [FloorRing K] [Elementary K] {cs : Casts K}
  {wrap_2pi : Flt K → Flt K} {due : Io → Bool} {c c' : Core K} {io : Io} {msg : Message K}
  {acks : List (Address × MissionResult)}

/-- An answered message, or the expected item: the partner is told, or the item is stored. -/
theorem Transition.of_concerns (h : Transition cs wrap_2pi due c (.message io msg) c' acks)
    (hconcerns : c.Concerns msg) :
    (∃ r, (c.partner, r) ∈ acks) ∨
      (c.state = .GETLIST ∧ (∃ wp, msg.body = .item wp) ∧ c'.transfer_seq ≠ c.transfer_seq) := by
  cases h with
  | quiet hnot => exact absurd hconcerns (hnot io msg rfl)
  | refuse t r => exact .inl ⟨r, List.mem_singleton_self _⟩
  | serve k st hsender hnot => exact absurd hconcerns hnot
  | endDownload hnot => exact absurd hconcerns hnot
  | cancel hnot => exact absurd hconcerns hnot
  | download hbody =>
    rw [Core.Concerns, hbody] at hconcerns
    exact absurd hconcerns.2 id
  | openUpload hopens => exact absurd hconcerns hopens.not_concerns
  | clear r => exact .inl ⟨r, List.mem_singleton_self _⟩
  | reject r => exact .inl ⟨r, List.mem_singleton_self _⟩
  | rejectPolygon => exact .inl ⟨_, List.mem_singleton_self _⟩
  | store hexp => exact .inr ⟨hexp.state, ⟨_, hexp.body⟩, Nat.succ_ne_self _⟩
  | complete => exact .inl ⟨_, List.mem_singleton_self _⟩
  | commitFails => exact .inl ⟨_, List.mem_singleton_self _⟩

/-- Only the partner is told anything, and only on its own messages or such that are
answered. -/
theorem Transition.acks_partner (h : Transition cs wrap_2pi due c (.message io msg) c' acks)
    {a : Address × MissionResult} (ha : a ∈ acks) :
    a.1 = c.partner ∧ (c.Concerns msg ∨ msg.sender = c.partner) := by
  cases h with
  | quiet => exact nomatch ha
  | refuse t r hconcerns => exact ⟨congrArg Prod.fst (List.mem_singleton.mp ha), .inl hconcerns⟩
  | serve k st hsender hnot hstate hst hacks => exact ⟨hacks a ha, .inr hsender⟩
  | endDownload => exact nomatch ha
  | cancel => exact nomatch ha
  | download => exact nomatch ha
  | openUpload => exact nomatch ha
  | @clear _ _ t _ r haddressed hstate hbody =>
    refine ⟨congrArg Prod.fst (List.mem_singleton.mp ha), .inl ?_⟩
    rw [Core.Concerns]
    rcases hbody with hbody | ⟨hbody, -⟩
    · rw [hbody]
      exact ⟨haddressed, hstate⟩
    · rw [hbody]
      dsimp only
      rw [hstate]
      exact ⟨haddressed, .inr (.inl rfl)⟩
  | reject r hexp => exact ⟨congrArg Prod.fst (List.mem_singleton.mp ha), .inl hexp.concerns⟩
  | rejectPolygon n k hexp =>
    exact ⟨congrArg Prod.fst (List.mem_singleton.mp ha), .inl hexp.concerns⟩
  | store => exact nomatch ha
  | complete hexp => exact ⟨congrArg Prod.fst (List.mem_singleton.mp ha), .inl hexp.concerns⟩
  | commitFails hexp => exact ⟨congrArg Prod.fst (List.mem_singleton.mp ha), .inl hexp.concerns⟩

/-- In an upload, an item that is not the expected one changes nothing that is stored. -/
theorem Transition.item_ignored (h : Transition cs wrap_2pi due c (.message io msg) c' acks)
    (hconcerns : ¬ c.Concerns msg) (hstate : c.state = .GETLIST) {wp : WireItem K}
    (hbody : msg.body = .item wp) :
    c'.waypoints = c.waypoints ∧ c'.points = c.points ∧ c'.stats = c.stats ∧
      c'.transfer_seq = c.transfer_seq := by
  cases h with
  | quiet => exact ⟨rfl, rfl, rfl, rfl⟩
  | refuse t r h => exact absurd h hconcerns
  | serve k st hsender hnot hsend => exact absurd (hstate.symm.trans hsend) (by decide)
  | endDownload hnot hsend => exact absurd (hstate.symm.trans hsend) (by decide)
  | cancel => exact ⟨rfl, rfl, rfl, rfl⟩
  | download hlist => exact absurd (hbody.symm.trans hlist) (by simp)
  | openUpload hopens => exact absurd (hstate.symm.trans hopens.state) (by decide)
  | clear r haddressed hidle => exact absurd (hstate.symm.trans hidle) (by decide)
  | reject r hexp => exact absurd hexp.concerns hconcerns
  | rejectPolygon n k hexp => exact absurd hexp.concerns hconcerns
  | store hexp => exact absurd hexp.concerns hconcerns
  | complete hexp => exact absurd hexp.concerns hconcerns
  | commitFails hexp => exact absurd hexp.concerns hconcerns

theorem Transition.partner_of_upload {e : Event K} (h : Transition cs wrap_2pi due c e c' acks)
    (hget : c'.state = .GETLIST) :
    (c.state = .GETLIST ∧ c'.partner = c.partner) ∨
      (c.state ≠ .GETLIST ∧ ∃ io msg, e = .message io msg ∧ c'.partner = msg.sender) := by
  cases h with
  | quiet => exact .inl ⟨hget, rfl⟩
  | refuse => exact .inl ⟨hget, rfl⟩
  | serve k st hsender hnot hstate hst => exact absurd hget hst
  | endDownload => exact absurd hget (by simp)
  | cancel => exact absurd hget (by simp)
  | download => exact absurd hget (by simp)
  | openUpload hopens =>
    refine .inr ⟨?_, _, _, rfl, rfl⟩
    rw [hopens.state]
    decide
  | clear r haddressed hstate hbody hempty =>
    obtain ⟨d, n, st, rfl, -⟩ := hempty
    exact .inl ⟨hget, rfl⟩
  | reject => exact absurd hget (by simp)
  | rejectPolygon => exact absurd hget (by simp)
  | store hexp => exact .inl ⟨hexp.state, rfl⟩
  | complete => exact absurd hget (by simp)
  | commitFails => exact absurd hget (by simp)
  | timeout => exact absurd hget (by simp)
  | report => exact .inl ⟨hget, rfl⟩

end Transition

/-- The system, and who has opened the upload of each manager. -/
structure Watched (ι K : Type*) where
  sys : System ι K
  opener : ι → Address

namespace Watched

variable {ι K : Type*}

def init (shared : Shared K) : Watched ι K := ⟨.init shared, fun _ => ⟨0, 0⟩⟩

variable [DecidableEq ι] [Field K] [LinearOrder K] [FloorRing K] [Elementary K]
  (cs : Casts K) (wrap_2pi : Flt K → Flt K)

/-- A step; the message that brings a manager into an upload is noted. -/
def step (s : Watched ι K) (p : ι × Event K) : Watched ι K where
  sys := s.sys.step cs wrap_2pi p
  opener := match p.2 with
    | .message _ msg =>
      if (s.sys.inst p.1).state ≠ .GETLIST ∧
          ((s.sys.step cs wrap_2pi p).inst p.1).state = .GETLIST then
        Function.update s.opener p.1 msg.sender
      else s.opener
    | _ => s.opener

/-- Acknowledgements that a message leads to go to its sender, and an item from anybody but
the one who has opened the upload changes neither what is stored nor the position. -/
def Faithful (s : Watched ι K) (p : ι × Event K) : Prop :=
  match p.2 with
  | .message _ msg =>
    (∀ a ∈ s.sys.sent cs wrap_2pi p, a.1 = msg.sender) ∧
      ((s.sys.inst p.1).state = .GETLIST → (∃ wp, msg.body = .item wp) →
        msg.sender ≠ s.opener p.1 →
        (s.sys.step cs wrap_2pi p).shared.store.waypoints = s.sys.shared.store.waypoints ∧
        (s.sys.step cs wrap_2pi p).shared.store.points = s.sys.shared.store.points ∧
        (s.sys.step cs wrap_2pi p).shared.store.stats = s.sys.shared.store.stats ∧
        ((s.sys.step cs wrap_2pi p).inst p.1).transfer_seq = (s.sys.inst p.1).transfer_seq)
  | _ => True

/-- A message that is answered, or carries the expected item, is from the partner. -/
def FromPartner (s : Watched ι K) (p : ι × Event K) : Prop :=
  match p.2 with
  | .message _ msg => (s.sys.core p.1).Concerns msg → msg.sender = (s.sys.inst p.1).partner
  | _ => True

/-- The partner of an upload is who has opened it. -/
def Invariant (s : Watched ι K) : Prop :=
  ∀ i, (s.sys.inst i).state = .GETLIST → (s.sys.inst i).partner = s.opener i

omit [DecidableEq ι] [Field K] [LinearOrder K] [FloorRing K] [Elementary K] in
theorem invariant_init (shared : Shared K) : (init shared : Watched ι K).Invariant := by
  intro i h
  exact absurd h (by simp [init, System.init, Manager.init])

variable {cs wrap_2pi}

theorem invariant_step {s : Watched ι K} (h : s.Invariant) (p : ι × Event K) :
    (s.step cs wrap_2pi p).Invariant := by
  obtain ⟨i, e⟩ := p
  intro j hget
  by_cases hj : j = i
  · subst hj
    rcases (System.step_transition cs wrap_2pi s.sys j e).partner_of_upload hget with
      ⟨hbefore, hpartner⟩ | ⟨hbefore, io, msg, rfl, hpartner⟩
    · have hsame : (s.step cs wrap_2pi (j, e)).opener = s.opener := by
        unfold step
        cases e with
        | message io msg => exact if_neg fun hopen => hopen.1 hbefore
        | send => rfl
        | checkActiveMission => rfl
      rw [hsame, ← h j hbefore]
      exact hpartner
    · have hnew : (s.step cs wrap_2pi (j, .message io msg)).opener =
          Function.update s.opener j msg.sender := if_pos ⟨hbefore, hget⟩
      rw [hnew, Function.update_self]
      exact hpartner
  · have hinst : (s.step cs wrap_2pi (i, e)).sys.inst j = s.sys.inst j :=
      Function.update_of_ne hj _ _
    have hsame : (s.step cs wrap_2pi (i, e)).opener j = s.opener j := by
      unfold step
      cases e with
      | message io msg =>
        dsimp only
        split
        · exact Function.update_of_ne hj _ _
        · rfl
      | send => rfl
      | checkActiveMission => rfl
    rw [hinst] at hget ⊢
    rw [hsame]
    exact h j hget

theorem faithful_step_iff {s : Watched ι K} (h : s.Invariant) (p : ι × Event K) :
    s.Faithful cs wrap_2pi p ↔ s.FromPartner p := by
  obtain ⟨i, e⟩ := p
  cases e with
  | message io msg =>
    have htrans := System.step_transition cs wrap_2pi s.sys i (.message io msg)
    constructor
    · rintro ⟨hacks, hitem⟩ hconcerns
      rcases htrans.of_concerns hconcerns with ⟨r, hr⟩ | ⟨hget, hbody, hseq⟩
      · exact (hacks _ hr).symm
      · by_contra hother
        rw [h i hget] at hother
        exact hseq (hitem hget hbody hother).2.2.2
    · intro hpartner
      constructor
      · intro a ha
        obtain ⟨hto, hconcerns | hsender⟩ := htrans.acks_partner ha
        · exact hto.trans (hpartner hconcerns).symm
        · exact hto.trans hsender.symm
      · rintro hget ⟨wp, hbody⟩ hother
        refine htrans.item_ignored (fun hconcerns => hother ?_) hget hbody
        rw [← h i hget]
        exact hpartner hconcerns
  | send => exact Iff.rfl
  | checkActiveMission => exact Iff.rfl

/-- For any number of managers and any order of messages, timeouts and periodic calls: every
step is faithful to the senders exactly if all messages that are answered, or carry the
expected item, are from the partner of the manager's last transfer. -/
theorem faithful_iff (shared : Shared K) (es : List (ι × Event K)) :
    Trace.Always (step cs wrap_2pi) (Faithful cs wrap_2pi) (init shared) es ↔
      Trace.Always (step cs wrap_2pi) FromPartner (init shared) es :=
  Trace.always_iff_of_invariant (fun _ p h => faithful_step_iff h p)
    (fun _ p h _ => invariant_step h p) (invariant_init shared)

/-- A ground station opens an upload of one item, which another one sends. -/
theorem foreign_item_stored :
    ¬ ∀ es : List (Unit × Event ℝ), Trace.Always (step realCasts realWrap)
      (Faithful realCasts realWrap) (init .fresh) es := by
  intro h
  obtain ⟨-, ⟨-, hitem⟩, -⟩ := h
    [((), .message (.ok 1) ⟨⟨255, 1⟩, ⟨1, 1⟩, .count 1 .MISSION⟩),
      ((), .message (.ok 2) ⟨⟨255, 2⟩, ⟨1, 1⟩, .item (itemAt .NAV_TAKEOFF .GLOBAL_INT 0 0)⟩)]
  have hseq := (hitem rfl ⟨_, rfl⟩ (by decide)).2.2.2
  exact nomatch hseq

end Watched

end Mission
