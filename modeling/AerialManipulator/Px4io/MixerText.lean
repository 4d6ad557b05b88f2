/-
The text of the mixers on the IO processor.

The FMU sends the text in messages, which an interrupt puts into a buffer; `mixer_tick` reads the
mixers from it.  The two share the buffer, its length and two flags.  `Machine` is the two of them,
with the interrupt between any two accesses of the tick.

* `createMixer`, `tick_create` — a tick without an interrupt in it;
* **`text_appended`** — then nothing is lost, nothing twice, and every tick takes up the text;
* **`text_stuck`** — the reset after which no message is accepted any more.
-/
import AerialManipulator.Lib.Trace

namespace Px4io

/-- The parser of the mixers, and what there is after a reset. -/
structure MixerParser (G : Type*) where
  empty : G
  /-- The mixers with those from the text, and how much of the text is left. -/
  loadFromBuf : G → List UInt8 → G × ℕ
  resid_le : ∀ group text, (loadFromBuf group text).2 ≤ text.length

structure MixerText (G : Type*) where
  group : G
  mixer_text : List UInt8
  mixer_update_pending : Bool
  mixer_reset_pending : Bool

inductive MixerAction
  | RESET
  | APPEND
  deriving DecidableEq

def MAX_MIXER_LENGTH : ℕ := 330

section

variable {G : Type*}

namespace MixerText

/-- The text is put into the buffer, unless it does not fit or the last one is not read yet. -/
def append (m : MixerText G) (text : List UInt8) : MixerText G × ℕ :=
  -- check for overflow
  if MAX_MIXER_LENGTH < m.mixer_text.length + text.length + 1 then (m, 0)
  -- check if the last item has been processed
  else if m.mixer_update_pending then (m, 1)
  else ({ m with mixer_text := m.mixer_text ++ text, mixer_update_pending := true }, 0)

/-- `interrupt_mixer_handle_text`, for a message with an action, and its answer. -/
def handleText (m : MixerText G) (locked : Bool) (action : MixerAction) (text : List UInt8) :
    MixerText G × ℕ :=
  -- no mixer change while safety off and FMU armed
  if locked then (m, 1)
  else
    match action with
    | .RESET => { m with mixer_reset_pending := true, mixer_text := [] }.append text
    | .APPEND => m.append text

variable (p : MixerParser G)

def reset (m : MixerText G) : MixerText G := { m with group := p.empty }

def settled (m : MixerText G) : Bool := !m.mixer_update_pending || m.mixer_text.length == 0

/-- What is left of the text goes to the beginning of the buffer. -/
def cut (m : MixerText G) (resid : ℕ) : MixerText G :=
  if resid ≠ m.mixer_text.length then
    { m with mixer_text := m.mixer_text.drop (m.mixer_text.length - resid) }
  else m

/-- `mixer_handle_text_create_mixer`, with no interrupt in it; and whether it has read a text. -/
def createMixer (m : MixerText G) (locked : Bool) : MixerText G × Bool :=
  if locked then (m, false)
  else
    let m := if m.mixer_reset_pending then { m.reset p with mixer_reset_pending := false } else m
    if m.settled then (m, false)
    else
      let r := p.loadFromBuf m.group m.mixer_text
      ({ ({ m with group := r.1 } : MixerText G).cut r.2 with mixer_update_pending := false }, true)

end MixerText

/-! ### The interrupt and the tick -/

inductive TickPc
  | idle
  | check
  | reset
  | clear
  | update
  | load
  | used (resid : ℕ)
  | done
  deriving DecidableEq

structure Machine (G : Type*) where
  mixer : MixerText G
  /-- The safety is off, and the FMU is armed. -/
  locked : Bool
  pc : TickPc

inductive Event
  | message (action : MixerAction) (text : List UInt8)
  /-- The tick begins, or goes on by one access. -/
  | tick
  | lock (locked : Bool)

variable (p : MixerParser G)

namespace Machine

/-- One access of the tick.  The length can only have become smaller than `resid` by a reset in
between; the copy then begins before the buffer, of which nothing is said. -/
def tick (s : Machine G) : Machine G :=
  match s.pc with
  | .idle => { s with pc := .check }
  | .check => { s with pc := if s.locked then .idle else .reset }
  | .reset =>
    if s.mixer.mixer_reset_pending then { s with mixer := s.mixer.reset p, pc := .clear }
    else { s with pc := .update }
  | .clear => { s with mixer := { s.mixer with mixer_reset_pending := false }, pc := .update }
  | .update => { s with pc := if s.mixer.settled then .idle else .load }
  | .load =>
    let r := p.loadFromBuf s.mixer.group s.mixer.mixer_text
    { s with mixer := { s.mixer with group := r.1 }, pc := .used r.2 }
  | .used resid => { s with mixer := s.mixer.cut resid, pc := .done }
  | .done => { s with mixer := { s.mixer with mixer_update_pending := false }, pc := .idle }

def step (s : Machine G) : Event → Machine G
  | .message action text => { s with mixer := (s.mixer.handleText s.locked action text).1 }
  | .tick => s.tick p
  | .lock locked => { s with locked := locked }

end Machine

/-- The text that was accepted since the last reset, and what the parser has used of it since the
mixers were reset. -/
structure Account where
  accepted : List UInt8
  used : List UInt8

/-- A message is refused because its text does not fit. -/
def overflows (m : MixerText G) (action : MixerAction) (text : List UInt8) : Prop :=
  MAX_MIXER_LENGTH < (if action = .RESET then 0 else m.mixer_text.length) + text.length + 1

instance (m : MixerText G) (action : MixerAction) (text : List UInt8) :
    Decidable (overflows m action text) := inferInstanceAs (Decidable (_ < _))

def Account.step (a : Account) (s : Machine G) : Event → Account
  | .message action text =>
    if s.locked then a
    else
      { a with
        accepted := (if action = .RESET then [] else a.accepted) ++
          if (s.mixer.handleText s.locked action text).2 = 0 ∧ ¬ overflows s.mixer action text
          then text else [] }
  | .tick =>
    match s.pc with
    | .reset => if s.mixer.mixer_reset_pending then { a with used := [] } else a
    | .load =>
      { a with
        used := a.used ++ s.mixer.mixer_text.take
          (s.mixer.mixer_text.length - (p.loadFromBuf s.mixer.group s.mixer.mixer_text).2) }
    | _ => a
  | .lock _ => a

/-- The machine, with the account of its texts. -/
structure World (G : Type*) where
  machine : Machine G
  account : Account

def World.step (w : World G) (e : Event) : World G :=
  ⟨w.machine.step p e, w.account.step p w.machine e⟩

def World.init (group : G) : World G :=
  ⟨⟨⟨group, [], false, false⟩, false, .idle⟩, ⟨[], []⟩⟩

/-- No reset arrives while a text waits for the tick; an empty text does not come alone; no text is
accepted between the two checks of a tick when the mixers are still to be reset; and the mixers are
not locked while a tick may change them. -/
def Undisturbed (w : World G) : Event → Prop
  | .message action text =>
    w.machine.locked = false →
      (action = .RESET → w.machine.mixer.mixer_update_pending = true →
        w.machine.pc = .load ∨ w.machine.pc = .used 0 ∨ w.machine.pc = .done) ∧
      (w.machine.mixer.mixer_update_pending = false → ¬ overflows w.machine.mixer action text →
        (text ≠ [] ∨ action = .APPEND ∧ w.machine.mixer.mixer_text ≠ []) ∧
        (w.machine.pc = .update → action = .APPEND ∧ w.machine.mixer.mixer_reset_pending = false))
  | .tick => True
  | .lock locked =>
    locked = true → w.machine.pc = .idle ∨ w.machine.pc = .check ∨ w.machine.pc = .done

instance (w : World G) : DecidablePred (Undisturbed w)
  | .message _ _ => inferInstanceAs (Decidable (_ → (_ → _ → _) ∧ (_ → _ → _ ∧ _)))
  | .tick => inferInstanceAs (Decidable True)
  | .lock _ => inferInstanceAs (Decidable (_ → _ ∨ _ ∨ _))

/-- What a step should do: a tick that ends has read what was to be read; while the mixers are
locked, neither they nor the text change. -/
def TakenUp (w : World G) (e : Event) : Prop :=
  (e = .tick → w.machine.locked = false → w.machine.pc ≠ .idle → (w.step p e).machine.pc = .idle →
    (w.step p e).machine.mixer.mixer_update_pending = false) ∧
  (w.machine.locked = true →
    (w.step p e).machine.mixer.group = w.machine.mixer.group ∧
    (w.step p e).machine.mixer.mixer_text = w.machine.mixer.mixer_text)

/-- Every accepted text has been used by the parser or is in the buffer, once and in order. -/
def Accounted (w : World G) : Prop :=
  w.account.accepted =
    (if w.machine.mixer.mixer_reset_pending then [] else w.account.used) ++
      w.machine.mixer.mixer_text

/-- What holds between any two accesses. -/
def Inv (w : World G) : Prop :=
  (w.machine.locked = true → w.machine.pc = .idle ∨ w.machine.pc = .check ∨ w.machine.pc = .done) ∧
  match w.machine.pc with
  | .idle | .check | .reset =>
    (w.machine.mixer.mixer_update_pending = true → w.machine.mixer.mixer_text ≠ []) ∧ Accounted w
  | .clear =>
    (w.machine.mixer.mixer_update_pending = true → w.machine.mixer.mixer_text ≠ []) ∧
      w.account.used = [] ∧ w.account.accepted = w.machine.mixer.mixer_text
  | .update =>
    (w.machine.mixer.mixer_update_pending = true →
      w.machine.mixer.mixer_text ≠ [] ∧ w.machine.mixer.mixer_reset_pending = false) ∧ Accounted w
  | .load =>
    w.machine.mixer.mixer_update_pending = true ∧
      (w.machine.mixer.mixer_reset_pending = true → w.machine.mixer.mixer_text = []) ∧ Accounted w
  | .used resid =>
    w.machine.mixer.mixer_update_pending = true ∧
      w.account.accepted = (if w.machine.mixer.mixer_reset_pending then [] else w.account.used) ++
        w.machine.mixer.mixer_text.drop (w.machine.mixer.mixer_text.length - resid) ∧
      resid ≤ w.machine.mixer.mixer_text.length
  | .done => w.machine.mixer.mixer_update_pending = true ∧ Accounted w

/-! ### The messages -/

section Message

variable {w : World G} {text : List UInt8}

theorem step_message_locked (h : w.machine.locked = true) (action : MixerAction) :
    w.step p (.message action text) = w := by
  obtain ⟨⟨mixer, locked, pc⟩, account⟩ := w
  cases h
  rfl

theorem step_append_refused (h : w.machine.locked = false)
    (hrefused : overflows w.machine.mixer .APPEND text ∨
      w.machine.mixer.mixer_update_pending = true) :
    w.step p (.message .APPEND text) = w := by
  obtain ⟨⟨mixer, locked, pc⟩, account⟩ := w
  cases h
  by_cases hover : overflows mixer .APPEND text
  · have happend : mixer.append text = (mixer, 0) := if_pos hover
    simp [World.step, Machine.step, Account.step, MixerText.handleText, happend, hover]
  · have hbusy : mixer.mixer_update_pending = true := hrefused.resolve_left hover
    have happend : mixer.append text = (mixer, 1) := (if_neg hover).trans (if_pos hbusy)
    simp [World.step, Machine.step, Account.step, MixerText.handleText, happend]

def World.accept (w : World G) (text : List UInt8) : World G where
  machine :=
    { w.machine with
      mixer :=
        { w.machine.mixer with
          mixer_text := w.machine.mixer.mixer_text ++ text
          mixer_update_pending := true } }
  account := { w.account with accepted := w.account.accepted ++ text }

theorem step_append_accepted (h : w.machine.locked = false)
    (hover : ¬ overflows w.machine.mixer .APPEND text)
    (hfree : w.machine.mixer.mixer_update_pending = false) :
    w.step p (.message .APPEND text) = w.accept text := by
  obtain ⟨⟨mixer, locked, pc⟩, account⟩ := w
  cases h
  have happend : mixer.append text =
      ({ mixer with mixer_text := mixer.mixer_text ++ text, mixer_update_pending := true }, 0) :=
    (if_neg hover).trans (if_neg (Bool.eq_false_iff.mp hfree))
  simp [World.step, Machine.step, Account.step, MixerText.handleText, happend, hover, World.accept]

def World.cleared (w : World G) : World G where
  machine :=
    { w.machine with
      mixer := { w.machine.mixer with mixer_reset_pending := true, mixer_text := [] } }
  account := { w.account with accepted := [] }

theorem step_reset (h : w.machine.locked = false) :
    w.step p (.message .RESET text) = w.cleared.step p (.message .APPEND text) := by
  obtain ⟨⟨mixer, locked, pc⟩, account⟩ := w
  cases h
  simp [World.step, Machine.step, Account.step, MixerText.handleText, World.cleared, overflows]

theorem Accounted.accept (h : Accounted w) : Accounted (w.accept text) := by
  unfold Accounted World.accept at *
  rw [h, List.append_assoc]

theorem Inv.accept (hinv : Inv w) (h : w.machine.locked = false)
    (hfree : w.machine.mixer.mixer_update_pending = false)
    (htext : text ≠ [] ∨ w.machine.mixer.mixer_text ≠ [])
    (hreset : w.machine.pc = .update → w.machine.mixer.mixer_reset_pending = false) :
    Inv (w.accept text) := by
  obtain ⟨⟨mixer, locked, pc⟩, account⟩ := w
  have hne : mixer.mixer_text ++ text ≠ [] := by
    rw [ne_eq, List.append_eq_nil_iff]
    exact fun hboth => htext.elim (fun ht => ht hboth.2) (fun hm => hm hboth.1)
  obtain ⟨-, hpc⟩ := hinv
  refine ⟨fun hlocked => absurd (h.symm.trans hlocked) (by decide), ?_⟩
  cases pc with
  | idle | check | reset => exact ⟨fun _ => hne, hpc.2.accept⟩
  | clear => exact ⟨fun _ => hne, hpc.2.1, congrArg (· ++ text) hpc.2.2⟩
  | update => exact ⟨fun _ => ⟨hne, hreset rfl⟩, hpc.2.accept⟩
  | load | used | done => exact absurd (hfree.symm.trans hpc.1) (by decide)

theorem Inv.cleared (hinv : Inv w) (hfree : w.machine.mixer.mixer_update_pending = false) :
    Inv w.cleared := by
  obtain ⟨⟨mixer, locked, pc⟩, account⟩ := w
  obtain ⟨hlocked, hinv⟩ := hinv
  have hnone : mixer.mixer_update_pending ≠ true := Bool.eq_false_iff.mp hfree
  refine ⟨hlocked, ?_⟩
  cases pc with
  | idle | check | reset => exact ⟨fun h => absurd h hnone, rfl⟩
  | clear => exact ⟨fun h => absurd h hnone, hinv.2.1, rfl⟩
  | update => exact ⟨fun h => absurd h hnone, rfl⟩
  | load | used | done => exact absurd hinv.1 hnone

theorem Inv.cleared_late (hinv : Inv w) (hpending : w.machine.mixer.mixer_update_pending = true)
    (hpc : w.machine.pc = .load ∨ w.machine.pc = .used 0 ∨ w.machine.pc = .done) :
    Inv w.cleared := by
  obtain ⟨⟨mixer, locked, pc⟩, account⟩ := w
  refine ⟨hinv.1, ?_⟩
  rcases hpc with hpc | hpc | hpc
  · cases hpc
    exact ⟨hpending, fun _ => rfl, rfl⟩
  · cases hpc
    exact ⟨hpending, rfl, Nat.le_refl _⟩
  · cases hpc
    exact ⟨hpending, rfl⟩

theorem Inv.append (hinv : Inv w) (h : w.machine.locked = false)
    (htext : w.machine.mixer.mixer_update_pending = false →
      ¬ overflows w.machine.mixer .APPEND text →
      (text ≠ [] ∨ w.machine.mixer.mixer_text ≠ []) ∧
      (w.machine.pc = .update → w.machine.mixer.mixer_reset_pending = false)) :
    Inv (w.step p (.message .APPEND text)) := by
  by_cases hrefused : overflows w.machine.mixer .APPEND text ∨
      w.machine.mixer.mixer_update_pending = true
  · rw [step_append_refused p h hrefused]
    exact hinv
  · rw [not_or, Bool.not_eq_true] at hrefused
    obtain ⟨hover, hfree⟩ := hrefused
    obtain ⟨hne, hreset⟩ := htext hfree hover
    rw [step_append_accepted p h hover hfree]
    exact hinv.accept h hfree hne hreset

theorem Inv.message {action : MixerAction} (hinv : Inv w)
    (h : Undisturbed w (.message action text)) : Inv (w.step p (.message action text)) := by
  cases hlocked : w.machine.locked with
  | true =>
    rw [step_message_locked p hlocked]
    exact hinv
  | false =>
    obtain ⟨hlate, htext⟩ := h hlocked
    cases action with
    | APPEND =>
      refine hinv.append p hlocked fun hfree hover => ?_
      obtain ⟨hne, hreset⟩ := htext hfree hover
      exact ⟨hne.imp_right And.right, fun hpc => (hreset hpc).2⟩
    | RESET =>
      rw [step_reset p hlocked]
      cases hpending : w.machine.mixer.mixer_update_pending with
      | true =>
        rw [step_append_refused p (w := w.cleared) hlocked (.inr hpending)]
        exact hinv.cleared_late hpending (hlate rfl hpending)
      | false =>
        refine (hinv.cleared hpending).append p hlocked fun _ hover => ?_
        obtain ⟨hne, hreset⟩ := htext hpending hover
        exact ⟨.inl (hne.resolve_right nofun), fun hpc => absurd (hreset hpc).1 nofun⟩

end Message

/-! ### The tick -/

section Tick

variable {w : World G}

theorem settled_iff {m : MixerText G} (h : m.mixer_update_pending = true → m.mixer_text ≠ []) :
    m.settled = true ↔ m.mixer_update_pending = false := by
  unfold MixerText.settled
  cases hpending : m.mixer_update_pending with
  | false => simp
  | true => simp [h hpending]

theorem step_reset_pending {m : MixerText G} (h : m.mixer_reset_pending = true) (locked : Bool)
    (a : Account) :
    World.step p ⟨⟨m, locked, .reset⟩, a⟩ .tick =
      ⟨⟨m.reset p, locked, .clear⟩, { a with used := [] }⟩ := by
  simp [World.step, Machine.step, Machine.tick, Account.step, h]

theorem step_reset_none {m : MixerText G} (h : m.mixer_reset_pending = false) (locked : Bool)
    (a : Account) :
    World.step p ⟨⟨m, locked, .reset⟩, a⟩ .tick = ⟨⟨m, locked, .update⟩, a⟩ := by
  simp [World.step, Machine.step, Machine.tick, Account.step, h]

theorem step_update {m : MixerText G} (h : m.mixer_update_pending = true → m.mixer_text ≠ [])
    (locked : Bool) (a : Account) :
    World.step p ⟨⟨m, locked, .update⟩, a⟩ .tick =
      ⟨⟨m, locked, if m.mixer_update_pending then .load else .idle⟩, a⟩ := by
  have hsettled := settled_iff h
  cases hpending : m.mixer_update_pending with
  | false => simp [World.step, Machine.step, Machine.tick, Account.step, hsettled.mpr hpending]
  | true =>
    rw [hpending, Bool.true_eq_false, iff_false, Bool.not_eq_true] at hsettled
    simp [World.step, Machine.step, Machine.tick, Account.step, hsettled]

theorem accounted_cut {m : MixerText G} {locked : Bool} {pc : TickPc} {a : Account} {resid : ℕ}
    (h : a.accepted = (if m.mixer_reset_pending then [] else a.used) ++
      m.mixer_text.drop (m.mixer_text.length - resid)) :
    Accounted ⟨⟨m.cut resid, locked, pc⟩, a⟩ := by
  unfold Accounted MixerText.cut
  by_cases hlength : resid = m.mixer_text.length
  · rw [hlength, Nat.sub_self, List.drop_zero] at h
    simp [hlength, h]
  · simp [hlength, h]

theorem cut_mixer_update_pending (m : MixerText G) (resid : ℕ) :
    (m.cut resid).mixer_update_pending = m.mixer_update_pending := by
  unfold MixerText.cut
  split_ifs <;> rfl

theorem accepted_load {reset : Bool} {accepted used text : List UInt8} {n : ℕ}
    (hreset : reset = true → text = [])
    (h : accepted = (if reset then [] else used) ++ text) :
    accepted = (if reset then [] else used ++ text.take n) ++ text.drop n := by
  cases reset with
  | true => rw [h, hreset rfl, List.drop_nil, if_pos rfl, if_pos rfl]
  | false =>
    rw [h, if_neg Bool.false_ne_true, if_neg Bool.false_ne_true, List.append_assoc,
      List.take_append_drop]

theorem Inv.tick (hinv : Inv w) : Inv (w.step p .tick) := by
  obtain ⟨⟨mixer, locked, pc⟩, account⟩ := w
  obtain ⟨hlocked, hpc⟩ := hinv
  have hunlocked : pc ≠ .idle → pc ≠ .check → pc ≠ .done → locked = true → False :=
    fun hidle hcheck hdone h => (hlocked h).elim hidle fun h => h.elim hcheck hdone
  cases pc with
  | idle => exact ⟨fun _ => .inr (.inl rfl), hpc⟩
  | check =>
    cases locked with
    | true => exact ⟨fun _ => .inl rfl, hpc⟩
    | false => exact ⟨nofun, hpc⟩
  | reset =>
    obtain ⟨hne, hacc⟩ := hpc
    cases hreset : mixer.mixer_reset_pending with
    | true =>
      rw [step_reset_pending p hreset]
      unfold Accounted at hacc
      dsimp only at hacc
      rw [hreset, if_pos rfl, List.nil_append] at hacc
      exact ⟨fun h => (hunlocked nofun nofun nofun h).elim, hne, rfl, hacc⟩
    | false =>
      rw [step_reset_none p hreset]
      exact ⟨fun h => (hunlocked nofun nofun nofun h).elim, fun h => ⟨hne h, hreset⟩, hacc⟩
  | clear =>
    obtain ⟨hne, hused, hacc⟩ := hpc
    refine ⟨fun h => (hunlocked nofun nofun nofun h).elim, fun h => ⟨hne h, rfl⟩, ?_⟩
    change account.accepted = account.used ++ mixer.mixer_text
    rw [hused, hacc, List.nil_append]
  | update =>
    obtain ⟨hne, hacc⟩ := hpc
    rw [step_update p fun h => (hne h).1]
    cases hpending : mixer.mixer_update_pending with
    | false =>
      exact ⟨fun h => (hunlocked nofun nofun nofun h).elim, fun h => (hne h).1, hacc⟩
    | true =>
      have hreset : mixer.mixer_reset_pending = false := (hne hpending).2
      exact ⟨fun h => (hunlocked nofun nofun nofun h).elim, hpending,
        fun h => absurd (hreset.symm.trans h) (by decide), hacc⟩
  | load =>
    obtain ⟨hpending, hreset, hacc⟩ := hpc
    exact ⟨fun h => (hunlocked nofun nofun nofun h).elim, hpending, accepted_load hreset hacc,
      p.resid_le _ _⟩
  | used resid =>
    obtain ⟨hpending, hacc, -⟩ := hpc
    exact ⟨fun h => (hunlocked nofun nofun nofun h).elim,
      (cut_mixer_update_pending _ _).trans hpending, accounted_cut hacc⟩
  | done => exact ⟨fun _ => .inl rfl, nofun, hpc.2⟩

theorem Inv.tick_idle (hinv : Inv w) (hlocked : w.machine.locked = false)
    (hpc : w.machine.pc ≠ .idle) (hidle : (w.step p .tick).machine.pc = .idle) :
    (w.step p .tick).machine.mixer.mixer_update_pending = false := by
  obtain ⟨⟨mixer, locked, pc⟩, account⟩ := w
  cases hlocked
  obtain ⟨-, hinv⟩ := hinv
  cases pc with
  | idle => exact absurd rfl hpc
  | reset =>
    cases hreset : mixer.mixer_reset_pending with
    | true => cases (step_reset_pending p hreset false account) ▸ hidle
    | false => cases (step_reset_none p hreset false account) ▸ hidle
  | update =>
    rw [step_update p fun h => (hinv.1 h).1] at hidle ⊢
    cases hpending : mixer.mixer_update_pending with
    | false => rfl
    | true =>
      rw [hpending] at hidle
      cases hidle
  | done => rfl
  | check | clear | load | used => cases hidle

end Tick

/-! ### Runs -/

theorem Inv.locked_step {w : World G} {e : Event} (hinv : Inv w) (h : w.machine.locked = true) :
    (w.step p e).machine.mixer.group = w.machine.mixer.group ∧
      (w.step p e).machine.mixer.mixer_text = w.machine.mixer.mixer_text := by
  cases e with
  | message action text =>
    rw [step_message_locked p h]
    exact ⟨rfl, rfl⟩
  | lock locked => exact ⟨rfl, rfl⟩
  | tick =>
    obtain ⟨⟨mixer, locked, pc⟩, account⟩ := w
    cases h
    rcases hinv.1 rfl with hpc | hpc | hpc
    · cases hpc
      exact ⟨rfl, rfl⟩
    · cases hpc
      exact ⟨rfl, rfl⟩
    · cases hpc
      exact ⟨rfl, rfl⟩

theorem Inv.step {w : World G} {e : Event} (hinv : Inv w) (h : Undisturbed w e) :
    TakenUp p w e ∧ Inv (w.step p e) := by
  refine ⟨⟨?_, hinv.locked_step p⟩, ?_⟩
  · rintro rfl hlocked
    exact hinv.tick_idle p hlocked
  · cases e with
    | message action text => exact hinv.message p h
    | tick => exact hinv.tick p
    | lock locked => exact ⟨h, hinv.2⟩

theorem inv_init (group : G) : Inv (World.init group) := ⟨nofun, nofun, rfl⟩

theorem Inv.accounted {w : World G} (hinv : Inv w) (hpc : w.machine.pc = .idle) : Accounted w := by
  obtain ⟨-, hinv⟩ := hinv
  rw [hpc] at hinv
  exact hinv.2

/-- Every run that is not disturbed takes up its texts, and accounts for them between its ticks. -/
theorem text_appended (group : G) (es : List Event)
    (h : Trace.Always (World.step p) Undisturbed (World.init group) es) :
    Trace.Always (World.step p) (TakenUp p) (World.init group) es ∧
    ((Trace.run (World.step p) (World.init group) es).machine.pc = .idle →
      Accounted (Trace.run (World.step p) (World.init group) es)) :=
  ⟨Trace.always_of_invariant (fun _ _ hinv h => hinv.step p h) (inv_init group) h,
    (Trace.run_of_invariant (fun _ _ hinv h => (hinv.step p h).2) (inv_init group) h).accounted⟩

end

/-! ### Null mixers -/

/-- What the parser does with a text of null mixers, counting them. -/
def loadNull : ℕ → List UInt8 → ℕ × ℕ
  | n, [] => (n, 0)
  | n, c :: text =>
    if c = 90 then
      match text with
      | 58 :: rest => if 10 ∈ rest then loadNull (n + 1) rest else (n, text.length + 1)
      | _ => (n, text.length + 1)
    else loadNull n text

theorem loadNull_resid_le (n : ℕ) (text : List UInt8) : (loadNull n text).2 ≤ text.length := by
  fun_induction loadNull n text with
  | case1 n => exact Nat.le_refl _
  | case2 n rest hline ih => exact Nat.le_trans ih (Nat.le_add_right rest.length 2)
  | case3 n rest hline => exact Nat.le_refl _
  | case4 n text hcolon => exact Nat.le_refl _
  | case5 n c text hc ih => exact Nat.le_trans ih (Nat.le_succ _)

def nullParser : MixerParser ℕ := ⟨0, loadNull, loadNull_resid_le⟩

def nullText : List UInt8 := [90, 58, 10]

def twoMessages : List Event :=
  [.message .RESET nullText, .tick, .tick, .tick, .tick, .tick, .tick, .tick, .tick,
    .message .APPEND nullText, .tick, .tick, .tick, .tick, .tick, .tick, .tick]

theorem two_appended : Accounted (Trace.run (World.step nullParser) (World.init 7) twoMessages) :=
  (text_appended nullParser 7 twoMessages (by decide)).2 rfl

/-- Two resets before a tick leave a text of no length, which waits for ever. -/
theorem text_stuck :
    ¬ ∀ es : List Event, Event.lock true ∉ es →
      Trace.Always (World.step nullParser) (TakenUp nullParser) (World.init 0) es := by
  intro h
  have hes := h [.message .RESET nullText, .message .RESET nullText, .tick, .tick, .tick, .tick,
    .tick] (by simp)
  have hlast := hes.2.2.2.2.2.2.1.1 rfl rfl nofun rfl
  exact nomatch hlast

end Px4io
