/-
Melodies as strings.

A tune is a string of commands.  Each call of `getNextNote` parses it up to the next note or pause,
which it returns in its arguments.  The cursor moves inside the helpers; it is the rest of the
string here, and there is nothing behind the terminator.

* `search_ends` — the commands end, in their ranges; nothing is read behind the terminator or
  divided by zero;
* `getNextNote_total` — so does a call;
* **`tuneParser`** — all of it, over the calls of a run.
-/
import AerialManipulator.Lib.Trace
import AerialManipulator.Lib.Literals

namespace Tunes

inductive NoteMode
  | NORMAL
  | LEGATO
  | STACCATO
  deriving DecidableEq

inductive Status
  | Continue
  | Stop
  | Error
  deriving DecidableEq

/-- `_default_note_length` and so on. -/
structure Defaults where
  note_length : UInt32
  note_mode : NoteMode
  octave : UInt32
  tempo : UInt32

structure State where
  /-- The rest of the string. -/
  next_tune : Option (List UInt8)
  tune : Option (List UInt8)
  tune_start_ptr : Option (List UInt8)
  repeat_flag : Bool
  note_length : UInt32
  note_mode : NoteMode
  octave : UInt32
  tempo : UInt32
  duration : UInt32
  frequency : UInt32
  silence : UInt32
  volume : UInt8
  using_custom_msg : Bool
  deriving DecidableEq

/-- The arguments of `getNextNote`. -/
structure Outputs where
  frequency : UInt32
  duration : UInt32
  silence : UInt32
  deriving DecidableEq

/-! ### Characters -/

def isspace (c : UInt8) : Bool := c = 32 || (9 ≤ c && c ≤ 13)

def isdigit (c : UInt8) : Bool := 48 ≤ c && c ≤ 57

def toupper (c : UInt8) : UInt8 := if 97 ≤ c ∧ c ≤ 122 then c - 32 else c

/-- `_next_tune++`; not over the terminator. -/
def advance : List UInt8 → Option (List UInt8)
  | [] => none
  | c :: p => if c = 0 then none else some p

def nextChar (p : List UInt8) : UInt8 × List UInt8 :=
  let p := p.dropWhile isspace
  (toupper (p.headD 0), p)

/-- The loop of `nextNumber`. -/
def numberLoop : ℕ → UInt32 → List UInt8 → Option (UInt32 × List UInt8)
  | 0, _, _ => none
  | fuel + 1, number, p => do
    let r := nextChar p
    if ¬ isdigit r.1 then return (number, r.2)
    let p ← advance r.2
    numberLoop fuel (number * 10 + (r.1.toUInt32 - 48)) p

def nextNumber (p : List UInt8) : Option (UInt32 × List UInt8) := numberLoop (p.length + 1) 0 p

/-- The loop of `nextDots`. -/
def dotsLoop : ℕ → UInt32 → List UInt8 → Option (UInt32 × List UInt8)
  | 0, _, _ => none
  | fuel + 1, dots, p => do
    let r := nextChar p
    if r.1 ≠ 46 then return (dots, r.2)
    let p ← advance r.2
    dotsLoop fuel (dots + 1) p

def nextDots (p : List UInt8) : Option (UInt32 × List UInt8) := dotsLoop (p.length + 1) 0 p

/-! ### Durations -/

def divide (a b : UInt32) : Option UInt32 := if b = 0 then none else some (a / b)

def BEAT_TIME_CONVERSION : UInt32 := 60 * 1000 * 4 * 1000

/-- `while (dots--)` -/
def extend : ℕ → UInt32 → UInt32 → UInt32
  | 0, period, _ => period
  | dots + 1, period, dot_extension => extend dots (period + dot_extension) (dot_extension / 2)

def noteDuration (s : State) (note_length dots : UInt32) : Option (UInt32 × UInt32) := do
  let whole_note_period ← divide BEAT_TIME_CONVERSION s.tempo
  let note_period ← divide whole_note_period (if note_length = 0 then 1 else note_length)
  let silence :=
    match s.note_mode with
    | .NORMAL => note_period / 8
    | .STACCATO => note_period / 4
    | .LEGATO => 0
  let note_period := note_period - silence
  return (extend dots.toNat note_period (note_period / 2), silence)

def restDuration (s : State) (rest_length dots : UInt32) : Option UInt32 := do
  let whole_note_period ← divide BEAT_TIME_CONVERSION s.tempo
  let rest_period ← divide whole_note_period (if rest_length = 0 then 1 else rest_length)
  return extend dots.toNat rest_period (rest_period / 2)

/-! ### Commands -/

/-- `restDuration(nextNumber(), nextDots())`; the order of the arguments is not specified. -/
def pause (number_first : Bool) (s : State) (p : List UInt8) : Option (UInt32 × List UInt8) :=
  if number_first then do
    let (number, p) ← nextNumber p
    let (dots, p) ← nextDots p
    return (← restDuration s number dots, p)
  else do
    let (dots, p) ← nextDots p
    let (number, p) ← nextNumber p
    return (← restDuration s number dots, p)

/-- Where the loop of `getNextNote` is left. -/
inductive Stop
  | note (note note_length : UInt32)
  | pause (silence : UInt32)
  /-- The note 0. -/
  | rest (silence : UInt32)
  | tuneEnd
  | tuneError
  deriving DecidableEq

def noteTab : List UInt32 := [9, 11, 0, 2, 4, 5, 7]

/-- `case 'M'` -/
def modeCommand (s : State) (p : List UInt8) : Option ((State × Option Stop) × List UInt8) := do
  let r := nextChar p
  if r.1 = 0 then return ((s, some .tuneError), r.2)
  let p ← advance r.2
  if r.1 = 78 then return (({ s with note_mode := .NORMAL }, none), p)
  else if r.1 = 76 then return (({ s with note_mode := .LEGATO }, none), p)
  else if r.1 = 83 then return (({ s with note_mode := .STACCATO }, none), p)
  else if r.1 = 70 then return (({ s with repeat_flag := false }, none), p)
  else if r.1 = 66 then return (({ s with repeat_flag := true }, none), p)
  else return ((s, some .tuneError), p)

def accidental (note : UInt32) (p : List UInt8) : Option (UInt32 × List UInt8) :=
  let r := nextChar p
  if r.1 = 35 ∨ r.1 = 43 then (advance r.2).map (if note < 84 then note + 1 else note, ·)
  else if r.1 = 45 then (advance r.2).map (if 1 < note then note - 1 else note, ·)
  else some (note, r.2)

/-- `case 'A'...'G'` -/
def letterCommand (s : State) (c : UInt8) (p : List UInt8) : Option
    ((State × Option Stop) × List UInt8) := do
  let (note, p) ← accidental (noteTab.getD (c - 65).toNat 0 + s.octave * 12 + 1) p
  -- "Shorthand length notation."
  let (note_length, p) ← nextNumber p
  return ((s, some (.note note (if note_length = 0 then s.note_length else note_length))), p)

/-- The body of the loop behind the first character; `note_length` is the one at the call. -/
def command (number_first : Bool) (note_length : UInt32) (s : State) (c : UInt8) (p : List UInt8) :
    Option ((State × Option Stop) × List UInt8) :=
  if c = 76 then do  -- L
    let (n, p) ← nextNumber p
    return (({ s with note_length := n }, if n < 1 then some .tuneError else none), p)
  else if c = 79 then do  -- O
    let (n, p) ← nextNumber p
    return (({ s with octave := if 6 < n then 6 else n }, none), p)
  else if c = 60 then  -- <
    some (({ s with octave := if 0 < s.octave then s.octave - 1 else s.octave }, none), p)
  else if c = 62 then  -- >
    some (({ s with octave := if s.octave < 6 then s.octave + 1 else s.octave }, none), p)
  else if c = 77 then modeCommand s p
  else if c = 80 then do  -- P
    let (silence, p) ← pause number_first s p
    return ((s, some (.pause silence)), p)
  else if c = 84 then do  -- T
    let (nt, p) ← nextNumber p
    if 32 ≤ nt ∧ nt ≤ 255 then return (({ s with tempo := nt }, none), p)
    else return ((s, some .tuneError), p)
  else if c = 78 then do  -- N
    let (note, p) ← nextNumber p
    if 84 < note then return ((s, some .tuneError), p)
    else if note = 0 then
      let (dots, p) ← nextDots p
      return ((s, some (.rest (← restDuration s s.note_length dots))), p)
    else return ((s, some (.note note note_length)), p)
  else if 65 ≤ c ∧ c ≤ 71 then letterCommand s c p
  else some ((s, some .tuneError), p)

/-- The loop of `getNextNote`. -/
def search (number_first : Bool) (note_length : UInt32) :
    ℕ → State → List UInt8 → Option ((State × Stop) × List UInt8)
  | 0, _, _ => none
  | fuel + 1, s, p => do
    let r := nextChar p
    if r.1 = 0 then return ((s, .tuneEnd), r.2)
    let p ← advance r.2
    let ((s, stop), p) ← command number_first note_length s r.1 p
    match stop with
    | some stop => return ((s, stop), p)
    | none => search number_first note_length fuel s p

/-! ### Calls -/

def reset (d : Defaults) (s : State) (repeat_flag : Bool) : State :=
  { s with
    tune := if repeat_flag then s.tune_start_ptr else none
    next_tune := if repeat_flag then s.tune_start_ptr else none
    note_length := d.note_length
    note_mode := d.note_mode
    octave := d.octave
    tempo := d.tempo }

def tuneEnd (d : Defaults) (s : State) : State × Status :=
  (reset d s s.repeat_flag, if s.repeat_flag then .Continue else .Stop)

def tuneError (d : Defaults) (s : State) : State × Status :=
  (reset d { s with repeat_flag := false } false, .Error)

structure Result where
  state : State
  status : Status
  outputs : Outputs
  deriving DecidableEq

def found (number_first : Bool) (s : State) (p : List UInt8) : Option
    ((State × Stop) × List UInt8) :=
  search number_first s.note_length (p.length + 1) s p

/-- The end of `getNextNote`, behind the loop. -/
def finish (note_to_frequency : UInt32 → UInt32) (d : Defaults) (args : Outputs) (s : State)
    (p : List UInt8) : Stop → Option Result
  | .note note note_length => do
    let (dots, p) ← nextDots p
    let (duration, silence) ← noteDuration s note_length dots
    return ⟨{ s with next_tune := some p }, .Continue, ⟨note_to_frequency note, duration, silence⟩⟩
  | .pause silence => some ⟨{ s with next_tune := some p }, .Continue, ⟨0, 0, silence⟩⟩
  -- only the silence is written
  | .rest silence => some ⟨{ s with next_tune := some p }, .Continue,
    { args with silence := silence }⟩
  | .tuneEnd => some ⟨(tuneEnd d s).1, (tuneEnd d s).2, { args with silence := 0 }⟩
  | .tuneError => some ⟨(tuneError d s).1, (tuneError d s).2, args⟩

def getNextNote (note_to_frequency : UInt32 → UInt32) (d : Defaults) (number_first : Bool)
    (s : State) (args : Outputs) : Option Result :=
  if s.using_custom_msg then
    some ⟨{ s with using_custom_msg := false }, .Continue, ⟨s.frequency, s.duration, s.silence⟩⟩
  else
    match s.tune.bind fun _ => s.next_tune with
    | none => some ⟨(tuneError d s).1, (tuneError d s).2, args⟩
    | some p => (found number_first s p).bind fun r =>
      finish note_to_frequency d args r.1.1 r.2 r.1.2

def init (d : Defaults) : State :=
  ⟨none, none, none, false, d.note_length, d.note_mode, d.octave, d.tempo, 0, 0, 0, 0, false⟩

def VOLUME_LEVEL_MAX : UInt8 := 100

def setString (s : State) (string : List UInt8) (volume : UInt8) : State :=
  if s.tune = none then
    { s with
      tune := some string
      tune_start_ptr := some string
      next_tune := some string
      volume := if volume ≤ VOLUME_LEVEL_MAX then volume else VOLUME_LEVEL_MAX }
  else s

/-! ### The helpers end -/

section

variable {α β : Type} {n : ℕ}

/-- A value with `Q`, with at most `n` characters left. -/
def Ends (n : ℕ) (Q : α → Prop) (o : Option (α × List UInt8)) : Prop :=
  ∃ r, o = some r ∧ Q r.1 ∧ r.2.length ≤ n

theorem Ends.some {Q : α → Prop} {a : α} {p : List UInt8} (ha : Q a) (hp : p.length ≤ n) :
    Ends n Q (some (a, p)) := ⟨(a, p), rfl, ha, hp⟩

theorem Ends.bind {Q : α → Prop} {R : β → Prop} {o : Option (α × List UInt8)}
    {f : α × List UInt8 → Option (β × List UInt8)} (h : Ends n Q o)
    (hf : ∀ a p, Q a → p.length ≤ n → Ends n R (f (a, p))) : Ends n R (o >>= f) := by
  obtain ⟨⟨a, p⟩, rfl, ha, hp⟩ := h
  exact hf a p ha hp

theorem Ends.mono {Q : α → Prop} {m : ℕ} {o : Option (α × List UInt8)} (h : Ends n Q o)
    (hnm : n ≤ m) :
    Ends m Q o := by
  obtain ⟨r, hr, hq, hlen⟩ := h
  exact ⟨r, hr, hq, hlen.trans hnm⟩

end

theorem length_nextChar (p : List UInt8) : (nextChar p).2.length ≤ p.length :=
  (List.dropWhile_sublist isspace).length_le

theorem toupper_zero : toupper 0 = 0 := rfl

theorem advance_nextChar {p : List UInt8} (h : (nextChar p).1 ≠ 0) :
    ∃ q, advance (nextChar p).2 = some q ∧ q.length < p.length := by
  have hlen := length_nextChar p
  rw [nextChar] at h hlen ⊢
  dsimp only at h hlen ⊢
  cases hp : p.dropWhile isspace with
  | nil =>
    rw [hp] at h
    exact absurd toupper_zero h
  | cons c q =>
    rw [hp] at h hlen
    have hc : c ≠ 0 := by
      rintro rfl
      exact h toupper_zero
    exact ⟨q, if_neg hc, hlen⟩

theorem ne_zero_of_isdigit {c : UInt8} (h : isdigit c = true) : c ≠ 0 := by
  rintro rfl
  exact nomatch h

theorem numberLoop_ends (fuel : ℕ) (number : UInt32) (p : List UInt8) (hfuel : p.length < fuel) :
    Ends p.length (fun _ => True) (numberLoop fuel number p) := by
  induction fuel generalizing number p with
  | zero => exact nomatch hfuel
  | succ fuel ih =>
    rw [numberLoop]
    split
    · exact Ends.some trivial (length_nextChar p)
    · rename_i hdigit
      obtain ⟨q, hq, hlen⟩ := advance_nextChar (ne_zero_of_isdigit (not_not.mp hdigit))
      rw [hq]
      exact (ih _ q (by omega)).mono hlen.le

theorem nextNumber_ends (p : List UInt8) : Ends p.length (fun _ => True) (nextNumber p) :=
  numberLoop_ends _ 0 p (Nat.lt_succ_self _)

theorem dotsLoop_ends (fuel : ℕ) (dots : UInt32) (p : List UInt8) (hfuel : p.length < fuel) :
    Ends p.length (fun _ => True) (dotsLoop fuel dots p) := by
  induction fuel generalizing dots p with
  | zero => exact nomatch hfuel
  | succ fuel ih =>
    rw [dotsLoop]
    split
    · exact Ends.some trivial (length_nextChar p)
    · rename_i hdot
      have hne : (nextChar p).1 ≠ 0 := by
        rw [not_not.mp hdot]
        decide
      obtain ⟨q, hq, hlen⟩ := advance_nextChar hne
      rw [hq]
      exact (ih _ q (by omega)).mono hlen.le

theorem nextDots_ends (p : List UInt8) : Ends p.length (fun _ => True) (nextDots p) :=
  dotsLoop_ends _ 0 p (Nat.lt_succ_self _)

/-! ### The ranges -/

/-- Octave and tempo are in their ranges. -/
structure State.Valid (s : State) : Prop where
  octave : s.octave ≤ 6
  tempo_ge : 32 ≤ s.tempo
  tempo_le : s.tempo ≤ 255

structure Defaults.Valid (d : Defaults) : Prop where
  octave : d.octave ≤ 6
  tempo_ge : 32 ≤ d.tempo
  tempo_le : d.tempo ≤ 255

/-- A note has a frequency. -/
def Stop.InRange : Stop → Prop
  | .note n _ => 1 ≤ n ∧ n ≤ 84
  | _ => True

theorem divide_ne_zero {a b : UInt32} (h : b ≠ 0) : divide a b = some (a / b) := if_neg h

theorem length_ne_zero (n : UInt32) : (if n = 0 then 1 else n) ≠ 0 := by
  split
  · decide
  · assumption

theorem State.Valid.tempo_ne_zero {s : State} (h : s.Valid) : s.tempo ≠ 0 := by
  intro hzero
  exact absurd (hzero ▸ h.tempo_ge) (by decide)

theorem restDuration_isSome {s : State} (h : s.Valid) (rest_length dots : UInt32) :
    ∃ silence, restDuration s rest_length dots = some silence := by
  rw [restDuration, divide_ne_zero h.tempo_ne_zero]
  exact ⟨_, congrArg (Option.bind · _) (divide_ne_zero (length_ne_zero rest_length))⟩

theorem noteDuration_isSome {s : State} (h : s.Valid) (note_length dots : UInt32) :
    ∃ r, noteDuration s note_length dots = some r := by
  rw [noteDuration, divide_ne_zero h.tempo_ne_zero]
  exact ⟨_, congrArg (Option.bind · _) (divide_ne_zero (length_ne_zero note_length))⟩

theorem pause_ends (number_first : Bool) {s : State} (h : s.Valid) (p : List UInt8) :
    Ends p.length (fun _ => True) (pause number_first s p) := by
  rw [pause]
  cases number_first with
  | true =>
    refine (nextNumber_ends p).bind fun number p1 _ hp1 => ?_
    refine ((nextDots_ends p1).mono hp1).bind fun dots p2 _ hp2 => ?_
    obtain ⟨silence, hsilence⟩ := restDuration_isSome h number dots
    exact ⟨(silence, p2), congrArg (Option.bind · _) hsilence, trivial, hp2⟩
  | false =>
    refine (nextDots_ends p).bind fun dots p1 _ hp1 => ?_
    refine ((nextNumber_ends p1).mono hp1).bind fun number p2 _ hp2 => ?_
    obtain ⟨silence, hsilence⟩ := restDuration_isSome h number dots
    exact ⟨(silence, p2), congrArg (Option.bind · _) hsilence, trivial, hp2⟩

/-! ### One command -/

/-- What a command leaves. -/
def Fine (r : State × Option Stop) : Prop := r.1.Valid ∧ ∀ stop ∈ r.2, stop.InRange

theorem Fine.continue {s : State} (h : s.Valid) : Fine (s, none) :=
  ⟨h, fun _ hs => absurd hs (Option.not_mem_none _)⟩

theorem Fine.stop {s : State} {stop : Stop} (h : s.Valid) (hstop : stop.InRange) : Fine
    (s, some stop) :=
  ⟨h, fun _ hs => Option.some.inj hs ▸ hstop⟩

theorem modeCommand_ends {s : State} (h : s.Valid) (p : List UInt8) :
    Ends p.length Fine (modeCommand s p) := by
  have hvalid : ∀ (mode : NoteMode) (again : Bool),
      State.Valid { s with note_mode := mode, repeat_flag := again } :=
    fun _ _ => ⟨h.octave, h.tempo_ge, h.tempo_le⟩
  rw [modeCommand]
  split
  · exact Ends.some (Fine.stop h trivial) (length_nextChar p)
  · rename_i hne
    obtain ⟨q, hq, hlen⟩ := advance_nextChar hne
    rw [hq]
    show Ends p.length Fine (if (nextChar p).1 = 78 then _ else _)
    split_ifs
    · exact Ends.some (Fine.continue (hvalid .NORMAL s.repeat_flag)) hlen.le
    · exact Ends.some (Fine.continue (hvalid .LEGATO s.repeat_flag)) hlen.le
    · exact Ends.some (Fine.continue (hvalid .STACCATO s.repeat_flag)) hlen.le
    · exact Ends.some (Fine.continue (hvalid s.note_mode false)) hlen.le
    · exact Ends.some (Fine.continue (hvalid s.note_mode true)) hlen.le
    · exact Ends.some (Fine.stop h trivial) hlen.le

theorem noteTab_le (i : ℕ) : (noteTab.getD i 0).toNat ≤ 11 := by
  rcases i with _ | _ | _ | _ | _ | _ | _ | i
  · decide
  · decide
  · decide
  · decide
  · decide
  · decide
  · decide
  · exact Nat.zero_le 11

theorem letter_note_inRange {t octave : UInt32} (ht : t.toNat ≤ 11) (h : octave ≤ 6) :
    1 ≤ t + octave * 12 + 1 ∧ t + octave * 12 + 1 ≤ 84 := by
  have hoctave : octave.toNat ≤ 6 := UInt32.le_iff_toNat_le.mp h
  have h1 : (1 : UInt32).toNat = 1 := rfl
  have h84 : (84 : UInt32).toNat = 84 := rfl
  have hnote : (t + octave * 12 + 1).toNat = t.toNat + octave.toNat * 12 + 1 := by
    have h12 : (12 : UInt32).toNat = 12 := rfl
    rw [UInt32.toNat_add, UInt32.toNat_add, UInt32.toNat_mul, h1, h12]
    omega
  rw [UInt32.le_iff_toNat_le, UInt32.le_iff_toNat_le, hnote, h1, h84]
  omega

theorem sharp_inRange {note : UInt32} (h : 1 ≤ note ∧ note ≤ 84) :
    1 ≤ (if note < 84 then note + 1 else note) ∧ (if note < 84 then note + 1 else note) ≤ 84 := by
  split
  · rename_i hlt
    have h1 : (1 : UInt32).toNat = 1 := rfl
    have h84 : (84 : UInt32).toNat = 84 := rfl
    rw [UInt32.lt_iff_toNat_lt] at hlt
    rw [UInt32.le_iff_toNat_le, UInt32.le_iff_toNat_le, UInt32.toNat_add]
    omega
  · exact h

theorem flat_inRange {note : UInt32} (h : 1 ≤ note ∧ note ≤ 84) :
    1 ≤ (if 1 < note then note - 1 else note) ∧ (if 1 < note then note - 1 else note) ≤ 84 := by
  split
  · rename_i hlt
    have h1 : (1 : UInt32).toNat = 1 := rfl
    have hle := UInt32.le_iff_toNat_le.mp h.2
    have hlt' := UInt32.lt_iff_toNat_lt.mp hlt
    rw [UInt32.le_iff_toNat_le, UInt32.le_iff_toNat_le, UInt32.toNat_sub_of_le _ _ h.1]
    omega
  · exact h

theorem accidental_ends {note : UInt32} (h : 1 ≤ note ∧ note ≤ 84) (p : List UInt8) :
    Ends p.length (fun n : UInt32 => 1 ≤ n ∧ n ≤ 84) (accidental note p) := by
  rw [accidental]
  by_cases hsharp : (nextChar p).1 = 35 ∨ (nextChar p).1 = 43
  · have hne : (nextChar p).1 ≠ 0 := by
      intro hzero
      rw [hzero] at hsharp
      exact nomatch hsharp
    obtain ⟨q, hq, hlen⟩ := advance_nextChar hne
    rw [if_pos hsharp, hq]
    exact Ends.some (sharp_inRange h) hlen.le
  · rw [if_neg hsharp]
    by_cases hflat : (nextChar p).1 = 45
    · have hne : (nextChar p).1 ≠ 0 := by
        rw [hflat]
        decide
      obtain ⟨q, hq, hlen⟩ := advance_nextChar hne
      rw [if_pos hflat, hq]
      exact Ends.some (flat_inRange h) hlen.le
    · rw [if_neg hflat]
      exact Ends.some h (length_nextChar p)

theorem letterCommand_ends {s : State} (h : s.Valid) (c : UInt8) (p : List UInt8) :
    Ends p.length Fine (letterCommand s c p) := by
  have hnote := letter_note_inRange (noteTab_le (c - 65).toNat) h.octave
  refine (accidental_ends hnote p).bind fun note p1 hrange hp1 => ?_
  refine ((nextNumber_ends p1).mono hp1).bind fun number p2 _ hp2 => ?_
  exact Ends.some (Fine.stop h hrange) hp2

theorem number_ends {p : List UInt8}
    {f : UInt32 × List UInt8 → Option ((State × Option Stop) × List UInt8)}
    (hf : ∀ n q, q.length ≤ p.length → Ends p.length Fine (f (n, q))) :
    Ends p.length Fine (nextNumber p >>= f) :=
  (nextNumber_ends p).bind fun n q _ hq => hf n q hq

theorem command_ends (number_first : Bool) (note_length : UInt32) {s : State} (h : s.Valid)
    (c : UInt8) (p : List UInt8) : Ends p.length Fine (command number_first note_length s c p) := by
  have hoctave : ∀ octave : UInt32, octave ≤ 6 → State.Valid { s with octave := octave } :=
    fun _ ho => ⟨ho, h.tempo_ge, h.tempo_le⟩
  rw [command]
  by_cases hL : c = 76
  · rw [if_pos hL]
    refine number_ends fun n q hq => ?_
    have hlength : State.Valid { s with note_length := n } := ⟨h.octave, h.tempo_ge, h.tempo_le⟩
    by_cases hn : n < 1
    · exact ⟨_, congrArg (fun stop => some ((_, stop), q)) (if_pos hn), Fine.stop hlength trivial,
        hq⟩
    · exact ⟨_, congrArg (fun stop => some ((_, stop), q)) (if_neg hn), Fine.continue hlength, hq⟩
  rw [if_neg hL]
  by_cases hO : c = 79
  · rw [if_pos hO]
    refine number_ends fun n q hq => Ends.some (Fine.continue (hoctave _ ?_)) hq
    split
    · exact UInt32.le_refl 6
    · exact UInt32.not_lt.mp (by assumption)
  rw [if_neg hO]
  by_cases hdown : c = 60
  · rw [if_pos hdown]
    refine Ends.some (Fine.continue (hoctave _ ?_)) le_rfl
    split
    · rename_i hpos
      exact UInt32.le_trans (UInt32.sub_le
        (UInt32.le_iff_toNat_le.mpr (UInt32.lt_iff_toNat_lt.mp hpos))) h.octave
    · exact h.octave
  rw [if_neg hdown]
  by_cases hup : c = 62
  · rw [if_pos hup]
    refine Ends.some (Fine.continue (hoctave _ ?_)) le_rfl
    split
    · rename_i hlt
      have h1 : (1 : UInt32).toNat = 1 := rfl
      have h6 : (6 : UInt32).toNat = 6 := rfl
      rw [UInt32.lt_iff_toNat_lt] at hlt
      rw [UInt32.le_iff_toNat_le, UInt32.toNat_add]
      omega
    · exact h.octave
  rw [if_neg hup]
  by_cases hM : c = 77
  · rw [if_pos hM]
    exact modeCommand_ends h p
  rw [if_neg hM]
  by_cases hP : c = 80
  · rw [if_pos hP]
    exact (pause_ends number_first h p).bind fun silence q _ hq => Ends.some
      (Fine.stop h trivial) hq
  rw [if_neg hP]
  by_cases hT : c = 84
  · rw [if_pos hT]
    refine number_ends fun nt q hq => ?_
    dsimp only
    split
    · rename_i htempo
      exact Ends.some (Fine.continue ⟨h.octave, htempo.1, htempo.2⟩) hq
    · exact Ends.some (Fine.stop h trivial) hq
  rw [if_neg hT]
  by_cases hN : c = 78
  · rw [if_pos hN]
    refine number_ends fun note q hq => ?_
    dsimp only
    split_ifs with hhigh hzero
    · exact Ends.some (Fine.stop h trivial) hq
    · refine ((nextDots_ends q).mono hq).bind fun dots q2 _ hq2 => ?_
      obtain ⟨silence, hsilence⟩ := restDuration_isSome h s.note_length dots
      exact ⟨_, congrArg (Option.bind · _) hsilence, Fine.stop h trivial, hq2⟩
    · refine Ends.some (Fine.stop h ⟨?_, UInt32.not_lt.mp hhigh⟩) hq
      have hpos : note.toNat ≠ 0 := fun hz => hzero (UInt32.toNat_inj.mp hz)
      exact UInt32.le_iff_toNat_le.mpr (Nat.pos_of_ne_zero hpos)
  rw [if_neg hN]
  split
  · exact letterCommand_ends h c p
  · exact Ends.some (Fine.stop h trivial) le_rfl

/-! ### A call -/

theorem search_ends (number_first : Bool) (note_length : UInt32) (fuel : ℕ) {s : State}
    (h : s.Valid) (p : List UInt8) (hfuel : p.length < fuel) :
    Ends p.length (fun r => r.1.Valid ∧ r.2.InRange)
      (search number_first note_length fuel s p) := by
  induction fuel generalizing s p with
  | zero => exact nomatch hfuel
  | succ fuel ih =>
    rw [search]
    split
    · exact Ends.some ⟨h, trivial⟩ (length_nextChar p)
    · rename_i hne
      obtain ⟨q, hq, hlen⟩ := advance_nextChar hne
      rw [hq]
      refine ((command_ends number_first note_length h (nextChar p).1 q).bind fun r q2 hfine hq2 =>
        ?_).mono
        hlen.le
      obtain ⟨s2, stop⟩ := r
      cases stop with
      | some stop => exact Ends.some ⟨hfine.1, hfine.2 stop rfl⟩ hq2
      | none => exact (ih hfine.1 q2 (by omega)).mono hq2

theorem Defaults.Valid.reset {d : Defaults} (h : d.Valid) (s : State) (repeat_flag : Bool) :
    (reset d s repeat_flag).Valid := ⟨h.octave, h.tempo_ge, h.tempo_le⟩

/-- A call finds nothing of which it writes all of the arguments. -/
def LeavesOutputs (number_first : Bool) (s : State) : Prop :=
  s.using_custom_msg = false ∧ ∃ p ∈ s.tune.bind fun _ => s.next_tune, ∃ r ∈ found number_first s p,
    (∃ silence, r.1.2 = .rest silence) ∨ (r.1.2 = .tuneEnd ∧ r.1.1.repeat_flag = true)

section

variable (note_to_frequency : UInt32 → UInt32) {d : Defaults} (hd : d.Valid) (number_first : Bool)
    {s : State}
  (h : s.Valid)

theorem getNextNote_parse (hcustom : s.using_custom_msg = false) {p : List UInt8}
    (hp : (s.tune.bind fun _ => s.next_tune) = some p) (args : Outputs) :
    getNextNote note_to_frequency d number_first s args
      = (found number_first s p).bind fun r => finish note_to_frequency d args r.1.1 r.2 r.1.2 := by
  have hnot : ¬ s.using_custom_msg = true :=
    fun htrue => Bool.false_ne_true (hcustom.symm.trans htrue)
  rw [getNextNote, if_neg hnot, hp]

include hd in
theorem finish_total (args : Outputs) {s : State} (h : s.Valid) (p : List UInt8) (stop : Stop) :
    ∃ r, finish note_to_frequency d args s p stop = some r ∧ r.state.Valid := by
  have hcursor : ∀ q, State.Valid { s with next_tune := some q } :=
    fun _ => ⟨h.octave, h.tempo_ge, h.tempo_le⟩
  cases stop with
  | note note note_length =>
    obtain ⟨⟨dots, q⟩, hdots, -⟩ := nextDots_ends p
    obtain ⟨r, hr⟩ := noteDuration_isSome h note_length dots
    simp only [finish, hdots, hr, Option.bind_eq_bind, Option.bind_some]
    exact ⟨_, rfl, hcursor q⟩
  | pause silence => exact ⟨_, rfl, hcursor p⟩
  | rest silence => exact ⟨_, rfl, hcursor p⟩
  | tuneEnd => exact ⟨_, rfl, hd.reset _ _⟩
  | tuneError => exact ⟨_, rfl, hd.reset _ _⟩

include h in
theorem found_total (p : List UInt8) :
    ∃ r, found number_first s p = some r ∧ r.1.1.Valid ∧ r.1.2.InRange := by
  obtain ⟨r, hr, hvalid, -⟩ := search_ends number_first s.note_length (p.length + 1) h p
    (Nat.lt_succ_self _)
  exact ⟨r, hr, hvalid⟩

include hd h in
theorem getNextNote_total (args : Outputs) :
    ∃ r, getNextNote note_to_frequency d number_first s args = some r ∧ r.state.Valid := by
  cases hcustom : s.using_custom_msg with
  | true =>
    rw [getNextNote, if_pos hcustom]
    exact ⟨_, rfl, h.octave, h.tempo_ge, h.tempo_le⟩
  | false =>
    cases hp : s.tune.bind fun _ => s.next_tune with
    | none =>
      have hnot : ¬ s.using_custom_msg = true :=
        fun htrue => Bool.false_ne_true (hcustom.symm.trans htrue)
      rw [getNextNote, if_neg hnot, hp]
      exact ⟨_, rfl, hd.reset _ _⟩
    | some p =>
      obtain ⟨r, hfound, hvalid, -⟩ := found_total number_first h p
      rw [getNextNote_parse note_to_frequency number_first hcustom hp, hfound, Option.bind_some]
      exact finish_total note_to_frequency hd args hvalid r.2 r.1.2

/-- What a call returns does not depend on what the arguments held. -/
def Determined (d : Defaults) (s : State) : Prop :=
  ∀ args args' r r', getNextNote note_to_frequency d number_first s args = some r →
    getNextNote note_to_frequency d number_first s args' = some r' → r.status = .Continue →
    r.outputs = r'.outputs

theorem not_determined {r : Outputs → Result}
    (hr : ∀ args, getNextNote note_to_frequency d number_first s args = some (r args))
    (hstatus : ∀ args, (r args).status = .Continue)
    (hkeeps : ∀ args, (r args).outputs.frequency = args.frequency) :
    ¬ Determined note_to_frequency number_first d s := by
  intro hdet
  have heq := hdet ⟨0, 0, 0⟩ ⟨1, 0, 0⟩ _ _ (hr _) (hr _) (hstatus _)
  have hfrequency : (0 : UInt32) = 1 :=
    (hkeeps ⟨0, 0, 0⟩).symm.trans ((congrArg Outputs.frequency heq).trans (hkeeps ⟨1, 0, 0⟩))
  exact nomatch hfrequency

theorem determined_found (hcustom : s.using_custom_msg = false) {p : List UInt8}
    (hp : (s.tune.bind fun _ => s.next_tune) = some p) {r : (State × Stop) × List UInt8}
    (hr : found number_first s p = some r) :
    Determined note_to_frequency number_first d s ↔
      ¬ ((∃ silence, r.1.2 = .rest silence) ∨ (r.1.2 = .tuneEnd ∧ r.1.1.repeat_flag = true)) := by
  obtain ⟨⟨s2, stop⟩, q⟩ := r
  have hcall : ∀ args, getNextNote note_to_frequency d number_first s args
      = finish note_to_frequency d args s2 q stop := fun args => by
    rw [getNextNote_parse note_to_frequency number_first hcustom hp, hr, Option.bind_some]
  have hsame : (∀ args args', finish note_to_frequency d args s2 q stop
      = finish note_to_frequency d args' s2 q stop) →
        Determined note_to_frequency number_first d s := by
    intro h args args' r r' hr hr' _
    rw [hcall] at hr hr'
    rw [Option.some.inj (hr.symm.trans ((h args args').trans hr'))]
  cases stop with
  | note note note_length => exact iff_of_true (hsame fun _ _ => rfl) (by simp)
  | pause silence => exact iff_of_true (hsame fun _ _ => rfl) (by simp)
  | rest silence =>
    exact iff_of_false (not_determined note_to_frequency number_first hcall (fun _ => rfl) fun _ =>
      rfl)
      (not_not.mpr (.inl ⟨silence, rfl⟩))
  | tuneEnd =>
    cases hrepeat : s2.repeat_flag with
    | true =>
      exact iff_of_false (not_determined note_to_frequency number_first hcall
        (fun _ => if_pos hrepeat)
        fun _ => rfl) (not_not.mpr (.inr ⟨rfl, rfl⟩))
    | false =>
      refine iff_of_true (fun args args' r r' hr hr' hstatus => ?_) (by simp)
      rw [hcall] at hr
      obtain rfl := Option.some.inj hr
      have hstop : (tuneEnd d s2).2 = .Stop := if_neg (by rw [hrepeat]; exact Bool.false_ne_true)
      exact absurd (hstop.symm.trans hstatus) (by decide)
  | tuneError =>
    refine iff_of_true (fun args args' r r' hr hr' hstatus => ?_) (by simp)
    rw [hcall] at hr
    obtain rfl := Option.some.inj hr
    exact absurd hstatus (show Status.Error ≠ Status.Continue by decide)

/-- A call writes all of the arguments, exactly if it does not stop at a rest or the end of a tune
that is repeated. -/
theorem determined_iff : Determined note_to_frequency number_first d s ↔
    ¬ LeavesOutputs number_first s := by
  cases hcustom : s.using_custom_msg with
  | true =>
    refine iff_of_true (fun args args' r r' hr hr' _ => ?_) fun hleaves => ?_
    · rw [getNextNote, if_pos hcustom] at hr hr'
      rw [← Option.some.inj hr, ← Option.some.inj hr']
    · exact Bool.false_ne_true (hleaves.1.symm.trans hcustom)
  | false =>
    cases hp : s.tune.bind fun _ => s.next_tune with
    | none =>
      refine iff_of_true (fun args args' r r' hr hr' hstatus => ?_) ?_
      · have hnot : ¬ s.using_custom_msg = true :=
          fun htrue => Bool.false_ne_true (hcustom.symm.trans htrue)
        rw [getNextNote, if_neg hnot, hp] at hr
        obtain rfl := Option.some.inj hr
        exact absurd hstatus (show Status.Error ≠ Status.Continue by decide)
      · rintro ⟨-, p, hp', -⟩
        exact absurd (hp.symm.trans hp') (Option.some_ne_none p).symm
    | some p =>
      cases hfound : found number_first s p with
      | none =>
        refine iff_of_true (fun args args' r r' hr hr' _ => ?_) ?_
        · rw [getNextNote_parse note_to_frequency number_first hcustom hp, hfound] at hr
          exact absurd hr (Option.some_ne_none r).symm
        · rintro ⟨-, p', hp', r, hr, -⟩
          obtain rfl := Option.some.inj (hp.symm.trans hp')
          exact absurd (hfound.symm.trans hr) (Option.some_ne_none r).symm
      | some r =>
        rw [determined_found note_to_frequency number_first hcustom hp hfound, not_iff_not]
        constructor
        · exact fun hr => ⟨hcustom, p, hp, r, hfound, hr⟩
        · rintro ⟨-, p', hp', r', hr', hleaves⟩
          obtain rfl := Option.some.inj (hp.symm.trans hp')
          obtain rfl := Option.some.inj (hfound.symm.trans hr')
          exact hleaves

end

/-! ### The order of the arguments of a pause -/

theorem nextChar_nextChar (p : List UInt8) : nextChar (nextChar p).2 = nextChar p := by
  rw [nextChar, nextChar, List.dropWhile_idempotent]

theorem numberLoop_nextChar (fuel : ℕ) (number : UInt32) (p : List UInt8) :
    numberLoop fuel number (nextChar p).2 = numberLoop fuel number p := by
  cases fuel with
  | zero => rfl
  | succ fuel => rw [numberLoop, numberLoop, nextChar_nextChar]

theorem dotsLoop_nextChar (fuel : ℕ) (dots : UInt32) (p : List UInt8) :
    dotsLoop fuel dots (nextChar p).2 = dotsLoop fuel dots p := by
  cases fuel with
  | zero => rfl
  | succ fuel => rw [dotsLoop, dotsLoop, nextChar_nextChar]

theorem numberLoop_fuel {fuel fuel' : ℕ} (number : UInt32) {p : List UInt8} (h : p.length < fuel)
    (h' : p.length < fuel') : numberLoop fuel number p = numberLoop fuel' number p := by
  induction fuel generalizing fuel' number p with
  | zero => exact nomatch h
  | succ fuel ih =>
    obtain ⟨fuel', rfl⟩ := Nat.exists_eq_succ_of_ne_zero (Nat.ne_zero_of_lt h')
    rw [numberLoop, numberLoop]
    by_cases hdigit : isdigit (nextChar p).1 = true
    · obtain ⟨q, hq, hlen⟩ := advance_nextChar (ne_zero_of_isdigit hdigit)
      rw [if_neg (not_not.mpr hdigit), if_neg (not_not.mpr hdigit), hq]
      exact ih _ (by omega) (by omega)
    · rw [if_pos hdigit, if_pos hdigit]

theorem dotsLoop_fuel {fuel fuel' : ℕ} (dots : UInt32) {p : List UInt8} (h : p.length < fuel)
    (h' : p.length < fuel') : dotsLoop fuel dots p = dotsLoop fuel' dots p := by
  induction fuel generalizing fuel' dots p with
  | zero => exact nomatch h
  | succ fuel ih =>
    obtain ⟨fuel', rfl⟩ := Nat.exists_eq_succ_of_ne_zero (Nat.ne_zero_of_lt h')
    rw [dotsLoop, dotsLoop]
    by_cases hdot : (nextChar p).1 = 46
    · have hne : (nextChar p).1 ≠ 0 := by
        rw [hdot]
        decide
      obtain ⟨q, hq, hlen⟩ := advance_nextChar hne
      rw [if_neg (not_not.mpr hdot), if_neg (not_not.mpr hdot), hq]
      exact ih _ (by omega) (by omega)
    · rw [if_pos hdot, if_pos hdot]

theorem nextNumber_nextChar (p : List UInt8) : nextNumber (nextChar p).2 = nextNumber p :=
  (numberLoop_fuel 0 (Nat.lt_succ_self _) (Nat.lt_succ_of_le (length_nextChar p))).trans
    (numberLoop_nextChar _ 0 p)

theorem nextDots_nextChar (p : List UInt8) : nextDots (nextChar p).2 = nextDots p :=
  (dotsLoop_fuel 0 (Nat.lt_succ_self _) (Nat.lt_succ_of_le (length_nextChar p))).trans
    (dotsLoop_nextChar _ 0 p)

theorem nextNumber_of_dot {p : List UInt8} (h : (nextChar p).1 = 46) :
    nextNumber p = some (0, (nextChar p).2) := by
  have hdigit : ¬ isdigit (nextChar p).1 = true := by
    rw [h]
    decide
  rw [nextNumber, numberLoop, if_pos hdigit]
  rfl

theorem nextDots_of_ne {p : List UInt8} (h : (nextChar p).1 ≠ 46) :
    nextDots p = some (0, (nextChar p).2) := by
  rw [nextDots, dotsLoop, if_pos h]
  rfl

theorem extend_bounds (dots : ℕ) {period dot_extension : UInt32}
    (h : period.toNat + 2 * dot_extension.toNat < 2 ^ 32) :
    period.toNat + (if dots = 0 then 0 else dot_extension.toNat) ≤
      (extend dots period dot_extension).toNat ∧
      (extend dots period dot_extension).toNat ≤ period.toNat + 2 * dot_extension.toNat := by
  induction dots generalizing period dot_extension with
  | zero => exact ⟨le_rfl, Nat.le_add_right _ _⟩
  | succ dots ih =>
    have h2 : (2 : UInt32).toNat = 2 := rfl
    have hsum : (period + dot_extension).toNat = period.toNat + dot_extension.toNat := by
      rw [UInt32.toNat_add]
      exact Nat.mod_eq_of_lt (by omega)
    have hhalf : (dot_extension / 2).toNat = dot_extension.toNat / 2 := by
      rw [UInt32.toNat_div, h2]
    obtain ⟨hlow, hhigh⟩ := @ih (period + dot_extension) (dot_extension / 2) (by omega)
    rw [extend, if_neg (Nat.succ_ne_zero dots)]
    rw [hsum] at hlow hhigh
    rw [hhalf] at hhigh
    exact ⟨(Nat.le_add_right _ _).trans hlow, by omega⟩

def restPeriod (s : State) (rest_length : UInt32) : UInt32 :=
  BEAT_TIME_CONVERSION / s.tempo / (if rest_length = 0 then 1 else rest_length)

theorem restDuration_eq {s : State} (h : s.Valid) (rest_length dots : UInt32) :
    restDuration s rest_length dots
      = some (extend dots.toNat (restPeriod s rest_length) (restPeriod s rest_length / 2)) := by
  rw [restDuration, divide_ne_zero h.tempo_ne_zero]
  exact congrArg (Option.bind · _) (divide_ne_zero (length_ne_zero rest_length))

/-- Both orders of the arguments of a pause give the same length: the dots behind the number do not
lengthen the rest, and the number behind the dots does not shorten it. -/
structure Alike (s : State) (p : List UInt8) : Prop where
  dots : (nextChar p).1 ≠ 46 → ∀ number q dots q', nextNumber p = some (number, q) →
    nextDots q = some (dots, q') → dots = 0 ∨ restPeriod s number < 2
  number : (nextChar p).1 = 46 → ∀ dots q number q', nextDots p = some (dots, q) →
    nextNumber q = some (number, q') → number ≤ 1

theorem whole_toNat {s : State} (h : s.Valid) :
    941176 ≤ (BEAT_TIME_CONVERSION / s.tempo).toNat ∧ (BEAT_TIME_CONVERSION / s.tempo).toNat ≤
      7500000 := by
  have hbeat : BEAT_TIME_CONVERSION.toNat = 240000000 := rfl
  have hge : 32 ≤ s.tempo.toNat := UInt32.le_iff_toNat_le.mp h.tempo_ge
  have hle : s.tempo.toNat ≤ 255 := UInt32.le_iff_toNat_le.mp h.tempo_le
  rw [UInt32.toNat_div, hbeat]
  exact ⟨(Nat.div_le_div_left hle (by omega)).trans' (by decide),
    (Nat.div_le_div_left hge (by decide)).trans (by decide)⟩

theorem restPeriod_toNat {s : State} (h : s.Valid) (number : UInt32) :
    (restPeriod s number).toNat ≤ 7500000 := by
  rw [restPeriod, UInt32.toNat_div]
  exact (Nat.div_le_self _ _).trans (whole_toNat h).2

theorem extend_eq_iff {s : State} (h : s.Valid) (number dots : UInt32) :
    extend dots.toNat (restPeriod s number) (restPeriod s number / 2) = restPeriod s number ↔
      dots = 0 ∨ restPeriod s number < 2 := by
  have hle := restPeriod_toNat h number
  have h2 : (2 : UInt32).toNat = 2 := rfl
  have hhalf : (restPeriod s number / 2).toNat = (restPeriod s number).toNat / 2 := by
    rw [UInt32.toNat_div, h2]
  obtain ⟨hlow, hhigh⟩ := @extend_bounds dots.toNat (restPeriod s number) (restPeriod s number / 2)
    (by omega)
  rw [hhalf] at hlow hhigh
  rw [← UInt32.toNat_inj, UInt32.lt_iff_toNat_lt, h2]
  by_cases hdots : dots = 0
  · rw [hdots]
    exact iff_of_true rfl (.inl rfl)
  · have hne : dots.toNat ≠ 0 := fun hz => hdots (UInt32.toNat_inj.mp hz)
    rw [if_neg hne] at hlow
    rw [or_iff_right hdots]
    omega

theorem extend_whole_iff {s : State} (h : s.Valid) (number dots : UInt32) :
    extend dots.toNat (restPeriod s 0) (restPeriod s 0 / 2)
        = extend dots.toNat (restPeriod s number) (restPeriod s number / 2) ↔ number ≤ 1 := by
  have h1 : (1 : UInt32).toNat = 1 := rfl
  have h2 : (2 : UInt32).toNat = 2 := rfl
  have hhalf : ∀ period : UInt32, (period / 2).toNat = period.toNat / 2 := fun period => by
    rw [UInt32.toNat_div, h2]
  have hwhole : restPeriod s 0 = BEAT_TIME_CONVERSION / s.tempo := by
    rw [restPeriod, if_pos rfl]
    exact UInt32.div_one
  by_cases hnumber : number ≤ 1
  · have hone : (if number = 0 then 1 else number) = (1 : UInt32) := by
      split
      · rfl
      · rename_i hne
        have hne0 : number.toNat ≠ 0 := fun hz => hne (UInt32.toNat_inj.mp hz)
        have hle := UInt32.le_iff_toNat_le.mp hnumber
        exact UInt32.toNat_inj.mp (by omega)
    refine iff_of_true ?_ hnumber
    rw [show restPeriod s number = restPeriod s 0 by rw [restPeriod, restPeriod, hone, if_pos rfl]]
  · refine iff_of_false (fun heq => ?_) hnumber
    rw [UInt32.le_iff_toNat_le, h1, not_le] at hnumber
    have hne : number ≠ 0 := fun hz => by
      rw [hz] at hnumber
      exact nomatch hnumber
    have hdiv : (restPeriod s number).toNat = (restPeriod s 0).toNat / number.toNat := by
      rw [hwhole, restPeriod, if_neg hne, UInt32.toNat_div]
    have hless : (restPeriod s number).toNat ≤ (restPeriod s 0).toNat / 2 := by
      rw [hdiv]
      exact Nat.div_le_div_left hnumber (by decide)
    obtain ⟨hge, hle⟩ := whole_toNat h
    rw [← hwhole] at hge hle
    obtain ⟨hlow, -⟩ := @extend_bounds dots.toNat (restPeriod s 0) (restPeriod s 0 / 2) (by
      rw [hhalf]
      omega)
    obtain ⟨hlow', hhigh⟩ := @extend_bounds dots.toNat (restPeriod s number)
        (restPeriod s number / 2) (by
      rw [hhalf]
      omega)
    rw [hhalf] at hlow hhigh
    rw [← heq] at hhigh
    by_cases hdots : dots.toNat = 0
    · rw [hdots, extend, extend] at heq
      rw [heq] at hge hless
      omega
    · rw [if_neg hdots] at hlow
      omega

theorem pause_alike {s : State} (h : s.Valid) (p : List UInt8) :
    (∃ silence, ∀ number_first, ∃ q, pause number_first s p = some (silence, q)) ↔ Alike s p := by
  by_cases hdot : (nextChar p).1 = 46
  · -- the number behind the dots is read only if the dots are read first
    obtain ⟨⟨dots, q⟩, hq, -⟩ := nextDots_ends p
    obtain ⟨⟨number, q'⟩, hq', -⟩ := nextNumber_ends q
    have htrue : pause true s p
        = some (extend dots.toNat (restPeriod s 0) (restPeriod s 0 / 2), q) := by
      rw [pause, if_pos rfl, nextNumber_of_dot hdot]
      show (nextDots (nextChar p).2 >>= fun r => restDuration s 0 r.1 >>= fun silence => some
        (silence, r.2)) = _
      rw [nextDots_nextChar, hq]
      show (restDuration s 0 dots >>= fun silence => some (silence, q)) = _
      rw [restDuration_eq h]
      rfl
    have hfalse : pause false s p
        = some (extend dots.toNat (restPeriod s number) (restPeriod s number / 2), q') := by
      rw [pause, if_neg Bool.false_ne_true, hq]
      show (nextNumber q >>= fun r => restDuration s r.1 dots >>= fun silence => some
        (silence, r.2)) = _
      rw [hq']
      show (restDuration s number dots >>= fun silence => some (silence, q')) = _
      rw [restDuration_eq h]
      rfl
    constructor
    · rintro ⟨silence, hall⟩
      obtain ⟨q1, h1⟩ := hall true
      obtain ⟨q2, h2⟩ := hall false
      have heq := (congrArg Prod.fst (Option.some.inj (htrue.symm.trans h1))).trans
        (congrArg Prod.fst (Option.some.inj (hfalse.symm.trans h2))).symm
      refine ⟨fun hne => absurd hdot hne, fun _ dots1 r1 number1 r2 hd hn => ?_⟩
      obtain ⟨rfl, rfl⟩ := Prod.mk.inj (Option.some.inj (hq.symm.trans hd))
      obtain ⟨rfl, -⟩ := Prod.mk.inj (Option.some.inj (hq'.symm.trans hn))
      exact (extend_whole_iff h number dots).mp heq
    · intro halike
      have heq := (extend_whole_iff h number dots).mpr (halike.number hdot _ _ _ _ hq hq')
      refine ⟨extend dots.toNat (restPeriod s 0) (restPeriod s 0 / 2), fun number_first => ?_⟩
      cases number_first with
      | true => exact ⟨q, htrue⟩
      | false => exact ⟨q', heq ▸ hfalse⟩
  · -- the dots behind the number are read only if the number is read first
    obtain ⟨⟨number, q⟩, hq, -⟩ := nextNumber_ends p
    obtain ⟨⟨dots, q'⟩, hq', -⟩ := nextDots_ends q
    have htrue : pause true s p
        = some (extend dots.toNat (restPeriod s number) (restPeriod s number / 2), q') := by
      rw [pause, if_pos rfl, hq]
      show (nextDots q >>= fun r => restDuration s number r.1 >>= fun silence => some
        (silence, r.2)) = _
      rw [hq']
      show (restDuration s number dots >>= fun silence => some (silence, q')) = _
      rw [restDuration_eq h]
      rfl
    have hfalse : pause false s p = some (restPeriod s number, q) := by
      rw [pause, if_neg Bool.false_ne_true, nextDots_of_ne hdot]
      show (nextNumber (nextChar p).2 >>= fun r => restDuration s r.1 0 >>= fun silence => some
        (silence, r.2))
        = _
      rw [nextNumber_nextChar, hq]
      show (restDuration s number 0 >>= fun silence => some (silence, q)) = _
      rw [restDuration_eq h]
      rfl
    constructor
    · rintro ⟨silence, hall⟩
      obtain ⟨q1, h1⟩ := hall true
      obtain ⟨q2, h2⟩ := hall false
      have heq := (congrArg Prod.fst (Option.some.inj (htrue.symm.trans h1))).trans
        (congrArg Prod.fst (Option.some.inj (hfalse.symm.trans h2))).symm
      refine ⟨fun _ number1 r1 dots1 r2 hn hd => ?_, fun hd => absurd hd hdot⟩
      obtain ⟨rfl, rfl⟩ := Prod.mk.inj (Option.some.inj (hq.symm.trans hn))
      obtain ⟨rfl, -⟩ := Prod.mk.inj (Option.some.inj (hq'.symm.trans hd))
      exact (extend_eq_iff h number dots).mp heq
    · intro halike
      have heq := (extend_eq_iff h number dots).mpr (halike.dots hdot _ _ _ _ hq hq')
      refine ⟨restPeriod s number, fun number_first => ?_⟩
      cases number_first with
      | true => exact ⟨q', heq ▸ htrue⟩
      | false => exact ⟨q, hfalse⟩

theorem command_order (number_first : Bool) (note_length : UInt32) (s : State) {c : UInt8}
    (h : c ≠ 80)
    (p : List UInt8) : command number_first note_length s c p = command true note_length s c p := by
  simp only [command, if_neg h]

/-- The loop of `getNextNote`, up to behind the 'P' at which it is left. -/
def pausePlace (note_length : UInt32) : ℕ → State → List UInt8 → Option (State × List UInt8)
  | 0, _, _ => none
  | fuel + 1, s, p => do
    let r := nextChar p
    if r.1 = 0 then none
    let p ← advance r.2
    if r.1 = 80 then return (s, p)
    let ((s, stop), p) ← command true note_length s r.1 p
    match stop with
    | some _ => none
    | none => pausePlace note_length fuel s p

theorem search_order (number_first : Bool) (note_length : UInt32) (fuel : ℕ) {s : State}
    (h : s.Valid) (p : List UInt8) :
    (pausePlace note_length fuel s p = none →
      search number_first note_length fuel s p = search true note_length fuel s p) ∧
    ∀ r, pausePlace note_length fuel s p = some r → r.1.Valid ∧
      search number_first note_length fuel s p
        = (pause number_first r.1 r.2).map fun silence => ((r.1, .pause silence.1), silence.2) := by
  induction fuel generalizing s p with
  | zero => exact ⟨fun _ => rfl, fun _ hr => nomatch hr⟩
  | succ fuel ih =>
    rw [pausePlace, search, search]
    by_cases hend : (nextChar p).1 = 0
    · rw [if_pos hend, if_pos hend, if_pos hend]
      exact ⟨fun _ => rfl, fun _ hr => nomatch hr⟩
    obtain ⟨q, hq, -⟩ := advance_nextChar hend
    rw [if_neg hend, if_neg hend, if_neg hend, hq]
    by_cases hpause : (nextChar p).1 = 80
    · refine ⟨fun hnone => ?_, fun r hr => ?_⟩
      · exact absurd ((if_pos hpause).symm.trans hnone) (Option.some_ne_none _)
      · obtain rfl := Option.some.inj ((if_pos hpause).symm.trans hr)
        refine ⟨h, ?_⟩
        rw [hpause]
        show (pause number_first s q >>= _) >>= _ = _
        cases pause number_first s q with
        | none => rfl
        | some r => rfl
    · obtain ⟨⟨⟨s2, stop⟩, q2⟩, hr, hfine, -⟩ := command_ends true note_length h (nextChar p).1 q
      simp only [Option.bind_eq_bind, Option.bind_some, if_neg hpause, hr,
        command_order number_first note_length s hpause q]
      cases stop with
      | some stop => exact ⟨fun _ => rfl, fun _ hr => nomatch hr⟩
      | none => exact ih hfine.1 q2

/-- If a call stops at a pause, both orders of its arguments give the same length. -/
def StopsAlike (s : State) : Prop :=
  s.using_custom_msg = false → ∀ p ∈ s.tune.bind fun _ => s.next_tune,
    ∀ r ∈ pausePlace s.note_length (p.length + 1) s p, Alike r.1 r.2

section

variable (note_to_frequency : UInt32 → UInt32) {d : Defaults} {s : State}

/-- What a call returns does not depend on the order of the arguments of a pause either. -/
def DeterminedAnyOrder (d : Defaults) (s : State) : Prop :=
  ∀ number_first number_first' args args' r r',
    getNextNote note_to_frequency d number_first s args = some r →
    getNextNote note_to_frequency d number_first' s args' = some r' → r.status = .Continue →
    r.outputs = r'.outputs

theorem determinedAnyOrder_of_same (halike : StopsAlike s)
    (hsame : ∀ number_first args, getNextNote note_to_frequency d number_first s args
      = getNextNote note_to_frequency d true s args) :
    DeterminedAnyOrder note_to_frequency d s ↔ ¬ LeavesOutputs true s ∧ StopsAlike s := by
  rw [← determined_iff note_to_frequency (d := d) true, and_iff_left halike]
  constructor
  · exact fun h args args' r r' => h true true args args' r r'
  · intro h number_first number_first' args args' r r' hr hr'
    exact h args args' r r' ((hsame _ _).symm.trans hr) ((hsame _ _).symm.trans hr')

theorem getNextNote_pause (h : s.Valid) (hcustom : s.using_custom_msg = false) {p : List UInt8}
    (hp : (s.tune.bind fun _ => s.next_tune) = some p) {r : State × List UInt8}
    (hr : pausePlace s.note_length (p.length + 1) s p = some r) (number_first : Bool)
    (args : Outputs) :
    getNextNote note_to_frequency d number_first s args
      = (pause number_first r.1 r.2).map fun silence =>
          ⟨{ r.1 with next_tune := some silence.2 }, .Continue, ⟨0, 0, silence.1⟩⟩ := by
  rw [getNextNote_parse note_to_frequency number_first hcustom hp, found,
    ((search_order number_first s.note_length (p.length + 1) h p).2 r hr).2]
  cases pause number_first r.1 r.2 with
  | none => rfl
  | some silence => rfl

/-- What a call returns is determined by the string and the state in both orders, exactly if all of
the arguments are written and the pause has the same length. -/
theorem determinedAnyOrder_iff (h : s.Valid) :
    DeterminedAnyOrder note_to_frequency d s ↔ ¬ LeavesOutputs true s ∧ StopsAlike s := by
  cases hcustom : s.using_custom_msg with
  | true =>
    have hnot : ¬ s.using_custom_msg = false := fun hfalse =>
      Bool.false_ne_true (hfalse.symm.trans hcustom)
    refine determinedAnyOrder_of_same note_to_frequency
      (fun hfalse => absurd hfalse hnot) fun number_first args => ?_
    rw [getNextNote, getNextNote, if_pos hcustom, if_pos hcustom]
  | false =>
    cases hp : s.tune.bind fun _ => s.next_tune with
    | none =>
      have hnone : ∀ p, ¬ p ∈ s.tune.bind fun _ => s.next_tune := fun p hmem =>
        Option.some_ne_none p (hmem.symm.trans hp)
      refine determinedAnyOrder_of_same note_to_frequency (fun _ p hmem => absurd hmem (hnone p))
        fun number_first args => ?_
      rw [getNextNote, getNextNote, hp]
    | some p =>
      cases hplace : pausePlace s.note_length (p.length + 1) s p with
      | none =>
        refine determinedAnyOrder_of_same note_to_frequency
          (fun _ p' hmem r hr => ?_) fun number_first args => ?_
        · obtain rfl := Option.some.inj (hp.symm.trans hmem)
          exact absurd (hr.symm.trans hplace) (Option.some_ne_none r)
        · rw [getNextNote_parse note_to_frequency number_first hcustom hp,
            getNextNote_parse note_to_frequency true hcustom hp, found, found,
            (search_order number_first s.note_length (p.length + 1) h p).1 hplace]
      | some r =>
        obtain ⟨hvalid, hfound⟩ := (search_order true s.note_length (p.length + 1) h p).2 r hplace
        have hcall := getNextNote_pause note_to_frequency (d := d) h hcustom hp hplace
        have hwrites : ¬ LeavesOutputs true s := by
          rintro ⟨-, p', hp', r', hr', hleaves⟩
          obtain rfl := Option.some.inj (hp.symm.trans hp')
          obtain ⟨silence, -, rfl⟩ := Option.map_eq_some_iff.mp (hfound.symm.trans hr')
          rcases hleaves with ⟨_, hrest⟩ | ⟨hend, -⟩
          · exact Stop.noConfusion hrest
          · exact Stop.noConfusion hend
        have hstops : StopsAlike s ↔ Alike r.1 r.2 := by
          constructor
          · exact fun halike => halike hcustom p hp r hplace
          · intro halike _ p' hp' r' hr'
            obtain rfl := Option.some.inj (hp.symm.trans hp')
            obtain rfl := Option.some.inj (hplace.symm.trans hr')
            exact halike
        rw [and_iff_right hwrites, hstops, ← pause_alike hvalid]
        constructor
        · intro hdet
          obtain ⟨⟨silence, q⟩, hpause, -⟩ := pause_ends true hvalid r.2
          refine ⟨silence, fun number_first => ?_⟩
          obtain ⟨⟨silence', q'⟩, hpause', -⟩ := pause_ends number_first hvalid r.2
          have heq := hdet true number_first ⟨0, 0, 0⟩ ⟨0, 0, 0⟩ _ _
            ((hcall _ _).trans (congrArg (Option.map _) hpause))
            ((hcall _ _).trans (congrArg (Option.map _) hpause')) rfl
          have hsilence : silence = silence' := congrArg Outputs.silence heq
          exact ⟨q', hsilence ▸ hpause'⟩
        · rintro ⟨silence, hall⟩ number_first number_first' args args' r1 r2 hr1 hr2 -
          obtain ⟨q, hq⟩ := hall number_first
          obtain ⟨q', hq'⟩ := hall number_first'
          obtain rfl := Option.some.inj
            ((congrArg (Option.map _) hq).symm.trans ((hcall _ _).symm.trans hr1))
          obtain rfl := Option.some.inj
            ((congrArg (Option.map _) hq').symm.trans ((hcall _ _).symm.trans hr2))
          rfl

end

/-! ### Runs -/

inductive Event
  | getNextNote (number_first : Bool) (args : Outputs)
  | setString (string : List UInt8) (volume : UInt8)

def step (note_to_frequency : UInt32 → UInt32) (d : Defaults) (s : State) : Event → State
  | .getNextNote number_first args =>
    (getNextNote note_to_frequency d number_first s args).elim s Result.state
  | .setString string volume => setString s string volume

/-- A call returns; octave, tempo and the note are in their ranges. -/
def Safe (note_to_frequency : UInt32 → UInt32) (d : Defaults) (s : State) (e : Event) : Prop :=
  (step note_to_frequency d s e).Valid ∧
    ∀ number_first args, e = .getNextNote number_first args →
      (∃ r, getNextNote note_to_frequency d number_first s args = some r) ∧
      ∀ p, ∃ r, found number_first s p = some r ∧ r.1.2.InRange

/-- What a call returns is determined. -/
def DeterminedCall (note_to_frequency : UInt32 → UInt32) (d : Defaults) (s : State)
    (e : Event) : Prop :=
  ∀ number_first args, e = .getNextNote number_first args →
    Determined note_to_frequency number_first d s

/-- A call does not stop where arguments are left as they are. -/
def WritesAll (s : State) (e : Event) : Prop :=
  ∀ number_first args, e = .getNextNote number_first args → ¬ LeavesOutputs number_first s

def DeterminedAnyOrderCall (note_to_frequency : UInt32 → UInt32) (d : Defaults) (s : State)
    (e : Event) : Prop :=
  ∀ number_first args, e = .getNextNote number_first args → DeterminedAnyOrder note_to_frequency d s

/-- Nor at a pause whose length depends on the order of its arguments. -/
def WritesAlike (s : State) (e : Event) : Prop :=
  ∀ number_first args, e = .getNextNote number_first args → ¬ LeavesOutputs true s ∧ StopsAlike s

theorem safe_step (note_to_frequency : UInt32 → UInt32) {d : Defaults} (hd : d.Valid) {s : State}
    (h : s.Valid) (e : Event) : Safe note_to_frequency d s e := by
  cases e with
  | getNextNote number_first args =>
    refine ⟨?_, fun nf a he => ⟨?_, fun p => ?_⟩⟩
    · obtain ⟨r, hr, hvalid⟩ := getNextNote_total note_to_frequency hd number_first h args
      rw [step, hr]
      exact hvalid
    · obtain ⟨r, hr, -⟩ := getNextNote_total note_to_frequency hd nf h a
      exact ⟨r, hr⟩
    · obtain ⟨r, hr, -, hrange⟩ := found_total nf h p
      exact ⟨r, hr, hrange⟩
  | setString string volume =>
    refine ⟨?_, fun _ _ he => absurd he (by simp)⟩
    rw [step, setString]
    split
    · exact ⟨h.octave, h.tempo_ge, h.tempo_le⟩
    · exact h

/-- **The parser** returns and keeps its ranges.  What is left in the arguments is determined,
exactly as long as no call stops at a note 0 or at the end of a tune that is repeated; it is the
same in both orders of the arguments of a pause, exactly as long as, besides, the length of no pause
depends on the order. -/
theorem tuneParser (note_to_frequency : UInt32 → UInt32) {d : Defaults} (hd : d.Valid) {s : State}
    (h : s.Valid) (es : List Event) :
    Trace.Always (step note_to_frequency d) (Safe note_to_frequency d) s es ∧
      (Trace.Always (step note_to_frequency d)
          (fun s e => Safe note_to_frequency d s e ∧ DeterminedCall note_to_frequency d s e) s es ↔
        Trace.Always (step note_to_frequency d) WritesAll s es) ∧
      (Trace.Always (step note_to_frequency d)
          (fun s e => Safe note_to_frequency d s e ∧
            DeterminedAnyOrderCall note_to_frequency d s e) s es ↔
        Trace.Always (step note_to_frequency d) WritesAlike s es) := by
  refine ⟨?_, ?_, ?_⟩
  · exact Trace.always_of_invariant (I := State.Valid) (C := fun _ _ => True)
      (fun _ e hs _ => ⟨safe_step note_to_frequency hd hs e,
        (safe_step note_to_frequency hd hs e).1⟩) h
      (Trace.always_true s es)
  · refine Trace.always_iff_of_invariant (I := State.Valid) (fun s e hs => ?_)
      (fun s e hs _ => (safe_step note_to_frequency hd hs e).1) h
    rw [and_iff_right (safe_step note_to_frequency hd hs e)]
    exact forall_congr' fun nf => forall_congr' fun _ => imp_congr_right fun _ =>
      determined_iff note_to_frequency nf
  · refine Trace.always_iff_of_invariant (I := State.Valid) (fun s e hs => ?_)
      (fun s e hs _ => (safe_step note_to_frequency hd hs e).1) h
    rw [and_iff_right (safe_step note_to_frequency hd hs e)]
    exact forall_congr' fun _ => forall_congr' fun _ => imp_congr_right fun _ =>
      determinedAnyOrder_iff note_to_frequency hs

/-- "P4" on a parser with the default octave 4 and tempo 120. -/
theorem tuneParser_pause :
    Trace.Always (step (fun _ => 440) ⟨4, .NORMAL, 4, 120⟩)
        (fun s e => Safe (fun _ => 440) ⟨4, .NORMAL, 4, 120⟩ s e ∧
          DeterminedCall (fun _ => 440) ⟨4, .NORMAL, 4, 120⟩ s e)
        (init ⟨4, .NORMAL, 4, 120⟩) [.setString [80, 52] 50, .getNextNote true ⟨440, 1000, 0⟩] ↔
      Trace.Always (step (fun _ => 440) ⟨4, .NORMAL, 4, 120⟩) WritesAll (init ⟨4, .NORMAL, 4, 120⟩)
        [.setString [80, 52] 50, .getNextNote true ⟨440, 1000, 0⟩] :=
  (tuneParser (fun _ => 440) ⟨by decide, by decide, by decide⟩
    ⟨by decide, by decide, by decide⟩ _).2.1

/-- "N0" is a rest, but leaves the frequency and the duration. -/
theorem rest_keeps_arguments : ¬ ∀ (note_to_frequency : UInt32 → UInt32) (d : Defaults)
    (number_first : Bool) (string : List UInt8), d.Valid →
    Determined note_to_frequency number_first d (setString (init d) string 50) := by
  intro h
  have heq := h (fun _ => 0) ⟨4, .NORMAL, 4, 120⟩ true [78, 48] ⟨by decide, by decide, by decide⟩
    ⟨440, 1000, 0⟩ ⟨0, 0, 0⟩ _ _ rfl rfl rfl
  exact nomatch heq

end Tunes
