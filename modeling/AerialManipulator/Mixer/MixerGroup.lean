/-
Mixers from a text.

`loadFromBuf` goes through the text.  The next byte tells which kind of a mixer comes, other bytes
are skipped; what was read of a mixer that cannot be built is not used up.  A text is what lies
between a pointer and the zero byte behind the buffer, so that a function that moves the pointer
gives a suffix.

* `loadFromBuf` — the mixers, and what is left of the text;
* **`load_ends`** — the loop ends on every text;
* `loadFromBuf_rest` — what is left begins with the mixer that could not be built.
-/
import AerialManipulator.Lib.Literals
import AerialManipulator.Lib.Scanf

open Scanf

namespace MixerGroup

structure Scaler (K : Type*) where
  negative_scale : K
  positive_scale : K
  offset : K
  min_output : K
  max_output : K

/-- `mixer_control_s`. -/
structure Control (K : Type*) where
  control_group : UInt8
  control_index : UInt8
  scaler : Scaler K

/-- `mixer_simple_s`. -/
structure Simple (K : Type*) where
  control_count : UInt8
  output_scaler : Scaler K
  slew_rate_rise_time : K
  controls : List (Control K)

/-- `mixer_heli_servo_s`. -/
structure HeliServo (K : Type*) where
  angle : K
  arm_length : K
  scale : K
  offset : K
  min_output : K
  max_output : K

/-- `mixer_heli_s`. -/
structure Heli (K : Type*) where
  control_count : UInt8
  throttle_curve : List K
  pitch_curve : List K
  servos : List (HeliServo K)

/-- What a mixer is made with; the geometry is an index into the generated table. -/
inductive Mixer (K : Type*)
  | null
  | allocated (index : UInt8)
  | simple (info : Simple K)
  | multirotor (geometry : ℕ)
  | helicopter (info : Heli K)

/-- The names of the geometries, which are generated, and `M_PI_F`. -/
structure Config (K : Type*) where
  config_key : List (List UInt8)
  pi : K

def ascii (c : Char) : UInt8 := UInt8.ofNat c.toNat

/-! ### Tags and lines -/

def findtag (tag : UInt8) : List UInt8 → Option (List UInt8)
  | [] => none
  | [_] => none
  | a :: b :: s => if a = tag ∧ b = ascii ':' then some (a :: b :: s) else findtag tag (b :: s)

def isUpper (c : UInt8) : Bool := ascii 'A' ≤ c && c ≤ ascii 'Z'

def findnexttag : List UInt8 → Option UInt8
  | [] => none
  | [_] => none
  | a :: b :: s => if isUpper a ∧ b = ascii ':' then some a else findnexttag (b :: s)

/-- `memchr`, and what is behind the byte. -/
def behind (c : UInt8) (buf : List UInt8) : Option (List UInt8) :=
  if c ∈ buf then some (buf.dropWhile (· ≠ c)).tail else none

def skipline (buf : List UInt8) : Option (List UInt8) :=
  match behind (ascii '\r') buf with
  | some rest => some rest
  | none => behind (ascii '\n') buf

def stringWellFormed (buf : List UInt8) : Bool := buf.any fun c => c = ascii '\n' || c = ascii '\r'

/-- `T: %d %d …` with `n` numbers. -/
def tagFormat (tag : UInt8) (n : ℕ) (ds : List Directive) : List Directive :=
  .char tag :: .char (ascii ':') :: ((List.replicate n [.space, .number]).flatten ++ ds)

/-- As an `unsigned`. -/
def toUnsigned (v : ℤ) : ℕ := (v % 2 ^ 32).toNat

section
variable {K : Type*} [Field K]

def scaled (v : ℤ) : K := v / 10000

/-! ### The kinds of mixers -/

/-- `NullMixer::from_text`. -/
def nullFromText (buf : List UInt8) : Option (Mixer K × List UInt8) :=
  if stringWellFormed buf then
    match buf with
    | a :: b :: rest => if a = ascii 'Z' ∧ b = ascii ':' then some (.null, rest) else none
    | _ => none
  else none

/-- `AllocatedActuatorMixer::from_text`. -/
def allocatedFromText (buf : List UInt8) : Option (Mixer K × List UInt8) :=
  if stringWellFormed buf then
    match numbers (sscanf (tagFormat (ascii 'A') 1 []) buf) with
    | [i] =>
      match skipline buf with
      | some rest => if i < 16 then some (.allocated (UInt8.ofInt i), rest) else none
      | none => none
    | _ => none
  else none

/-- A line of `n` numbers behind a tag, in a text of at least `size` bytes. -/
def parseLine {α : Type*} (tag : UInt8) (size n : ℕ) (ds : List Directive)
    (value : List ℤ → Option α) (buf : List UInt8) : Option (α × List UInt8) :=
  match findtag tag buf with
  | none => none
  | some buf =>
    if buf.length < size then none
    else
      match value (numbers (sscanf (tagFormat tag n ds) buf)) with
      | none => none
      | some a =>
        match skipline buf with
        | none => none
        | some rest => some (a, rest)

/-- The scaler of the output and the slew rate, which is 0 if there is no 6th number. -/
def outputValues : List ℤ → Option (Scaler K × K)
  | s₀ :: s₁ :: s₂ :: s₃ :: s₄ :: s₅ =>
    some (⟨scaled s₀, scaled s₁, scaled s₂, scaled s₃, scaled s₄⟩, scaled (s₅.headD 0))
  | _ => none

def parseOutputScaler : List UInt8 → Option ((Scaler K × K) × List UInt8) :=
  parseLine (ascii 'O') 12 6 [.space, .count] outputValues

def controlValues : List ℤ → Option (Control K)
  | [u₀, u₁, s₀, s₁, s₂, s₃, s₄] =>
    some ⟨UInt8.ofNat (toUnsigned u₀), UInt8.ofNat (toUnsigned u₁),
      ⟨scaled s₀, scaled s₁, scaled s₂, scaled s₃, scaled s₄⟩⟩
  | _ => none

def parseControlScaler : List UInt8 → Option (Control K × List UInt8) :=
  parseLine (ascii 'S') 16 7 [] controlValues

def times {α : Type*} (parse : List UInt8 → Option (α × List UInt8)) :
    ℕ → List UInt8 → Option (List α × List UInt8)
  | 0, buf => some ([], buf)
  | n + 1, buf =>
    match parse buf with
    | none => none
    | some (a, buf) =>
      match times parse n buf with
      | none => none
      | some (as, buf) => some (a :: as, buf)

def outputScaler (buf : List UInt8) : Option ((Scaler K × K) × List UInt8) :=
  if findnexttag buf = some (ascii 'S') then some ((⟨1, 1, 0, -1, 1⟩, 0), buf)
  else parseOutputScaler buf

/-- `SimpleMixer::from_text`. -/
def simpleFromText (buf : List UInt8) : Option (Mixer K × List UInt8) :=
  if stringWellFormed buf then
    match numbers (sscanf (tagFormat (ascii 'M') 1 [.count]) buf) with
    | [v] =>
      let inputs := toUnsigned v
      -- at least 1 input is required
      if inputs = 0 then none
      else
        match skipline buf with
        | none => none
        | some buf =>
          match outputScaler buf with
          | none => none
          | some (output, buf) =>
            match times parseControlScaler inputs buf with
            | none => none
            | some (controls, rest) =>
              some (.simple ⟨UInt8.ofNat inputs, output.1, output.2, controls⟩, rest)
    | _ => none
  else none

variable (cfg : Config K)

/-- `MultirotorMixer::from_text`. -/
def multirotorFromText (buf : List UInt8) : Option (Mixer K × List UInt8) :=
  if stringWellFormed buf then
    match sscanf [.char (ascii 'R'), .char (ascii ':'), .space, .word 15] buf with
    | [.word geomname] =>
      match skipline buf with
      | none => none
      | some rest =>
        match cfg.config_key.findIdx? (· = geomname) with
        | some geometry => some (.multirotor geometry, rest)
        | none => none
    | _ => none
  else none

def parseThrottleCurve : List UInt8 → Option (List K × List UInt8) :=
  parseLine (ascii 'T') 12 5 [] fun
    | [u₀, u₁, u₂, u₃, u₄] => some ([u₀, u₁, u₂, u₃, u₄].map fun u => scaled (toUnsigned u))
    | _ => none

def parsePitchCurve : List UInt8 → Option (List K × List UInt8) :=
  parseLine (ascii 'P') 12 5 [] fun
    | [s₀, s₁, s₂, s₃, s₄] => some ([s₀, s₁, s₂, s₃, s₄].map scaled)
    | _ => none

def parseServo : List UInt8 → Option (HeliServo K × List UInt8) :=
  parseLine (ascii 'S') 12 6 [] fun
    | [u₀, u₁, s₀, s₁, s₂, s₃] =>
      some ⟨(toUnsigned u₀ : K) * cfg.pi / 180, scaled (toUnsigned u₁), scaled s₀, scaled s₁,
        scaled s₂, scaled s₃⟩
    | _ => none

/-- `HelicopterMixer::from_text`. -/
def helicopterFromText (buf : List UInt8) : Option (Mixer K × List UInt8) :=
  if stringWellFormed buf then
    match sscanf (tagFormat (ascii 'H') 1 [.count]) buf with
    | [.number v, .count used] =>
      let swash_plate_servo_count := toUnsigned v
      if swash_plate_servo_count < 3 ∨ 4 < swash_plate_servo_count then none
      else if buf.length < used then none
      else
        match skipline buf with
        | none => none
        | some buf =>
          match parseThrottleCurve buf with
          | none => none
          | some (throttle_curve, buf) =>
            match parsePitchCurve buf with
            | none => none
            | some (pitch_curve, buf) =>
              match times (parseServo cfg) swash_plate_servo_count buf with
              | none => none
              | some (servos, rest) =>
                some (.helicopter ⟨UInt8.ofNat swash_plate_servo_count, throttle_curve, pitch_curve,
                  servos⟩, rest)
    | _ => none
  else none

/-! ### `loadFromBuf` -/

/-- "Use the next character as a hint to decide which mixer class to construct." -/
def fromText (c : UInt8) : Option (List UInt8 → Option (Mixer K × List UInt8)) :=
  if c = ascii 'Z' then some nullFromText
  else if c = ascii 'A' then some allocatedFromText
  else if c = ascii 'M' then some simpleFromText
  else if c = ascii 'R' then some (multirotorFromText cfg)
  else if c = ascii 'H' then some (helicopterFromText cfg)
  else none

def load : ℕ → List UInt8 → Option (List (Mixer K) × List UInt8)
  | _, [] => some ([], [])
  | 0, _ :: _ => none
  | n + 1, c :: cs =>
    match fromText cfg c with
    -- "it's probably junk or whitespace, skip a byte and retry"
    | none => load n cs
    | some from_text =>
      match from_text (c :: cs) with
      | none => some ([], c :: cs)
      | some (m, rest) => (load n rest).map fun r => (m :: r.1, r.2)

/-- `MixerGroup::loadFromBuf`: the mixers that are added, and what is left. -/
def loadFromBuf (buf : List UInt8) : List (Mixer K) × List UInt8 :=
  (load cfg buf.length buf).getD ([], buf)

end

/-! ### The loop ends -/

section
variable {K : Type*} {cfg : Config K} {buf rest : List UInt8} {m : Mixer K}

/-- What is left is a part of the end of the text, and not all of it. -/
def Shorter (rest buf : List UInt8) : Prop := rest <:+ buf ∧ rest.length < buf.length

theorem behind_shorter {c : UInt8} (h : behind c buf = some rest) : Shorter rest buf := by
  rw [behind] at h
  split_ifs at h with hmem
  have hne : buf.dropWhile (· ≠ c) ≠ [] := by
    intro hnil
    have hall := List.dropWhile_eq_nil_iff.mp hnil c hmem
    rw [decide_eq_true_eq] at hall
    exact hall rfl
  rw [← Option.some.inj h]
  refine ⟨(List.tail_suffix _).trans (List.dropWhile_suffix _), ?_⟩
  have hlt : (buf.dropWhile (· ≠ c)).tail.length < (buf.dropWhile (· ≠ c)).length := by
    rw [List.length_tail]
    exact Nat.sub_lt (List.length_pos_iff.mpr hne) Nat.one_pos
  exact hlt.trans_le (List.dropWhile_suffix _).length_le

theorem skipline_shorter (h : skipline buf = some rest) : Shorter rest buf := by
  rw [skipline] at h
  split at h
  · next heq =>
    rw [← Option.some.inj h]
    exact behind_shorter heq
  · exact behind_shorter h

theorem findtag_suffix {tag : UInt8} (h : findtag tag buf = some rest) : rest <:+ buf := by
  induction buf with
  | nil => exact nomatch h
  | cons a buf ih =>
    cases buf with
    | nil => exact nomatch h
    | cons b buf =>
      rw [findtag] at h
      split_ifs at h
      · exact Option.some.inj h ▸ List.suffix_rfl
      · exact (ih h).trans (List.suffix_cons a _)

theorem times_suffix {α : Type*} {parse : List UInt8 → Option (α × List UInt8)}
    (hparse : ∀ buf a rest, parse buf = some (a, rest) → rest <:+ buf) (n : ℕ) {as : List α}
    (h : times parse n buf = some (as, rest)) : rest <:+ buf := by
  induction n generalizing buf as with
  | zero =>
    rw [times, Option.some.injEq, Prod.mk.injEq] at h
    exact h.2 ▸ List.suffix_rfl
  | succ n ih =>
    rw [times] at h
    split at h
    · exact nomatch h
    · next a mid hmid =>
      split at h
      · exact nomatch h
      · next as' rest' htimes =>
        rw [Option.some.injEq, Prod.mk.injEq] at h
        obtain ⟨-, rfl⟩ := h
        exact (ih htimes).trans (hparse _ _ _ hmid)

theorem parseLine_suffix {α : Type*} {tag : UInt8} {size n : ℕ} {ds : List Directive}
    {value : List ℤ → Option α} {a : α} (h : parseLine tag size n ds value buf = some (a, rest)) :
    rest <:+ buf := by
  rw [parseLine] at h
  split at h
  · exact nomatch h
  · next mid htag =>
    split_ifs at h
    split at h
    · exact nomatch h
    · split at h
      · exact nomatch h
      · next hskip =>
        rw [Option.some.injEq, Prod.mk.injEq] at h
        rw [← h.2]
        exact (skipline_shorter hskip).1.trans (findtag_suffix htag)

theorem nullFromText_shorter (h : nullFromText buf = some (m, rest)) : Shorter rest buf := by
  rw [nullFromText.eq_def] at h
  rcases buf with _ | ⟨a, _ | ⟨b, rest'⟩⟩
  · split_ifs at h
  · split_ifs at h
  · dsimp only at h
    split_ifs at h
    rw [Option.some.injEq, Prod.mk.injEq] at h
    obtain ⟨-, rfl⟩ := h
    refine ⟨(List.suffix_cons b rest').trans (List.suffix_cons a _), ?_⟩
    rw [List.length_cons, List.length_cons]
    omega

theorem allocatedFromText_shorter (h : allocatedFromText buf = some (m, rest)) :
    Shorter rest buf := by
  rw [allocatedFromText] at h
  split_ifs at h
  split at h
  · split at h
    · next hskip =>
      split_ifs at h
      rw [Option.some.injEq, Prod.mk.injEq] at h
      obtain ⟨-, rfl⟩ := h
      exact skipline_shorter hskip
    · exact nomatch h
  · exact nomatch h

theorem multirotorFromText_shorter (h : multirotorFromText cfg buf = some (m, rest)) :
    Shorter rest buf := by
  rw [multirotorFromText] at h
  split_ifs at h
  split at h
  · split at h
    · exact nomatch h
    · next hskip =>
      split at h
      · rw [Option.some.injEq, Prod.mk.injEq] at h
        obtain ⟨-, rfl⟩ := h
        exact skipline_shorter hskip
      · exact nomatch h
  · exact nomatch h

variable [Field K]

theorem outputScaler_suffix {v : Scaler K × K} (h : outputScaler buf = some (v, rest)) :
    rest <:+ buf := by
  rw [outputScaler] at h
  split_ifs at h
  · rw [Option.some.injEq, Prod.mk.injEq] at h
    exact h.2 ▸ List.suffix_rfl
  · exact parseLine_suffix h

theorem simpleFromText_shorter (h : simpleFromText buf = some (m, rest)) : Shorter rest buf := by
  rw [simpleFromText] at h
  split_ifs at h
  split at h
  · dsimp only at h
    split_ifs at h
    split at h
    · exact nomatch h
    · next hskip =>
      split at h
      · exact nomatch h
      · next houtput =>
        split at h
        · exact nomatch h
        · next hcontrols =>
          rw [Option.some.injEq, Prod.mk.injEq] at h
          obtain ⟨-, rfl⟩ := h
          have hsuffix := times_suffix (fun _ _ _ => parseLine_suffix) _ hcontrols
          have hmid := hsuffix.trans (outputScaler_suffix houtput)
          have hshort := skipline_shorter hskip
          exact ⟨hmid.trans hshort.1, hmid.length_le.trans_lt hshort.2⟩
  · exact nomatch h

theorem helicopterFromText_shorter (h : helicopterFromText cfg buf = some (m, rest)) :
    Shorter rest buf := by
  rw [helicopterFromText] at h
  split_ifs at h
  split at h
  · dsimp only at h
    split_ifs at h
    split at h
    · exact nomatch h
    · next hskip =>
      split at h
      · exact nomatch h
      · next hthrottle =>
        split at h
        · exact nomatch h
        · next hpitch =>
          split at h
          · exact nomatch h
          · next hservos =>
            rw [Option.some.injEq, Prod.mk.injEq] at h
            obtain ⟨-, rfl⟩ := h
            have hsuffix := times_suffix (fun _ _ _ => parseLine_suffix) _ hservos
            have hmid := hsuffix.trans
              ((parseLine_suffix hpitch).trans (parseLine_suffix hthrottle))
            have hshort := skipline_shorter hskip
            exact ⟨hmid.trans hshort.1, hmid.length_le.trans_lt hshort.2⟩
  · exact nomatch h

theorem fromText_shorter {c : UInt8} {from_text : List UInt8 → Option (Mixer K × List UInt8)}
    (hfrom : fromText cfg c = some from_text) (h : from_text buf = some (m, rest)) :
    Shorter rest buf := by
  rw [fromText] at hfrom
  split_ifs at hfrom
  · exact nullFromText_shorter (Option.some.inj hfrom ▸ h)
  · exact allocatedFromText_shorter (Option.some.inj hfrom ▸ h)
  · exact simpleFromText_shorter (Option.some.inj hfrom ▸ h)
  · exact multirotorFromText_shorter (Option.some.inj hfrom ▸ h)
  · exact helicopterFromText_shorter (Option.some.inj hfrom ▸ h)

theorem load_nil (n : ℕ) : load cfg n [] = some ([], []) := by
  cases n with
  | zero => rfl
  | succ n => rfl

theorem load_succ {n : ℕ} {r : List (Mixer K) × List UInt8} (h : load cfg n buf = some r) :
    load cfg (n + 1) buf = some r := by
  induction n generalizing buf r with
  | zero =>
    cases buf with
    | nil => exact h
    | cons c cs => exact nomatch h
  | succ n ih =>
    cases buf with
    | nil => exact h
    | cons c cs =>
      rw [load] at h ⊢
      cases hfrom : fromText cfg c with
      | none =>
        rw [hfrom] at h
        exact ih h
      | some from_text =>
        rw [hfrom] at h
        dsimp only at h ⊢
        cases hread : from_text (c :: cs) with
        | none =>
          rw [hread] at h
          exact h
        | some made =>
          obtain ⟨m, rest⟩ := made
          rw [hread] at h
          dsimp only at h ⊢
          obtain ⟨r', hr', hmap⟩ := Option.map_eq_some_iff.mp h
          rw [ih hr', Option.map_some, hmap]

/-- **The loop ends**: each turn uses up a byte, or is the last one. -/
theorem load_ends {n : ℕ} (hn : buf.length ≤ n) : ∃ r, load cfg n buf = some r := by
  induction n generalizing buf with
  | zero =>
    rw [List.length_eq_zero_iff.mp (Nat.le_zero.mp hn)]
    exact ⟨_, load_nil 0⟩
  | succ n ih =>
    cases buf with
    | nil => exact ⟨_, load_nil _⟩
    | cons c cs =>
      have hcs : cs.length ≤ n := Nat.le_of_succ_le_succ hn
      rw [load]
      cases hfrom : fromText cfg c with
      | none => exact ih hcs
      | some from_text =>
        dsimp only
        cases hread : from_text (c :: cs) with
        | none => exact ⟨_, rfl⟩
        | some made =>
          obtain ⟨m, rest⟩ := made
          have hlt : rest.length < cs.length + 1 := (fromText_shorter hfrom hread).2
          obtain ⟨r, hr⟩ := ih ((Nat.lt_succ_iff.mp hlt).trans hcs)
          dsimp only
          exact ⟨_, by rw [hr, Option.map_some]⟩

theorem load_eq {n : ℕ} (hn : buf.length ≤ n) : load cfg n buf = some (loadFromBuf cfg buf) := by
  obtain ⟨r, hr⟩ : ∃ r, load cfg buf.length buf = some r := load_ends le_rfl
  have hmore : ∀ k, load cfg (buf.length + k) buf = some r := by
    intro k
    induction k with
    | zero => exact hr
    | succ k ih => exact load_succ ih
  obtain ⟨k, rfl⟩ := Nat.exists_eq_add_of_le hn
  rw [hmore k, loadFromBuf, hr, Option.getD_some]

theorem loadFromBuf_skip {c : UInt8} (hfrom : fromText cfg c = none) (cs : List UInt8) :
    loadFromBuf cfg (c :: cs) = loadFromBuf cfg cs := by
  refine Option.some.inj ?_
  rw [← load_eq le_rfl, List.length_cons, load, hfrom]
  exact load_eq le_rfl

theorem loadFromBuf_made {c : UInt8} {cs : List UInt8}
    {from_text : List UInt8 → Option (Mixer K × List UInt8)}
    (hfrom : fromText cfg c = some from_text) (hread : from_text (c :: cs) = some (m, rest)) :
    loadFromBuf cfg (c :: cs) = (m :: (loadFromBuf cfg rest).1, (loadFromBuf cfg rest).2) := by
  have hlt : rest.length < cs.length + 1 := (fromText_shorter hfrom hread).2
  refine Option.some.inj ?_
  rw [← load_eq le_rfl, List.length_cons, load, hfrom]
  dsimp only
  rw [hread]
  dsimp only
  rw [load_eq (Nat.lt_succ_iff.mp hlt), Option.map_some]

theorem loadFromBuf_failed {c : UInt8} {cs : List UInt8}
    {from_text : List UInt8 → Option (Mixer K × List UInt8)}
    (hfrom : fromText cfg c = some from_text)
    (hread : from_text (c :: cs) = none) : loadFromBuf cfg (c :: cs) = ([], c :: cs) := by
  refine Option.some.inj ?_
  rw [← load_eq le_rfl, List.length_cons, load, hfrom]
  dsimp only
  rw [hread]

theorem loadFromBuf_rest (cfg : Config K) (buf : List UInt8) :
    (loadFromBuf cfg buf).2 <:+ buf ∧
      ((loadFromBuf cfg buf).2 = [] ∨ ∃ c cs from_text, (loadFromBuf cfg buf).2 = c :: cs ∧
        fromText cfg c = some from_text ∧ from_text (c :: cs) = none) := by
  induction hn : buf.length using Nat.strong_induction_on generalizing buf with
  | _ n ih =>
    subst hn
    cases buf with
    | nil => exact ⟨List.suffix_rfl, .inl rfl⟩
    | cons c cs =>
      cases hfrom : fromText cfg c with
      | none =>
        rw [loadFromBuf_skip hfrom]
        obtain ⟨hsuffix, hrest⟩ := ih cs.length (Nat.lt_succ_self _) cs rfl
        exact ⟨hsuffix.trans (List.suffix_cons c cs), hrest⟩
      | some from_text =>
        cases hread : from_text (c :: cs) with
        | none =>
          rw [loadFromBuf_failed hfrom hread]
          exact ⟨List.suffix_rfl, .inr ⟨c, cs, from_text, rfl, hfrom, hread⟩⟩
        | some made =>
          obtain ⟨m, rest⟩ := made
          have hshort := fromText_shorter hfrom hread
          rw [loadFromBuf_made hfrom hread]
          obtain ⟨hsuffix, hrest⟩ := ih rest.length hshort.2 rest rfl
          exact ⟨hsuffix.trans hshort.1, hrest⟩

end

end MixerGroup
