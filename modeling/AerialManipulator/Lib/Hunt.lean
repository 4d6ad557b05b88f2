/-
Hunts through memory.

A hunt is at a place, and either stops there with a result or goes on at another place, which is
not before it.  It is run with a number of turns; `Met` are the places that it comes to.

* **`ends_iff`** — as long as it stays below some address, a hunt ends if it nowhere stands still;
* `run_eq_some` — where it ends, and with which result.

A sweep is a hunt in one region after the other, until one of them finds something.

* **`sweep_iff`** — it ends and reads what it may if that is so at every place that it comes to.
-/
import Mathlib.Data.List.Basic

namespace Hunt

inductive Turn (β : Type)
  | stop (b : β)
  | go (q : ℕ)

variable {β : Type}

theorem Turn.stop_ne_go (b : β) (q : ℕ) : Turn.stop b ≠ Turn.go q := by
  rintro ⟨⟩

variable (turn : ℕ → Turn β)

def run : ℕ → ℕ → Option β
  | 0, _ => none
  | fuel + 1, p =>
    match turn p with
    | .stop b => some b
    | .go q => run fuel q

def places : ℕ → ℕ → List ℕ
  | 0, _ => []
  | fuel + 1, p =>
    p :: match turn p with
      | .stop _ => []
      | .go q => places fuel q

/-- The hunt that starts at `start` comes to this place. -/
inductive Met (start : ℕ) : ℕ → Prop
  | start : Met start start
  | next {p q : ℕ} (hp : Met start p) (hgo : turn p = .go q) : Met start q

variable {turn} {start p q : ℕ} {b : β}

theorem run_stop (h : turn p = .stop b) (fuel : ℕ) : run turn (fuel + 1) p = some b := by
  rw [run, h]

theorem run_go (h : turn p = .go q) (fuel : ℕ) : run turn (fuel + 1) p = run turn fuel q := by
  rw [run, h]

theorem places_go (h : turn p = .go q) (fuel : ℕ) :
    places turn (fuel + 1) p = p :: places turn fuel q := by
  rw [places, h]

theorem Met.trans {r : ℕ} (hq : Met turn p q) (hr : Met turn q r) : Met turn p r := by
  induction hr with
  | start => exact hq
  | next _ hgo ih => exact ih.next hgo

theorem met_iff : Met turn start p ↔ ∃ fuel, p ∈ places turn fuel start := by
  constructor
  · intro h
    -- one turn more at the front for each turn
    have hfront : ∀ {p q}, Met turn p q → ∀ fuel r, r ∈ places turn fuel q →
        ∃ fuel', r ∈ places turn fuel' p := by
      intro p q hq
      induction hq with
      | start => exact fun fuel r hr => ⟨fuel, hr⟩
      | next _ hgo ih =>
        intro fuel r hr
        refine ih (fuel + 1) r ?_
        rw [places_go hgo]
        exact List.mem_cons_of_mem _ hr
    exact hfront h 1 p List.mem_cons_self
  · rintro ⟨fuel, h⟩
    induction fuel generalizing start with
    | zero => exact nomatch h
    | succ fuel ih =>
      rcases List.mem_cons.mp h with rfl | h
      · exact Met.start
      · cases hturn : turn start with
        | stop b =>
          rw [hturn] at h
          exact nomatch h
        | go q =>
          rw [hturn] at h
          exact (Met.start.next hturn).trans (ih h)

theorem run_eq_some {fuel : ℕ} (h : run turn fuel start = some b) :
    ∃ p, Met turn start p ∧ turn p = .stop b := by
  induction fuel generalizing start with
  | zero => exact nomatch h
  | succ fuel ih =>
    cases hturn : turn start with
    | stop b' =>
      rw [run_stop hturn] at h
      exact ⟨start, Met.start, hturn.trans (congrArg Turn.stop (Option.some.inj h))⟩
    | go q =>
      rw [run_go hturn] at h
      obtain ⟨p, hp, hstop⟩ := ih h
      exact ⟨p, (Met.start.next hturn).trans hp, hstop⟩

theorem run_mono {fuel fuel' : ℕ} (hle : fuel ≤ fuel') (h : run turn fuel start = some b) :
    run turn fuel' start = some b := by
  induction fuel generalizing fuel' start with
  | zero => exact nomatch h
  | succ fuel ih =>
    cases fuel' with
    | zero => exact nomatch hle
    | succ fuel' =>
      cases hturn : turn start with
      | stop b' => rwa [run_stop hturn] at h ⊢
      | go q =>
        rw [run_go hturn] at h ⊢
        exact ih (Nat.le_of_succ_le_succ hle) h

theorem Met.run_eq (hp : Met turn start p) {fuel : ℕ} (h : run turn fuel start = some b) :
    ∃ fuel', run turn fuel' p = some b := by
  induction hp with
  | start => exact ⟨fuel, h⟩
  | next _ hgo ih =>
    obtain ⟨fuel', h'⟩ := ih
    cases fuel' with
    | zero => exact nomatch h'
    | succ fuel' => exact ⟨fuel', by rwa [run_go hgo] at h'⟩

theorem Met.eq_of_stop {c : β} (hp : Met turn start p) (hstop : turn p = .stop c) {fuel : ℕ}
    (h : run turn fuel start = some b) : b = c := by
  obtain ⟨fuel', h'⟩ := hp.run_eq h
  cases fuel' with
  | zero => exact nomatch h'
  | succ fuel' =>
    rw [run_stop hstop] at h'
    exact (Option.some.inj h').symm

theorem ends_iff {M : ℕ} (hle : ∀ p q, turn p = .go q → p ≤ q)
    (hbound : ∀ p q, Met turn start p → turn p = .go q → p < M) :
    (∃ fuel, (run turn fuel start).isSome) ↔ ∀ p, Met turn start p → turn p ≠ .go p := by
  constructor
  · rintro ⟨fuel, h⟩ p hp hstill
    obtain ⟨b, hb⟩ := Option.isSome_iff_exists.mp h
    obtain ⟨fuel', h'⟩ := hp.run_eq hb
    -- where it stands still it does not end
    have hnever : ∀ fuel, run turn fuel p = none := by
      intro fuel
      induction fuel with
      | zero => rfl
      | succ fuel ih => rw [run_go hstill, ih]
    exact nomatch (hnever fuel').symm.trans h'
  · intro hmoves
    have hends : ∀ n p, Met turn start p → M - p ≤ n → (run turn (n + 1) p).isSome := by
      intro n
      induction n with
      | zero =>
        intro p hp hn
        cases hturn : turn p with
        | stop b => rw [run_stop hturn]; rfl
        | go q =>
          have hlt := hbound p q hp hturn
          omega
      | succ n ih =>
        intro p hp hn
        cases hturn : turn p with
        | stop b => rw [run_stop hturn]; rfl
        | go q =>
          have hlt := hbound p q hp hturn
          have hne : p ≠ q := fun heq => hmoves p hp (hturn.trans (congrArg Turn.go heq.symm))
          have hpq := hle p q hturn
          rw [run_go hturn]
          exact ih q (hp.next hturn) (by omega)
    exact ⟨M - start + 1, hends (M - start) start Met.start (Nat.le_refl _)⟩

theorem places_mono {fuel fuel' : ℕ} (hle : fuel ≤ fuel') (h : p ∈ places turn fuel start) :
    p ∈ places turn fuel' start := by
  induction fuel generalizing fuel' start with
  | zero => exact nomatch h
  | succ fuel ih =>
    cases fuel' with
    | zero => exact nomatch hle
    | succ fuel' =>
      rw [places] at h ⊢
      rcases List.mem_cons.mp h with rfl | h
      · exact List.mem_cons_self
      · refine List.mem_cons_of_mem _ ?_
        cases hturn : turn start with
        | stop b =>
          rw [hturn] at h
          exact nomatch h
        | go q =>
          rw [hturn] at h
          exact ih (Nat.le_of_succ_le_succ hle) h

/-! ### Sweeps -/

section Sweep

variable {σ ρ : Type} (turns : σ → ℕ → Turn (Option β)) (starts : σ → ℕ) (reads : σ → ℕ → List ρ)

/-- The hunts in these regions, with this number of turns for each. -/
def sweep (fuel : ℕ) : List σ → Option (Option β)
  | [] => some none
  | s :: ss =>
    match run (turns s) fuel (starts s) with
    | none => none
    | some (some b) => some (some b)
    | some none => sweep fuel ss

def sweepReads (fuel : ℕ) : List σ → List ρ
  | [] => []
  | s :: ss =>
    (places (turns s) fuel (starts s)).flatMap (reads s) ++
      match run (turns s) fuel (starts s) with
      | some none => sweepReads fuel ss
      | _ => []

/-- The hunt in this region comes to a place where it finds something. -/
def Finds (s : σ) (b : β) : Prop := ∃ p, Met (turns s) (starts s) p ∧ turns s p = .stop (some b)

/-- At every place in these regions that the sweep comes to. -/
def Sweeps (Fits : σ → ℕ → Prop) : List σ → Prop
  | [] => True
  | s :: ss => (∀ p, Met (turns s) (starts s) p → Fits s p) ∧
      ((∀ b, ¬ Finds turns starts s b) → Sweeps Fits ss)

variable {turns starts reads} {s : σ} {ss : List σ} {fuel : ℕ}

theorem sweep_of_found (h : run (turns s) fuel (starts s) = some (some b)) :
    sweep turns starts fuel (s :: ss) = some (some b) := by
  rw [sweep, h]

theorem sweep_of_none (h : run (turns s) fuel (starts s) = some none) :
    sweep turns starts fuel (s :: ss) = sweep turns starts fuel ss := by
  rw [sweep, h]

theorem sweepReads_of_none (h : run (turns s) fuel (starts s) = some none) :
    sweepReads turns starts reads fuel (s :: ss) =
      (places (turns s) fuel (starts s)).flatMap (reads s) ++
        sweepReads turns starts reads fuel ss := by
  rw [sweepReads, h]

theorem finds_of_run (h : run (turns s) fuel (starts s) = some (some b)) : Finds turns starts s b :=
  run_eq_some h

theorem not_finds_of_run (h : run (turns s) fuel (starts s) = some none) (b : β) :
    ¬ Finds turns starts s b := by
  rintro ⟨p, hp, hstop⟩
  exact absurd (hp.eq_of_stop hstop h) (Option.some_ne_none b).symm

theorem sweep_mono {fuel' : ℕ} (hle : fuel ≤ fuel') {r : Option β}
    (h : sweep turns starts fuel ss = some r) : sweep turns starts fuel' ss = some r := by
  induction ss with
  | nil => exact h
  | cons s ss ih =>
    cases hrun : run (turns s) fuel (starts s) with
    | none =>
      rw [sweep, hrun] at h
      exact absurd h (Option.some_ne_none r).symm
    | some found =>
      cases found with
      | some b =>
        rw [sweep_of_found hrun] at h
        rw [sweep_of_found (run_mono hle hrun), h]
      | none =>
        rw [sweep_of_none hrun] at h
        rw [sweep_of_none (run_mono hle hrun), ih h]

theorem sweepReads_mono {fuel' : ℕ} (hle : fuel ≤ fuel') {r : ρ}
    (h : r ∈ sweepReads turns starts reads fuel ss) : r ∈
      sweepReads turns starts reads fuel' ss := by
  induction ss with
  | nil => exact h
  | cons s ss ih =>
    rcases List.mem_append.mp h with hhere | hthere
    · obtain ⟨p, hp, hr⟩ := List.mem_flatMap.mp hhere
      exact List.mem_append_left _ (List.mem_flatMap.mpr ⟨p, places_mono hle hp, hr⟩)
    · refine List.mem_append_right _ ?_
      cases hrun : run (turns s) fuel (starts s) with
      | none =>
        rw [hrun] at hthere
        exact nomatch hthere
      | some found =>
        rw [hrun] at hthere
        rw [run_mono hle hrun]
        cases found with
        | some b => exact nomatch hthere
        | none => exact ih hthere

theorem finds_of_sweep (h : sweep turns starts fuel ss = some (some b)) :
    ∃ s ∈ ss, Finds turns starts s b := by
  induction ss with
  | nil => exact absurd (Option.some.inj h) (Option.some_ne_none b).symm
  | cons s ss ih =>
    cases hrun : run (turns s) fuel (starts s) with
    | none =>
      rw [sweep, hrun] at h
      exact absurd h (Option.some_ne_none _).symm
    | some found =>
      cases found with
      | some b' =>
        rw [sweep_of_found hrun] at h
        exact ⟨s, List.mem_cons_self, Option.some.inj (Option.some.inj h) ▸ finds_of_run hrun⟩
      | none =>
        rw [sweep_of_none hrun] at h
        obtain ⟨t, ht, hb⟩ := ih h
        exact ⟨t, List.mem_cons_of_mem s ht, hb⟩

theorem not_finds_of_sweep (h : sweep turns starts fuel ss = some none) :
    ∀ s ∈ ss, ∀ b, ¬ Finds turns starts s b := by
  induction ss with
  | nil => exact fun s hs => nomatch hs
  | cons s ss ih =>
    cases hrun : run (turns s) fuel (starts s) with
    | none =>
      rw [sweep, hrun] at h
      exact absurd h (Option.some_ne_none _).symm
    | some found =>
      cases found with
      | some b =>
        rw [sweep_of_found hrun] at h
        exact absurd (Option.some.inj h) (Option.some_ne_none b)
      | none =>
        rw [sweep_of_none hrun] at h
        exact List.forall_mem_cons.mpr ⟨not_finds_of_run hrun, ih h⟩

section Bound

variable {Inside : ρ → Prop} {Fits : σ → ℕ → Prop} {M : ℕ}
  (hfits : ∀ s p, Fits s p ↔ (∀ r ∈ reads s p, Inside r) ∧ turns s p ≠ .go p)
  (hle : ∀ s p q, turns s p = .go q → p ≤ q)
  (hbound : ∀ s p q, (∀ r ∈ reads s p, Inside r) → turns s p = .go q → p < M)

include hfits hle hbound

/-- **A sweep ends and reads what it may** exactly if at every place that it comes to it reads what
it may and moves on. -/
theorem sweep_iff (ss : List σ) :
    ((∃ fuel, (sweep turns starts fuel ss).isSome) ∧
      ∀ fuel, ∀ r ∈ sweepReads turns starts reads fuel ss, Inside r) ↔
    Sweeps turns starts Fits ss := by
  induction ss with
  | nil =>
    exact iff_of_true ⟨⟨0, rfl⟩, fun _ _ hr => nomatch hr⟩ trivial
  | cons s ss ih =>
    constructor
    · rintro ⟨⟨fuel, hends⟩, hinside⟩
      obtain ⟨result, hresult⟩ := Option.isSome_iff_exists.mp hends
      have hhere : ∀ p, Met (turns s) (starts s) p → ∀ r ∈ reads s p, Inside r := by
        intro p hp r hr
        obtain ⟨fuel', hp'⟩ := met_iff.mp hp
        exact hinside fuel' r (List.mem_append_left _ (List.mem_flatMap.mpr ⟨p, hp', hr⟩))
      have hrun : ∃ found, run (turns s) fuel (starts s) = some found := by
        cases hrun : run (turns s) fuel (starts s) with
        | none =>
          rw [sweep, hrun] at hresult
          exact absurd hresult (Option.some_ne_none result).symm
        | some found => exact ⟨found, rfl⟩
      obtain ⟨found, hrun⟩ := hrun
      have hmoves := (ends_iff (hle s) fun p q hp hgo => hbound s p q (hhere p hp) hgo).mp
        ⟨fuel, by rw [hrun]; rfl⟩
      refine ⟨fun p hp => (hfits s p).mpr ⟨hhere p hp, hmoves p hp⟩, fun hnot => ih.mp ⟨?_, ?_⟩⟩
      · cases found with
        | some b => exact absurd (finds_of_run hrun) (hnot b)
        | none =>
          rw [sweep_of_none hrun] at hresult
          exact ⟨fuel, by rw [hresult]; rfl⟩
      · intro fuel' r hr
        cases found with
        | some b => exact absurd (finds_of_run hrun) (hnot b)
        | none =>
          -- with enough turns for both
          refine hinside (max fuel fuel') r ?_
          rw [sweepReads_of_none (run_mono (Nat.le_max_left _ _) hrun)]
          exact List.mem_append_right _ (sweepReads_mono (Nat.le_max_right _ _) hr)
    · rintro ⟨hfit, hrest⟩
      have hhere : ∀ p, Met (turns s) (starts s) p → ∀ r ∈ reads s p, Inside r :=
        fun p hp => ((hfits s p).mp (hfit p hp)).1
      obtain ⟨fuel, hends⟩ := (ends_iff (hle s) fun p q hp hgo => hbound s p q (hhere p hp) hgo).mpr
        fun p hp => ((hfits s p).mp (hfit p hp)).2
      obtain ⟨found, hrun⟩ := Option.isSome_iff_exists.mp hends
      constructor
      · cases found with
        | some b => exact ⟨fuel, by rw [sweep_of_found hrun]; rfl⟩
        | none =>
          obtain ⟨⟨fuel', hends'⟩, -⟩ := ih.mpr (hrest (not_finds_of_run hrun))
          obtain ⟨result, hresult⟩ := Option.isSome_iff_exists.mp hends'
          refine ⟨max fuel fuel', ?_⟩
          rw [sweep_of_none (run_mono (Nat.le_max_left _ _) hrun),
            sweep_mono (Nat.le_max_right _ _) hresult]
          rfl
      · intro fuel' r hr
        rcases List.mem_append.mp hr with hr | hr
        · obtain ⟨p, hp, hr⟩ := List.mem_flatMap.mp hr
          exact hhere p (met_iff.mpr ⟨fuel', hp⟩) r hr
        · cases hrun' : run (turns s) fuel' (starts s) with
          | none =>
            rw [hrun'] at hr
            exact nomatch hr
          | some found' =>
            rw [hrun'] at hr
            cases found' with
            | some b => exact nomatch hr
            | none => exact (ih.mpr (hrest (not_finds_of_run hrun'))).2 fuel' r hr

end Bound

end Sweep

end Hunt
