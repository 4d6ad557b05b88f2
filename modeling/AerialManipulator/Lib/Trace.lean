/-
Runs of deterministic event-driven machines.

A machine is a step function `step : σ → ε → σ`; a run is the fold of a finite
list of events.  The two rules that carry every whole-run result are

* `always_of_invariant` — if an invariant is kept by each step that meets a
  condition, and implies a property of that step, then every run all of whose
  steps meet the condition has the property at each step;
* `always_iff_of_invariant` — if the invariant makes the property and the
  condition equivalent, so they are on whole runs.

`Always step P s es` says that `P` holds of each step of the run, as a pair of
the state before the step and the event.
-/
import Mathlib.Data.List.Basic

namespace Trace

variable {σ ε : Type*} {step : σ → ε → σ}

/-- The state after the events `es`. -/
def run (step : σ → ε → σ) (s : σ) (es : List ε) : σ := es.foldl step s

@[simp] theorem run_nil (s : σ) : run step s [] = s := rfl

@[simp] theorem run_cons (s : σ) (e : ε) (es : List ε) :
    run step s (e :: es) = run step (step s e) es := rfl

theorem run_append (s : σ) (es fs : List ε) : run step s (es ++ fs) = run step (run step s es) fs :=
  List.foldl_append

/-- `P` holds of every step of the run of `es` from `s`. -/
def Always (step : σ → ε → σ) (P : σ → ε → Prop) : σ → List ε → Prop
  | _, [] => True
  | s, e :: es => P s e ∧ Always step P (step s e) es

instance decidableAlways (P : σ → ε → Prop) [∀ s e, Decidable (P s e)] :
    ∀ s es, Decidable (Always step P s es)
  | _, [] => inferInstanceAs (Decidable True)
  | s, e :: es =>
    have := decidableAlways P (step s e) es
    inferInstanceAs (Decidable (P s e ∧ Always step P (step s e) es))

@[simp] theorem always_nil {P : σ → ε → Prop} (s : σ) : Always step P s [] := trivial

@[simp] theorem always_cons {P : σ → ε → Prop} (s : σ) (e : ε) (es : List ε) :
    Always step P s (e :: es) ↔ P s e ∧ Always step P (step s e) es := Iff.rfl

theorem always_append {P : σ → ε → Prop} (s : σ) (es fs : List ε) :
    Always step P s (es ++ fs) ↔ Always step P s es ∧ Always step P (run step s es) fs := by
  induction es generalizing s with
  | nil => simp
  | cons e es ih => simp [ih, and_assoc]

theorem always_of_invariant {I : σ → Prop} {C P : σ → ε → Prop}
    (hstep : ∀ s e, I s → C s e → P s e ∧ I (step s e))
    {s : σ} {es : List ε} (hI : I s) (hC : Always step C s es) : Always step P s es := by
  induction es generalizing s with
  | nil => trivial
  | cons e es ih =>
    obtain ⟨hP, hI'⟩ := hstep s e hI hC.1
    exact ⟨hP, ih hI' hC.2⟩

theorem exists_always {γ : Type*} {step : σ → ε × γ → σ} {I : σ → Prop} {P : σ → ε × γ → Prop}
    (hstep : ∀ s e, I s → ∃ g, P s (e, g) ∧ I (step s (e, g))) {s : σ} (hI : I s) (es : List ε) :
    ∃ gs : List (ε × γ), gs.map Prod.fst = es ∧ Always step P s gs := by
  induction es generalizing s with
  | nil => exact ⟨[], rfl, trivial⟩
  | cons e es ih =>
    obtain ⟨g, hP, hnext⟩ := hstep s e hI
    obtain ⟨gs, hgs, halways⟩ := ih hnext
    exact ⟨(e, g) :: gs, congrArg (e :: ·) hgs, hP, halways⟩

theorem run_of_invariant {I : σ → Prop} {C : σ → ε → Prop}
    (hstep : ∀ s e, I s → C s e → I (step s e))
    {s : σ} {es : List ε} (hI : I s) (hC : Always step C s es) : I (run step s es) := by
  induction es generalizing s with
  | nil => exact hI
  | cons e es ih => exact ih (hstep s e hI hC.1) hC.2

theorem run_simulation {τ : Type*} {step' : τ → ε → τ} {R : σ → τ → Prop}
    (hstep : ∀ s t e, R s t → R (step s e) (step' t e))
    {s : σ} {t : τ} (h : R s t) (es : List ε) : R (run step s es) (run step' t es) := by
  induction es generalizing s t with
  | nil => exact h
  | cons e es ih => exact ih (hstep s t e h)

theorem always_true (s : σ) (es : List ε) : Always step (fun _ _ => True) s es := by
  induction es generalizing s with
  | nil => trivial
  | cons e es ih => exact ⟨trivial, ih _⟩

theorem always_of_forall {P : ε → Prop} {s : σ} {es : List ε} (h : ∀ e ∈ es, P e) :
    Always step (fun _ e => P e) s es := by
  induction es generalizing s with
  | nil => trivial
  | cons e es ih =>
    obtain ⟨he, hes⟩ := List.forall_mem_cons.mp h
    exact ⟨he, ih hes⟩

/-- Two properties of steps that agree wherever the invariant holds agree on
whole runs, if the invariant is kept by the steps that have the second one. -/
theorem always_iff_of_invariant {I : σ → Prop} {P C : σ → ε → Prop}
    (hiff : ∀ s e, I s → (P s e ↔ C s e)) (hstep : ∀ s e, I s → C s e → I (step s e))
    {s : σ} {es : List ε} (hI : I s) : Always step P s es ↔ Always step C s es := by
  induction es generalizing s with
  | nil => exact Iff.rfl
  | cons e es ih =>
    rw [always_cons, always_cons, hiff s e hI]
    exact and_congr_right fun hC => ih (hstep s e hI hC)

theorem always_and {P Q : σ → ε → Prop} {s : σ} {es : List ε} :
    Always step (fun s e => P s e ∧ Q s e) s es ↔ Always step P s es ∧ Always step Q s es := by
  induction es generalizing s with
  | nil => simp
  | cons e es ih => rw [always_cons, always_cons, always_cons, ih, and_and_and_comm]

/-! ### Blocks of events at the end of a run -/

/-- `es` ends in a block of events that all satisfy `P`, from `first` to `last`. -/
def EndsInBlock (P : ε → Prop) (es : List ε) (first last : ε) : Prop :=
  ∃ pre post, es = pre ++ first :: post ∧ (∀ e ∈ first :: post, P e) ∧ last = post.getLastD first

theorem endsInBlock_single {P : ε → Prop} {e : ε} (he : P e) (es : List ε) :
    EndsInBlock P (es ++ [e]) e e :=
  ⟨es, [], rfl, by simpa using he, rfl⟩

theorem EndsInBlock.snoc {P : ε → Prop} {es : List ε} {first last e : ε}
    (h : EndsInBlock P es first last) (he : P e) : EndsInBlock P (es ++ [e]) first e := by
  obtain ⟨pre, post, rfl, hP, -⟩ := h
  refine ⟨pre, post ++ [e], by simp, ?_, by simp⟩
  intro x hx
  rw [← List.cons_append, List.mem_append, List.mem_singleton] at hx
  exact hx.elim (hP x) fun hxe => hxe ▸ he

theorem EndsInBlock.imp {P Q : ε → Prop} {es : List ε} {first last : ε}
    (h : EndsInBlock P es first last)
    (hPQ : ∀ e ∈ es, P e → Q e) : EndsInBlock Q es first last := by
  obtain ⟨pre, post, rfl, hP, rfl⟩ := h
  exact ⟨pre, post, rfl, fun e he => hPQ e (List.mem_append_right _ he) (hP e he), rfl⟩

theorem EndsInBlock.last_eq {P : ε → Prop} {es : List ε} {first last e : ε}
    (h : EndsInBlock P (es ++ [e]) first last) : last = e := by
  obtain ⟨pre, post, hes, -, rfl⟩ := h
  have hlast := congrArg List.getLast? hes
  rw [List.getLast?_append, List.getLast?_append, List.getLast?_singleton, List.getLast?_cons,
    Option.some_or, Option.some_or] at hlast
  rw [List.getLastD_eq_getLast?]
  exact (Option.some.inj hlast).symm

theorem EndsInBlock.last_mem {P : ε → Prop} {es : List ε} {first last : ε}
    (h : EndsInBlock P es first last) : first ∈ es ∧ last ∈ es ∧ P last := by
  obtain ⟨pre, post, rfl, hP, rfl⟩ := h
  have hmem : post.getLastD first ∈ first :: post := List.getLastD_mem_cons
  exact ⟨by simp, List.mem_append_right _ hmem, hP _ hmem⟩

theorem EndsInBlock.of_snoc {P : ε → Prop} {es : List ε} {first last e : ε}
    (h : EndsInBlock P (es ++ [e]) first last) :
    P e ∧ (first = e ∨ ∃ last', EndsInBlock P es first last') := by
  have hlast := h.last_eq
  refine ⟨hlast ▸ h.last_mem.2.2, ?_⟩
  obtain ⟨pre, post, hes, hP, -⟩ := h
  rcases List.eq_nil_or_concat post with rfl | ⟨post', x, rfl⟩
  · exact .inl (List.singleton_inj.mp (List.append_inj' hes rfl).2).symm
  · rw [List.concat_eq_append] at hes hP
    rw [← List.cons_append, ← List.append_assoc] at hes
    obtain ⟨rfl, -⟩ := List.append_inj' hes rfl
    exact .inr ⟨_, pre, post', rfl, fun y hy => hP y (List.mem_append_left _ hy), rfl⟩

theorem endsInBlock_append_of_not {P : ε → Prop} {x : ε} (hx : ¬ P x) (pre post : List ε)
    {first last : ε} :
    EndsInBlock P (pre ++ x :: post) first last ↔ EndsInBlock P post first last := by
  constructor
  · rintro ⟨pre', post', hes, hP, hlast⟩
    rcases List.append_eq_append_iff.mp hes with ⟨between, -, hpost⟩ | ⟨between, -, hpost⟩
    · cases between with
      | nil =>
        obtain ⟨rfl, -⟩ := List.cons.inj hpost
        exact absurd (hP x List.mem_cons_self) hx
      | cons y between =>
        obtain ⟨-, rfl⟩ := List.cons.inj hpost
        exact ⟨between, post', rfl, hP, hlast⟩
    · have hmem : x ∈ first :: post' := hpost ▸ List.mem_append_right _ List.mem_cons_self
      exact absurd (hP x hmem) hx
  · rintro ⟨pre', post', rfl, hP, hlast⟩
    exact ⟨pre ++ x :: pre', post', by rw [List.append_assoc, List.cons_append], hP, hlast⟩

theorem EndsInBlock.ordered {R : ε → ε → Prop} (hrefl : ∀ e, R e e) {P : ε → Prop}
    {es : List ε} {first last e : ε} (h : EndsInBlock P es first last)
    (hmono : (es ++ [e]).Pairwise R) : R first last ∧ R last e := by
  obtain ⟨hes, -, hlast⟩ := List.pairwise_append.mp hmono
  refine ⟨?_, hlast _ h.last_mem.2.1 e (List.mem_singleton_self e)⟩
  obtain ⟨pre, post, rfl, -, rfl⟩ := h
  have hpost := (List.pairwise_append.mp hes).2.1
  have hmem : post.getLastD first ∈ first :: post := List.getLastD_mem_cons
  rcases List.mem_cons.mp hmem with heq | hin
  · rw [heq]
    exact hrefl first
  · exact (List.pairwise_cons.mp hpost).1 _ hin

end Trace
