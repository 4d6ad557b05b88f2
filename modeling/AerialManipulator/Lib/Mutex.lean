/-
A shared flag that stands for a resource.

Any number of parties may hold a resource, and a flag that all of them read and write is
meant to say that somebody does.  `Held` is the intended relation; the lemmas say what the
moves of one party do to it:

* `Held.acquire`, `Held.release` — taking a free resource and giving it back keep it;
* `Held.not_leak` — a holder that goes without clearing the flag breaks it;
* `held_clear_iff` — a party that clears the flag without being the holder breaks it unless
  nobody holds the resource.
-/
import Mathlib.Logic.Function.Basic

namespace Mutex

variable {ι : Type*} [DecidableEq ι]

/-- At most one party holds the resource, and the flag says whether one does. -/
structure Held (flag : Bool) (holds : ι → Prop) : Prop where
  unique : ∀ i j, holds i → holds j → i = j
  flag_iff : flag = true ↔ ∃ i, holds i

variable {flag : Bool} {holds : ι → Prop} {i : ι}

omit [DecidableEq ι] in
theorem Held.of_none (h : ∀ i, ¬ holds i) : Held false holds :=
  ⟨fun i _ hi _ => absurd hi (h i), by simpa using h⟩

omit [DecidableEq ι] in
theorem Held.none (h : Held false holds) (i : ι) : ¬ holds i := by
  intro hi
  exact Bool.false_ne_true (h.flag_iff.mpr ⟨i, hi⟩)

theorem Held.stay (h : Held flag holds) {p : Prop} (hp : p ↔ holds i) :
    Held flag (Function.update holds i p) := by
  have hsame : Function.update holds i p = holds := by
    rw [propext hp]
    exact Function.update_eq_self i holds
  rw [hsame]
  exact h

theorem Held.acquire (h : Held false holds) {p : Prop} (hp : p) :
    Held true (Function.update holds i p) := by
  have honly : ∀ j, Function.update holds i p j → j = i := by
    intro j hj
    by_contra hne
    rw [Function.update_of_ne hne] at hj
    exact h.none j hj
  refine ⟨fun j k hj hk => (honly j hj).trans (honly k hk).symm, iff_of_true rfl ⟨i, ?_⟩⟩
  rw [Function.update_self]
  exact hp

theorem Held.release (h : Held flag holds) (hi : holds i) {p : Prop} (hp : ¬ p) :
    Held false (Function.update holds i p) := by
  refine .of_none fun j hj => ?_
  by_cases hji : j = i
  · rw [hji, Function.update_self] at hj
    exact hp hj
  · rw [Function.update_of_ne hji] at hj
    exact hji (h.unique j i hj hi)

theorem Held.not_leak (h : Held flag holds) (hi : holds i) {p : Prop} (hp : ¬ p) :
    ¬ Held flag (Function.update holds i p) := by
  intro h'
  obtain ⟨j, hj⟩ := h'.flag_iff.mp (h.flag_iff.mpr ⟨i, hi⟩)
  exact (h.release hi hp).none j hj

theorem held_clear_iff (hi : ¬ holds i) {p : Prop} (hp : ¬ p) :
    Held false (Function.update holds i p) ↔ ∀ j, ¬ holds j := by
  have hsame : Function.update holds i p = holds := by
    rw [eq_false hp, ← eq_false hi]
    exact Function.update_eq_self i holds
  rw [hsame]
  exact ⟨Held.none, Held.of_none⟩

end Mutex
