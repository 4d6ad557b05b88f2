/-
Machines that hand out a list, a part in each call.

`step s i` is a call: what it hands out, and the state after it.  `Drains step good ready Fits R`
says that, while `R s todo` holds, a good call hands out something that fits the first part of
`todo` and leaves the rest to do, and that a call that is ready hands out something if there is
something to do.

* `Drains.run` — after some calls, what was handed out fits the first part of the list;
* `Drains.complete` — after enough calls that are ready, it fits the whole list.
-/
import Mathlib.Data.List.Forall2

namespace Drain

variable {σ ι ο τ : Type*}

def run (step : σ → ι → List ο × σ) : σ → List ι → List ο × σ
  | s, [] => ([], s)
  | s, i :: is =>
    let first := step s i
    let rest := run step first.2 is
    (first.1 ++ rest.1, rest.2)

variable {step : σ → ι → List ο × σ} {good : ι → Prop} {ready : ι → Bool} {Fits : τ → ο → Prop}
  {R : σ → List τ → Prop}

def Drains (step : σ → ι → List ο × σ) (good : ι → Prop) (ready : ι → Bool) (Fits : τ → ο → Prop)
    (R : σ → List τ → Prop) : Prop :=
  ∀ s i todo, R s todo → good i → ∃ done rest, todo = done ++ rest ∧
    List.Forall₂ Fits done (step s i).1 ∧ R (step s i).2 rest ∧
    (ready i = true → todo ≠ [] → done ≠ [])

theorem Drains.run (h : Drains step good ready Fits R) (is : List ι) :
    ∀ {s : σ} {todo : List τ}, R s todo → (∀ i ∈ is, good i) →
      ∃ done rest, todo = done ++ rest ∧ List.Forall₂ Fits done (run step s is).1 ∧
        R (Drain.run step s is).2 rest ∧ (rest = [] ∨ is.countP ready ≤ done.length) := by
  induction is with
  | nil => exact fun hR _ => ⟨[], _, rfl, .nil, hR, .inr (Nat.zero_le _)⟩
  | cons i is ih =>
    intro s todo hR hgood
    obtain ⟨hi, his⟩ := List.forall_mem_cons.mp hgood
    obtain ⟨done, rest, rfl, hfits, hR', hready⟩ := h s i _ hR hi
    obtain ⟨done', rest', rfl, hfits', hR'', hcount⟩ := ih hR' his
    refine ⟨done ++ done', rest', (List.append_assoc ..).symm, List.rel_append hfits hfits', hR'',
      ?_⟩
    -- a call that is ready and hands out nothing has found nothing to do
    by_cases hstuck : ready i = true ∧ done = []
    · obtain ⟨hi, rfl⟩ := hstuck
      have hnothing : done' ++ rest' = [] := by
        by_contra hne
        exact hready hi hne rfl
      exact .inl (List.append_eq_nil_iff.mp hnothing).2
    · refine hcount.imp_right fun hcount => ?_
      rw [List.countP_cons, List.length_append]
      split_ifs with hi
      · have hpos := List.length_pos_iff.mpr fun hdone => hstuck ⟨hi, hdone⟩
        omega
      · omega

theorem Drains.complete (h : Drains step good ready Fits R) {is : List ι} {s : σ} {todo : List τ}
    (hR : R s todo) (hgood : ∀ i ∈ is, good i) (hcount : todo.length ≤ is.countP ready) :
    List.Forall₂ Fits todo (Drain.run step s is).1 ∧ R (Drain.run step s is).2 [] := by
  obtain ⟨done, rest, rfl, hfits, hR', hdone⟩ := h.run is hR hgood
  have hrest : rest = [] := hdone.elim id fun hle => by
    rw [List.length_append] at hcount
    exact List.eq_nil_of_length_eq_zero (by omega)
  subst hrest
  rw [List.append_nil]
  exact ⟨hfits, hR'⟩

theorem exists_of_mem {done : List τ} {out : List ο} (h : List.Forall₂ Fits done out) {o : ο}
    (ho : o ∈ out) : ∃ t ∈ done, Fits t o := by
  induction h with
  | nil => exact nomatch ho
  | cons hfits _ ih =>
    rcases List.mem_cons.mp ho with rfl | ho
    · exact ⟨_, List.mem_cons_self, hfits⟩
    · obtain ⟨t, ht, hfits'⟩ := ih ho
      exact ⟨t, List.mem_cons_of_mem _ ht, hfits'⟩

end Drain
