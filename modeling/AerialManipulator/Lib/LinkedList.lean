/-
Singly linked lists through a next pointer.

Every node has a place for the node behind it, and a node is in at most one list.  `Linked next l`
says that the pointers of the nodes of `l` go along `l`, and that the one of the last node is empty.

* `Linked.suffix`, `Linked.getLast?_of_none` — what the pointers of a list say;
* `Linked.concat`, `Linked.insert`, `Linked.skip` — a node is put behind the last one or between
  two, and a node is taken out;
* `unlinked_tail`, `unlinked_skip` — the node that is taken out has no pointer.
-/
import Mathlib.Data.List.Basic

namespace LinkedList

variable {ι : Type*} [DecidableEq ι] {next : ι → Option ι} {l pre post : List ι} {a x : ι}

/-- The pointers go along the list. -/
def Linked (next : ι → Option ι) : List ι → Prop
  | [] => True
  | a :: l => next a = l.head? ∧ Linked next l

omit [DecidableEq ι] in
theorem Linked.suffix (h : Linked next (pre ++ l)) : Linked next l := by
  induction pre with
  | nil => exact h
  | cons b pre ih => exact ih h.2

omit [DecidableEq ι] in
theorem Linked.getLast?_of_none (h : Linked next l) (hx : x ∈ l) (hnext : next x = none) :
    l.getLast? = some x := by
  induction l with
  | nil => exact nomatch hx
  | cons b l ih =>
    rcases List.mem_cons.mp hx with rfl | hx
    · obtain rfl := List.head?_eq_none_iff.mp (h.1.symm.trans hnext)
      rfl
    · rw [List.getLast?_cons, ih h.2 hx]
      rfl

theorem Linked.update (h : Linked next l) (hx : x ∉ l) (v : Option ι) :
    Linked (Function.update next x v) l := by
  induction l with
  | nil => trivial
  | cons b l ih =>
    refine ⟨?_, ih h.2 (List.not_mem_of_not_mem_cons hx)⟩
    rw [Function.update_of_ne (Ne.symm (List.ne_of_not_mem_cons hx))]
    exact h.1

theorem Linked.concat (h : Linked next (l ++ [a])) (hnodup : (l ++ [a]).Nodup)
    (hx : x ∉ l ++ [a]) (hnext : next x = none) :
    Linked (Function.update next a (some x)) (l ++ [a] ++ [x]) := by
  induction l with
  | nil =>
    have hne : x ≠ a := fun heq => hx (heq ▸ List.mem_singleton_self a)
    refine ⟨Function.update_self a _ next, ?_, trivial⟩
    rw [Function.update_of_ne hne]
    exact hnext
  | cons b l ih =>
    rw [List.cons_append] at hnodup hx
    obtain ⟨hb, hnodup⟩ := List.nodup_cons.mp hnodup
    have hne : b ≠ a := by
      rintro rfl
      exact hb (List.mem_append_right l (List.mem_singleton_self b))
    refine ⟨?_, ih h.2 hnodup (List.not_mem_of_not_mem_cons hx)⟩
    rw [Function.update_of_ne hne, h.1]
    cases l <;> rfl

theorem Linked.insert {b : ι} (h : Linked next (pre ++ a :: b :: post))
    (hnodup : (pre ++ a :: b :: post).Nodup) (hx : x ∉ pre ++ a :: b :: post) :
    Linked (Function.update (Function.update next x (some b)) a (some x))
      (pre ++ a :: x :: b :: post) := by
  induction pre with
  | nil =>
    obtain ⟨ha, -⟩ := List.nodup_cons.mp hnodup
    have hxa : x ≠ a := List.ne_of_not_mem_cons hx
    refine ⟨Function.update_self .., ?_, ?_⟩
    · rw [Function.update_of_ne hxa, Function.update_self]
      rfl
    · exact (h.2.update (List.not_mem_of_not_mem_cons hx) (some b)).update ha (some x)
  | cons c pre ih =>
    obtain ⟨hc, hnodup⟩ := List.nodup_cons.mp hnodup
    have hca : c ≠ a := by
      rintro rfl
      exact hc (List.mem_append_right pre List.mem_cons_self)
    have hcx : c ≠ x := (List.ne_of_not_mem_cons hx).symm
    refine ⟨?_, ih h.2 hnodup (List.not_mem_of_not_mem_cons hx)⟩
    rw [Function.update_of_ne hca, Function.update_of_ne hcx]
    refine Eq.trans h.1 ?_
    cases pre <;> rfl

theorem Linked.skip (h : Linked next (pre ++ a :: x :: post))
    (hnodup : (pre ++ a :: x :: post).Nodup) :
    Linked (Function.update (Function.update next a (next x)) x none) (pre ++ a :: post) := by
  induction pre with
  | nil =>
    obtain ⟨ha, hnodup⟩ := List.nodup_cons.mp hnodup
    obtain ⟨hx, -⟩ := List.nodup_cons.mp hnodup
    have hne : a ≠ x := fun heq => ha (heq ▸ List.mem_cons_self)
    refine ⟨?_, (h.2.2.update (List.not_mem_of_not_mem_cons ha) _).update hx _⟩
    rw [Function.update_of_ne hne, Function.update_self]
    exact h.2.1
  | cons b pre ih =>
    obtain ⟨hb, hnodup⟩ := List.nodup_cons.mp hnodup
    have hba : b ≠ a := by
      rintro rfl
      exact hb (List.mem_append_right pre List.mem_cons_self)
    have hbx : b ≠ x := by
      rintro rfl
      exact hb (List.mem_append_right pre (List.mem_cons_of_mem a List.mem_cons_self))
    refine ⟨?_, ih h.2 hnodup⟩
    rw [Function.update_of_ne hbx, Function.update_of_ne hba]
    refine Eq.trans h.1 ?_
    cases pre <;> rfl

/-! ### The nodes that are in no list -/

theorem unlinked_tail (h : ∀ y ∉ a :: l, next y = none) :
    ∀ y ∉ l, Function.update next a none y = none := by
  intro y hy
  by_cases hya : y = a
  · rw [hya, Function.update_self]
  · rw [Function.update_of_ne hya]
    exact h y fun hmem => (List.mem_cons.mp hmem).elim hya hy

theorem unlinked_skip (h : ∀ y ∉ pre ++ a :: x :: post, next y = none) :
    ∀ y ∉ pre ++ a :: post, Function.update (Function.update next a (next x)) x none y = none := by
  intro y hy
  by_cases hyx : y = x
  · rw [hyx, Function.update_self]
  · have hya : y ≠ a := by
      rintro rfl
      exact hy (List.mem_append_right pre List.mem_cons_self)
    rw [Function.update_of_ne hyx, Function.update_of_ne hya]
    refine h y fun hmem => hy ?_
    rwa [List.append_cons, List.mem_append, List.mem_cons, or_left_comm, or_iff_right hyx,
      ← List.mem_append, ← List.append_cons] at hmem

end LinkedList
