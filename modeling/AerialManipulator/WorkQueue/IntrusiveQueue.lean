/-
The intrusive queue.

The nodes themselves hold the pointer to the next one, so that a node is in the queue at most once:
it is taken for queued if it has a next one or is the last one.

* `Represents` — the pointers are those of a list without repetitions;
* `Represents.push`, `Represents.pop`, `Represents.remove`, `Represents.clear` — the operations do
  to the list what they should, and their loops end;
* **`run_eq_fifo`** — any operations, one after the other, do to the queue what they do to a list.
-/
import AerialManipulator.Lib.LinkedList
import AerialManipulator.Lib.Mealy
import Mathlib.Data.List.Nodup

open LinkedList

/-- `IntrusiveQueue`, with the next pointers of all nodes. -/
structure IntrusiveQueue (ι : Type*) where
  head : Option ι
  tail : Option ι
  next : ι → Option ι

namespace IntrusiveQueue

variable {ι : Type*} [DecidableEq ι] (q : IntrusiveQueue ι)

def init (ι : Type*) : IntrusiveQueue ι := ⟨none, none, fun _ => none⟩

def isEmpty (q : IntrusiveQueue ι) : Bool := q.head.isNone

def push (newNode : ι) : IntrusiveQueue ι :=
  -- the node is already queued
  if q.next newNode ≠ none ∨ q.tail = some newNode then q
  else
    { head := if q.head = none then some newNode else q.head
      tail := some newNode
      next := match q.tail with
        | none => q.next
        | some tail => Function.update q.next tail (some newNode) }

def pop : IntrusiveQueue ι × Option ι :=
  match q.head with
  | none => (q, none)
  | some ret =>
    let q' := if q.head ≠ q.tail then { q with head := q.next ret }
      else { q with head := none, tail := none }
    ({ q' with next := Function.update q'.next ret none }, some ret)

/-- The loop of `remove`; `none` if it does not end within `fuel` turns. -/
def removeLoop (removeNode : ι) : ℕ → Option ι → Option (IntrusiveQueue ι × Bool)
  | _, none => some (q, false)
  | 0, some _ => none
  | fuel + 1, some node =>
    if q.next node = some removeNode then
      some ({ q with
        tail := if q.tail = some removeNode then some node else q.tail
        next := Function.update (Function.update q.next node (q.next removeNode)) removeNode none },
        true)
    else removeLoop removeNode fuel (q.next node)

def remove (fuel : ℕ) (removeNode : ι) : Option (IntrusiveQueue ι × Bool) :=
  if q.head = some removeNode then
    if q.next removeNode ≠ none then
      some ({ q with
        head := q.next removeNode
        next := Function.update q.next removeNode none }, true)
    else some ({ q with head := none, tail := none }, true)
  else q.removeLoop removeNode fuel q.head

/-- `while (!_q.empty()) { _q.pop(); }`. -/
def clear : ℕ → IntrusiveQueue ι → Option (IntrusiveQueue ι)
  | fuel, q =>
    if q.isEmpty then some q
    else
      match fuel with
      | 0 => none
      | fuel + 1 => clear fuel q.pop.1

/-- The pointers are those of the list. -/
structure Represents (q : IntrusiveQueue ι) (l : List ι) : Prop where
  nodup : l.Nodup
  head : q.head = l.head?
  tail : q.tail = l.getLast?
  linked : Linked q.next l
  others : ∀ x ∉ l, q.next x = none

variable {q} {l : List ι} {x : ι}

omit [DecidableEq ι] in
theorem represents_init : (init ι).Represents [] :=
  ⟨List.nodup_nil, rfl, rfl, trivial, fun _ _ => rfl⟩

omit [DecidableEq ι] in
theorem Represents.isEmpty_iff (h : q.Represents l) : q.isEmpty = true ↔ l = [] := by
  rw [isEmpty, h.head, Option.isNone_iff_eq_none, List.head?_eq_none_iff]

omit [DecidableEq ι] in
theorem Represents.queued_iff (h : q.Represents l) : q.next x ≠ none ∨ q.tail = some x ↔ x ∈ l := by
  constructor
  · rintro (hnext | htail)
    · by_contra hx
      exact hnext (h.others x hx)
    · rw [h.tail] at htail
      exact List.mem_of_getLast? htail
  · intro hx
    by_cases hnext : q.next x = none
    · exact .inr (h.tail.trans (h.linked.getLast?_of_none hx hnext))
    · exact .inl hnext

theorem Represents.push (h : q.Represents l) (x : ι) :
    (q.push x).Represents (if x ∈ l then l else l ++ [x]) := by
  unfold IntrusiveQueue.push
  by_cases hx : x ∈ l
  · rw [if_pos (h.queued_iff.mpr hx), if_pos hx]
    exact h
  · rw [if_neg (fun hq => hx (h.queued_iff.mp hq)), if_neg hx]
    have hnodup : (l ++ [x]).Nodup :=
      List.nodup_append.mpr ⟨h.nodup, List.nodup_singleton x, by
        intro a ha b hb heq
        rw [List.mem_singleton.mp hb] at heq
        exact hx (heq ▸ ha)⟩
    rcases List.eq_nil_or_concat l with rfl | ⟨l, a, rfl⟩
    · have htail : q.tail = none := h.tail
      have hhead : q.head = none := h.head
      refine ⟨hnodup, ?_, rfl, ?_, ?_⟩
      · rw [if_pos hhead]
        rfl
      · rw [htail]
        exact ⟨h.others x hx, trivial⟩
      · rw [htail]
        exact fun y _ => h.others y List.not_mem_nil
    · rw [List.concat_eq_append] at h hx hnodup ⊢
      have htail : q.tail = some a := by rw [h.tail, List.getLast?_concat]
      have hhead : q.head ≠ none := by
        rw [h.head]
        simp
      refine ⟨hnodup, ?_, ?_, ?_, ?_⟩
      · rw [if_neg hhead, h.head]
        cases l <;> rfl
      · rw [List.getLast?_concat]
      · rw [htail]
        exact h.linked.concat h.nodup hx (h.others x hx)
      · rw [htail]
        intro y hy
        rw [List.mem_append, not_or] at hy
        have hya : y ≠ a := by
          rintro rfl
          exact hy.1 (List.mem_append_right l (List.mem_singleton_self y))
        dsimp only
        rw [Function.update_of_ne hya]
        exact h.others y hy.1

theorem Represents.pop {a : ι} (h : q.Represents (a :: l)) :
    q.pop.1.Represents l ∧ q.pop.2 = some a := by
  obtain ⟨ha, hnodup⟩ := List.nodup_cons.mp h.nodup
  have hhead : q.head = some a := h.head
  have hnext : q.next a = l.head? := h.linked.1
  unfold IntrusiveQueue.pop
  rw [hhead]
  dsimp only
  have hothers := unlinked_tail h.others
  cases l with
  | nil =>
    have htail : q.tail = some a := h.tail
    rw [if_neg (not_not.mpr htail.symm)]
    exact ⟨⟨hnodup, rfl, rfl, trivial, hothers⟩, rfl⟩
  | cons b l =>
    have hne : some a ≠ q.tail := by
      rw [h.tail, List.getLast?_cons_cons]
      intro heq
      exact ha (List.mem_of_getLast? heq.symm)
    rw [if_pos hne]
    refine ⟨⟨hnodup, hnext, ?_, h.linked.2.update ha none, hothers⟩, rfl⟩
    exact h.tail.trans List.getLast?_cons_cons

theorem Represents.skip {pre post : List ι} {a : ι} (h : q.Represents (pre ++ a :: x :: post)) :
    ({ q with
      tail := if q.tail = some x then some a else q.tail
      next := Function.update (Function.update q.next a (q.next x)) x none } :
        IntrusiveQueue ι).Represents (pre ++ a :: post) := by
  have hsub : (pre ++ a :: post).Sublist (pre ++ a :: x :: post) :=
    (List.Sublist.refl pre).append ((List.sublist_cons_self x post).cons_cons a)
  have hx : x ∉ post := by
    have := (List.nodup_append.mp h.nodup).2.1
    exact (List.nodup_cons.mp (List.nodup_cons.mp this).2).1
  refine ⟨hsub.nodup h.nodup, ?_, ?_, h.linked.skip h.nodup, unlinked_skip h.others⟩
  · refine h.head.trans ?_
    cases pre <;> rfl
  · have htail : q.tail = (x :: post).getLast? := by
      rw [h.tail, List.getLast?_append_cons, List.getLast?_cons_cons]
    dsimp only
    rw [htail, List.getLast?_append_cons]
    cases post with
    | nil => exact if_pos rfl
    | cons b post =>
      rw [List.getLast?_cons_cons, List.getLast?_cons_cons, if_neg]
      intro heq
      exact hx (List.mem_of_getLast? heq)

theorem Represents.removeLoop {pre rest : List ι} {fuel : ℕ} (h : q.Represents (pre ++ rest))
    (hpre : x ∉ pre) (hhead : rest.head? ≠ some x) (hfuel : rest.length ≤ fuel) :
    ∃ q', q.removeLoop x fuel rest.head? = some (q', decide (x ∈ rest)) ∧
      q'.Represents ((pre ++ rest).erase x) := by
  induction rest generalizing pre fuel with
  | nil =>
    rw [List.append_nil] at h ⊢
    rw [List.erase_of_not_mem hpre, decide_eq_false List.not_mem_nil]
    exact ⟨q, by cases fuel <;> rfl, h⟩
  | cons a rest ih =>
    obtain ⟨fuel, rfl⟩ := Nat.exists_eq_add_of_lt (Nat.lt_of_lt_of_le (Nat.succ_pos _) hfuel)
    rw [Nat.zero_add, List.length_cons] at *
    have hne : a ≠ x := fun heq => hhead (by rw [heq]; rfl)
    have hnext : q.next a = rest.head? := h.linked.suffix.1
    have hpre' : x ∉ pre ++ [a] := by
      rw [List.mem_append, List.mem_singleton, not_or]
      exact ⟨hpre, Ne.symm hne⟩
    rw [List.head?_cons, IntrusiveQueue.removeLoop, hnext]
    by_cases hfound : rest.head? = some x
    · rw [if_pos hfound]
      obtain ⟨post, rfl⟩ := List.head?_eq_some_iff.mp hfound
      have herase : (pre ++ a :: x :: post).erase x = pre ++ a :: post := by
        rw [List.erase_append_right _ hpre, List.erase_cons_tail (by simpa using hne),
          List.erase_cons_head]
      rw [herase, decide_eq_true (List.mem_cons_of_mem a List.mem_cons_self)]
      exact ⟨_, rfl, h.skip⟩
    · have hmem : x ∈ a :: rest ↔ x ∈ rest := by
        rw [List.mem_cons, or_iff_right (Ne.symm hne)]
      rw [if_neg hfound, decide_eq_decide.mpr hmem]
      rw [List.append_cons] at h ⊢
      exact ih h hpre' hfound (by omega)

theorem Represents.remove {fuel : ℕ} (h : q.Represents l) (hfuel : l.length ≤ fuel) (x : ι) :
    ∃ q', q.remove fuel x = some (q', decide (x ∈ l)) ∧ q'.Represents (l.erase x) := by
  unfold IntrusiveQueue.remove
  by_cases hhead : q.head = some x
  · rw [if_pos hhead]
    obtain ⟨l, rfl⟩ := List.head?_eq_some_iff.mp (h.head.symm.trans hhead)
    obtain ⟨hx, hnodup⟩ := List.nodup_cons.mp h.nodup
    have hnext : q.next x = l.head? := h.linked.1
    rw [List.erase_cons_head, hnext, decide_eq_true List.mem_cons_self]
    cases l with
    | nil =>
      rw [List.head?_nil, if_neg (not_not.mpr rfl)]
      refine ⟨_, rfl, hnodup, rfl, rfl, trivial, fun y _ => ?_⟩
      by_cases hyx : y = x
      · rw [hyx]
        exact hnext
      · exact h.others y (fun hmem => hyx (List.mem_singleton.mp hmem))
    | cons b l =>
      rw [List.head?_cons, if_pos (Option.some_ne_none b)]
      exact ⟨_, rfl, hnodup, rfl, h.tail.trans List.getLast?_cons_cons,
        h.linked.2.update hx none, unlinked_tail h.others⟩
  · rw [if_neg hhead, h.head]
    rw [h.head] at hhead
    exact @Represents.removeLoop ι _ q x [] l fuel h List.not_mem_nil hhead hfuel

theorem Represents.clear {fuel : ℕ} (h : q.Represents l) (hfuel : l.length ≤ fuel) :
    ∃ q', q.clear fuel = some q' ∧ q'.Represents [] := by
  induction l generalizing q fuel with
  | nil =>
    refine ⟨q, ?_, h⟩
    unfold IntrusiveQueue.clear
    rw [if_pos (h.isEmpty_iff.mpr rfl)]
  | cons a l ih =>
    obtain ⟨fuel, rfl⟩ := Nat.exists_eq_add_of_lt (Nat.lt_of_lt_of_le (Nat.succ_pos _) hfuel)
    rw [Nat.zero_add] at *
    unfold IntrusiveQueue.clear
    rw [if_neg (fun hempty => List.cons_ne_nil a l (h.isEmpty_iff.mp hempty))]
    exact ih h.pop.1 (Nat.le_of_succ_le_succ hfuel)

/-! ### A queue and a list -/

section Fifo

inductive Op (ι : Type*)
  | push (newNode : ι)
  | pop
  | remove (removeNode : ι)

inductive Out (ι : Type*)
  | nothing
  | node (ret : Option ι)
  | removed (found : Bool)

/-- The loop of `size`, from a node on. -/
def sizeLoop (q : IntrusiveQueue ι) : ℕ → Option ι → Option ℕ
  | _, none => some 0
  | 0, some _ => none
  | fuel + 1, some node => (q.sizeLoop fuel (q.next node)).map (· + 1)

def size (q : IntrusiveQueue ι) (fuel : ℕ) : Option ℕ := q.sizeLoop fuel q.head

def op (fuel : ℕ) (q : IntrusiveQueue ι) : Op ι → Option (IntrusiveQueue ι × Out ι)
  | .push newNode => some (q.push newNode, .nothing)
  | .pop => some (q.pop.1, .node q.pop.2)
  | .remove removeNode => (q.remove fuel removeNode).map fun r => (r.1, .removed r.2)

/-- Operations one after the other, and what they return; `none` if a loop does not end. -/
def run (fuel : ℕ) : IntrusiveQueue ι → List (Op ι) → Option (IntrusiveQueue ι × List (Out ι))
  | q, [] => some (q, [])
  | q, o :: os => (q.op fuel o).bind fun r => (run fuel r.1 os).map fun r' => (r'.1, r.2 :: r'.2)

/-- The operations on a list without repetitions, first in, first out. -/
def fifo (l : List ι) : Op ι → List ι × Out ι
  | .push newNode => (if newNode ∈ l then l else l ++ [newNode], .nothing)
  | .pop => (l.tail, .node l.head?)
  | .remove removeNode => (l.erase removeNode, .removed (decide (removeNode ∈ l)))

omit [DecidableEq ι] in
theorem sizeLoop_linked {fuel : ℕ} (h : Linked q.next l) (hfuel : l.length ≤ fuel) :
    q.sizeLoop fuel l.head? = some l.length := by
  induction l generalizing fuel with
  | nil => cases fuel <;> rfl
  | cons a l ih =>
    obtain ⟨fuel, rfl⟩ := Nat.exists_eq_add_of_lt (Nat.lt_of_lt_of_le (Nat.succ_pos _) hfuel)
    rw [Nat.zero_add] at *
    rw [List.head?_cons, sizeLoop, h.1, ih h.2 (Nat.le_of_succ_le_succ hfuel)]
    rfl

omit [DecidableEq ι] in
theorem Represents.size {fuel : ℕ} (h : q.Represents l) (hfuel : l.length ≤ fuel) :
    q.size fuel = some l.length := by
  rw [IntrusiveQueue.size, h.head]
  exact sizeLoop_linked h.linked hfuel

theorem Represents.op {fuel : ℕ} (h : q.Represents l) (hfuel : l.length ≤ fuel) (o : Op ι) :
    ∃ q', q.op fuel o = some (q', (fifo l o).2) ∧ q'.Represents (fifo l o).1 := by
  cases o with
  | push x => exact ⟨_, rfl, h.push x⟩
  | pop =>
    cases l with
    | nil =>
      have hhead : q.head = none := h.head
      have hpop : q.pop = (q, none) := by rw [IntrusiveQueue.pop, hhead]
      exact ⟨q, by rw [IntrusiveQueue.op, hpop]; rfl, h⟩
    | cons a l =>
      obtain ⟨hq, hret⟩ := h.pop
      exact ⟨_, by rw [IntrusiveQueue.op, hret]; rfl, hq⟩
  | remove x =>
    obtain ⟨q', hremove, hq⟩ := h.remove hfuel x
    exact ⟨q', by rw [IntrusiveQueue.op, hremove]; rfl, hq⟩

theorem length_fifo_le (l : List ι) (o : Op ι) : (fifo l o).1.length ≤ l.length + 1 := by
  cases o with
  | push x =>
    rw [fifo]
    split_ifs
    · exact Nat.le_succ _
    · exact Nat.le_of_eq (List.length_append ..)
  | pop => exact Nat.le_trans (Nat.le_of_eq List.length_tail) (by omega)
  | remove x => exact Nat.le_trans (List.erase_sublist.length_le) (Nat.le_succ _)

theorem Represents.run {fuel : ℕ} (h : q.Represents l) (os : List (Op ι))
    (hfuel : l.length + os.length ≤ fuel) :
    ∃ q', q.run fuel os = some (q', (Mealy.feed fifo l os).2) ∧
      q'.Represents (Mealy.feed fifo l os).1 ∧
      q'.size fuel = some (Mealy.feed fifo l os).1.length := by
  induction os generalizing q l with
  | nil => exact ⟨q, rfl, h, h.size hfuel⟩
  | cons o os ih =>
    rw [List.length_cons] at hfuel
    obtain ⟨q', hop, hq⟩ := h.op (Nat.le_trans (Nat.le_add_right _ _) hfuel) o
    have hlength := length_fifo_le l o
    obtain ⟨q'', hrun, hend⟩ := ih hq (by omega)
    refine ⟨q'', ?_, hend⟩
    rw [IntrusiveQueue.run, hop, Option.bind_some, hrun]
    rfl

/-- **The queue is a list**: whatever is done to it, with as many turns for the loops as there are
operations, or more, the operations return what they return for the list, and the head, the tail,
the next pointers and the size are those of the list. -/
theorem run_eq_fifo (os : List (Op ι)) (k : ℕ) :
    ∃ q, (init ι).run (os.length + k) os = some (q, (Mealy.feed fifo [] os).2) ∧
      q.Represents (Mealy.feed fifo [] os).1 ∧
      q.size (os.length + k) = some (Mealy.feed fifo [] os).1.length :=
  represents_init.run os (by rw [List.length_nil, Nat.zero_add]; exact Nat.le_add_right _ _)

end Fifo

end IntrusiveQueue
