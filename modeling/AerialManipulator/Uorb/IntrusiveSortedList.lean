/-
The intrusive sorted list.

The nodes hold the pointer to the node behind them, and `add` walks along them to the place of the
new one. The pointer of a new node is not cleared where it becomes the last one, so it has to be
empty before: a node that is in no list has none.

* `Represents` — the pointers are those of a list without repetitions;
* `Represents.add`, `Represents.remove` — the operations insert a node in order and take one out;
* **`sortedList`** — what is in the list after any operations.
-/
import AerialManipulator.Lib.LinkedList
import Mathlib.Data.List.Sort
import Mathlib.Data.List.Induction

open LinkedList

/-- `IntrusiveSortedList`, with the pointers of all nodes. -/
structure IntrusiveSortedList (ι : Type*) where
  head : Option ι
  next : ι → Option ι

namespace IntrusiveSortedList

variable {ι : Type*} [DecidableEq ι] (q : IntrusiveSortedList ι) (le : ι → ι → Prop)
    [DecidableRel le]

def init (ι : Type*) : IntrusiveSortedList ι := ⟨none, fun _ => none⟩

/-- The loop of `add`; `none` if it does not end within `fuel` turns. -/
def addLoop (newNode : ι) : ℕ → ι → Option (IntrusiveSortedList ι)
  | 0, _ => none
  | fuel + 1, node =>
    match q.next node with
    -- "reached the end, add"
    | none => some { q with next := Function.update q.next node (some newNode) }
    | some sibling =>
      if le newNode sibling then
        some { q with
          next := Function.update (Function.update q.next newNode (some sibling)) node
            (some newNode) }
      else addLoop newNode fuel sibling

def add (fuel : ℕ) (newNode : ι) : Option (IntrusiveSortedList ι) :=
  match q.head with
  | none => some { q with head := some newNode }
  | some head =>
    if le newNode head then some ⟨some newNode, Function.update q.next newNode (some head)⟩
    else q.addLoop le newNode fuel head

/-- The loop of `remove`. -/
def removeLoop (removeNode : ι) : ℕ → Option ι → Option (IntrusiveSortedList ι × Bool)
  | _, none => some (q, false)
  | 0, some _ => none
  | fuel + 1, some node =>
    if q.next node = some removeNode then
      some ({ q with
        next := Function.update (Function.update q.next node (q.next removeNode)) removeNode none },
          true)
    else removeLoop removeNode fuel (q.next node)

def remove (fuel : ℕ) : Option ι → Option (IntrusiveSortedList ι × Bool)
  | none => some (q, false)
  | some removeNode =>
    if q.head = some removeNode then
      some (⟨q.next removeNode, Function.update q.next removeNode none⟩, true)
    else q.removeLoop removeNode fuel q.head

def nodesFrom : ℕ → Option ι → Option (List ι)
  | _, none => some []
  | 0, some _ => none
  | fuel + 1, some node => (nodesFrom fuel (q.next node)).map (node :: ·)

def nodes (fuel : ℕ) : Option (List ι) := q.nodesFrom fuel q.head

/-- The pointers are those of the list. -/
structure Represents (q : IntrusiveSortedList ι) (l : List ι) : Prop where
  nodup : l.Nodup
  head : q.head = l.head?
  linked : Linked q.next l
  others : ∀ x ∉ l, q.next x = none

variable {q le} {l : List ι} {x : ι}

omit [DecidableEq ι] in
theorem represents_init : (init ι).Represents [] :=
  ⟨List.nodup_nil, rfl, trivial, fun _ _ => rfl⟩

omit [DecidableEq ι] in
theorem nodesFrom_linked {fuel : ℕ} (h : Linked q.next l) (hfuel : l.length ≤ fuel) :
    q.nodesFrom fuel l.head? = some l := by
  induction l generalizing fuel with
  | nil => cases fuel <;> rfl
  | cons a l ih =>
    obtain ⟨fuel, rfl⟩ := Nat.exists_eq_add_of_lt (Nat.lt_of_lt_of_le (Nat.succ_pos _) hfuel)
    rw [Nat.zero_add] at *
    rw [List.head?_cons, nodesFrom, h.1, ih h.2 (Nat.le_of_succ_le_succ hfuel)]
    rfl

omit [DecidableEq ι] in
theorem Represents.nodes {fuel : ℕ} (h : q.Represents l) (hfuel : l.length ≤ fuel) :
    q.nodes fuel = some l := by
  rw [IntrusiveSortedList.nodes, h.head]
  exact nodesFrom_linked h.linked hfuel

/-! ### Adding a node -/

omit [DecidableEq ι] in
theorem nodup_insert {pre post : List ι} (h : (pre ++ post).Nodup) (hx : x ∉ pre ++ post) :
    (pre ++ x :: post).Nodup :=
  List.nodup_middle.mpr (List.nodup_cons.mpr ⟨hx, h⟩)

omit [DecidableEq ι] in
theorem not_mem_insert {pre post : List ι} {y : ι} (hy : y ∉ pre ++ x :: post) :
    y ≠ x ∧ y ∉ pre ++ post := by
  rw [List.mem_append, List.mem_cons, not_or, not_or] at hy
  exact ⟨hy.2.1, fun hmem => (List.mem_append.mp hmem).elim hy.1 hy.2.2⟩

theorem Represents.addLoop {pre rest : List ι} {a : ι} {fuel : ℕ}
    (h : q.Represents (pre ++ a :: rest)) (hx : x ∉ pre ++ a :: rest) (hfuel : rest.length < fuel) :
    ∃ q', q.addLoop le x fuel a = some q' ∧
      q'.Represents (pre ++ a :: rest.orderedInsert le x) := by
  induction rest generalizing pre a fuel with
  | nil =>
    cases fuel with
    | zero => exact nomatch hfuel
    | succ fuel =>
      have hnext : q.next a = none := h.linked.suffix.1
      rw [IntrusiveSortedList.addLoop, hnext, List.orderedInsert_nil, List.append_cons]
      refine ⟨_, rfl, ?_, ?_, h.linked.concat h.nodup hx (h.others x hx), fun y hy => ?_⟩
      · exact nodup_insert ((List.append_nil (pre ++ [a])).symm ▸ h.nodup)
          ((List.append_nil (pre ++ [a])).symm ▸ hx)
      · refine h.head.trans ?_
        cases pre <;> rfl
      · obtain ⟨-, hy⟩ := not_mem_insert hy
        rw [List.append_nil] at hy
        have hya : y ≠ a := by
          rintro rfl
          exact hy (List.mem_append_right pre (List.mem_singleton_self y))
        exact (Function.update_of_ne hya _ _).trans (h.others y hy)
  | cons b rest ih =>
    cases fuel with
    | zero => exact nomatch hfuel
    | succ fuel =>
      have hnext : q.next a = some b := h.linked.suffix.1
      rw [IntrusiveSortedList.addLoop, hnext]
      dsimp only
      by_cases hle : le x b
      · rw [if_pos hle, List.orderedInsert_cons_of_le le _ hle]
        refine ⟨_, rfl, ?_, ?_, h.linked.insert h.nodup hx, fun y hy => ?_⟩
        · rw [List.append_cons] at h hx ⊢
          exact nodup_insert h.nodup hx
        · refine h.head.trans ?_
          cases pre <;> rfl
        · rw [List.append_cons] at hy
          obtain ⟨hyx, hy⟩ := not_mem_insert hy
          rw [← List.append_cons] at hy
          have hya : y ≠ a := by
            rintro rfl
            exact hy (List.mem_append_right pre List.mem_cons_self)
          exact (Function.update_of_ne hya _ _).trans
            ((Function.update_of_ne hyx _ _).trans (h.others y hy))
      · rw [if_neg hle, List.orderedInsert_of_not_le le _ hle, List.append_cons]
        rw [List.append_cons] at h hx
        exact ih h hx (Nat.lt_of_succ_lt_succ hfuel)

theorem Represents.add {fuel : ℕ} (h : q.Represents l) (hx : x ∉ l) (hfuel : l.length ≤ fuel) :
    ∃ q', q.add le fuel x = some q' ∧ q'.Represents (l.orderedInsert le x) := by
  rw [IntrusiveSortedList.add, h.head]
  cases l with
  | nil =>
    refine ⟨_, rfl, List.nodup_singleton x, rfl, ⟨h.others x hx, trivial⟩, fun y _ => ?_⟩
    exact h.others y List.not_mem_nil
  | cons a l =>
    rw [List.head?_cons]
    dsimp only
    by_cases hle : le x a
    · rw [if_pos hle, List.orderedInsert_cons_of_le le _ hle]
      refine ⟨_, rfl, List.nodup_cons.mpr ⟨hx, h.nodup⟩, rfl, ?_, fun y hy => ?_⟩
      · exact ⟨Function.update_self .., h.linked.update hx (some a)⟩
      · rw [List.mem_cons, not_or] at hy
        exact (Function.update_of_ne hy.1 _ _).trans (h.others y hy.2)
    · rw [if_neg hle, List.orderedInsert_of_not_le le _ hle]
      exact @Represents.addLoop ι _ q le _ x [] l a fuel h hx hfuel

/-! ### Removing a node -/

theorem Represents.skip {pre post : List ι} {a : ι} (h : q.Represents (pre ++ a :: x :: post)) :
    ({ q with next := Function.update (Function.update q.next a (q.next x)) x none } :
      IntrusiveSortedList ι).Represents (pre ++ a :: post) := by
  have hsub : (pre ++ a :: post).Sublist (pre ++ a :: x :: post) :=
    (List.Sublist.refl pre).append ((List.sublist_cons_self x post).cons_cons a)
  refine ⟨hsub.nodup h.nodup, h.head.trans ?_, h.linked.skip h.nodup, unlinked_skip h.others⟩
  cases pre <;> rfl

theorem Represents.removeLoop {pre rest : List ι} {fuel : ℕ} (h : q.Represents (pre ++ rest))
    (hpre : x ∉ pre) (hhead : rest.head? ≠ some x) (hfuel : rest.length ≤ fuel) :
    ∃ q', q.removeLoop x fuel rest.head? = some (q', decide (x ∈ rest)) ∧
      q'.Represents ((pre ++ rest).erase x) := by
  induction rest generalizing pre fuel with
  | nil =>
    rw [List.append_nil] at h ⊢
    rw [List.erase_of_not_mem hpre, decide_eq_false List.not_mem_nil]
    exact ⟨q, by cases fuel <;> rfl, h⟩
  | cons a rest ih =>
    cases fuel with
    | zero => exact nomatch hfuel
    | succ fuel =>
      have hne : a ≠ x := fun heq => hhead (congrArg some heq)
      have hnext : q.next a = rest.head? := h.linked.suffix.1
      have hpre' : x ∉ pre ++ [a] := by
        rw [List.mem_append, List.mem_singleton, not_or]
        exact ⟨hpre, hne.symm⟩
      rw [List.head?_cons, IntrusiveSortedList.removeLoop, hnext]
      by_cases hfound : rest.head? = some x
      · rw [if_pos hfound]
        obtain ⟨post, rfl⟩ := List.head?_eq_some_iff.mp hfound
        have herase : (pre ++ a :: x :: post).erase x = pre ++ a :: post := by
          rw [List.append_cons, List.erase_append_right _ hpre', List.erase_cons_head,
            ← List.append_cons]
        rw [herase, decide_eq_true (List.mem_cons_of_mem a List.mem_cons_self)]
        exact ⟨_, rfl, h.skip⟩
      · have hmem : x ∈ a :: rest ↔ x ∈ rest := by
          rw [List.mem_cons, or_iff_right hne.symm]
        rw [if_neg hfound, decide_eq_decide.mpr hmem]
        rw [List.append_cons] at h ⊢
        exact ih h hpre' hfound (Nat.le_of_succ_le_succ hfuel)

theorem Represents.remove {fuel : ℕ} (h : q.Represents l) (hfuel : l.length ≤ fuel) (x : ι) :
    ∃ q', q.remove fuel (some x) = some (q', decide (x ∈ l)) ∧ q'.Represents (l.erase x) := by
  rw [IntrusiveSortedList.remove]
  by_cases hhead : q.head = some x
  · rw [if_pos hhead]
    obtain ⟨l, rfl⟩ := List.head?_eq_some_iff.mp (h.head.symm.trans hhead)
    obtain ⟨hx, hnodup⟩ := List.nodup_cons.mp h.nodup
    rw [List.erase_cons_head, decide_eq_true List.mem_cons_self]
    exact ⟨_, rfl, hnodup, h.linked.1, h.linked.2.update hx none, unlinked_tail h.others⟩
  · rw [if_neg hhead, h.head]
    rw [h.head] at hhead
    exact @Represents.removeLoop ι _ q x [] l fuel h List.not_mem_nil hhead hfuel

/-! ### Runs -/

inductive Op (ι : Type*)
  | add (newNode : ι)
  | remove (removeNode : Option ι)

variable (le) in
def op (fuel : ℕ) (q : IntrusiveSortedList ι) : Op ι → Option (IntrusiveSortedList ι)
  | .add newNode => q.add le fuel newNode
  | .remove removeNode => (q.remove fuel removeNode).map (·.1)

variable (le) in
/-- Operations one after the other; `none` if a loop does not end. -/
def run (fuel : ℕ) (ops : List (Op ι)) : Option (IntrusiveSortedList ι) :=
  ops.foldl (fun q o => q.bind fun q => op le fuel q o) (some (init ι))

/-- A node was added and not removed since. -/
def Present (ops : List (Op ι)) (x : ι) : Prop :=
  ∃ pre post, ops = pre ++ .add x :: post ∧ Op.remove (some x) ∉ post

/-- A node is added at most once at a time. -/
def AddedOnce (ops : List (Op ι)) : Prop := ∀ pre x post, ops = pre ++ .add x :: post →
    ¬ Present pre x

omit [DecidableEq ι] in
theorem present_concat_add {ops : List (Op ι)} {a x : ι} :
    Present (ops ++ [.add a]) x ↔ x = a ∨ Present ops x := by
  constructor
  · rintro ⟨pre, post, heq, hnot⟩
    rcases post.eq_nil_or_concat' with rfl | ⟨post, o, rfl⟩
    · exact .inl (Op.add.inj (List.singleton_inj.mp (List.append_inj' heq rfl).2)).symm
    · rw [← List.cons_append, ← List.append_assoc] at heq
      obtain ⟨rfl, -⟩ := List.append_inj' heq rfl
      exact .inr ⟨pre, post, rfl, fun hmem => hnot (List.mem_append_left _ hmem)⟩
  · rintro (rfl | ⟨pre, post, rfl, hnot⟩)
    · exact ⟨ops, [], rfl, List.not_mem_nil⟩
    · refine ⟨pre, post ++ [.add a], List.append_assoc _ _ _, fun hmem => ?_⟩
      exact (List.mem_append.mp hmem).elim hnot fun hlast => by simp at hlast

omit [DecidableEq ι] in
theorem present_concat_remove {ops : List (Op ι)} {y : Option ι} {x : ι} :
    Present (ops ++ [.remove y]) x ↔ Present ops x ∧ y ≠ some x := by
  constructor
  · rintro ⟨pre, post, heq, hnot⟩
    rcases post.eq_nil_or_concat' with rfl | ⟨post, o, rfl⟩
    · exact absurd (List.singleton_inj.mp (List.append_inj' heq rfl).2) (by simp)
    · rw [← List.cons_append, ← List.append_assoc] at heq
      obtain ⟨rfl, hlast⟩ := List.append_inj' heq rfl
      refine ⟨⟨pre, post, rfl, fun hmem => hnot (List.mem_append_left _ hmem)⟩, ?_⟩
      rintro rfl
      exact hnot (List.mem_append_right _ (hlast ▸ List.mem_singleton_self _))
  · rintro ⟨⟨pre, post, rfl, hnot⟩, hy⟩
    refine ⟨pre, post ++ [.remove y], List.append_assoc _ _ _, fun hmem => ?_⟩
    refine (List.mem_append.mp hmem).elim hnot fun hlast => hy ?_
    exact (Op.remove.inj (List.mem_singleton.mp hlast)).symm

omit [DecidableEq ι] in
theorem AddedOnce.left {ops ops' : List (Op ι)} (h : AddedOnce (ops ++ ops')) : AddedOnce ops :=
  fun pre x post heq => h pre x (post ++ ops') (by rw [heq, List.append_assoc, List.cons_append])

theorem run_represents (htotal : ∀ a b, le a b ∨ le b a)
    (htrans : ∀ a b c, le a b → le b c → le a c)
    {fuel : ℕ} (ops : List (Op ι)) (honce : AddedOnce ops) (hfuel : ops.length ≤ fuel) :
    ∃ q l, run le fuel ops = some q ∧ q.Represents l ∧ l.Pairwise le ∧
      (∀ x, x ∈ l ↔ Present ops x) ∧
      l.length ≤ ops.length := by
  induction ops using List.reverseRecOn with
  | nil =>
    refine ⟨init ι, [], rfl, represents_init, List.Pairwise.nil, fun x => ?_, le_rfl⟩
    exact iff_of_false List.not_mem_nil fun hp => by simp [Present] at hp
  | append_singleton ops o ih =>
    rw [List.length_append, List.length_singleton] at hfuel ⊢
    obtain ⟨q, l, hrun, hq, hsorted, hmem, hlen⟩ := ih honce.left (by omega)
    have hstep : run le fuel (ops ++ [o]) = op le fuel q o := by
      rw [run] at hrun ⊢
      rw [List.foldl_append, hrun]
      rfl
    rw [hstep]
    cases o with
    | add x =>
      have hx : x ∉ l := fun hin => honce ops x [] rfl ((hmem x).mp hin)
      have hturns : l.length ≤ fuel := by omega
      obtain ⟨q', hadd, hq'⟩ : ∃ q', q.add le fuel x = some q' ∧
          q'.Represents (l.orderedInsert le x) :=
        hq.add hx hturns
      have : Std.Total le := ⟨htotal⟩
      have : IsTrans ι le := ⟨htrans⟩
      refine ⟨q', _, hadd, hq', hsorted.orderedInsert x l, fun y => ?_, ?_⟩
      · rw [List.mem_orderedInsert, present_concat_add, hmem]
      · rw [List.orderedInsert_length]
        omega
    | remove y =>
      cases y with
      | none =>
        refine ⟨q, l, rfl, hq, hsorted, fun x => ?_, hlen.trans (Nat.le_succ _)⟩
        rw [hmem, present_concat_remove]
        exact (and_iff_left (Option.some_ne_none x).symm).symm
      | some y =>
        have hturns : l.length ≤ fuel := by omega
        obtain ⟨q', hremove, hq'⟩ := hq.remove hturns y
        refine ⟨q', l.erase y, by rw [op, hremove]; rfl, hq', hsorted.sublist List.erase_sublist,
          fun x => ?_, (List.erase_sublist.length_le.trans hlen).trans (Nat.le_succ _)⟩
        rw [hq.nodup.mem_erase_iff, hmem, present_concat_remove, and_comm]
        exact and_congr_right fun _ => ⟨fun hne heq => hne (Option.some.inj heq).symm,
          fun hne heq => hne (congrArg some heq.symm)⟩

/-- What is in the list after any operations. -/
structure SortedList (le : ι → ι → Prop) [DecidableRel le] : Prop where
  sorted : (∀ a b, le a b ∨ le b a) → (∀ a b c, le a b → le b c → le a c) →
    ∀ (fuel : ℕ) (ops : List (Op ι)), AddedOnce ops → ops.length ≤ fuel →
    ∃ q l, run le fuel ops = some q ∧ q.nodes fuel = some l ∧ l.Pairwise le ∧ l.Nodup ∧
      (∀ x, x ∈ l ↔ Present ops x) ∧
      ∀ y, ∃ q' found, q.remove fuel y = some (q', found) ∧
        (found = true ↔ ∃ x, y = some x ∧ Present ops x)

/-- **The list** is sorted and holds the nodes that were added and not removed, once each; `remove`
reports whether the node was there. -/
theorem sortedList (le : ι → ι → Prop) [DecidableRel le] : SortedList le where
  sorted htotal htrans fuel ops honce hfuel := by
    obtain ⟨q, l, hrun, hq, hsorted, hmem, hlen⟩ := run_represents htotal htrans ops honce hfuel
    refine ⟨q, l, hrun, hq.nodes (hlen.trans hfuel), hsorted, hq.nodup, hmem, fun y => ?_⟩
    cases y with
    | none => exact ⟨q, false, rfl, iff_of_false Bool.false_ne_true (by simp)⟩
    | some y =>
      obtain ⟨q', hremove, -⟩ := hq.remove (hlen.trans hfuel) y
      refine ⟨q', _, hremove, ?_⟩
      rw [decide_eq_true_eq, hmem]
      constructor
      · exact fun hp => ⟨y, rfl, hp⟩
      · rintro ⟨x, heq, hp⟩
        exact Option.some.inj heq ▸ hp

/-- A node that is removed comes back. -/
def sessions : List (Op ℕ) := [.add 3, .add 1, .remove (some 3), .add 2, .remove none, .add 3]

theorem sessions_sorted : ∃ q l, run (· ≤ ·) 6 sessions = some q ∧ q.nodes 6 = some l ∧
    l.Pairwise (· ≤ ·) ∧ l.Nodup ∧ ∀ x, x ∈ l ↔ Present sessions x := by
  have honce : AddedOnce sessions := by
    intro pre x post heq
    have hx : sessions[pre.length]? = some (.add x) := by rw [heq]; simp
    rw [show pre = sessions.take pre.length by rw [heq, List.take_left]]
    generalize pre.length = k at hx
    rcases k with _ | _ | _ | _ | _ | _ | k <;> simp [sessions] at hx <;>
      simp [sessions, Present, List.cons_eq_append_iff, ← hx]
  obtain ⟨q, l, hrun, hnodes, hsorted, hnodup, hmem, -⟩ := (sortedList (· ≤ ·)).sorted
    Nat.le_total (fun _ _ _ => Nat.le_trans) 6 sessions honce (by decide)
  exact ⟨q, l, hrun, hnodes, hsorted, hnodup, hmem⟩

end IntrusiveSortedList
