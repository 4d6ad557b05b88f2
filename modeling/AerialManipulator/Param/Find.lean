/-
Finding parameters, by their name and among those that are in use.

`param_find_internal` halves the table between `front` and `last`, which is behind the table at the
start, and keeps the element that it has looked at; it stops when that is the first one.  A name
that is compared outside of the table is a null pointer, and `strcmp` crashes.

* `searchLoop_spec` — the loop finds what is between the two ends;
* `forUsedIndexLoop_eq`, `getUsedIndexLoop_eq` — positions in the list of the parameters in use;
* **`finds_and_indexes`** — in a table that is not empty every name is found that is there, and the
  indices of the parameters in use count them in the order of the table.
-/
import AerialManipulator.Param.Persistence

namespace Param

variable {F : Type}

namespace Table

/-! ### By name -/

/-- How the loop of `param_find_internal` ends; a crash is a comparison outside of the table. -/
inductive Search
  | crash
  | invalid
  | index (p : Handle)

variable (t : Table F) (name : Name)

/-- The loop of `param_find_internal`; `none` if it goes on. -/
def searchLoop : ℕ → Handle → Handle → Option Search
  | 0, _, _ => none
  | fuel + 1, front, last =>
    if front ≤ last then
      let middle := front + (last - front) / 2
      match t.paramName middle with
      | none => some .crash
      | some n =>
        match cmp (codes name) (codes n) with
        | .eq => some (.index middle)
        | .lt => if middle = front then some .invalid else searchLoop fuel front middle
        | .gt => if middle = front then some .invalid else searchLoop fuel middle last
    else some .invalid

def findInternal (fuel : ℕ) : Option Search := t.searchLoop name fuel 0 t.paramInfoCount

variable {t name} {front last fuel : ℕ}

theorem searchLoop_spec (hlt : front < last) (hbound : last ≤ t.paramInfoCount)
    (hbetween : ∀ p : ℕ, t.paramName p = some name → front ≤ p ∧ p < last)
    (hfuel : last - front ≤ fuel) :
    (∃ p, t.paramName p = some name ∧ t.searchLoop name fuel front last = some (.index p)) ∨
      ((∀ p, t.paramName p ≠ some name) ∧ t.searchLoop name fuel front last = some .invalid) := by
  induction fuel generalizing front last with
  | zero => exact absurd hfuel (by omega)
  | succ fuel ih =>
    rw [searchLoop, if_pos hlt.le]
    dsimp only
    obtain ⟨middle, hmiddle⟩ : ∃ middle : ℕ, middle = front + (last - front) / 2 := ⟨_, rfl⟩
    rw [← hmiddle]
    obtain ⟨n, hn⟩ : ∃ n, t.paramName middle = some n := by
      unfold Table.paramName
      rw [List.getElem?_eq_getElem (by unfold paramInfoCount at hbound; omega)]
      exact ⟨_, rfl⟩
    rw [hn]
    dsimp only
    cases hcmp : cmp (codes name) (codes n) with
    | eq =>
      obtain ⟨hle, hge⟩ := (cmpUsing_eq_eq _ _).mp hcmp
      have hcodes : codes n = codes name := by
        rcases lt_trichotomy (codes name) (codes n) with hlt | heq | hgt
        · exact absurd hlt hle
        · exact heq.symm
        · exact absurd hgt hge
      have hname : n = name :=
        List.map_injective_iff.mpr (fun _ _ h => UInt8.toNat_inj.mp h) hcodes
      exact .inl ⟨middle, hn.trans (congrArg some hname), rfl⟩
    | lt =>
      have hafter : ∀ p : ℕ, t.paramName p = some name → p < middle := fun p hp =>
        (codes_lt_iff hp hn).mp ((cmpUsing_eq_lt _ _).mp hcmp)
      by_cases hend : middle = front
      · refine .inr ⟨fun p hp => ?_, if_pos hend⟩
        have hp' := hafter p hp
        have hp'' := hbetween p hp
        omega
      · dsimp only
        rw [if_neg hend]
        exact ih (by omega) (by omega) (fun p hp => ⟨(hbetween p hp).1, hafter p hp⟩) (by omega)
    | gt =>
      have hbefore : ∀ p : ℕ, t.paramName p = some name → middle < p := fun p hp =>
        (codes_lt_iff hn hp).mp ((cmpUsing_eq_gt _ _).mp hcmp)
      by_cases hend : middle = front
      · refine .inr ⟨fun p hp => ?_, if_pos hend⟩
        have hp' := hbefore p hp
        have hp'' := hbetween p hp
        omega
      · dsimp only
        rw [if_neg hend]
        exact ih (by omega) hbound (fun p hp => ⟨(hbefore p hp).le, (hbetween p hp).2⟩) (by omega)

/-- Every name that is in the table is found where it is, the others are not found, and no name is
compared outside of the table. -/
structure Finds (t : Table F) (name : Name) : Prop where
  present : ∀ p, t.paramName p = some name →
    ∀ k, t.findInternal name (t.paramInfoCount + k) = some (.index p)
  absent : (∀ p, t.paramName p ≠ some name) →
    ∀ k, t.findInternal name (t.paramInfoCount + k) = some .invalid

theorem finds_of_ne_nil (ht : t.parameters ≠ []) (name : Name) : t.Finds name := by
  have hspec : ∀ k,
      (∃ p, t.paramName p = some name ∧
        t.findInternal name (t.paramInfoCount + k) = some (.index p)) ∨
      ((∀ p, t.paramName p ≠ some name) ∧
        t.findInternal name (t.paramInfoCount + k) = some .invalid) := fun k =>
    searchLoop_spec (List.length_pos_iff.mpr ht) le_rfl
      (fun p hp => ⟨Nat.zero_le p, paramName_lt hp⟩) (Nat.le_add_right _ _)
  constructor
  · intro p hp k
    obtain ⟨q, hq, hfind⟩ | ⟨habsent, -⟩ := hspec k
    · -- no name is there twice
      have hle : ¬ p < q := (codes_lt_iff hp hq).not.mp (lt_irrefl _)
      have hge : ¬ q < p := (codes_lt_iff hq hp).not.mp (lt_irrefl _)
      rw [hfind, le_antisymm (not_lt.mp hle) (not_lt.mp hge)]
    · exact absurd hp (habsent p)
  · intro habsent k
    obtain ⟨q, hq, -⟩ | ⟨-, hfind⟩ := hspec k
    · exact absurd hq (habsent q)
    · exact hfind

/-! ### Among those in use -/

section Used

variable (active : Handle → Bool)

def countUsed (t : Table F) (active : Handle → Bool) : ℕ :=
  (List.range t.paramInfoCount).countP active

/-- The loop of `param_for_used_index`, from some parameter on. -/
def forUsedIndexLoop (index : ℕ) : ℕ → List Handle → Option Handle
  | _, [] => none
  | used_count, i :: is =>
    if active i then
      if index = used_count then some i else forUsedIndexLoop index (used_count + 1) is
    else forUsedIndexLoop index used_count is

/-- `param_for_used_index`; `none` is `PARAM_INVALID`. -/
def forUsedIndex (t : Table F) (active : Handle → Bool) (index : ℕ) : Option Handle :=
  if index < t.paramInfoCount then forUsedIndexLoop active index 0 (List.range t.paramInfoCount)
  else none

/-- The loop of `param_get_used_index`, from some parameter on. -/
def getUsedIndexLoop (param : Handle) : ℕ → List Handle → Option ℕ
  | _, [] => none
  | used_count, i :: is =>
    if active i then
      if param = i then some used_count else getUsedIndexLoop param (used_count + 1) is
    else getUsedIndexLoop param used_count is

/-- `param_get_used_index`; `none` is `-1`. -/
def getUsedIndex (t : Table F) (active : Handle → Bool) (param : Handle) : Option ℕ :=
  if t.handleInRange param ∧ active param then
    getUsedIndexLoop active param 0 (List.range t.paramInfoCount)
  else none

variable {active}

theorem forUsedIndexLoop_eq (n used_count : ℕ) (is : List Handle) :
    forUsedIndexLoop active (used_count + n) used_count is = (is.filter active)[n]? := by
  induction is generalizing n used_count with
  | nil => rfl
  | cons i is ih =>
    rw [forUsedIndexLoop]
    cases hi : active i with
    | false => rw [if_neg Bool.false_ne_true, List.filter_cons_of_neg (by simp [hi]), ih]
    | true =>
      rw [if_pos rfl, List.filter_cons_of_pos hi]
      cases n with
      | zero => rw [if_pos (Nat.add_zero _)]; rfl
      | succ n =>
        rw [if_neg (by omega), List.getElem?_cons_succ, ← ih n (used_count + 1)]
        congr 1
        omega

theorem getUsedIndexLoop_eq (param : Handle) (used_count : ℕ) (is : List Handle) :
    getUsedIndexLoop active param used_count is =
      ((is.filter active).idxOf? param).map (used_count + ·) := by
  induction is generalizing used_count with
  | nil => rfl
  | cons i is ih =>
    rw [getUsedIndexLoop]
    cases hi : active i with
    | false => rw [if_neg Bool.false_ne_true, List.filter_cons_of_neg (by simp [hi]), ih]
    | true =>
      rw [if_pos rfl, List.filter_cons_of_pos hi, List.idxOf?_cons]
      by_cases heq : param = i
      · rw [if_pos heq, if_pos (beq_iff_eq.mpr heq.symm)]
        rfl
      · rw [if_neg heq, if_neg (fun h => heq (beq_iff_eq.mp h).symm), ih, Option.map_map]
        refine congrArg (fun f => Option.map f _) (funext fun n => ?_)
        exact (Nat.add_assoc used_count 1 n).trans (by rw [Nat.add_comm 1 n]; rfl)

def used (t : Table F) (active : Handle → Bool) : List Handle :=
  (List.range t.paramInfoCount).filter active

theorem mem_used {p : Handle} : p ∈ t.used active ↔ t.handleInRange p ∧ active p := by
  rw [used, List.mem_filter, List.mem_range]
  rfl

theorem countUsed_eq : t.countUsed active = (t.used active).length :=
  List.countP_eq_length_filter

theorem pairwise_used : (t.used active).Pairwise (· < ·) :=
  List.pairwise_lt_range.filter _

theorem forUsedIndex_eq (index : ℕ) : t.forUsedIndex active index = (t.used active)[index]? := by
  rw [forUsedIndex]
  split_ifs with hindex
  · have hloop : forUsedIndexLoop active (0 + index) 0 (List.range t.paramInfoCount) =
        (t.used active)[index]? := forUsedIndexLoop_eq index 0 _
    rwa [Nat.zero_add] at hloop
  · have hle : (t.used active).length ≤ t.paramInfoCount :=
      (List.length_filter_le _ _).trans (Nat.le_of_eq List.length_range)
    rw [List.getElem?_eq_none (by omega)]

theorem getUsedIndex_eq (param : Handle) :
    t.getUsedIndex active param = (t.used active).idxOf? param := by
  rw [getUsedIndex]
  split_ifs with hused
  · rw [getUsedIndexLoop_eq, used]
    simp
  · exact (List.idxOf?_eq_none_iff.mpr (fun hmem => hused (mem_used.mp hmem))).symm

/-- The indices of the parameters in use: which parameters have one, that they are all below the
number of parameters in use, that the two functions are inverse to each other, and that the indices
are in the order of the table. -/
structure Indexes (t : Table F) (active : Handle → Bool) : Prop where
  forUsed : ∀ index, (t.forUsedIndex active index).isSome ↔ index < t.countUsed active
  getUsed : ∀ p, (t.getUsedIndex active p).isSome ↔ t.handleInRange p ∧ active p
  inverse : ∀ index p, t.forUsedIndex active index = some p ↔ t.getUsedIndex active p = some index
  ordered : ∀ p q i j, t.getUsedIndex active p = some i → t.getUsedIndex active q = some j →
    (i < j ↔ p < q)

theorem getElem?_eq_some_iff_idxOf? {l : List Handle} (hl : l.Nodup) {index : ℕ} {p : Handle} :
    l[index]? = some p ↔ l.idxOf? p = some index := by
  rw [List.getElem?_eq_some_iff, List.idxOf?_eq_some_iff]
  constructor
  · rintro ⟨hindex, heq⟩
    refine ⟨hindex, heq, fun j hj hjp => ?_⟩
    have hsame := (hl.getElem_inj_iff).mp (hjp.trans heq.symm)
    omega
  · rintro ⟨hindex, heq, -⟩
    exact ⟨hindex, heq⟩

theorem indexes (t : Table F) (active : Handle → Bool) : t.Indexes active := by
  have hnodup : (t.used active).Nodup := pairwise_used.imp ne_of_lt
  have hinverse : ∀ index p,
      t.forUsedIndex active index = some p ↔ t.getUsedIndex active p = some index := by
    intro index p
    rw [forUsedIndex_eq, getUsedIndex_eq]
    exact getElem?_eq_some_iff_idxOf? hnodup
  refine ⟨fun index => ?_, fun p => ?_, hinverse, fun p q i j hp hq => ?_⟩
  · rw [forUsedIndex_eq, countUsed_eq, Option.isSome_iff_ne_none, ne_eq,
      List.getElem?_eq_none_iff, not_le]
  · rw [getUsedIndex_eq, List.isSome_idxOf?, mem_used]
  · rw [← hinverse, forUsedIndex_eq, List.getElem?_eq_some_iff] at hp hq
    obtain ⟨hi, rfl⟩ := hp
    obtain ⟨hj, rfl⟩ := hq
    have hmono := List.pairwise_iff_getElem.mp (pairwise_used : (t.used active).Pairwise (· < ·))
    constructor
    · exact fun hlt => hmono i j hi hj hlt
    · intro hlt
      by_contra hle
      rcases Nat.eq_or_lt_of_le (Nat.le_of_not_lt hle) with rfl | hgt
      · exact lt_irrefl _ hlt
      · exact lt_asymm hlt (hmono j i hj hi hgt)

end Used

/-- **Finding parameters**, in a table that is not empty. -/
theorem finds_and_indexes {t : Table F} (ht : t.parameters ≠ []) (name : Name)
    (active : Handle → Bool) : t.Finds name ∧ t.Indexes active :=
  ⟨finds_of_ne_nil ht name, indexes t active⟩

def three : Table Int where
  parameters := [⟨[65], .int32 0⟩, ⟨[65, 66], .int32 1⟩, ⟨[67], .float 2⟩]
  sorted := by
    simp only [SortedArray.Sorted, codes, List.pairwise_cons]
    decide

theorem finds_and_indexes_three : three.Finds [65, 66] ∧ three.Indexes (fun p => p ≠ 1) :=
  finds_and_indexes (List.cons_ne_nil _ _) [65, 66] _

/-- In a table without parameters the first comparison is already outside of it. -/
theorem not_finds_nil : ¬ (⟨[], List.Pairwise.nil⟩ : Table Int).Finds [65] := by
  intro h
  have habsent := h.absent (fun p hp => absurd hp (Option.some_ne_none _).symm) 1
  exact absurd (Option.some.inj habsent) (by rintro ⟨⟩)

end Table

end Param
