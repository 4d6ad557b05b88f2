/-
Arrays that are kept sorted by a key, as maps.

An array is a list; elements are found with the `bsearch` of the C library, added by appending
and sorting again, and overwritten and erased where they have been found.  As long as no key is
there twice, such an array is a map from keys to elements:

* `lookup_eq_some` — what is found is the element with that key;
* `lookup_insert`, `lookup_set`, `lookup_eraseIdx` — the operations do to the map what they
  should and leave the other keys alone;
* `Sorted.insert`, `Sorted.set`, `Sorted.eraseIdx` — the array stays sorted.
-/
import Mathlib.SetTheory.Ordinal.Veblen

namespace SortedArray

variable {α κ : Type*} [LinearOrder κ] {key : α → κ}

/-- The keys are in ascending order, and no key is there twice. -/
def Sorted (key : α → κ) (l : List α) : Prop := l.Pairwise fun a b => key a < key b

/-- `bsearch` between two positions; `fuel` is at least their distance. -/
def bsearchIn (key : α → κ) (k : κ) (l : List α) : ℕ → ℕ → ℕ → Option ℕ
  | 0, _, _ => none
  | fuel + 1, lo, hi =>
    if lo < hi then
      match l[(lo + hi) / 2]? with
      | none => none
      | some a =>
        match cmp k (key a) with
        | .lt => bsearchIn key k l fuel lo ((lo + hi) / 2)
        | .gt => bsearchIn key k l fuel ((lo + hi) / 2 + 1) hi
        | .eq => some ((lo + hi) / 2)
    else none

def bsearch (key : α → κ) (k : κ) (l : List α) : Option ℕ := bsearchIn key k l l.length 0 l.length

def lookup (key : α → κ) (k : κ) (l : List α) : Option α := (bsearch key k l).bind fun i => l[i]?

def insert (key : α → κ) (a : α) (l : List α) : List α :=
  (l ++ [a]).mergeSort fun x y => key x ≤ key y

/-! ### Searching -/

theorem bsearchIn_sound {k : κ} {l : List α} {fuel lo hi i : ℕ}
    (h : bsearchIn key k l fuel lo hi = some i) : ∃ a, l[i]? = some a ∧ key a = k := by
  induction fuel generalizing lo hi with
  | zero => exact absurd h (by simp [bsearchIn])
  | succ fuel ih =>
    rw [bsearchIn] at h
    by_cases hlt : lo < hi
    · rw [if_pos hlt] at h
      cases ha : l[(lo + hi) / 2]? with
      | none =>
        rw [ha] at h
        exact absurd h (Option.some_ne_none i).symm
      | some a =>
        rw [ha] at h
        dsimp only at h
        cases hcmp : cmp k (key a) with
        | lt =>
          rw [hcmp] at h
          exact ih h
        | gt =>
          rw [hcmp] at h
          exact ih h
        | eq =>
          rw [hcmp] at h
          obtain rfl := Option.some.inj h
          exact ⟨a, ha, (cmp_eq_eq_iff k (key a)).mp hcmp |>.symm⟩
    · rw [if_neg hlt] at h
      exact absurd h (Option.some_ne_none i).symm

theorem Sorted.lt_iff {l : List α} (hl : Sorted key l) {i j : ℕ} {a b : α} (ha : l[i]? = some a)
    (hb : l[j]? = some b) : key a < key b ↔ i < j := by
  obtain ⟨hi, rfl⟩ := List.getElem?_eq_some_iff.mp ha
  obtain ⟨hj, rfl⟩ := List.getElem?_eq_some_iff.mp hb
  have hlt := List.pairwise_iff_getElem.mp hl
  constructor
  · intro hkey
    by_contra hge
    rcases Nat.lt_or_eq_of_le (Nat.not_lt.mp hge) with hji | rfl
    · exact lt_asymm hkey (hlt j i hj hi hji)
    · exact lt_irrefl _ hkey
  · exact fun hij => hlt i j hi hj hij

theorem Sorted.unique {l : List α} (hl : Sorted key l) {i j : ℕ} {a b : α} (ha : l[i]? = some a)
    (hb : l[j]? = some b) (hkey : key a = key b) : i = j := by
  have hij : ¬ i < j := (hl.lt_iff ha hb).not.mp hkey.not_lt
  have hji : ¬ j < i := (hl.lt_iff hb ha).not.mp hkey.not_gt
  omega

theorem bsearchIn_complete {l : List α} (hl : Sorted key l) {fuel lo hi i : ℕ} {a : α}
    (ha : l[i]? = some a) (hlo : lo ≤ i) (hhi : i < hi) (hbound : hi ≤ l.length)
    (hfuel : hi - lo ≤ fuel) : bsearchIn key (key a) l fuel lo hi = some i := by
  induction fuel generalizing lo hi with
  | zero => exact absurd hfuel (by omega)
  | succ fuel ih =>
    have hmid : (lo + hi) / 2 < l.length := by omega
    have hget : l[(lo + hi) / 2]? = some l[(lo + hi) / 2] := List.getElem?_eq_getElem hmid
    rw [bsearchIn, if_pos (hlo.trans_lt hhi), hget]
    dsimp only
    cases hcmp : cmp (key a) (key l[(lo + hi) / 2]) with
    | lt =>
      have hbefore := (hl.lt_iff ha hget).mp ((cmp_eq_lt_iff _ _).mp hcmp)
      exact ih hlo hbefore (by omega) (by omega)
    | gt =>
      have hafter := (hl.lt_iff hget ha).mp ((cmp_eq_gt_iff _ _).mp hcmp)
      exact ih hafter hhi hbound (by omega)
    | eq => exact congrArg some (hl.unique ha hget ((cmp_eq_eq_iff _ _).mp hcmp)).symm

theorem bsearch_eq_some {l : List α} (hl : Sorted key l) {k : κ} {i : ℕ} :
    bsearch key k l = some i ↔ ∃ a, l[i]? = some a ∧ key a = k := by
  constructor
  · exact bsearchIn_sound
  · rintro ⟨a, ha, rfl⟩
    obtain ⟨hi, -⟩ := List.getElem?_eq_some_iff.mp ha
    exact bsearchIn_complete hl ha (Nat.zero_le i) hi le_rfl le_rfl

theorem lookup_eq_some {l : List α} (hl : Sorted key l) {k : κ} {a : α} :
    lookup key k l = some a ↔ a ∈ l ∧ key a = k := by
  rw [lookup, Option.bind_eq_some_iff]
  constructor
  · rintro ⟨i, hi, ha⟩
    obtain ⟨b, hb, hkey⟩ := (bsearch_eq_some hl).mp hi
    obtain rfl := Option.some.inj (ha.symm.trans hb)
    exact ⟨List.mem_of_getElem? ha, hkey⟩
  · rintro ⟨ha, hkey⟩
    obtain ⟨i, hi⟩ := List.getElem?_of_mem ha
    exact ⟨i, (bsearch_eq_some hl).mpr ⟨a, hi, hkey⟩, hi⟩

theorem lookup_eq_none {l : List α} (hl : Sorted key l) {k : κ} :
    lookup key k l = none ↔ ∀ a ∈ l, key a ≠ k := by
  rw [Option.eq_none_iff_forall_ne_some]
  refine forall_congr' fun a => ?_
  rw [ne_eq, lookup_eq_some hl, not_and]

theorem bsearch_eq_none {l : List α} (hl : Sorted key l) {k : κ} :
    bsearch key k l = none ↔ lookup key k l = none := by
  constructor
  · intro h
    rw [lookup, h]
    rfl
  · intro h
    rw [Option.eq_none_iff_forall_ne_some]
    intro i hi
    obtain ⟨a, ha, hkey⟩ := (bsearch_eq_some hl).mp hi
    exact (lookup_eq_none hl).mp h a (List.mem_of_getElem? ha) hkey

/-! ### Adding, overwriting, erasing -/

@[simp] theorem sorted_nil : Sorted key [] := List.Pairwise.nil

@[simp] theorem lookup_nil (k : κ) : lookup key k [] = none := rfl

theorem mem_insert {a b : α} {l : List α} : b ∈ insert key a l ↔ b = a ∨ b ∈ l := by
  rw [insert, (List.mergeSort_perm _ _).mem_iff, List.mem_append, List.mem_singleton, or_comm]

theorem Sorted.insert {l : List α} (hl : Sorted key l) {a : α}
    (hnew : lookup key (key a) l = none) : Sorted key (insert key a l) := by
  have hkeys : (l ++ [a]).Pairwise fun x y => key x ≠ key y := by
    rw [List.pairwise_append]
    refine ⟨hl.imp fun h => h.ne, List.pairwise_singleton _ _, ?_⟩
    rintro b hb c hc
    rw [List.mem_singleton.mp hc]
    exact (lookup_eq_none hl).mp hnew b hb
  have hne : (SortedArray.insert key a l).Pairwise fun x y => key x ≠ key y :=
    (List.Perm.pairwise_iff (fun h => h.symm) (List.mergeSort_perm _ _)).mpr hkeys
  have hle : (SortedArray.insert key a l).Pairwise fun x y => decide (key x ≤ key y) = true := by
    refine List.pairwise_mergeSort ?_ ?_ _
    · intro x y z hxy hyz
      exact decide_eq_true ((of_decide_eq_true hxy).trans (of_decide_eq_true hyz))
    · intro x y
      rw [Bool.or_eq_true, decide_eq_true_eq, decide_eq_true_eq]
      exact le_total _ _
  exact (hle.and hne).imp fun h => lt_of_le_of_ne (of_decide_eq_true h.1) h.2

theorem lookup_insert {l : List α} (hl : Sorted key l) {a : α}
    (hnew : lookup key (key a) l = none) (k : κ) :
    lookup key k (insert key a l) = if k = key a then some a else lookup key k l := by
  refine Option.ext fun b => ?_
  rw [lookup_eq_some (hl.insert hnew), mem_insert]
  split
  · next hk =>
    subst hk
    rw [Option.some.injEq]
    constructor
    · rintro ⟨rfl | hb, hkey⟩
      · rfl
      · exact absurd hkey ((lookup_eq_none hl).mp hnew b hb)
    · rintro rfl
      exact ⟨.inl rfl, rfl⟩
  · next hk =>
    rw [lookup_eq_some hl]
    constructor
    · rintro ⟨rfl | hb, hkey⟩
      · exact absurd hkey.symm hk
      · exact ⟨hb, hkey⟩
    · exact fun h => ⟨.inr h.1, h.2⟩

theorem Sorted.set {l : List α} (hl : Sorted key l) {i : ℕ} {a b : α} (ha : l[i]? = some a)
    (hkey : key b = key a) : Sorted key (l.set i b) := by
  have hmap : (l.set i b).map key = l.map key := by
    rw [List.map_set, hkey]
    refine List.ext_getElem? fun j => ?_
    rw [List.getElem?_set]
    split
    · next hij =>
      subst hij
      obtain ⟨hi, rfl⟩ := List.getElem?_eq_some_iff.mp ha
      rw [List.length_map, if_pos hi, List.getElem?_map, ha]
      rfl
    · rfl
  rw [Sorted, ← List.pairwise_map] at hl ⊢
  rw [hmap]
  exact hl

theorem lookup_set {l : List α} (hl : Sorted key l) {i : ℕ} {k₀ : κ} {b : α}
    (hi : bsearch key k₀ l = some i) (hkey : key b = k₀) (k : κ) :
    lookup key k (l.set i b) = if k = k₀ then some b else lookup key k l := by
  obtain ⟨a, ha, hka⟩ := (bsearch_eq_some hl).mp hi
  obtain ⟨hlt, -⟩ := List.getElem?_eq_some_iff.mp ha
  have hset := hl.set ha (hkey.trans hka.symm)
  have hat : (l.set i b)[i]? = some b := by rw [List.getElem?_set, if_pos rfl, if_pos hlt]
  refine Option.ext fun c => ?_
  rw [lookup_eq_some hset]
  split
  · next hk =>
    rw [Option.some.injEq]
    constructor
    · rintro ⟨hc, hkc⟩
      obtain ⟨j, hj⟩ := List.getElem?_of_mem hc
      obtain rfl := hset.unique hat hj (by rw [hkey, hkc, hk])
      exact Option.some.inj (hat.symm.trans hj)
    · rintro rfl
      exact ⟨List.mem_of_getElem? hat, hkey.trans hk.symm⟩
  · next hk =>
    rw [lookup_eq_some hl]
    refine and_congr_left fun hkc => ?_
    constructor
    · intro hc
      rcases List.mem_or_eq_of_mem_set hc with hc | rfl
      · exact hc
      · exact absurd (hkc.symm.trans hkey) hk
    · intro hc
      obtain ⟨j, hj⟩ := List.getElem?_of_mem hc
      refine List.mem_of_getElem? (i := j) ?_
      rw [List.getElem?_set, if_neg]
      · exact hj
      · rintro rfl
        obtain rfl := Option.some.inj (ha.symm.trans hj)
        exact hk (hkc.symm.trans hka)

theorem Sorted.eraseIdx {l : List α} (hl : Sorted key l) (i : ℕ) : Sorted key (l.eraseIdx i) :=
  hl.sublist (List.eraseIdx_sublist l i)

theorem lookup_eraseIdx {l : List α} (hl : Sorted key l) {i : ℕ} {k₀ : κ}
    (hi : bsearch key k₀ l = some i) (k : κ) :
    lookup key k (l.eraseIdx i) = if k = k₀ then none else lookup key k l := by
  obtain ⟨a, ha, hka⟩ := (bsearch_eq_some hl).mp hi
  refine Option.ext fun c => ?_
  rw [lookup_eq_some (hl.eraseIdx i), List.mem_eraseIdx_iff_getElem?]
  split
  · next hk =>
    refine iff_of_false ?_ (by simp)
    rintro ⟨⟨j, hne, hj⟩, hkc⟩
    exact hne (hl.unique hj ha (by rw [hkc, hka, hk]))
  · next hk =>
    rw [lookup_eq_some hl]
    refine and_congr_left fun hkc => ?_
    constructor
    · rintro ⟨j, -, hj⟩
      exact List.mem_of_getElem? hj
    · intro hc
      obtain ⟨j, hj⟩ := List.getElem?_of_mem hc
      refine ⟨j, ?_, hj⟩
      rintro rfl
      obtain rfl := Option.some.inj (ha.symm.trans hj)
      exact hk (hkc.symm.trans hka)

/-! ### Changing the elements but not the keys -/

section Change

variable {R : α → α → Prop} (hR : ∀ a b, R a b → key b = key a) {l l' : List α}
include hR

theorem Sorted.forall₂ (hl : Sorted key l) (h : List.Forall₂ R l l') : Sorted key l' := by
  have hkeys : l'.map key = l.map key := by
    induction h with
    | nil => rfl
    | cons hab _ ih =>
      rw [List.map_cons, List.map_cons, hR _ _ hab, ih (List.pairwise_cons.mp hl).2]
  unfold Sorted at hl ⊢
  rw [← List.pairwise_map (f := key) (R := (· < ·))] at hl ⊢
  rwa [hkeys]

theorem lookup_forall₂ (hl : Sorted key l) (h : List.Forall₂ R l l') (k : κ) :
    Option.Rel R (lookup key k l) (lookup key k l') := by
  have hl' := hl.forall₂ hR h
  obtain ⟨hlen, hget⟩ := List.forall₂_iff_get.mp h
  cases ha : lookup key k l with
  | none =>
    have hnone : lookup key k l' = none := by
      rw [lookup_eq_none hl] at ha
      rw [lookup_eq_none hl']
      intro b hb
      obtain ⟨i, hi, rfl⟩ := List.mem_iff_getElem.mp hb
      have hrel := hR _ _ (hget i (hlen ▸ hi) hi)
      exact ne_of_eq_of_ne hrel (ha _ (List.get_mem l _))
    rw [hnone]
    exact .none
  | some a =>
    obtain ⟨hmem, hk⟩ := (lookup_eq_some hl).mp ha
    obtain ⟨i, hi, rfl⟩ := List.mem_iff_getElem.mp hmem
    have hrel := hget i hi (hlen ▸ hi)
    have hb : lookup key k l' = some (l'.get ⟨i, hlen ▸ hi⟩) :=
      (lookup_eq_some hl').mpr ⟨List.get_mem l' _, (hR _ _ hrel).trans hk⟩
    rw [hb]
    exact .some hrel

end Change

end SortedArray
