/-
Crossing numbers of polygons.

A polygon is the list of its vertices, with an edge from each vertex to the next one, and from the
last one to the first.  From a point, a ray goes along the first coordinate, and the edges it
crosses are counted modulo two; an edge contains its end with the smaller second coordinate only.

* `parity_rotate`, `parity_reverse`, `parity_cut` — for every relation of two vertices;
* **`crossing_outside`** — a point outside of the convex hull has crossed an even number of edges;
* **`crossing_inside`** — inside of a convex polygon the number is odd.
-/
import Mathlib

open scoped List

namespace Polygon

/-! ### Counting along the edges -/

section Edges

variable {V : Type*}

/-- How often a relation holds between neighbours, modulo two. -/
def path (f : V → V → Bool) : List V → Bool
  | [] => false
  | [_] => false
  | a :: b :: l => f a b ^^ path f (b :: l)

def closed : List V → List V
  | [] => []
  | a :: l => a :: (l ++ [a])

def parity (f : V → V → Bool) (vs : List V) : Bool := path f (closed vs)

variable {f g : V → V → Bool}

theorem path_append (l₁ : List V) (a : V) (l₂ : List V) :
    path f (l₁ ++ a :: l₂) = (path f (l₁ ++ [a]) ^^ path f (a :: l₂)) := by
  induction l₁ with
  | nil => exact (Bool.false_xor _).symm
  | cons b l₁ ih =>
    cases l₁ with
    | nil => exact congrArg (· ^^ path f (a :: l₂)) (Bool.xor_false _).symm
    | cons c l₁ =>
      rw [List.cons_append, List.cons_append, path, ← List.cons_append, ih, ← Bool.xor_assoc]
      rfl

theorem parity_rotate (l₁ l₂ : List V) : parity f (l₁ ++ l₂) = parity f (l₂ ++ l₁) := by
  cases l₁ with
  | nil => rw [List.nil_append, List.append_nil]
  | cons a l₁ =>
    cases l₂ with
    | nil => rw [List.nil_append, List.append_nil]
    | cons b l₂ =>
      have hleft : parity f (a :: l₁ ++ b :: l₂) =
          (path f (a :: l₁ ++ [b]) ^^ path f (b :: l₂ ++ [a])) := by
        rw [parity, List.cons_append, closed, List.append_assoc, List.cons_append, List.cons_append]
        exact path_append (a :: l₁) b (l₂ ++ [a])
      have hright : parity f (b :: l₂ ++ a :: l₁) =
          (path f (b :: l₂ ++ [a]) ^^ path f (a :: l₁ ++ [b])) := by
        rw [parity, List.cons_append, closed, List.append_assoc, List.cons_append, List.cons_append]
        exact path_append (b :: l₂) a (l₁ ++ [b])
      rw [hleft, hright, Bool.xor_comm]

theorem path_reverse (hsymm : ∀ a b, f a b = f b a) (l : List V) : path f l.reverse = path f l := by
  induction l with
  | nil => rfl
  | cons a l ih =>
    cases l with
    | nil => rfl
    | cons b l =>
      rw [List.reverse_cons] at ih
      rw [List.reverse_cons, List.reverse_cons, List.append_assoc, List.singleton_append,
        path_append, ih, path, path, path, Bool.xor_false, Bool.xor_comm, hsymm]

theorem parity_reverse (hsymm : ∀ a b, f a b = f b a) (vs : List V) :
    parity f vs.reverse = parity f vs := by
  cases vs with
  | nil => rfl
  | cons a l =>
    have hclosed : (closed (a :: l)).reverse = closed (a :: l.reverse) := by
      rw [closed, closed, List.reverse_cons, List.reverse_append, List.reverse_singleton,
        List.singleton_append, List.cons_append]
    rw [List.reverse_cons, parity_rotate, List.singleton_append, parity, ← hclosed,
      path_reverse hsymm, parity]

theorem parity_cut (hsymm : ∀ a b, f a b = f b a) (l₁ l₂ l₃ : List V) (a b : V) :
    parity f (l₁ ++ a :: (l₂ ++ b :: l₃)) =
      (parity f (a :: (l₂ ++ [b])) ^^ parity f (l₁ ++ a :: b :: l₃)) := by
  have hwhole : parity f (a :: (l₂ ++ b :: l₃) ++ l₁) =
      (path f (a :: l₂ ++ [b]) ^^ path f (b :: (l₃ ++ (l₁ ++ [a])))) := by
    rw [parity, List.cons_append, closed, List.append_assoc, List.append_assoc, List.cons_append]
    exact path_append (a :: l₂) b (l₃ ++ (l₁ ++ [a]))
  have hfirst : parity f (a :: (l₂ ++ [b])) = (path f (a :: l₂ ++ [b]) ^^ f b a) := by
    rw [parity, closed, List.append_assoc, List.singleton_append]
    refine (path_append (a :: l₂) b [a]).trans ?_
    rw [path, path, Bool.xor_false]
  have hsecond : parity f (a :: b :: l₃ ++ l₁) = (f a b ^^ path f (b :: (l₃ ++ (l₁ ++ [a])))) := by
    rw [parity, List.cons_append, List.cons_append, closed, List.cons_append, List.append_assoc,
      path]
  rw [parity_rotate, parity_rotate l₁, hwhole, hfirst, hsecond, hsymm b a, Bool.xor_assoc,
    ← Bool.xor_assoc (f a b), Bool.xor_self, Bool.false_xor]

theorem path_congr {l : List V} (h : ∀ a b, [a, b] <:+: l → f a b = g a b) :
    path f l = path g l := by
  induction l with
  | nil => rfl
  | cons a l ih =>
    cases l with
    | nil => rfl
    | cons b l =>
      have hfirst : [a, b] <:+: a :: b :: l := (List.prefix_append [a, b] l).isInfix
      rw [path, path, h a b hfirst,
        ih fun c d hcd => h c d (hcd.trans (List.suffix_cons a _).isInfix)]

theorem exists_of_path {l : List V} (h : path f l = true) : ∃ a ∈ l, ∃ b ∈ l, f a b = true := by
  induction l with
  | nil => exact nomatch h
  | cons a l ih =>
    cases l with
    | nil => exact nomatch h
    | cons b l =>
      rw [path] at h
      cases hab : f a b with
      | true => exact ⟨a, List.mem_cons_self, b, List.mem_cons_of_mem a List.mem_cons_self, hab⟩
      | false =>
        rw [hab, Bool.false_xor] at h
        obtain ⟨c, hc, d, hd, hcd⟩ := ih h
        exact ⟨c, List.mem_cons_of_mem a hc, d, List.mem_cons_of_mem a hd, hcd⟩

theorem mem_closed {vs : List V} {a : V} : a ∈ closed vs ↔ a ∈ vs := by
  cases vs with
  | nil => exact Iff.rfl
  | cons b l =>
    rw [closed, List.mem_cons, List.mem_append, List.mem_singleton, List.mem_cons]
    tauto

theorem path_sides (side : V → Bool) (a : V) (l : List V) (b : V) :
    path (fun a b => side a != side b) (a :: (l ++ [b])) = (side a != side b) := by
  induction l generalizing a with
  | nil => exact Bool.xor_false _
  | cons c l ih =>
    rw [List.cons_append, path, ih c]
    cases side a <;> cases side c <;> cases side b <;> rfl

theorem parity_sides (side : V → Bool) (vs : List V) :
    parity (fun a b => side a != side b) vs = false := by
  cases vs with
  | nil => rfl
  | cons a l => exact (path_sides side a l a).trans (bne_self_eq_false _)

variable {side : V → Bool}

def enters (side : V → Bool) (a b : V) : Bool := !side a && side b

theorem path_on_side {l₁ : List V} (h : ∀ a ∈ l₁, side a = true) (l : List V) :
    path (enters side) (l₁ ++ l) = path (enters side) l := by
  induction l₁ with
  | nil => rfl
  | cons a l₁ ih =>
    have htail := ih fun b hb => h b (List.mem_cons_of_mem a hb)
    rw [List.cons_append, ← htail]
    cases l₁ ++ l with
    | nil => rfl
    | cons b m => rw [path, enters, h a List.mem_cons_self, Bool.not_true, Bool.false_and,
      Bool.false_xor]

theorem path_off_side {l₁ : List V} (hne : l₁ ≠ []) (h : ∀ a ∈ l₁, side a = false) {c : V}
    (hc : side c = true) (l : List V) :
    path (enters side) (l₁ ++ c :: l) = !path (enters side) (c :: l) := by
  induction l₁ with
  | nil => exact absurd rfl hne
  | cons a l₁ ih =>
    have ha : side a = false := h a List.mem_cons_self
    cases l₁ with
    | nil => rw [List.singleton_append, path, enters, ha, hc, Bool.not_false, Bool.and_self,
      Bool.true_xor]
    | cons b l₁ =>
      have hb : side b = false := h b (List.mem_cons_of_mem a List.mem_cons_self)
      rw [← ih (List.cons_ne_nil b l₁) fun x hx => h x (List.mem_cons_of_mem a hx),
        List.cons_append,
        List.cons_append, path, enters, hb, Bool.and_false, Bool.false_xor, ← List.cons_append]

/-- A list as far as it stays on a side, then as far as it stays off, and the rest. -/
theorem exists_blocks (side : V → Bool) (vs : List V) : ∃ ts fs us, vs = ts ++ (fs ++ us) ∧
    (∀ a ∈ ts, side a = true) ∧ (∀ a ∈ fs, side a = false) ∧ (fs = [] → us = []) ∧
    ∀ c ∈ us.head?, side c = true := by
  refine ⟨vs.takeWhile side, (vs.dropWhile side).takeWhile (fun a => !side a),
    (vs.dropWhile side).dropWhile (fun a => !side a), ?_, fun a ha => List.mem_takeWhile_imp ha,
    fun a ha => ?_, fun hnil => ?_, fun c hc => ?_⟩
  · rw [List.takeWhile_append_dropWhile, List.takeWhile_append_dropWhile]
  · have hoff := List.mem_takeWhile_imp ha
    rwa [Bool.not_eq_true'] at hoff
  · cases hrest : vs.dropWhile side with
    | nil => rfl
    | cons b r =>
      have hb : ¬ side b = true := by
        have hhead := List.head?_dropWhile_not side vs
        rw [hrest] at hhead
        rw [hhead]
        exact Bool.false_ne_true
      rw [hrest, List.takeWhile_cons_of_pos
        (by rw [Bool.not_eq_true', ← Bool.not_eq_true]; exact hb)] at hnil
      exact absurd hnil (List.cons_ne_nil b _)
  · have hhead := List.head?_dropWhile_not (fun a => !side a) (vs.dropWhile side)
    rw [Option.mem_def.mp hc] at hhead
    have hside : (!side c) = false := hhead
    rwa [Bool.not_eq_false'] at hside

end Edges

/-! ### Orientations -/

section Plane

variable {K : Type*} [Field K]

/-- Which side of the line through `a` and `b` a point is on. -/
def orient (a b p : K × K) : K := (b.1 - a.1) * (p.2 - a.2) - (b.2 - a.2) * (p.1 - a.1)

theorem orient_rotate (a b c : K × K) : orient b c a = orient a b c := by
  simp only [orient]
  ring

theorem orient_same (a b : K × K) : orient a a b = 0 := by
  simp only [orient]
  ring

theorem orient_left (a b : K × K) : orient a b a = 0 := by
  simp only [orient]
  ring

theorem orient_right (a b : K × K) : orient a b b = 0 := by
  simp only [orient]
  ring

theorem orient_quad (a b c d : K × K) (x : K) :
    orient b c d * (a.2 - x) - orient a c d * (b.2 - x) + orient a b d * (c.2 - x) -
      orient a b c * (d.2 - x) = 0 := by
  simp only [orient]
  ring

theorem orient_on_line {a b d p : K × K} (h : orient a b d = 0) :
    (a.2 - d.2) * orient a b p = (a.2 - b.2) * orient a d p := by
  simp only [orient] at h ⊢
  linear_combination -(p.2 - a.2) * h

theorem orient_on_line' {a b c d p : K × K} (hb : orient a b d = 0) (hc : orient a c d = 0) :
    (a.2 - d.2) * orient b c p = (b.2 - c.2) * orient a d p := by
  simp only [orient] at hb hc ⊢
  linear_combination (p.2 - c.2) * hb - (p.2 - b.2) * hc

variable [LinearOrder K]

/-! ### Crossings -/

/-- Whether a point is on the far side of the line of the ray, or on the line. -/
def beyond (p v : K × K) : Bool := p.2 ≤ v.2

def straddles (p a b : K × K) : Bool := beyond p a != beyond p b

/-- The ray from `p` crosses the edge. -/
def crosses (p a b : K × K) : Bool :=
  straddles p a b && decide (p.1 ≤ (b.1 - a.1) * (p.2 - a.2) / (b.2 - a.2) + a.1)

def crossing (p : K × K) (vs : List (K × K)) : Bool := parity (crosses p) vs

omit [Field K] in
theorem straddles_comm (p a b : K × K) : straddles p a b = straddles p b a := by
  rw [straddles, straddles]
  cases beyond p a <;> cases beyond p b <;> rfl

omit [Field K] in
theorem straddles_cases {p a b : K × K} (h : straddles p a b = true) :
    (a.2 < p.2 ∧ p.2 ≤ b.2) ∨ (b.2 < p.2 ∧ p.2 ≤ a.2) := by
  rw [straddles, bne_iff_ne, ne_eq, beyond, beyond, decide_eq_decide] at h
  by_cases ha : p.2 ≤ a.2
  · exact .inr ⟨not_le.mp fun hb => h (iff_of_true ha hb), ha⟩
  · exact .inl ⟨not_le.mp ha, not_not.mp fun hb => h (iff_of_false ha hb)⟩

theorem straddles_ne {p a b : K × K} (h : straddles p a b = true) : b.2 - a.2 ≠ 0 := by
  intro heq
  have hsame : beyond p a = beyond p b := by
    rw [beyond, beyond, sub_eq_zero.mp heq]
  rw [straddles, hsame, bne_self_eq_false] at h
  exact Bool.false_ne_true h

theorem crosses_comm (p a b : K × K) : crosses p a b = crosses p b a := by
  rw [crosses, crosses, straddles_comm p b a]
  cases h : straddles p a b with
  | false => rfl
  | true =>
    have hba := straddles_ne h
    have hab : a.2 - b.2 ≠ 0 := by
      rw [← neg_sub]
      exact neg_ne_zero.mpr hba
    have hline : (b.1 - a.1) * (p.2 - a.2) / (b.2 - a.2) + a.1 =
        (a.1 - b.1) * (p.2 - b.2) / (a.2 - b.2) + b.1 := by
      field_simp
      ring
    rw [hline]

variable [IsStrictOrderedRing K]

theorem crosses_iff {p a b : K × K} (h : straddles p a b = true) :
    crosses p a b = true ↔ 0 ≤ (b.2 - a.2) * orient a b p := by
  have hne := straddles_ne h
  have hpos : 0 < (b.2 - a.2) ^ 2 := by positivity
  rw [crosses, h, Bool.true_and, decide_eq_true_eq, ← sub_nonneg]
  have hline : (b.1 - a.1) * (p.2 - a.2) / (b.2 - a.2) + a.1 - p.1 =
      (b.2 - a.2) * orient a b p / (b.2 - a.2) ^ 2 := by
    rw [orient]
    field_simp
    ring
  rw [hline, le_div_iff₀ hpos, zero_mul]

theorem exists_on_edge {p a b : K × K} (h : straddles p a b = true) :
    ∃ q ∈ segment K a b, q.2 = p.2 ∧ q.1 = (b.1 - a.1) * (p.2 - a.2) / (b.2 - a.2) + a.1 := by
  have hne := straddles_ne h
  have hbounds : 0 ≤ (p.2 - a.2) / (b.2 - a.2) ∧ (p.2 - a.2) / (b.2 - a.2) ≤ 1 := by
    rcases straddles_cases h with ⟨ha, hb⟩ | ⟨hb, ha⟩
    · have hpos : 0 < b.2 - a.2 := by linarith
      rw [div_le_one hpos]
      exact ⟨div_nonneg (by linarith) hpos.le, by linarith⟩
    · have hneg : b.2 - a.2 < 0 := by linarith
      rw [div_le_one_of_neg hneg]
      exact ⟨div_nonneg_of_nonpos (by linarith) hneg.le, by linarith⟩
  refine ⟨_, ⟨1 - (p.2 - a.2) / (b.2 - a.2), (p.2 - a.2) / (b.2 - a.2), sub_nonneg.mpr hbounds.2,
    hbounds.1, sub_add_cancel _ _, rfl⟩, ?_, ?_⟩
  · simp only [Prod.snd_add, Prod.smul_snd, smul_eq_mul]
    field_simp
    ring
  · simp only [Prod.fst_add, Prod.smul_fst, smul_eq_mul]
    field_simp
    ring

theorem mem_segment_of_between {p q r : K × K} (hq : q.2 = p.2) (hr : r.2 = p.2) (hqp : q.1 ≤ p.1)
    (hpr : p.1 ≤ r.1) : p ∈ segment K q r := by
  have hp : p = (p.1, p.2) := rfl
  have hsegment : p.1 ∈ segment K q.1 r.1 := by
    rw [segment_eq_Icc (hqp.trans hpr)]
    exact ⟨hqp, hpr⟩
  obtain ⟨s, t, hs, ht, hst, hcomb⟩ := hsegment
  refine ⟨s, t, hs, ht, hst, Prod.ext hcomb ?_⟩
  simp only [Prod.snd_add, Prod.smul_snd, smul_eq_mul]
  rw [hq, hr, ← add_mul, hst, one_mul]

/-- **A point with an odd number of crossings is in the convex hull.** -/
theorem crossing_outside {p : K × K} {vs : List (K × K)} (h : p ∉ convexHull K {v | v ∈ vs}) :
    crossing p vs = false := by
  have hhull : ∀ a ∈ vs, ∀ b ∈ vs, segment K a b ⊆ convexHull K {v | v ∈ vs} := fun a ha b hb =>
    (convex_convexHull K _).segment_subset (subset_convexHull K _ ha) (subset_convexHull K _ hb)
  rw [← Bool.not_eq_true]
  intro hodd
  obtain ⟨a, ha, b, hb, hab⟩ := exists_of_path hodd
  rw [mem_closed] at ha hb
  obtain ⟨hstraddles, hbelow⟩ := Bool.and_eq_true_iff.mp hab
  obtain ⟨r, hr, hr₂, hr₁⟩ := exists_on_edge hstraddles
  rw [decide_eq_true_eq, ← hr₁] at hbelow
  -- if all edges were crossed that the line meets, the number were even
  by_cases hall : ∀ a ∈ vs, ∀ b ∈ vs, straddles p a b = true → crosses p a b = true
  · have hsides : path (crosses p) (closed vs) = path (straddles p) (closed vs) := by
      refine path_congr fun c d hcd => ?_
      cases hcross : straddles p c d with
      | false => rw [crosses, hcross, Bool.false_and]
      | true =>
        have hc : c ∈ vs := mem_closed.mp (hcd.subset List.mem_cons_self)
        have hd : d ∈ vs := mem_closed.mp (hcd.subset (List.mem_cons_of_mem c List.mem_cons_self))
        exact hall c hc d hd hcross
    rw [crossing, parity, hsides] at hodd
    exact Bool.false_ne_true ((parity_sides (beyond p) vs).symm.trans hodd)
  · push Not at hall
    obtain ⟨c, hc, d, hd, hcross, habove⟩ := hall
    obtain ⟨q, hq, hq₂, hq₁⟩ := exists_on_edge hcross
    rw [crosses, hcross, Bool.true_and, ne_eq, decide_eq_true_eq, ← hq₁, not_le] at habove
    have hsegment : p ∈ segment K q r := mem_segment_of_between hq₂ hr₂ habove.le hbelow
    exact h ((convex_convexHull K _).segment_subset (hhull c hc d hd hq)
      (hhull a ha b hb hr) hsegment)

/-! ### Convex polygons -/

/-- Any three vertices, in their order, turn to the left. -/
def Turning (vs : List (K × K)) : Prop := ∀ a b c, [a, b, c] <+ vs → 0 ≤ orient a b c

/-- The vertices of a convex polygon, in either direction; some may be on an edge, or be equal. -/
def IsConvex (vs : List (K × K)) : Prop := Turning vs ∨ Turning vs.reverse

/-- A point that is inside of every half plane with all vertices. -/
def Inside (p : K × K) (vs : List (K × K)) : Prop :=
  ∀ a b, a ≠ b → (∀ v ∈ vs, 0 ≤ orient a b v) → 0 < orient a b p

omit [IsStrictOrderedRing K] in
theorem Turning.rotate {l₁ l₂ : List (K × K)} (h : Turning (l₁ ++ l₂)) : Turning (l₂ ++ l₁) := by
  intro a b c habc
  obtain ⟨m₂, m₁, hm, hm₂, hm₁⟩ := List.sublist_append_iff.mp habc
  have hsub : m₁ ++ m₂ <+ l₁ ++ l₂ := hm₁.append hm₂
  rcases m₂ with _ | ⟨x, _ | ⟨y, _ | ⟨z, m₂⟩⟩⟩
  · rw [List.nil_append] at hm
    rw [List.append_nil, ← hm] at hsub
    exact h a b c hsub
  · rw [List.singleton_append, List.cons.injEq] at hm
    obtain ⟨rfl, rfl⟩ := hm
    rw [← orient_rotate]
    exact h b c a hsub
  · rw [List.cons_append, List.singleton_append, List.cons.injEq, List.cons.injEq] at hm
    obtain ⟨rfl, rfl, rfl⟩ := hm
    rw [← orient_rotate, ← orient_rotate]
    exact h c a b hsub
  · rw [List.cons_append, List.cons_append, List.cons_append, List.cons.injEq, List.cons.injEq,
      List.cons.injEq] at hm
    obtain ⟨rfl, rfl, rfl, hm⟩ := hm
    obtain ⟨rfl, rfl⟩ := List.nil_eq_append_iff.mp hm
    exact h a b c hsub

omit [IsStrictOrderedRing K] in
theorem Turning.edge {vs : List (K × K)} (h : Turning vs) {a b : K × K}
    (hab : [a, b] <:+: closed vs) {v : K × K} (hv : v ∈ vs) : 0 ≤ orient a b v := by
  cases vs with
  | nil => exact nomatch hv
  | cons x l =>
    rw [closed, ← List.cons_append, List.infix_concat_iff] at hab
    rcases hab with ⟨m, hm⟩ | ⟨s, t, hst⟩
    · -- the edge from the last vertex to the first one
      have hsplit : m ++ [a] ++ [b] = x :: l ++ [x] := by
        rw [List.append_assoc, List.singleton_append, hm]
      obtain ⟨hlast, hb⟩ := List.append_inj' hsplit rfl
      rw [List.cons.injEq] at hb
      obtain ⟨rfl, -⟩ := hb
      cases m with
      | nil =>
        rw [List.nil_append, List.cons.injEq] at hlast
        rw [hlast.1, orient_same]
      | cons y m =>
        rw [List.cons_append, List.cons.injEq] at hlast
        obtain ⟨rfl, rfl⟩ := hlast
        rcases List.mem_cons.mp hv with rfl | hv
        · rw [orient_right]
        · rcases List.mem_append.mp hv with hv | hv
          · rw [← orient_rotate]
            refine h y v a (List.Sublist.cons_cons y ?_)
            exact (List.singleton_sublist.mpr hv).append (List.Sublist.refl [a])
          · rw [List.mem_singleton.mp hv, orient_left]
    · rw [← hst, List.append_assoc] at hv h
      rcases List.mem_append.mp hv with hv | hv
      · rw [orient_rotate v a b]
        refine h v a b ((List.singleton_sublist.mpr hv).append ?_)
        exact List.sublist_append_left [a, b] t
      · rcases List.mem_append.mp hv with hv | hv
        · rcases List.mem_cons.mp hv with rfl | hv
          · rw [orient_left]
          · rw [List.mem_singleton.mp hv, orient_right]
        · refine h a b v (List.Sublist.trans ?_ (List.sublist_append_right s _))
          exact (List.Sublist.refl [a, b]).append (List.singleton_sublist.mpr hv)

theorem flat {a b c d : K × K} {x : K} (habc : 0 ≤ orient a b c) (habd : 0 ≤ orient a b d)
    (hacd : 0 ≤ orient a c d) (hbcd : 0 ≤ orient b c d) (ha : x ≤ a.2) (hb : b.2 < x) (hc : x ≤ c.2)
    (hd : d.2 < x) : orient a b d = 0 ∧ orient a c d = 0 := by
  have hquad := orient_quad a b c d x
  have hsum : orient b c d - orient a c d + orient a b d - orient a b c = 0 := by
    simp only [orient]
    ring
  have h₁ : 0 ≤ orient b c d * (a.2 - x) := mul_nonneg hbcd (sub_nonneg.mpr ha)
  have h₂ : 0 ≤ orient a c d * (x - b.2) := mul_nonneg hacd (sub_nonneg.mpr hb.le)
  have h₃ : 0 ≤ orient a b d * (c.2 - x) := mul_nonneg habd (sub_nonneg.mpr hc)
  have h₄ : 0 ≤ orient a b c * (x - d.2) := mul_nonneg habc (sub_nonneg.mpr hd.le)
  have hacd₀ : orient a c d = 0 := by
    have hzero : orient a c d * (x - b.2) = 0 := by linarith
    exact (mul_eq_zero.mp hzero).resolve_right (sub_pos.mpr hb).ne'
  have habc₀ : orient a b c = 0 := by
    have hzero : orient a b c * (x - d.2) = 0 := by linarith
    exact (mul_eq_zero.mp hzero).resolve_right (sub_pos.mpr hd).ne'
  exact ⟨by linarith, hacd₀⟩

theorem no_alternation {p a b b' c d : K × K} (hb : ∀ y ∈ [b, b'], orient a y d = 0)
    (hc : orient a c d = 0) (hda : d.2 < a.2) (hba : b.2 < a.2) (hbc : b'.2 < c.2)
    (hab : 0 < orient a b p) : orient b' c p < 0 := by
  have hline := orient_on_line (p := p) (hb b List.mem_cons_self)
  have hline' := orient_on_line' (p := p) (hb b' (List.mem_cons_of_mem b List.mem_cons_self)) hc
  have hpos : 0 < a.2 - d.2 := sub_pos.mpr hda
  have had : 0 < orient a d p := by
    have := hline ▸ mul_pos hpos hab
    exact (pos_iff_pos_of_mul_pos this).mp (sub_pos.mpr hba)
  have hneg : (a.2 - d.2) * orient b' c p < 0 := by
    rw [hline']
    exact mul_neg_of_neg_of_pos (sub_neg.mpr hbc) had
  exact neg_of_mul_neg_right hneg hpos.le

theorem Inside.exists_sides {p : K × K} {vs : List (K × K)} (h : Inside p vs) :
    (∃ v ∈ vs, beyond p v = true) ∧ ∃ v ∈ vs, beyond p v = false := by
  constructor
  · by_contra! hno
    have hne : ((1, p.2) : K × K) ≠ (0, p.2) := fun heq => one_ne_zero (congrArg Prod.fst heq)
    have hp := h _ _ hne fun v hv => ?_
    · simp [orient] at hp
    · have hv₂ : ¬ p.2 ≤ v.2 := fun hle => hno v hv (decide_eq_true hle)
      simp only [orient]
      linarith
  · by_contra! hno
    have hne : ((0, p.2) : K × K) ≠ (1, p.2) := fun heq => zero_ne_one (congrArg Prod.fst heq)
    have hp := h _ _ hne fun v hv => ?_
    · simp [orient] at hp
    · have hv₂ : p.2 ≤ v.2 := by
        by_contra hlt
        exact hno v hv (decide_eq_false hlt)
      simp only [orient]
      linarith

theorem crosses_of_turning {p : K × K} {vs : List (K × K)} (hturn : Turning vs) (hin : Inside p vs)
    {a b : K × K} (hab : [a, b] <:+: closed vs) : crosses p a b = enters (beyond p) a b := by
  cases hcross : straddles p a b with
  | false =>
    have hside : beyond p a = beyond p b := by
      rw [straddles] at hcross
      exact bne_eq_false_iff_eq.mp hcross
    rw [crosses, hcross, enters, hside, Bool.false_and, Bool.not_and_self]
  | true =>
    have hne : a ≠ b := fun heq => straddles_ne hcross (by rw [heq, sub_self])
    have hpos : 0 < orient a b p := hin a b hne fun v hv => hturn.edge hab hv
    rw [Bool.eq_iff_iff, crosses_iff hcross, mul_nonneg_iff_of_pos_right hpos, enters, beyond,
      beyond]
    rcases straddles_cases hcross with ⟨ha, hb⟩ | ⟨hb, ha⟩
    · have hle : 0 ≤ b.2 - a.2 := by linarith
      simp [hle, hb, not_le.mpr ha]
    · have hlt : ¬ 0 ≤ b.2 - a.2 := by
        rw [not_le]
        linarith
      simp [hlt, ha]

theorem no_return {p : K × K} {ts fs us : List (K × K)} {c : K × K}
    (hturn : Turning (ts ++ (fs ++ c :: us))) (hin : Inside p (ts ++ (fs ++ c :: us)))
    (hts : ts ≠ [])
    (hfs : fs ≠ []) (hts_all : ∀ a ∈ ts, beyond p a = true) (hfs_all : ∀ a ∈ fs, beyond p a = false)
    (hc : beyond p c = true) : ∀ d ∈ us, beyond p d = true := by
  intro d hd
  by_contra hside
  have hd₂ : d.2 < p.2 := by
    rw [beyond, decide_eq_true_eq, not_le] at hside
    exact hside
  have hc₂ : p.2 ≤ c.2 := of_decide_eq_true hc
  -- the last vertex on the far side, and the first and the last one on the near side
  obtain ⟨ts', a, hts'⟩ := (List.eq_nil_or_concat' ts).resolve_left hts
  obtain ⟨b, fs', hfs'⟩ := List.exists_cons_of_ne_nil hfs
  obtain ⟨fs'', b', hfs''⟩ := (List.eq_nil_or_concat' fs).resolve_left hfs
  have ha : a ∈ ts := hts' ▸ List.mem_append_right ts' (List.mem_singleton.mpr rfl)
  have hb : b ∈ fs := hfs' ▸ List.mem_cons_self
  have hb' : b' ∈ fs := hfs'' ▸ List.mem_append_right fs'' (List.mem_singleton.mpr rfl)
  have ha₂ : p.2 ≤ a.2 := of_decide_eq_true (hts_all a ha)
  have hfs₂ : ∀ y ∈ fs, y.2 < p.2 := fun y hy => not_le.mp (of_decide_eq_false (hfs_all y hy))
  have hflat : ∀ y ∈ fs, orient a y d = 0 ∧ orient a c d = 0 := by
    intro y hy
    have hsub : [a, y, c, d] <+ ts ++ (fs ++ c :: us) :=
      (List.singleton_sublist.mpr ha).append ((List.singleton_sublist.mpr hy).append
        ((List.singleton_sublist.mpr hd).cons_cons c))
    have hthree : ∀ u v w, [u, v, w] <+ [a, y, c, d] → 0 ≤ orient u v w := fun u v w huvw =>
      hturn u v w (huvw.trans hsub)
    refine flat (hthree a y c ?_) (hthree a y d ?_) (hthree a c d ?_) (hthree y c d ?_) ha₂
      (hfs₂ y hy) hc₂ hd₂
    · exact List.sublist_append_left [a, y, c] [d]
    · exact ((List.sublist_cons_self c [d]).cons_cons y).cons_cons a
    · exact (List.sublist_cons_self y [c, d]).cons_cons a
    · exact List.sublist_cons_self a [y, c, d]
  have hleft : ∀ u v, u.2 ≠ v.2 → [u, v] <:+: ts ++ (fs ++ c :: us) → 0 < orient u v p := by
    intro u v hne huv
    refine hin u v (fun heq => hne (congrArg Prod.snd heq)) fun x hx => hturn.edge ?_ hx
    refine huv.trans ?_
    cases hvs : ts ++ (fs ++ c :: us) with
    | nil => exact List.infix_rfl
    | cons x l =>
      rw [closed, ← List.cons_append]
      exact (List.prefix_append _ _).isInfix
  have hab : 0 < orient a b p := by
    refine hleft a b ((hfs₂ b hb).trans_le ha₂).ne' ⟨ts', fs' ++ c :: us, ?_⟩
    rw [hts', hfs', List.append_assoc, List.append_assoc]
    rfl
  have hbc : 0 < orient b' c p := by
    refine hleft b' c ((hfs₂ b' hb').trans_le hc₂).ne ⟨ts ++ fs'', us, ?_⟩
    rw [hfs'', List.append_assoc, List.append_assoc, List.append_assoc]
    rfl
  have hline : ∀ y ∈ [b, b'], orient a y d = 0 := by
    intro y hy
    rcases List.mem_cons.mp hy with rfl | hy
    · exact (hflat y hb).1
    · rw [List.mem_singleton.mp hy]
      exact (hflat b' hb').1
  exact (no_alternation hline (hflat b hb).2 (hd₂.trans_le ha₂) ((hfs₂ b hb).trans_le ha₂)
    ((hfs₂ b' hb').trans_le hc₂) hab).not_gt hbc

/-- **Around a point inside, the number of crossings is odd.** -/
theorem crossing_turning {p : K × K} {vs : List (K × K)} (hturn : Turning vs) (hin : Inside p vs) :
    crossing p vs = true := by
  obtain ⟨⟨v, hv, hfar⟩, -⟩ := hin.exists_sides
  obtain ⟨l₁, l₂, rfl⟩ := List.append_of_mem hv
  -- the polygon from this vertex on
  have hturn' : Turning (v :: l₂ ++ l₁) := hturn.rotate
  have hin' : Inside p (v :: l₂ ++ l₁) := fun a b hne hall =>
    hin a b hne fun x hx => hall x (List.mem_append.mpr (List.mem_append.mp hx).symm)
  rw [crossing, parity_rotate, parity]
  rw [path_congr fun a b hab => crosses_of_turning hturn' hin' hab]
  obtain ⟨-, w, hw, hnear⟩ := hin'.exists_sides
  obtain ⟨ts, fs, us, heq, hts, hfs, hnil, hus⟩ := exists_blocks (beyond p) (v :: l₂ ++ l₁)
  have hfs_ne : fs ≠ [] := by
    intro hfs_nil
    rw [heq, hfs_nil, hnil hfs_nil, List.append_nil, List.append_nil] at hw
    rw [hts w hw] at hnear
    exact Bool.false_ne_true hnear.symm
  have hts_ne : ts ≠ [] := by
    intro hts_nil
    obtain ⟨b, fs', rfl⟩ := List.exists_cons_of_ne_nil hfs_ne
    rw [hts_nil, List.nil_append, List.cons_append, List.cons_append, List.cons.injEq] at heq
    rw [heq.1, hfs b List.mem_cons_self] at hfar
    exact Bool.false_ne_true hfar
  have hus_all : ∀ d ∈ us, beyond p d = true := by
    cases us with
    | nil => exact fun d hd => nomatch hd
    | cons c us =>
      have hc : beyond p c = true := hus c rfl
      rw [heq] at hturn' hin'
      exact List.forall_mem_cons.mpr ⟨hc, no_return hturn' hin' hts_ne hfs_ne hts hfs hc⟩
  have hclosed : closed (v :: l₂ ++ l₁) = ts ++ (fs ++ (us ++ [v])) := by
    rw [List.cons_append, closed, ← List.cons_append, ← List.cons_append, heq, List.append_assoc,
      List.append_assoc]
  rw [hclosed, path_on_side hts]
  have hlast : ∀ d ∈ us ++ [v], beyond p d = true :=
    List.forall_mem_append.mpr ⟨hus_all, List.forall_mem_singleton.mpr hfar⟩
  have hrest : path (enters (beyond p)) (us ++ [v]) = false := by
    have hall := path_on_side hlast []
    rwa [List.append_nil] at hall
  obtain ⟨c, r, hcr⟩ : ∃ c r, us ++ [v] = c :: r :=
    List.exists_cons_of_ne_nil (List.append_ne_nil_of_right_ne_nil us (List.cons_ne_nil v []))
  rw [hcr] at hlast hrest ⊢
  rw [path_off_side hfs_ne hfs (hlast c List.mem_cons_self), hrest, Bool.not_false]

end Plane

/-! ### The interior -/

theorem convex_orient (a b : ℝ × ℝ) : Convex ℝ {q | 0 ≤ orient a b q} := by
  intro x hx y hy s t hs ht hst
  have hsum : orient a b (s • x + t • y) = s * orient a b x + t * orient a b y := by
    simp only [orient, Prod.fst_add, Prod.snd_add, Prod.smul_fst, Prod.smul_snd, smul_eq_mul]
    rw [← sub_eq_iff_eq_add'.mpr hst.symm]
    ring
  rw [Set.mem_ofPred_eq, hsum]
  exact add_nonneg (mul_nonneg hs hx) (mul_nonneg ht hy)

theorem inside_of_interior {p : ℝ × ℝ} {vs : List (ℝ × ℝ)}
    (h : p ∈ interior (convexHull ℝ {v | v ∈ vs})) : Inside p vs := by
  intro a b hne hall
  have hhull : convexHull ℝ {v | v ∈ vs} ⊆ {q | 0 ≤ orient a b q} :=
    convexHull_min hall (convex_orient a b)
  -- a little away from the line through `a` and `b`
  have hcont : Continuous fun t : ℝ => (p.1 + t * (b.2 - a.2), p.2 - t * (b.1 - a.1)) := by
    fun_prop
  have hnear : ∀ᶠ t in nhdsWithin (0 : ℝ) (Set.Ioi 0),
      (p.1 + t * (b.2 - a.2), p.2 - t * (b.1 - a.1)) ∈ interior (convexHull ℝ {v | v ∈ vs}) := by
    refine (hcont.continuousAt.eventually_mem ?_).filter_mono nhdsWithin_le_nhds
    refine isOpen_interior.mem_nhds ?_
    simpa using h
  obtain ⟨t, ht, hpos⟩ := (hnear.and self_mem_nhdsWithin).exists
  have hline : 0 ≤ orient a b (p.1 + t * (b.2 - a.2), p.2 - t * (b.1 - a.1)) :=
    hhull (interior_subset ht)
  have hmove : orient a b (p.1 + t * (b.2 - a.2), p.2 - t * (b.1 - a.1)) =
      orient a b p - t * ((b.1 - a.1) ^ 2 + (b.2 - a.2) ^ 2) := by
    simp only [orient]
    ring
  have hlength : 0 < (b.1 - a.1) ^ 2 + (b.2 - a.2) ^ 2 := by
    by_contra hle
    have h₁ : b.1 - a.1 = 0 := by nlinarith [sq_nonneg (b.1 - a.1), sq_nonneg (b.2 - a.2)]
    have h₂ : b.2 - a.2 = 0 := by nlinarith [sq_nonneg (b.1 - a.1), sq_nonneg (b.2 - a.2)]
    exact hne (Prod.ext (sub_eq_zero.mp h₁).symm (sub_eq_zero.mp h₂).symm)
  have := mul_pos (Set.mem_Ioi.mp hpos) hlength
  linarith

/-- **Inside of a convex polygon the number of crossings is odd.** -/
theorem crossing_inside {p : ℝ × ℝ} {vs : List (ℝ × ℝ)} (hconvex : IsConvex vs)
    (h : p ∈ interior (convexHull ℝ {v | v ∈ vs})) : crossing p vs = true := by
  have hin := inside_of_interior h
  rcases hconvex with hturn | hturn
  · exact crossing_turning hturn hin
  · rw [crossing, ← parity_reverse (crosses_comm p)]
    exact crossing_turning hturn fun a b hne hall =>
      hin a b hne fun v hv => hall v (List.mem_reverse.mpr hv)

end Polygon
