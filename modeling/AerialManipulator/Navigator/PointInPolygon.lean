/-
A point in a polygon of the fence.

`insidePolygon` reads the vertices of each edge again and counts the edges that a ray from the point
crosses.  With the vertices of the polygon in a list, the result is its crossing number.

* `Stored` — the vertices of a polygon can be read, and have frames that are supported;
* `insidePolygon_eq` — the loop counts each edge once;
* **`pointInPolygon`** — the same from every vertex and in either direction; a polygon that is cut
  in two; and the points inside and outside of a convex polygon.
-/
import AerialManipulator.Navigator.Geofence
import AerialManipulator.Lib.Polygon

open WithNaN

namespace Geofence

section

variable {K : Type*} [Field K] [LinearOrder K]

/-- The latitude and the longitude of each vertex of a polygon. -/
structure Stored (read : ℕ → Option (FencePoint K)) (polygon : PolygonInfo K) (vs : List (K × K)) :
    Prop where
  count : vertexCount polygon.extent = vs.length
  vertex : ∀ i v, vs[i]? = some v → ∃ point, read (polygon.dataman_index + i) = some point ∧
    frameSupported point.frame = true ∧ point.lat = num v.1 ∧ point.lon = num v.2

theorem crosses_num {i j : FencePoint K} {a b p : K × K} (hi : i.lat = num a.1 ∧ i.lon = num a.2)
    (hj : j.lat = num b.1 ∧ j.lon = num b.2) :
    crosses i j (num p.1) (num p.2) = Polygon.crosses p a b := by
  obtain ⟨hi₁, hi₂⟩ := hi
  obtain ⟨hj₁, hj₂⟩ := hj
  have hsides : (decide (num p.2 ≤ i.lon) != decide (num p.2 ≤ j.lon)) =
      Polygon.straddles p a b := by
    rw [hi₂, hj₂]
    rfl
  rw [crosses, hsides, Polygon.crosses]
  cases hcross : Polygon.straddles p a b with
  | false => rfl
  | true =>
    rw [Bool.true_and, Bool.true_and, hi₁, hi₂, hj₁, hj₂, num_sub, num_sub, num_sub, num_mul,
      num_div_of_ne (Polygon.straddles_ne hcross), num_add]
    rfl

theorem polygonLoop_eq {read : ℕ → Option (FencePoint K)} {polygon : PolygonInfo K}
    {vs : List (K × K)} (h : Stored read polygon vs) (p : K × K) {n i j : ℕ} {v : K × K}
    (hn : n + i = vs.length) (hj : vs[j]? = some v) (c : Bool) :
    polygonLoop read polygon.dataman_index (num p.1) (num p.2) n i j c =
      (c ^^ Polygon.path (Polygon.crosses p) (v :: vs.drop i)) := by
  induction n generalizing i j v c with
  | zero =>
    rw [List.drop_eq_nil_of_le (by omega), Polygon.path, Bool.xor_false, polygonLoop]
  | succ n ih =>
    have hi : i < vs.length := by omega
    obtain ⟨w, hw⟩ : ∃ w, vs[i]? = some w := ⟨_, List.getElem?_eq_getElem hi⟩
    obtain ⟨vertex_i, hread, hframe, hlat, hlon⟩ := h.vertex i w hw
    obtain ⟨vertex_j, hread', -, hlat', hlon'⟩ := h.vertex j v hj
    have hdrop : vs.drop i = w :: vs.drop (i + 1) := by
      rw [List.drop_eq_getElem_cons hi, (List.getElem?_eq_some_iff.mp hw).2]
    rw [polygonLoop, hread, hread']
    dsimp only
    rw [if_pos hframe, ih (by omega) hw, hdrop, Polygon.path,
      crosses_num ⟨hlat, hlon⟩ ⟨hlat', hlon'⟩, Polygon.crosses_comm p w v, ← Bool.xor_assoc]
    cases Polygon.crosses p v w with
    | false => rw [if_neg Bool.false_ne_true, Bool.xor_false]
    | true => rw [if_pos rfl, Bool.xor_true]

/-- **The loop counts the crossings.** -/
theorem insidePolygon_eq {read : ℕ → Option (FencePoint K)} {polygon : PolygonInfo K}
    {vs : List (K × K)} (h : Stored read polygon vs) (p : K × K) :
    insidePolygon read polygon (num p.1) (num p.2) = Polygon.crossing p vs := by
  rw [insidePolygon, h.count]
  rcases List.eq_nil_or_concat' vs with rfl | ⟨l, z, rfl⟩
  · rfl
  · have hlast : (l ++ [z])[(l ++ [z]).length - 1]? = some z := by
      rw [← List.getLast?_eq_getElem?, List.getLast?_concat]
    rw [polygonLoop_eq h p (Nat.add_zero _) hlast, Bool.false_xor, Polygon.crossing,
      Polygon.parity_rotate]
    rfl

end

/-- What is required of the test of a point. -/
structure PointInPolygon : Prop where
  /-- The vertices may begin anywhere, -/
  rotate : ∀ (read read' : ℕ → Option (FencePoint ℝ)) (polygon polygon' : PolygonInfo ℝ)
    (vs : List (ℝ × ℝ)) (n : ℕ) (p : ℝ × ℝ), Stored read polygon vs →
      Stored read' polygon' (vs.rotate n) →
      insidePolygon read' polygon' (num p.1) (num p.2) = insidePolygon read polygon (num p.1)
        (num p.2)
  /-- and go in either direction. -/
  reverse : ∀ (read read' : ℕ → Option (FencePoint ℝ)) (polygon polygon' : PolygonInfo ℝ)
    (vs : List (ℝ × ℝ)) (p : ℝ × ℝ), Stored read polygon vs → Stored read' polygon' vs.reverse →
      insidePolygon read' polygon' (num p.1) (num p.2) = insidePolygon read polygon (num p.1)
        (num p.2)
  /-- A polygon is cut along the line from `a` to `b`. -/
  cut : ∀ (read read₁ read₂ : ℕ → Option (FencePoint ℝ)) (polygon polygon₁ polygon₂ : PolygonInfo ℝ)
    (l₁ l₂ l₃ : List (ℝ × ℝ)) (a b p : ℝ × ℝ), Stored read polygon (l₁ ++ a :: (l₂ ++ b :: l₃)) →
      Stored read₁ polygon₁ (a :: (l₂ ++ [b])) → Stored read₂ polygon₂ (l₁ ++ a :: b :: l₃) →
        insidePolygon read polygon (num p.1) (num p.2) =
          (insidePolygon read₁ polygon₁ (num p.1) (num p.2) ^^
            insidePolygon read₂ polygon₂ (num p.1) (num p.2))
  inside : ∀ (read : ℕ → Option (FencePoint ℝ)) (polygon : PolygonInfo ℝ) (vs : List (ℝ × ℝ))
    (p : ℝ × ℝ),
    Stored read polygon vs → Polygon.IsConvex vs → p ∈ interior (convexHull ℝ {v | v ∈ vs}) →
      insidePolygon read polygon (num p.1) (num p.2) = true
  /-- This holds of every polygon. -/
  outside : ∀ (read : ℕ → Option (FencePoint ℝ)) (polygon : PolygonInfo ℝ) (vs : List (ℝ × ℝ))
    (p : ℝ × ℝ), Stored read polygon vs → p ∉ convexHull ℝ {v | v ∈ vs} →
      insidePolygon read polygon (num p.1) (num p.2) = false

/-- **A point in a polygon.** -/
theorem pointInPolygon : PointInPolygon where
  rotate read read' polygon polygon' vs n p h h' := by
    rw [insidePolygon_eq h, insidePolygon_eq h', List.rotate_eq_drop_append_take_mod,
      Polygon.crossing, Polygon.parity_rotate, List.take_append_drop]
    rfl
  reverse read read' polygon polygon' vs p h h' := by
    rw [insidePolygon_eq h, insidePolygon_eq h']
    exact Polygon.parity_reverse (Polygon.crosses_comm p) vs
  cut read read₁ read₂ polygon polygon₁ polygon₂ l₁ l₂ l₃ a b p h h₁ h₂ := by
    rw [insidePolygon_eq h, insidePolygon_eq h₁, insidePolygon_eq h₂]
    exact Polygon.parity_cut (Polygon.crosses_comm p) l₁ l₂ l₃ a b
  inside read polygon vs p h hconvex hp := by
    rw [insidePolygon_eq h]
    exact Polygon.crossing_inside hconvex hp
  outside read polygon vs p h hp := by
    rw [insidePolygon_eq h]
    exact Polygon.crossing_outside hp

section

variable {K : Type*}

/-- A polygon that is stored from the first point on. -/
def pointsOf (vs : List (K × K)) (index : ℕ) : Option (FencePoint K) :=
  vs[index]?.map fun v =>
    ⟨num v.1, num v.2, .vertices (.ofNat vs.length), .NAV_FENCE_POLYGON_VERTEX_INCLUSION, .GLOBAL⟩

def polygonOf (vs : List (K × K)) : PolygonInfo K :=
  ⟨.NAV_FENCE_POLYGON_VERTEX_INCLUSION, 0, .vertices (.ofNat vs.length)⟩

theorem stored_points {vs : List (K × K)} (h : vs.length < 2 ^ 16) :
    Stored (pointsOf vs) (polygonOf vs) vs where
  count := Nat.mod_eq_of_lt h
  vertex i v hv := ⟨_, by rw [polygonOf, Nat.zero_add, pointsOf, hv]; rfl, rfl, rfl, rfl⟩

def insideOf [Field K] [LinearOrder K] (vs : List (K × K)) (p : K × K) : Bool :=
  insidePolygon (pointsOf vs) (polygonOf vs) (num p.1) (num p.2)

end

/-- A square that begins at its other end is cut in two. -/
theorem square_cut : insideOf [(2, 2), (0, 2), (0, 0), (2, 0)] (1, (1 / 2 : ℝ)) =
    (insideOf [(0, 0), (2, 0), (2, 2)] (1, (1 / 2 : ℝ)) ^^
      insideOf [(0, 0), (2, 2), (0, 2)] (1, (1 / 2 : ℝ))) :=
  (pointInPolygon.rotate _ _ _ _ [(0, 0), (2, 0), (2, 2), (0, 2)] 2 _
    (stored_points (by decide)) (stored_points (by decide))).trans
    (pointInPolygon.cut _ _ _ _ _ _ [] [(2, 0)] [(0, 2)] (0, 0) (2, 2) (1, 1 / 2)
      (stored_points (by decide)) (stored_points (by decide)) (stored_points (by decide)))

end Geofence
