/-
Decisions about the fence.

A point is outside when it is too far from home, too high above it, or when the areas of the fence
say so.  `checkAll` reports this only for the last one of more than `GF_COUNT` such points in a row.
The areas are looked at with the lock of the fence points.

* `Outside` — what a point outside is;
* `inside_iff` — the tests, one after the other, find exactly the points that are not outside;
* **`fenceDecision`** — for every sequence of checks.
-/
import AerialManipulator.Navigator.FenceAreas

open WithNaN Mission

namespace Geofence

/-! ### Points outside -/

section

variable {K : Type*} [Field K] [LinearOrder K]

def PolygonInfo.isInclusion (a : PolygonInfo K) : Bool :=
  a.fence_type = .NAV_FENCE_CIRCLE_INCLUSION || a.fence_type = .NAV_FENCE_POLYGON_VERTEX_INCLUSION

/-- The point is in the area; for a circle, with the reference of the projection. -/
def lies (geo : Geo K) (read : ℕ → Option (FencePoint K)) (reference : Option (Flt K × Flt K))
    (lat lon : Flt K) (a : PolygonInfo K) : Bool :=
  if a.isCircle then (insideCircle geo read a lat lon reference).2
  else insidePolygon read a lat lon

/-- The distance from home is limited, and it is too large. -/
def TooFar (e : Env K) (q : Query K) : Prop :=
  q.home.valid = true ∧ e.gf_max_hor_dist > num (FLT_EPSILON K) ∧
    (e.geo.get_distance_to_point_global_wgs84 q.lat q.lon q.altitude q.home.lat q.home.lon
      q.home.alt).1 > e.gf_max_hor_dist

def TooHigh (e : Env K) (q : Query K) : Prop :=
  q.home.valid = true ∧ e.gf_max_ver_dist > num (FLT_EPSILON K) ∧
    q.altitude - q.home.alt > e.gf_max_ver_dist

/-- The vertical band is configured, and the point is not in it. -/
def OutOfBand (g : State K) (q : Query K) : Prop :=
  g.altitude_max > g.altitude_min ∧ (q.altitude > g.altitude_max ∨ q.altitude < g.altitude_min)

def registered (e : Env K) : List (PolygonInfo K) := (areas e.store).getD []

/-- The point is in an area in which it should not be. -/
def Excluded (e : Env K) (g : State K) (q : Query K) : Prop :=
  ∃ a ∈ registered e, a.isInclusion = false ∧
    lies e.geo (readPoint e.store) g.projection_reference q.lat q.lon a = true

/-- The point should be in some area, and it is in none of them. -/
def NotIncluded (e : Env K) (g : State K) (q : Query K) : Prop :=
  (∃ a ∈ registered e, a.isInclusion = true) ∧ ∀ a ∈ registered e, a.isInclusion = true →
    lies e.geo (readPoint e.store) g.projection_reference q.lat q.lon a = false

/-- The point is outside. -/
def Outside (e : Env K) (g : State K) (q : Query K) : Prop :=
  TooFar e q ∨ TooHigh e q ∨
    registered e ≠ [] ∧ (OutOfBand g q ∨ Excluded e g q ∨ NotIncluded e g q)

/-! ### The tests find them -/

variable {e : Env K} {g : State K} {q : Query K}

theorem isCloser_iff : isCloserThanMaxDistToHome e q = true ↔ ¬ TooFar e q := by
  rw [isCloserThanMaxDistToHome, TooFar]
  by_cases hvalid : q.home.valid = true
  · by_cases hlimit : e.gf_max_hor_dist > num (FLT_EPSILON K)
    · simp [isHomeRequired, hvalid, hlimit]
    · simp [hlimit]
  · simp [hvalid]

theorem isBelow_iff : isBelowMaxAltitude e q = true ↔ ¬ TooHigh e q := by
  rw [isBelowMaxAltitude, TooHigh]
  by_cases hvalid : q.home.valid = true
  · by_cases hlimit : e.gf_max_ver_dist > num (FLT_EPSILON K)
    · simp [isHomeRequired, hvalid, hlimit]
    · simp [hlimit]
  · simp [hvalid]

theorem insideCircle_getD {geo : Geo K} {read : ℕ → Option (FencePoint K)} {a : PolygonInfo K}
    {lat lon : Flt K} {r r' : Option (Flt K × Flt K)} (h : r.getD (lat, lon) = r'.getD (lat, lon)) :
    (insideCircle geo read a lat lon r).2 = (insideCircle geo read a lat lon r').2 := by
  rw [insideCircle, insideCircle]
  cases read a.dataman_index with
  | none => rfl
  | some circle_point =>
    dsimp only
    split_ifs
    · rw [h]
    · rfl

theorem insideCircle_reference {geo : Geo K} {read : ℕ → Option (FencePoint K)} {a : PolygonInfo K}
    {lat lon : Flt K} {r : Option (Flt K × Flt K)} :
    (insideCircle geo read a lat lon r).1.getD (lat, lon) = r.getD (lat, lon) := by
  rw [insideCircle]
  cases read a.dataman_index with
  | none => rfl
  | some circle_point =>
    dsimp only
    split_ifs
    · rfl
    · rfl

theorem checkArea_eq {geo : Geo K} {read : ℕ → Option (FencePoint K)} {lat lon : Flt K}
    {r : Option (Flt K × Flt K)} {h : Horizontal K}
    (href : h.reference.getD (lat, lon) = r.getD (lat, lon)) (a : PolygonInfo K) :
    (checkArea geo read lat lon h a).reference.getD (lat, lon) = r.getD (lat, lon) ∧
      (checkArea geo read lat lon h a).outside_exclusion =
        (h.outside_exclusion && (a.isInclusion || !lies geo read r lat lon a)) ∧
      (checkArea geo read lat lon h a).inside_inclusion =
        (h.inside_inclusion || (a.isInclusion && lies geo read r lat lon a)) ∧
      (checkArea geo read lat lon h a).had_inclusion_areas =
        (h.had_inclusion_areas || a.isInclusion) := by
  have hcircle : (insideCircle geo read a lat lon h.reference).2 =
      (insideCircle geo read a lat lon r).2 := insideCircle_getD href
  have hreference : (insideCircle geo read a lat lon h.reference).1.getD (lat, lon) =
      r.getD (lat, lon) := insideCircle_reference.trans href
  rw [checkArea]
  split
  · next htype =>
    have hincl : a.isInclusion = true := by simp [PolygonInfo.isInclusion, htype]
    have hlies : lies geo read r lat lon a = (insideCircle geo read a lat lon r).2 := by
      simp [lies, PolygonInfo.isCircle, htype]
    dsimp only
    rw [hincl, hlies, hcircle]
    cases (insideCircle geo read a lat lon r).2 <;> simp [hreference]
  · next htype =>
    have hincl : a.isInclusion = false := by simp [PolygonInfo.isInclusion, htype]
    have hlies : lies geo read r lat lon a = (insideCircle geo read a lat lon r).2 := by
      simp [lies, PolygonInfo.isCircle, htype]
    dsimp only
    rw [hincl, hlies, hcircle]
    cases (insideCircle geo read a lat lon r).2 <;> simp [hreference]
  · next htype =>
    have hincl : a.isInclusion = true := by simp [PolygonInfo.isInclusion, htype]
    have hlies : lies geo read r lat lon a = insidePolygon read a lat lon := by
      simp [lies, PolygonInfo.isCircle, htype]
    rw [hincl, hlies]
    cases insidePolygon read a lat lon <;> simp [href]
  · next hci hce hpi =>
    have hincl : a.isInclusion = false := by
      simp [PolygonInfo.isInclusion, show ¬ a.fence_type = _ from hci,
        show ¬ a.fence_type = _ from hpi]
    have hlies : lies geo read r lat lon a = insidePolygon read a lat lon := by
      simp [lies, PolygonInfo.isCircle, show ¬ a.fence_type = _ from hci,
        show ¬ a.fence_type = _ from hce]
    rw [hincl, hlies]
    cases insidePolygon read a lat lon <;> simp [href]

/-- What counts of an area: whether the point should be in it, and whether it is. -/
def view (geo : Geo K) (read : ℕ → Option (FencePoint K)) (reference : Option (Flt K × Flt K))
    (lat lon : Flt K) (a : PolygonInfo K) : Bool × Bool :=
  (a.isInclusion, lies geo read reference lat lon a)

def verdict (views : List (Bool × Bool)) : Bool :=
  (!(views.any fun v => v.1) || views.any fun v => v.1 && v.2) && views.all fun v => v.1 || !v.2

theorem horizontal_verdict (geo : Geo K) (read : ℕ → Option (FencePoint K))
    (polygons : List (PolygonInfo K)) (r : Option (Flt K × Flt K)) (lat lon : Flt K) :
    ((!(horizontal geo read polygons r lat lon).had_inclusion_areas ||
      (horizontal geo read polygons r lat lon).inside_inclusion) &&
        (horizontal geo read polygons r lat lon).outside_exclusion) =
      verdict (polygons.map (view geo read r lat lon)) := by
  have hfold : ∀ h : Horizontal K, h.reference.getD (lat, lon) = r.getD (lat, lon) →
      (polygons.foldl (checkArea geo read lat lon) h).outside_exclusion =
          (h.outside_exclusion && polygons.all fun a =>
            a.isInclusion || !lies geo read r lat lon a) ∧
        (polygons.foldl (checkArea geo read lat lon) h).inside_inclusion =
          (h.inside_inclusion || polygons.any fun a => a.isInclusion && lies geo read r lat lon a) ∧
        (polygons.foldl (checkArea geo read lat lon) h).had_inclusion_areas =
          (h.had_inclusion_areas || polygons.any PolygonInfo.isInclusion) := by
    induction polygons with
    | nil => simp
    | cons a polygons ih =>
      intro h href
      obtain ⟨hreference, hout, hin, hhad⟩ := checkArea_eq href a
      obtain ⟨hout', hin', hhad'⟩ := ih _ hreference
      rw [List.foldl_cons, hout', hin', hhad', hout, hin, hhad, List.all_cons, List.any_cons,
        List.any_cons, Bool.and_assoc, Bool.or_assoc, Bool.or_assoc]
      exact ⟨rfl, rfl, rfl⟩
  obtain ⟨hout, hin, hhad⟩ := hfold ⟨r, true, false, false⟩ rfl
  rw [horizontal, hout, hin, hhad, verdict, List.any_map, List.any_map, List.all_map]
  rfl

/-- The areas of the state are those of the points that are stored. -/
structure Loaded (e : Env K) (g : State K) : Prop where
  polygons : g.polygons = registered e
  synced : Synced e g

theorem verdict_false_iff (e : Env K) (g : State K) (q : Query K) :
    verdict ((registered e).map
      (view e.geo (readPoint e.store) g.projection_reference q.lat q.lon)) = false ↔
        Excluded e g q ∨ NotIncluded e g q := by
  rw [verdict, Bool.and_eq_false_iff, Bool.or_eq_false_iff, Bool.not_eq_false', or_comm]
  refine or_congr ?_ (and_congr ?_ ?_)
  · rw [List.all_eq_false, Excluded]
    simp [view]
  · rw [List.any_eq_true]
    simp [view]
  · rw [List.any_eq_false]
    simp [view]

/-- **The tests find the points that are not outside.** -/
theorem inside_iff (hlocked : e.locked = false) (hload : Loaded e g) :
    Inside e g q ↔ ¬ Outside e g q := by
  rw [Inside, insideFence, Outside, not_or, not_or, ← isCloser_iff, ← isBelow_iff, ← and_assoc,
    ← Bool.and_eq_true_iff]
  cases htests : isCloserThanMaxDistToHome e q && isBelowMaxAltitude e q with
  | false => exact iff_of_false Bool.false_ne_true fun h => Bool.false_ne_true h.1
  | true =>
    rw [if_pos rfl, and_iff_right rfl, isInsidePolygonOrCircle, hlocked, if_neg Bool.false_ne_true,
      show refresh e.store g = g from hload.synced]
    dsimp only
    rw [hload.polygons]
    by_cases hempty : registered e = []
    · rw [if_pos (List.isEmpty_iff.mpr hempty)]
      exact iff_of_true rfl fun h => h.1 hempty
    · rw [if_neg (fun h => hempty (List.isEmpty_iff.mp h)), not_and, imp_iff_right hempty, not_or,
        OutOfBand]
      by_cases hband : g.altitude_max > g.altitude_min ∧
          (q.altitude > g.altitude_max ∨ q.altitude < g.altitude_min)
      · rw [if_pos hband]
        exact iff_of_false Bool.false_ne_true fun h => h.1 hband
      · rw [if_neg hband, and_iff_right hband, ← verdict_false_iff, Bool.not_eq_false]
        dsimp only
        rw [horizontal_verdict]

/-! ### The lock -/

/-- Whether the lock is taken, and whether the check then holds it. -/
def dmTrylock (busy held : Bool) : Bool × Bool := if busy then (false, held) else (true, true)

def dmUnlock (_held : Bool) : Bool := false

/-- `isInsidePolygonOrCircle`, with the lock of the fence points: whether the check holds it. -/
def isInsidePolygonOrCircleLocked (e : Env K) (held : Bool) (g : State K) (q : Query K) :
    Bool × State K × Bool :=
  let lock := dmTrylock e.locked held
  if lock.1 = false then (lock.2, g, true)
  else
    let g := refresh e.store g
    if g.polygons.isEmpty then (dmUnlock lock.2, g, true)
    else if g.altitude_max > g.altitude_min ∧
        (q.altitude > g.altitude_max ∨ q.altitude < g.altitude_min) then (dmUnlock lock.2, g, false)
    else
      let h := horizontal e.geo (readPoint e.store) g.polygons g.projection_reference q.lat q.lon
      (dmUnlock lock.2, { g with projection_reference := h.reference },
        (!h.had_inclusion_areas || h.inside_inclusion) && h.outside_exclusion)

/-- `checkAll`, with the lock. -/
def checkAllLocked (e : Env K) (held : Bool) (g : State K) (q : Query K) : Bool × State K × Bool :=
  let r :=
    if isCloserThanMaxDistToHome e q && isBelowMaxAltitude e q then
      isInsidePolygonOrCircleLocked e held g q
    else (held, g, false)
  if r.2.2 then (r.1, { r.2.1 with outside_counter := 0 }, true)
  else
    (r.1, { r.2.1 with outside_counter := r.2.1.outside_counter + 1 },
      !decide (r.2.1.outside_counter + 1 > e.gf_count))

theorem isInsidePolygonOrCircleLocked_eq (e : Env K) (g : State K) (q : Query K) :
    isInsidePolygonOrCircleLocked e false g q = (false, isInsidePolygonOrCircle e g q) := by
  rw [isInsidePolygonOrCircleLocked, isInsidePolygonOrCircle, dmTrylock]
  cases e.locked with
  | true => rfl
  | false =>
    rw [if_neg Bool.false_ne_true, if_neg Bool.false_ne_true]
    dsimp only
    rw [if_neg Bool.false_ne_true.symm]
    split_ifs
    · rfl
    · rfl
    · rfl

/-- **Whatever the way through the check, the lock is free again.** -/
theorem checkAllLocked_eq (e : Env K) (g : State K) (q : Query K) :
    checkAllLocked e false g q = (false, checkAll e g q) := by
  have hinside : (if isCloserThanMaxDistToHome e q && isBelowMaxAltitude e q then
      isInsidePolygonOrCircleLocked e false g q else (false, g, false)) =
        (false, insideFence e g q) := by
    rw [insideFence, isInsidePolygonOrCircleLocked_eq]
    split_ifs
    · rfl
    · rfl
  rw [checkAllLocked, hinside, checkAll]
  split_ifs
  · rfl
  · rfl

/-! ### The order of the areas -/

/-- The points of an area, or a point that is none. -/
inductive Block : List (FencePoint K) → Prop
  | single {p : FencePoint K} (h : p.nav_cmd.isPolygon = false) : Block [p]
  | polygon {block : List (FencePoint K)} {cmd : Command} (hcmd : cmd.isPolygon = true)
      (hne : block ≠ []) (hblock : ∀ p ∈ block, p.nav_cmd = cmd ∧
        vertexCount p.extent = block.length) :
      Block block

/-- Areas were uploaded one after the other. -/
structure Uploaded (s : Store K) (blocks : List (List (FencePoint K))) : Prop where
  block : ∀ b ∈ blocks, Block b
  reads : Reads (readPoint s) (numFenceItems s) 1 blocks.flatten

def blockView (geo : Geo K) (reference : Option (Flt K × Flt K)) (lat lon : Flt K)
    (block : List (FencePoint K)) : Option (Bool × Bool) :=
  match block with
  | [] => none
  | p :: ps =>
    if p.isArea then
      some (view geo (fun i => (p :: ps)[i]?) reference lat lon ⟨p.nav_cmd, 0, p.extent⟩)
    else none

theorem polygonLoop_congr {read read' : ℕ → Option (FencePoint K)} {idx idx' m : ℕ}
    (h : ∀ k < m, read (idx + k) = read' (idx' + k)) (lat lon : Flt K) {n i j : ℕ} (hn : i + n ≤ m)
    (hj : j < m ∨ n = 0) (c : Bool) :
    polygonLoop read idx lat lon n i j c = polygonLoop read' idx' lat lon n i j c := by
  induction n generalizing i j c with
  | zero => rfl
  | succ n ih =>
    have hj' : j < m := hj.resolve_right (Nat.succ_ne_zero n)
    rw [polygonLoop, polygonLoop, h i (by omega), h j hj']
    split
    · split_ifs
      · exact ih (by omega) (.inl (by omega)) _
      · exact ih (by omega) (.inl (by omega)) _
      · rfl
    · rfl

theorem lies_congr {geo : Geo K} {read read' : ℕ → Option (FencePoint K)}
    {reference : Option (Flt K × Flt K)} {lat lon : Flt K} {cmd : Command} {extent : Extent K}
    {seq seq' : ℕ} (h : ∀ k < (⟨cmd, seq, extent⟩ : PolygonInfo K).size,
      read (seq + k) = read' (seq' + k)) :
    lies geo read reference lat lon ⟨cmd, seq, extent⟩ =
      lies geo read' reference lat lon ⟨cmd, seq', extent⟩ := by
  have hcircle : (⟨cmd, seq', extent⟩ : PolygonInfo K).isCircle =
      (⟨cmd, seq, extent⟩ : PolygonInfo K).isCircle := rfl
  rw [lies, lies, hcircle]
  rw [PolygonInfo.size] at h
  split_ifs at h ⊢
  · have hread : read seq = read' seq' := h 0 Nat.one_pos
    rw [insideCircle, insideCircle, hread]
  · rw [insidePolygon, insidePolygon]
    refine polygonLoop_congr h lat lon (Nat.zero_add _).le ?_ false
    dsimp only
    omega

theorem updateLoop_views {geo : Geo K} {read : ℕ → Option (FencePoint K)}
    {reference : Option (Flt K × Flt K)} {lat lon : Flt K} {n fuel seq : ℕ}
    {blocks : List (List (FencePoint K))} (hblock : ∀ b ∈ blocks, Block b)
    (h : Reads read n seq blocks.flatten) (hfuel : blocks.flatten.length ≤ fuel) :
    ∃ l, updateLoop read n fuel seq [] = some l ∧
      l.map (view geo read reference lat lon) = blocks.filterMap
        (blockView geo reference lat lon) := by
  induction blocks generalizing seq fuel with
  | nil =>
    have hlen := h.length
    rw [List.flatten_nil, List.length_nil] at hlen
    exact ⟨[], updateLoop_of_lt (by omega) [], rfl⟩
  | cons b blocks ih =>
    rw [List.flatten_cons] at h hfuel
    have hpos := h.pos
    have hlen := h.length
    rw [List.length_append] at hfuel hlen
    have hrest : Reads read n (seq + b.length) blocks.flatten := by
      have hdrop := h.drop (show b.length ≤ (b ++ blocks.flatten).length by
        rw [List.length_append]
        omega)
      rwa [List.drop_left] at hdrop
    -- the points of the block are those that are read
    have hread : ∀ k < b.length, read (seq + k) = b[0 + k]? := by
      intro k hk
      rw [h.read k (by rw [List.length_append]; omega), List.getElem?_append_left hk, Nat.zero_add]
    -- the loop goes on behind the block
    have hgo : ∀ p ps, b = p :: ps → ∀ as, visit seq p = (seq + b.length, as) →
        as.map (view geo read reference lat lon) = (blockView geo reference lat lon b).toList →
          ∃ l, updateLoop read n fuel seq [] = some l ∧ l.map (view geo read reference lat lon) =
            (b :: blocks).filterMap (blockView geo reference lat lon) := by
      intro p ps hb as hvisit hview
      have hlength : b.length = ps.length + 1 := by rw [hb, List.length_cons]
      obtain ⟨fuel, rfl⟩ : ∃ m, fuel = m + 1 := ⟨fuel - 1, by omega⟩
      obtain ⟨l, hl, hviews⟩ := ih (fun b hb => hblock b (List.mem_cons_of_mem _ hb)) hrest
        (show blocks.flatten.length ≤ fuel by omega)
      have hhead : read seq = some p := by
        have := hread 0 (by omega)
        rwa [hb] at this
      refine ⟨as ++ l, ?_, ?_⟩
      · rw [updateLoop, if_pos (by omega), hhead]
        dsimp only
        rw [hvisit, List.nil_append, updateLoop_append, hl]
        rfl
      · rw [List.map_append, hview, hviews, List.filterMap_cons]
        cases blockView geo reference lat lon b with
        | none => rfl
        | some v => rfl
    have harea : ∀ p ps, b = p :: ps → p.isArea = true →
        (⟨p.nav_cmd, seq, p.extent⟩ : PolygonInfo K).size = b.length →
          [(⟨p.nav_cmd, seq, p.extent⟩ : PolygonInfo K)].map (view geo read reference lat lon) =
            (blockView geo reference lat lon b).toList := by
      intro p ps hb hp hsize
      have hlies : lies geo read reference lat lon ⟨p.nav_cmd, seq, p.extent⟩ =
          lies geo (fun i => b[i]?) reference lat lon ⟨p.nav_cmd, 0, p.extent⟩ :=
        lies_congr fun k hk => hread k (hk.trans_eq hsize)
      subst hb
      rw [blockView, if_pos hp]
      exact congrArg (fun x => [((⟨p.nav_cmd, seq, p.extent⟩ : PolygonInfo K).isInclusion,
        x)]) hlies
    have hb := hblock b List.mem_cons_self
    cases hb with
    | @single p hp =>
      by_cases hisArea : p.isArea = true
      · have hcircle : p.nav_cmd = .NAV_FENCE_CIRCLE_INCLUSION ∨
            p.nav_cmd = .NAV_FENCE_CIRCLE_EXCLUSION := by
          simpa [FencePoint.isArea, hp] using hisArea
        have his : (⟨p.nav_cmd, seq, p.extent⟩ : PolygonInfo K).isCircle = true := by
          simpa [PolygonInfo.isCircle] using hcircle
        refine hgo p [] rfl _ (visit_circle hcircle seq) (harea p [] rfl hisArea ?_)
        rw [PolygonInfo.size, his]
        rfl
      · have hnot : p.isArea = false := Bool.not_eq_true _ ▸ hisArea
        refine hgo p [] rfl _ (visit_other hnot seq) ?_
        rw [blockView, if_neg hisArea]
        rfl
    | @polygon _ cmd hcmd hne hall =>
      obtain ⟨p, ps, rfl⟩ := List.exists_cons_of_ne_nil hne
      obtain ⟨hp, hcount⟩ := hall p List.mem_cons_self
      have hpoly : p.nav_cmd.isPolygon = true := by rw [hp, hcmd]
      have hne' : vertexCount p.extent ≠ 0 := by
        rw [hcount, List.length_cons]
        exact Nat.succ_ne_zero _
      have hvisit := visit_polygon hpoly hne' seq
      rw [hcount] at hvisit
      refine hgo p ps rfl _ hvisit (harea p ps rfl ?_ ?_)
      · rw [FencePoint.isArea, hpoly, Bool.true_or, Bool.true_or]
      · rw [(size_of_isPolygon hpoly seq p.extent).1, hcount]

theorem registered_views {e : Env K} {blocks : List (List (FencePoint K))}
    (h : Uploaded e.store blocks) (reference : Option (Flt K × Flt K)) (lat lon : Flt K) :
    (registered e).map (view e.geo (readPoint e.store) reference lat lon) =
      blocks.filterMap (blockView e.geo reference lat lon) := by
  have hlen := h.reads.length
  obtain ⟨l, hl, hviews⟩ : ∃ l, updateLoop (readPoint e.store) (numFenceItems e.store)
      (numFenceItems e.store) 1 [] = some l ∧
        l.map (view e.geo (readPoint e.store) reference lat lon) =
        blocks.filterMap (blockView e.geo reference lat lon) :=
    updateLoop_views h.block h.reads (by omega)
  rw [registered, areas, hl, Option.getD_some, hviews]

theorem verdict_perm {views views' : List (Bool × Bool)} (h : views.Perm views') :
    verdict views = verdict views' := by
  rw [verdict, verdict, h.any_eq, h.any_eq, h.all_eq]

theorem isInsidePolygonOrCircle_verdict (hlocked : e.locked = false) (hload : Loaded e g)
    {views : List (Bool × Bool)} (hviews : (registered e).map
      (view e.geo (readPoint e.store) g.projection_reference q.lat q.lon) = views) :
    (isInsidePolygonOrCircle e g q).2 = true ↔
      views = [] ∨ ¬ OutOfBand g q ∧ verdict views = true := by
  rw [isInsidePolygonOrCircle, hlocked, if_neg Bool.false_ne_true,
    show refresh e.store g = g from hload.synced]
  dsimp only
  rw [hload.polygons, ← hviews, List.map_eq_nil_iff]
  by_cases hempty : registered e = []
  · rw [if_pos (List.isEmpty_iff.mpr hempty)]
    exact iff_of_true rfl (.inl hempty)
  · rw [if_neg (fun h => hempty (List.isEmpty_iff.mp h)), or_iff_right hempty, OutOfBand]
    by_cases hband : g.altitude_max > g.altitude_min ∧
        (q.altitude > g.altitude_max ∨ q.altitude < g.altitude_min)
    · rw [if_pos hband]
      exact iff_of_false Bool.false_ne_true fun h => h.1 hband
    · rw [if_neg hband, and_iff_right hband]
      dsimp only
      rw [horizontal_verdict]

theorem isInsidePolygonOrCircle_perm {e' : Env K} {g' : State K}
    {blocks blocks' : List (List (FencePoint K))}
    (hgeo : e'.geo = e.geo) (hlocked : e.locked = false) (hlocked' : e'.locked = false)
    (hup : Uploaded e.store blocks) (hup' : Uploaded e'.store blocks') (hperm : blocks.Perm blocks')
    (hload : Loaded e g) (hload' : Loaded e' g') (hmin : g'.altitude_min = g.altitude_min)
    (hmax : g'.altitude_max = g.altitude_max)
    (href : g'.projection_reference = g.projection_reference) :
    (isInsidePolygonOrCircle e' g' q).2 = (isInsidePolygonOrCircle e g q).2 := by
  have hviews := registered_views hup g.projection_reference q.lat q.lon
  have hviews' : (registered e').map
      (view e'.geo (readPoint e'.store) g'.projection_reference q.lat q.lon) =
        blocks'.filterMap (blockView e.geo g.projection_reference q.lat q.lon) :=
    (registered_views hup' g'.projection_reference q.lat q.lon).trans (by rw [hgeo, href])
  have hband : OutOfBand g' q ↔ OutOfBand g q := by rw [OutOfBand, OutOfBand, hmin, hmax]
  have hp : (blocks'.filterMap (blockView e.geo g.projection_reference q.lat q.lon)).Perm
      (blocks.filterMap (blockView e.geo g.projection_reference q.lat q.lon)) :=
        hperm.symm.filterMap _
  rw [Bool.eq_iff_iff, isInsidePolygonOrCircle_verdict hlocked hload hviews,
    isInsidePolygonOrCircle_verdict hlocked' hload' hviews', hband,
    verdict_perm hp]
  refine or_congr ⟨fun h => ?_, fun h => ?_⟩ Iff.rfl
  · exact List.perm_nil.mp (h ▸ hp.symm)
  · exact List.perm_nil.mp (h ▸ hp)

/-! ### Sequences of checks -/

/-- The state before the check with the number `k`. -/
def stateAt (e : Env K) (g : State K) (qs : ℕ → Query K) : ℕ → State K
  | 0 => g
  | k + 1 => (checkAll e (stateAt e g qs k) (qs k)).1

theorem Loaded.checkAll (h : Loaded e g) : Loaded e (checkAll e g q).1 := by
  obtain ⟨ref, -, hstate⟩ := insideFence_state (q := q) h.synced
  have hcount : ∀ n, Loaded e ((insideFence e g q).1.count n) := by
    intro n
    rw [hstate]
    refine ⟨h.polygons, ?_⟩
    rw [Synced, refresh_count, refresh_reference, show refresh e.store g = g from h.synced]
  by_cases hin : Inside e g q
  · rw [checkAll_of_inside hin]
    exact hcount 0
  · rw [checkAll_of_not_inside hin]
    exact hcount _

theorem Loaded.stateAt (h : Loaded e g) (qs : ℕ → Query K) (k : ℕ) : Loaded e
    (stateAt e g qs k) := by
  induction k with
  | zero => exact h
  | succ k ih => exact ih.checkAll

theorem le_counter_iff (h : g.outside_counter = 0) (qs : ℕ → Query K) (m k : ℕ) :
    (m : ℤ) ≤ (stateAt e g qs k).outside_counter ↔ m ≤ k ∧ ∀ j, k ≤ j + m → j < k →
      ¬ Inside e (stateAt e g qs j) (qs j) := by
  induction k generalizing m with
  | zero =>
    rw [stateAt, h]
    refine ⟨fun hm => ⟨by omega, fun j _ hj => nomatch hj⟩, fun hm => ?_⟩
    have := hm.1
    omega
  | succ k ih =>
    rw [stateAt, outside_counter_checkAll]
    by_cases hin : Inside e (stateAt e g qs k) (qs k)
    · rw [if_pos hin]
      refine ⟨fun hm => ⟨by omega, fun j hj hlt => absurd hlt (by omega)⟩, fun hm => ?_⟩
      by_contra hpos
      exact hm.2 k (by omega) (Nat.lt_succ_self k) hin
    · rw [if_neg hin]
      cases m with
      | zero =>
        have hzero := (ih 0).mpr ⟨Nat.zero_le k, fun j hj hlt => absurd hlt (by omega)⟩
        refine iff_of_true (by omega) ⟨Nat.zero_le _, fun j hj hlt => absurd hlt (by omega)⟩
      | succ m =>
        have hstep : ((m + 1 : ℕ) : ℤ) ≤ (stateAt e g qs k).outside_counter + 1 ↔
            (m : ℤ) ≤ (stateAt e g qs k).outside_counter := by omega
        rw [hstep, ih m]
        refine and_congr (by omega) ⟨fun hall j hj hlt => ?_, fun hall j hj hlt => ?_⟩
        · rcases Nat.lt_succ_iff_lt_or_eq.mp hlt with hlt | rfl
          · exact hall j (by omega) hlt
          · exact hin
        · exact hall j (by omega) (by omega)

end

/-- What is required of the decisions. -/
structure FenceDecision (K : Type*) [Field K] [LinearOrder K] : Prop where
  /-- A check fails exactly if the points of the last `n + 1` checks are outside. -/
  fails : ∀ (e : Env K) (g : State K) (qs : ℕ → Query K) (n k : ℕ), e.locked = false →
    e.gf_count = n → Loaded e g → g.outside_counter = 0 →
      ((checkAll e (stateAt e g qs k) (qs k)).2 = false ↔ n ≤ k ∧ ∀ j, k ≤ j + n → j ≤ k →
        Outside e (stateAt e g qs j) (qs j))
  /-- The areas may be uploaded in another order. -/
  order : ∀ (e e' : Env K) (g g' : State K) (blocks blocks' : List (List (FencePoint K)))
    (q : Query K), e'.geo = e.geo → e.locked = false → e'.locked = false → Uploaded e.store blocks →
      Uploaded e'.store blocks' → blocks.Perm blocks' → Loaded e g → Loaded e' g' →
        g'.altitude_min = g.altitude_min → g'.altitude_max = g.altitude_max →
          g'.projection_reference = g.projection_reference →
            (isInsidePolygonOrCircle e' g' q).2 = (isInsidePolygonOrCircle e g q).2
  /-- A check begins without the lock of the fence points, and it ends without it. -/
  released : ∀ (e : Env K) (g : State K) (q : Query K),
    checkAllLocked e false g q = (false, checkAll e g q)

/-- **Decisions about the fence.** -/
theorem fenceDecision (K : Type*) [Field K] [LinearOrder K] : FenceDecision K where
  fails e g qs n k hlocked hcount hload hzero := by
    have hout : ∀ j, Inside e (stateAt e g qs j) (qs j) ↔ ¬ Outside e (stateAt e g qs j) (qs j) :=
      fun j => inside_iff hlocked (hload.stateAt qs j)
    rw [← Bool.not_eq_true, checkAll_verdict, not_or, not_lt, hcount, le_counter_iff hzero]
    refine ⟨fun ⟨hin, hk, hall⟩ => ⟨hk, fun j hj hle => ?_⟩, fun ⟨hk, hall⟩ =>
      ⟨fun hin => (hout k).mp hin (hall k (by omega) le_rfl), hk, fun j hj hlt hin =>
        (hout j).mp hin (hall j hj hlt.le)⟩⟩
    rcases hle.lt_or_eq with hlt | rfl
    · exact not_not.mp fun h => hall j hj hlt ((hout j).mpr h)
    · exact not_not.mp fun h => hin ((hout j).mpr h)
  order _ _ _ _ _ _ _ hgeo hlocked hlocked' hup hup' hperm hload hload' hmin hmax href :=
    isInsidePolygonOrCircle_perm hgeo hlocked hlocked' hup hup' hperm hload hload' hmin hmax href
  released := checkAllLocked_eq

/-- The third check outside of a triangle fails. -/
theorem triangle_fails : (checkAll (triangle 2) (stateAt (triangle 2)
    (updateFence (triangle 2).store ⟨0, 0, [], none, 0, 0⟩) (fun _ => away) 2) away).2 = false := by
  refine ((fenceDecision ℚ).fails _ _ (fun _ => away) 2 2 rfl rfl ⟨rfl, synced_updateFence⟩
    rfl).mpr ⟨le_rfl, fun j _ hj => .inr (.inr ⟨by decide, .inr (.inr ⟨by decide, ?_⟩)⟩)⟩
  intro a ha _
  obtain rfl := List.mem_singleton.mp ha
  match j, hj with
  | 0, _ | 1, _ | 2, _ => decide +kernel

end Geofence
