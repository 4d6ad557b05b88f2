/-
The areas of an uploaded fence.

The vertices of a polygon come one by one, and each says how many there are.  The mission manager
checks them one by one, for a number of at least three, and `_updateFence` believes the first
vertex of a polygon.

* `Grouped` — the polygons are complete: a vertex is followed by as many vertices as it says, all
  with its command and its number;
* **`accepted_fence_wellFormed_iff`** — for every upload of a fence that a manager accepts;
* **`single_vertex_accepted`** — the upload of one vertex of a triangle.
-/
import AerialManipulator.Navigator.Geofence
import AerialManipulator.Mission.Fence

open WithNaN Mission

namespace Geofence

variable {K : Type*}

/-! ### What the areas should be -/

def FencePoint.isArea (p : FencePoint K) : Bool :=
  p.nav_cmd.isPolygon || p.nav_cmd = .NAV_FENCE_CIRCLE_INCLUSION ||
    p.nav_cmd = .NAV_FENCE_CIRCLE_EXCLUSION

def PolygonInfo.size (a : PolygonInfo K) : ℕ := if a.isCircle then 1 else vertexCount a.extent

/-- The point with the index `k` is in the area. -/
def PolygonInfo.covers (a : PolygonInfo K) (k : ℕ) : Bool :=
  decide (a.dataman_index ≤ k) && decide (k < a.dataman_index + a.size)

/-- The points of the area are stored, and say what the area says. -/
structure Fits (read : ℕ → Option (FencePoint K)) (num_items : ℕ) (a : PolygonInfo K) : Prop where
  pos : 1 ≤ a.dataman_index
  le : a.dataman_index + a.size - 1 ≤ num_items
  same : ∀ k, a.covers k = true → ∃ p, read k = some p ∧ p.nav_cmd = a.fence_type ∧
    (a.isCircle = false → vertexCount p.extent = vertexCount a.extent)

/-- All areas fit, and each vertex and circle belongs to exactly one. -/
structure WellFormed (read : ℕ → Option (FencePoint K)) (num_items : ℕ)
    (polygons : List (PolygonInfo K)) : Prop where
  fits : ∀ a ∈ polygons, Fits read num_items a
  once : ∀ k, 1 ≤ k → k ≤ num_items → ∀ p, read k = some p → p.isArea = true →
    polygons.countP (fun a => a.covers k) = 1

/-- The polygons of a list of points are complete, and their vertices agree. -/
inductive Grouped : List (FencePoint K) → Prop
  | nil : Grouped []
  | single {p : FencePoint K} {ps : List (FencePoint K)} (h : p.nav_cmd.isPolygon = false)
      (hps : Grouped ps) : Grouped (p :: ps)
  | polygon {block ps : List (FencePoint K)} {cmd : Command} (hcmd : cmd.isPolygon = true)
      (hne : block ≠ [])
      (hblock : ∀ p ∈ block, p.nav_cmd = cmd ∧ vertexCount p.extent = block.length)
      (hps : Grouped ps) : Grouped (block ++ ps)

/-! ### Groups -/

variable {p : FencePoint K} {ps : List (FencePoint K)}

theorem grouped_single_iff (h : p.nav_cmd.isPolygon = false) : Grouped (p :: ps) ↔ Grouped ps := by
  refine ⟨fun hg => ?_, .single h⟩
  generalize hl : p :: ps = l at hg
  cases hg with
  | nil => exact absurd hl (List.cons_ne_nil p ps)
  | single _ hps =>
    cases hl
    exact hps
  | @polygon block ps' cmd hcmd hne hblock hps =>
    cases block with
    | nil => exact absurd rfl hne
    | cons p' block =>
      cases hl
      rw [(hblock p List.mem_cons_self).1, hcmd] at h
      exact nomatch h.symm

theorem grouped_polygon_iff (h : p.nav_cmd.isPolygon = true) (hpos : vertexCount p.extent ≠ 0) :
    Grouped (p :: ps) ↔ vertexCount p.extent ≤ (p :: ps).length ∧
      (∀ p' ∈ (p :: ps).take (vertexCount p.extent),
        p'.nav_cmd = p.nav_cmd ∧ vertexCount p'.extent = vertexCount p.extent) ∧
      Grouped ((p :: ps).drop (vertexCount p.extent)) := by
  constructor
  · intro hg
    generalize hl : p :: ps = l at hg ⊢
    cases hg with
    | nil => exact absurd hl (List.cons_ne_nil p ps)
    | single hsingle _ =>
      cases hl
      rw [h] at hsingle
      exact nomatch hsingle.symm
    | @polygon block ps' cmd hcmd hne hblock hps =>
      have hp : p ∈ block := by
        cases block with
        | nil => exact absurd rfl hne
        | cons p' block =>
          cases hl
          exact List.mem_cons_self
      obtain ⟨rfl, hcount⟩ := hblock p hp
      rw [hcount, List.take_left, List.drop_left, List.length_append]
      exact ⟨Nat.le_add_right _ _, hblock, hps⟩
  · rintro ⟨hle, hblock, hps⟩
    have hlen : ((p :: ps).take (vertexCount p.extent)).length = vertexCount p.extent :=
      List.length_take_of_le hle
    rw [← List.take_append_drop (vertexCount p.extent) (p :: ps)]
    refine .polygon h ?_ ?_ hps
    · intro hnil
      rw [hnil] at hlen
      exact hpos hlen.symm
    · rw [hlen]
      exact hblock

/-! ### The loop -/

theorem visit_polygon (h : p.nav_cmd.isPolygon = true) (hpos : vertexCount p.extent ≠ 0)
    (seq : ℕ) :
    visit seq p = (seq + vertexCount p.extent, [⟨p.nav_cmd, seq, p.extent⟩]) := by
  have hcmd : p.nav_cmd = .NAV_FENCE_POLYGON_VERTEX_INCLUSION ∨
      p.nav_cmd = .NAV_FENCE_POLYGON_VERTEX_EXCLUSION := by
    simpa [Command.isPolygon] using h
  unfold visit
  rcases hcmd with hcmd | hcmd
  · rw [hcmd]
    exact if_neg hpos
  · rw [hcmd]
    exact if_neg hpos

theorem visit_circle (h : p.nav_cmd = .NAV_FENCE_CIRCLE_INCLUSION ∨
    p.nav_cmd = .NAV_FENCE_CIRCLE_EXCLUSION) (seq : ℕ) :
    visit seq p = (seq + 1, [⟨p.nav_cmd, seq, p.extent⟩]) := by
  unfold visit
  rcases h with h | h
  · rw [h]
  · rw [h]

theorem visit_other (h : p.isArea = false) (seq : ℕ) : visit seq p = (seq + 1, []) := by
  unfold visit
  split
  · next hcmd => simp [FencePoint.isArea, hcmd] at h
  · next hcmd => simp [FencePoint.isArea, hcmd] at h
  · next hcmd => simp [FencePoint.isArea, hcmd, Command.isPolygon] at h
  · next hcmd => simp [FencePoint.isArea, hcmd, Command.isPolygon] at h
  · rfl

theorem updateLoop_of_lt {read : ℕ → Option (FencePoint K)} {n fuel seq : ℕ} (h : n < seq)
    (polygons : List (PolygonInfo K)) : updateLoop read n fuel seq polygons = some polygons := by
  cases fuel with
  | zero => rw [updateLoop, if_neg (Nat.not_le.mpr h)]
  | succ fuel => rw [updateLoop, if_neg (Nat.not_le.mpr h)]

theorem updateLoop_append (read : ℕ → Option (FencePoint K)) (n fuel seq : ℕ)
    (polygons : List (PolygonInfo K)) :
    updateLoop read n fuel seq polygons =
      (updateLoop read n fuel seq []).map fun l => polygons ++ l := by
  induction fuel generalizing seq polygons with
  | zero =>
    rw [updateLoop, updateLoop]
    split
    · rfl
    · rw [Option.map_some, List.append_nil]
  | succ fuel ih =>
    rw [updateLoop, updateLoop]
    split
    · cases read seq with
      | none => rw [Option.map_some, List.append_nil]
      | some p =>
        dsimp only
        rw [ih, ih _ ([] ++ _), Option.map_map]
        congr 1
        funext l
        simp only [Function.comp_apply, List.nil_append, List.append_assoc]
    · rw [Option.map_some, List.append_nil]

/-- What the loop registers from a point on. -/
structure Registers (read : ℕ → Option (FencePoint K)) (num_items seq : ℕ)
    (rest : List (FencePoint K)) (polygons : List (PolygonInfo K)) : Prop where
  after : ∀ a ∈ polygons, seq ≤ a.dataman_index
  fits : (∀ a ∈ polygons, Fits read num_items a) ↔ Grouped rest
  once : ∀ k, seq ≤ k → k ≤ num_items → ∀ p, read k = some p → p.isArea = true →
    polygons.countP (fun a => a.covers k) = 1

variable {read : ℕ → Option (FencePoint K)} {n seq : ℕ} {rest : List (FencePoint K)}
  {polygons : List (PolygonInfo K)}

theorem Registers.countP_eq_zero (h : Registers read n seq rest polygons) {k : ℕ} (hk : k < seq) :
    polygons.countP (fun a => a.covers k) = 0 := by
  rw [List.countP_eq_zero]
  intro a ha hcovers
  have hseq := h.after a ha
  simp only [PolygonInfo.covers, Bool.and_eq_true, decide_eq_true_iff] at hcovers
  omega

theorem Registers.skip (h : Registers read n (seq + 1) rest polygons) (hread : read seq = some p)
    (hp : p.isArea = false) : Registers read n seq (p :: rest) polygons := by
  have hsingle : p.nav_cmd.isPolygon = false := by
    simp only [FencePoint.isArea, Bool.or_eq_false_iff] at hp
    exact hp.1.1
  refine ⟨fun a ha => Nat.le_of_succ_le (h.after a ha), ?_, fun k hk hle p' hp' harea => ?_⟩
  · rw [h.fits, grouped_single_iff hsingle]
  · have hne : k ≠ seq := by
      rintro rfl
      rw [hread] at hp'
      cases hp'
      rw [hp] at harea
      exact Bool.false_ne_true harea
    exact h.once k (by omega) hle p' hp' harea

theorem Registers.area {a : PolygonInfo K} {rest' : List (FencePoint K)}
    (h : Registers read n (seq + a.size) rest polygons) (hseq : a.dataman_index = seq)
    (hfits : Fits read n a ∧ Grouped rest ↔ Grouped rest') :
    Registers read n seq rest' (a :: polygons) := by
  refine ⟨?_, ?_, fun k hk hle p' hp' harea => ?_⟩
  · intro b hb
    rcases List.mem_cons.mp hb with rfl | hb
    · exact Nat.le_of_eq hseq.symm
    · exact Nat.le_of_add_right_le (h.after b hb)
  · rw [List.forall_mem_cons, h.fits, hfits]
  · rw [List.countP_cons]
    by_cases hcovers : k < seq + a.size
    · rw [h.countP_eq_zero hcovers, if_pos]
      simp only [PolygonInfo.covers, hseq, Bool.and_eq_true, decide_eq_true_iff]
      exact ⟨hk, hcovers⟩
    · rw [h.once k (by omega) hle p' hp' harea, if_neg]
      simp only [PolygonInfo.covers, hseq, Bool.and_eq_true, decide_eq_true_iff]
      omega

theorem registers_nil (h : n < seq) : Registers read n seq [] [] := by
  refine ⟨fun a ha => absurd ha List.not_mem_nil, ?_, fun k hk hle => absurd hle (by omega)⟩
  exact iff_of_true (fun a ha => nomatch ha) .nil

/-- The points from `seq` on, up to the last one, are `rest`. -/
structure Reads (read : ℕ → Option (FencePoint K)) (num_items seq : ℕ)
    (rest : List (FencePoint K)) : Prop where
  pos : 1 ≤ seq
  length : seq + rest.length = num_items + 1
  read : ∀ j < rest.length, read (seq + j) = rest[j]?

theorem Reads.drop (h : Reads read n seq rest) {m : ℕ} (hm : m ≤ rest.length) :
    Reads read n (seq + m) (rest.drop m) := by
  have hpos := h.pos
  have hlen := h.length
  refine ⟨by omega, by rw [List.length_drop]; omega, fun j hj => ?_⟩
  rw [List.length_drop] at hj
  rw [Nat.add_assoc, h.read (m + j) (by omega), List.getElem?_drop]

theorem Reads.head (h : Reads read n seq (p :: rest)) : read seq = some p :=
  h.read 0 (Nat.succ_pos _)

theorem size_of_isPolygon {cmd : Command} (h : cmd.isPolygon = true) (seq : ℕ) (extent : Extent K) :
    (⟨cmd, seq, extent⟩ : PolygonInfo K).size = vertexCount extent ∧
      (⟨cmd, seq, extent⟩ : PolygonInfo K).isCircle = false := by
  have hcircle : (⟨cmd, seq, extent⟩ : PolygonInfo K).isCircle = false := by
    revert h
    cases cmd <;> simp [PolygonInfo.isCircle, Command.isPolygon]
  refine ⟨?_, hcircle⟩
  rw [PolygonInfo.size, hcircle]
  rfl

theorem Reads.fits_polygon_iff (h : Reads read n seq (p :: rest))
    (hp : p.nav_cmd.isPolygon = true) :
    Fits read n ⟨p.nav_cmd, seq, p.extent⟩ ↔ vertexCount p.extent ≤ (p :: rest).length ∧
      ∀ p' ∈ (p :: rest).take (vertexCount p.extent),
        p'.nav_cmd = p.nav_cmd ∧ vertexCount p'.extent = vertexCount p.extent := by
  have hlen := h.length
  have hpos := h.pos
  obtain ⟨hsize, hcircle⟩ := size_of_isPolygon hp seq p.extent
  have hcovers : ∀ j, (⟨p.nav_cmd, seq, p.extent⟩ : PolygonInfo K).covers (seq + j) = true ↔
      j < vertexCount p.extent := by
    intro j
    rw [PolygonInfo.covers, hsize, Bool.and_eq_true, decide_eq_true_iff, decide_eq_true_iff]
    dsimp only
    omega
  constructor
  · rintro ⟨-, hle, hsame⟩
    rw [hsize] at hle
    dsimp only at hle
    refine ⟨by omega, fun p' hp' => ?_⟩
    obtain ⟨j, hj⟩ := List.getElem?_of_mem hp'
    rw [List.getElem?_take] at hj
    split at hj
    · next hjm =>
      obtain ⟨q, hq, hcmd, hcount⟩ := hsame (seq + j) ((hcovers j).mpr hjm)
      rw [h.read j (by omega), hj] at hq
      cases hq
      exact ⟨hcmd, hcount hcircle⟩
    · exact nomatch hj
  · rintro ⟨hm, hall⟩
    refine ⟨hpos, ?_, fun k hk => ?_⟩
    · rw [hsize]
      dsimp only
      omega
    · have hseq : seq ≤ k := by
        rw [PolygonInfo.covers, Bool.and_eq_true, decide_eq_true_iff] at hk
        exact hk.1
      obtain ⟨j, rfl⟩ := Nat.exists_eq_add_of_le hseq
      have hj := (hcovers j).mp hk
      have hjlen : j < (p :: rest).length := by omega
      refine ⟨(p :: rest)[j], ?_, ?_⟩
      · rw [h.read j hjlen, List.getElem?_eq_getElem hjlen]
      · obtain ⟨hcmd, hcount⟩ := hall (p :: rest)[j] (List.mem_take_iff_getElem.mpr
          ⟨j, Nat.lt_min.mpr ⟨hj, hjlen⟩, rfl⟩)
        exact ⟨hcmd, fun _ => hcount⟩

theorem Reads.fits_circle (h : Reads read n seq (p :: rest))
    (hsize : (⟨p.nav_cmd, seq, p.extent⟩ : PolygonInfo K).isCircle = true) :
    Fits read n ⟨p.nav_cmd, seq, p.extent⟩ := by
  have hlen := h.length
  rw [List.length_cons] at hlen
  have hone : (⟨p.nav_cmd, seq, p.extent⟩ : PolygonInfo K).size = 1 := by
    rw [PolygonInfo.size, hsize]
    rfl
  refine ⟨h.pos, ?_, fun k hk => ⟨p, ?_, rfl, fun _ => rfl⟩⟩
  · rw [hone]
    dsimp only
    omega
  · rw [PolygonInfo.covers, hone, Bool.and_eq_true, decide_eq_true_iff, decide_eq_true_iff] at hk
    dsimp only at hk
    rw [show k = seq by omega]
    exact h.head

/-- The loop ends, and the areas it registers fit exactly if the points are grouped. -/
theorem registers {fuel : ℕ} (h : Reads read n seq rest)
    (hcount : ∀ p ∈ rest, p.nav_cmd.isPolygon = true → vertexCount p.extent ≠ 0)
    (hfuel : rest.length ≤ fuel) :
    ∃ l, updateLoop read n fuel seq [] = some l ∧ Registers read n seq rest l := by
  induction fuel generalizing seq rest with
  | zero =>
    obtain rfl := List.length_eq_zero_iff.mp (Nat.le_zero.mp hfuel)
    have hlen := h.length
    rw [List.length_nil] at hlen
    exact ⟨[], updateLoop_of_lt (by omega) [], registers_nil (by omega)⟩
  | succ fuel ih =>
    have hlen := h.length
    cases rest with
    | nil =>
      rw [List.length_nil] at hlen
      exact ⟨[], updateLoop_of_lt (by omega) [], registers_nil (by omega)⟩
    | cons p rest =>
      rw [List.length_cons] at hlen hfuel
      have hpos := h.pos
      -- the loop goes on behind the point or its polygon
      have hgo : ∀ m as, visit seq p = (seq + m, as) → 0 < m → m ≤ (p :: rest).length →
          ∃ l, updateLoop read n (fuel + 1) seq [] = some (as ++ l) ∧
            Registers read n (seq + m) ((p :: rest).drop m) l := by
        intro m as hvisit hm hmle
        obtain ⟨l, hl, hreg⟩ := ih (h.drop hmle)
          (fun p' hp' => hcount p' (List.mem_of_mem_drop hp'))
          (by rw [List.length_drop, List.length_cons]; omega)
        refine ⟨l, ?_, hreg⟩
        rw [updateLoop, if_pos (by omega), h.head]
        dsimp only
        rw [hvisit, List.nil_append, updateLoop_append, hl]
        rfl
      by_cases harea : p.isArea = true
      · by_cases hpoly : p.nav_cmd.isPolygon = true
        · have hne := hcount p List.mem_cons_self hpoly
          have hvisit := visit_polygon hpoly hne seq
          have hsize := (size_of_isPolygon hpoly seq p.extent).1
          by_cases hle : vertexCount p.extent ≤ (p :: rest).length
          · obtain ⟨l, hl, hreg⟩ := hgo _ _ hvisit (Nat.pos_of_ne_zero hne) hle
            rw [← hsize] at hreg
            refine ⟨_, hl, hreg.area rfl ?_⟩
            rw [h.fits_polygon_iff hpoly, grouped_polygon_iff hpoly hne, hsize, and_assoc]
          · -- the polygon goes past the last point
            refine ⟨[⟨p.nav_cmd, seq, p.extent⟩], ?_, ?_⟩
            · rw [updateLoop, if_pos (by omega), h.head]
              dsimp only
              rw [hvisit, updateLoop_of_lt (by rw [List.length_cons] at hle; omega)]
              rfl
            · have hnil : Registers read n (seq + vertexCount p.extent) [] [] :=
                registers_nil (by rw [List.length_cons] at hle; omega)
              rw [← hsize] at hnil
              refine hnil.area rfl (iff_of_false (fun hfits => ?_) (fun hgroup => ?_))
              · exact hle ((h.fits_polygon_iff hpoly).mp hfits.1).1
              · exact hle ((grouped_polygon_iff hpoly hne).mp hgroup).1
        · have hcircle : p.nav_cmd = .NAV_FENCE_CIRCLE_INCLUSION ∨
              p.nav_cmd = .NAV_FENCE_CIRCLE_EXCLUSION := by
            simpa [FencePoint.isArea, hpoly] using harea
          have his : (⟨p.nav_cmd, seq, p.extent⟩ : PolygonInfo K).isCircle = true := by
            simpa [PolygonInfo.isCircle] using hcircle
          obtain ⟨l, hl, hreg⟩ := hgo _ _ (visit_circle hcircle seq) Nat.one_pos
            (Nat.succ_le_succ (Nat.zero_le _))
          have hsize : (⟨p.nav_cmd, seq, p.extent⟩ : PolygonInfo K).size = 1 := by
            rw [PolygonInfo.size, his]
            rfl
          rw [← hsize] at hreg
          refine ⟨_, hl, hreg.area rfl ?_⟩
          rw [and_iff_right (h.fits_circle his), hsize, List.drop_one, List.tail_cons,
            grouped_single_iff (Bool.not_eq_true _ ▸ hpoly)]
      · have hnot : p.isArea = false := Bool.not_eq_true _ ▸ harea
        obtain ⟨l, hl, hreg⟩ := hgo _ _ (visit_other hnot seq) Nat.one_pos
          (Nat.succ_le_succ (Nat.zero_le _))
        exact ⟨l, hl, hreg.skip h.head hnot⟩

/-! ### Uploads -/

def FencePoint.ofItem (item : MissionItem K) : FencePoint K where
  lat := item.lat
  lon := item.lon
  extent := if item.nav_cmd.isPolygon then .vertices item.count else .radius item.params.time_inside
  nav_cmd := item.nav_cmd
  frame := item.frame

theorem readPoint_of_fencePoint {s : Store K} {k : ℕ} {item : MissionItem K}
    (h : s.points .FENCE_POINTS k = some (fencePoint item)) :
    readPoint s k = some (.ofItem item) := by
  rw [readPoint, h]
  rfl

theorem vertexCount_ofItem {item : MissionItem K} (h : item.tooFew = false)
    (hpoly : item.nav_cmd.isPolygon = true) :
    vertexCount (FencePoint.ofItem item).extent ≠ 0 := by
  rw [MissionItem.tooFew, hpoly, Bool.true_and, decide_eq_false_iff_not,
    UInt16.lt_iff_toNat_lt] at h
  rw [FencePoint.ofItem, hpoly]
  intro hzero
  have hcount : item.count.toNat = 0 := hzero
  rw [hcount] at h
  exact h (by decide)

variable {ι : Type*} [DecidableEq ι] [Field K] [LinearOrder K] [FloorRing K] [Elementary K]
  {cs : Casts K} {wrap_2pi : Flt K → Flt K} {i : ι} {s₀ s : System ι K}
  {items : List (MissionItem K)} {e : Event K}

/-- What `_updateFence` registers after an upload of a fence that has been accepted. -/
theorem registers_of_accepted (h : Uploading cs wrap_2pi i .FENCE_POINTS s₀ s items)
    (hacc : ∃ a ∈ s.sent cs wrap_2pi (i, e), a.2 = .ACCEPTED) :
    ∃ polygons, areas (s.step cs wrap_2pi (i, e)).shared.store = some polygons ∧
      Registers (readPoint (s.step cs wrap_2pi (i, e)).shared.store)
        (numFenceItems (s.step cs wrap_2pi (i, e)).shared.store) 1
        ((written cs wrap_2pi (s.core i) items e).map FencePoint.ofItem) polygons := by
  obtain ⟨hnum, hpoints, hfew⟩ := h.accepted hacc
  generalize written cs wrap_2pi (s.core i) items e = uploaded at *
  generalize (s.step cs wrap_2pi (i, e)).shared.store = store at *
  have hnum' : numFenceItems store = uploaded.length := hnum
  have hreads : Reads (readPoint store) (numFenceItems store) 1
      (uploaded.map FencePoint.ofItem) := by
    refine ⟨le_rfl, ?_, fun j hj => ?_⟩
    · rw [List.length_map, hnum', Nat.add_comm]
    · rw [List.length_map] at hj
      rw [Nat.add_comm, List.getElem?_map, List.getElem?_eq_getElem hj, Option.map_some]
      exact readPoint_of_fencePoint (hpoints j _ (List.getElem?_eq_getElem hj))
  have hcount : ∀ p ∈ uploaded.map FencePoint.ofItem, p.nav_cmd.isPolygon = true →
      vertexCount p.extent ≠ 0 := by
    intro p hp hpoly
    obtain ⟨item, hitem, rfl⟩ := List.mem_map.mp hp
    exact vertexCount_ofItem (hfew item hitem) hpoly
  exact registers hreads hcount (by rw [List.length_map, hnum'])

/-- When an upload of a fence has been accepted, `_updateFence` ends, and what it registers is well
formed exactly if the uploaded items are grouped. -/
theorem accepted_fence_wellFormed_iff
    (h : Uploading cs wrap_2pi i .FENCE_POINTS s₀ s items)
    (hacc : ∃ a ∈ s.sent cs wrap_2pi (i, e), a.2 = .ACCEPTED) :
    ∃ polygons, areas (s.step cs wrap_2pi (i, e)).shared.store = some polygons ∧
      (WellFormed (readPoint (s.step cs wrap_2pi (i, e)).shared.store)
          (numFenceItems (s.step cs wrap_2pi (i, e)).shared.store) polygons ↔
        Grouped ((written cs wrap_2pi (s.core i) items e).map FencePoint.ofItem)) := by
  obtain ⟨polygons, hareas, hreg⟩ := registers_of_accepted h hacc
  refine ⟨polygons, hareas, ?_⟩
  rw [← hreg.fits]
  exact ⟨fun hwell => hwell.fits, fun hfits => ⟨hfits, hreg.once⟩⟩

/-! ### Two uploads -/

def sendItem (wp : WireItem K) : Event K := .message (.ok 2) ⟨⟨255, 1⟩, ⟨1, 1⟩, .item wp⟩

/-- The vertex `k` of a triangle. -/
def vertexAt (k : ℕ) : WireItem ℚ :=
  ⟨num 3, 0, 0, 0, .int (.ofNat k) (.ofNat (k * k)), 0, k, .NAV_FENCE_POLYGON_VERTEX_INCLUSION,
    .GLOBAL_INT, false, 1, .FENCE⟩

def uploaded [Elementary ℚ] : ℕ → System Unit ℚ
  | 0 => (System.init .fresh).step (casts ℚ) id
    ((), .message (.ok 1) ⟨⟨255, 1⟩, ⟨1, 1⟩, .count 3 .FENCE⟩)
  | k + 1 => (uploaded k).step (casts ℚ) id ((), sendItem (vertexAt k))

theorem triangle_wellFormed : ∃ _ : Elementary ℚ, ∃ polygons,
    areas (uploaded 3).shared.store = some polygons ∧
      WellFormed (readPoint (uploaded 3).shared.store) (numFenceItems (uploaded 3).shared.store)
        polygons := by
  let elementary : Elementary ℚ := ⟨id, id, id, id, 22 / 7⟩
  have h : Uploading (casts ℚ) id () .FENCE_POINTS (.init .fresh) (uploaded 2) _ :=
    .own (.own (.opened (by decide) rfl rfl) (by decide +kernel)) (by decide +kernel)
  obtain ⟨polygons, hareas, hiff⟩ := accepted_fence_wellFormed_iff (e := sendItem (vertexAt 2)) h
    ⟨(⟨255, 1⟩, .ACCEPTED), by decide +kernel, rfl⟩
  refine ⟨elementary, polygons, hareas, hiff.mpr ?_⟩
  rw [← List.append_nil (List.map _ _)]
  exact .polygon (show Command.NAV_FENCE_POLYGON_VERTEX_INCLUSION.isPolygon = true from rfl)
    (by decide +kernel) (by decide +kernel) .nil

noncomputable def oneItem : System Unit ℝ :=
  (System.init .fresh : System Unit ℝ).step realCasts realWrap
    ((), .message (.ok 1) ⟨⟨255, 1⟩, ⟨1, 1⟩, .count 1 .FENCE⟩)

theorem uploading_oneItem :
    Uploading realCasts realWrap () .FENCE_POINTS (.init .fresh) oneItem [] :=
  .opened (by decide) rfl rfl

noncomputable def vertex : WireItem ℝ :=
  { itemAt .NAV_FENCE_POLYGON_VERTEX_INCLUSION .GLOBAL_INT (num ((3 : UInt16).toNat : ℝ)) 0 with
    mission_type := .FENCE }

noncomputable def vertexItem : MissionItem ℝ :=
  match parseMavlinkMissionItem realCasts realWrap vertex with
  | .ok item => { item with count := 3 }
  | .error _ => MissionItem.zero

theorem parse_vertex : parseMavlinkMissionItem realCasts realWrap vertex = .ok vertexItem :=
  congrArg (fun n : UInt16 => (Except.ok { vertexItem with count := n } :
    Except MissionResult (MissionItem ℝ))) (toUInt16_add_half (c := realCasts) 3)

theorem sent_vertex :
    oneItem.sent realCasts realWrap ((), sendItem vertex) = [(⟨255, 1⟩, .ACCEPTED)] := by
  have hexp : (oneItem.world ()).core.Expected ⟨⟨255, 1⟩, ⟨1, 1⟩, .item vertex⟩ vertex :=
    ⟨rfl, rfl, rfl, rfl, rfl⟩
  rw [System.sent, sendItem]
  dsimp only
  rw [World.react_expected hexp, World.takeItem, parse_vertex]
  rfl

/-- A fence of one vertex that says that there are three is accepted, and the polygon goes past
the end of the list. -/
theorem single_vertex_accepted :
    ¬ ∀ (s₀ s : System Unit ℝ) (items : List (MissionItem ℝ)) (e : Event ℝ),
      Uploading realCasts realWrap () .FENCE_POINTS s₀ s items →
      (∃ a ∈ s.sent realCasts realWrap ((), e), a.2 = .ACCEPTED) →
      ∃ polygons, areas (s.step realCasts realWrap ((), e)).shared.store = some polygons ∧
        WellFormed (readPoint (s.step realCasts realWrap ((), e)).shared.store)
          (numFenceItems (s.step realCasts realWrap ((), e)).shared.store) polygons := by
  intro hclaim
  have hacc : ∃ a ∈ oneItem.sent realCasts realWrap ((), sendItem vertex), a.2 = .ACCEPTED := by
    rw [sent_vertex]
    exact ⟨_, List.mem_singleton_self _, rfl⟩
  obtain ⟨polygons, hareas, hwell⟩ := hclaim _ _ _ _ uploading_oneItem hacc
  obtain ⟨polygons', hareas', hreg⟩ := registers_of_accepted uploading_oneItem hacc
  cases hareas.symm.trans hareas'
  have hgrouped := hreg.fits.mp hwell.fits
  have hwritten : written realCasts realWrap (oneItem.core ()) [] (sendItem vertex) =
      [vertexItem] := by
    refine written_storable rfl ⟨rfl, rfl, rfl, rfl, rfl⟩ parse_vertex ?_
    exact ⟨rfl, rfl⟩
  rw [hwritten] at hgrouped
  have hlen := ((grouped_polygon_iff rfl (by decide)).mp hgrouped).1
  exact nomatch hlen

end Geofence
