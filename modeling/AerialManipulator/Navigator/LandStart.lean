/-
The land start of a mission.

`findMissionLandStart` goes through the mission once and keeps an index and a position.  The index
follows every land start, the position is only taken as long as there is none, so that the two may
come from different parts of the mission.  Item 0 is not looked at.

* `Followed.turn` — where the index and the position come from, after each item;
* **`landStartFound_iff`** — when they belong together.
-/
import AerialManipulator.Navigator.LandingCheck

open WithNaN
open Mission (MissionItem Command)

namespace Navigator

variable {K : Type*}

structure Position (K : Type*) where
  lat : Flt K
  lon : Flt K
  alt : Flt K

/-- The fields that are stored; `_mission.count` has 16 bits, as the index. -/
structure LandStart (K : Type*) where
  land_start_available : Bool
  land_start_index : ℕ
  landing_start : Position K
  landing : Position K

/-- The altitude of the home position, and the kind of the vehicle. -/
structure LandStartEnv (K : Type*) where
  home_alt : Flt K
  is_vtol : Bool

/-! ### The search -/

def itemPosition [Field K] (e : LandStartEnv K) (item : MissionItem K) : Position K where
  lat := item.lat
  lon := item.lon
  alt := if item.altitude_is_relative then item.params.altitude + e.home_alt
    else item.params.altitude

def isLandingItem (e : LandStartEnv K) (item : MissionItem K) : Bool :=
  item.nav_cmd = .NAV_VTOL_LAND && e.is_vtol || item.nav_cmd = .NAV_LAND

structure LandStartScan (K : Type*) extends LandStart K where
  found_land_start_marker : Bool

def markerTurn (i : ℕ) (item : MissionItem K) (s : LandStartScan K) : LandStartScan K :=
  if isLandStart item then { s with found_land_start_marker := true, land_start_index := i } else s

/-- "use the position of any waypoint after the land start marker which specifies a position" -/
def positionTurn [Field K] (e : LandStartEnv K) (i : ℕ) (item : MissionItem K)
    (s : LandStartScan K) :
    LandStartScan K :=
  if s.found_land_start_marker ∧ ¬ s.land_start_available ∧ s.land_start_index < i ∧
      itemContainsPosition item then
    { s with landing_start := itemPosition e item, land_start_available := true }
  else s

/-- "don't have a valid land start yet, use the landing item itself then" -/
def landingItemTurn [Field K] (e : LandStartEnv K) (i : ℕ) (item : MissionItem K)
    (s : LandStartScan K) : LandStartScan K :=
  if isLandingItem e item then
    if s.land_start_available then { s with landing := itemPosition e item }
    else
      { s with
        landing := itemPosition e item
        land_start_index := i
        landing_start := itemPosition e item
        land_start_available := true }
  else s

def searchTurn [Field K] (e : LandStartEnv K) (i : ℕ) (item : MissionItem K) (s : LandStartScan K) :
    LandStartScan K :=
  landingItemTurn e i item (positionTurn e i item (markerTurn i item s))

def searchLoop [Field K] (e : LandStartEnv K) :
    List (Option (MissionItem K)) → ℕ → LandStartScan K → LandStartScan K
  | [], _, s => s
  -- "dataman read failure"
  | none :: _, _, s => s
  | some item :: items, i, s => searchLoop e items (i + 1) (searchTurn e i item s)

/-- `Mission::findMissionLandStart`, with what it returns. -/
def findMissionLandStart [Field K] (e : LandStartEnv K) (mission : List (Option (MissionItem K)))
    (stored : LandStart K) : Bool × LandStart K :=
  let s := searchLoop e (mission.drop 1) 1
    { stored with land_start_available := false, found_land_start_marker := false }
  (s.land_start_available, s.toLandStart)

/-! ### Where a landing starts -/

section
variable (e : LandStartEnv K) (items : List (MissionItem K))

/-- A landing may start at the item `k`: a landing, or a position behind a land start. -/
structure Starts (k : ℕ) : Prop where
  pos : 1 ≤ k
  position : At items itemContainsPosition k
  start : At items (isLandingItem e) k ∨ ∃ d, 1 ≤ d ∧ d < k ∧ At items isLandStart d

/-- The first item at which a landing may start. -/
structure FirstStart (m : ℕ) : Prop where
  starts : Starts e items m
  first : ∀ k, k < m → ¬ Starts e items k

/-- The last land start behind item 0, of the first `n` items. -/
structure LastMarker (n d : ℕ) : Prop where
  pos : 1 ≤ d
  lt : d < n
  marker : At items isLandStart d
  last : ∀ d', d' < n → At items isLandStart d' → d' ≤ d

/-- The first position at or after an index. -/
structure NextPosition (i p : ℕ) : Prop where
  le : i ≤ p
  position : At items itemContainsPosition p
  first : ∀ k, i ≤ k → k < p → ¬ At items itemContainsPosition k

/-- The position of an item of the mission. -/
def PositionOf [Field K] (m : ℕ) (position : Position K) : Prop :=
  ∃ item, items[m]? = some item ∧ position = itemPosition e item

end

variable {e : LandStartEnv K} {items : List (MissionItem K)} {n : ℕ} {item : MissionItem K}

theorem FirstStart.unique {m m' : ℕ} (h : FirstStart e items m) (h' : FirstStart e items m') :
    m = m' := by
  rcases Nat.lt_trichotomy m m' with hlt | heq | hlt
  · exact absurd h.starts (h'.first m hlt)
  · exact heq
  · exact absurd h'.starts (h.first m' hlt)

theorem isLandStart_no_position (h : isLandStart item) : ¬ itemContainsPosition item := by
  rw [isLandStart, decide_eq_true_eq] at h
  rw [itemContainsPosition, h]
  exact Bool.false_ne_true

theorem isLandStart_no_landing (h : isLandStart item) : ¬ isLandingItem e item := by
  rw [isLandStart, decide_eq_true_eq] at h
  rw [isLandingItem, h]
  exact Bool.false_ne_true

theorem isLandingItem_position (h : isLandingItem e item) : itemContainsPosition item := by
  rw [isLandingItem, Bool.or_eq_true, Bool.and_eq_true, decide_eq_true_eq, decide_eq_true_eq] at h
  rcases h with ⟨h, -⟩ | h
  · rw [itemContainsPosition, h]
  · rw [itemContainsPosition, h]

/-- Where the index and the position come from, after `n` items. -/
structure Followed [Field K] (e : LandStartEnv K) (items : List (MissionItem K)) (before n : ℕ)
    (s : LandStartScan K) : Prop where
  marker : s.found_land_start_marker = true → LastMarker items n s.land_start_index
  no_marker : s.found_land_start_marker = false → ∀ d, 1 ≤ d → d < n → ¬ At items isLandStart d
  available : s.land_start_available = true → ∃ m, m < n ∧ FirstStart e items m ∧
    PositionOf e items m s.landing_start ∧
    (s.found_land_start_marker = false → s.land_start_index = m)
  unavailable : s.land_start_available = false → ∀ k, k < n → ¬ Starts e items k
  before : s.land_start_available = false → s.found_land_start_marker = false →
    s.land_start_index = before

variable [Field K] {before : ℕ} {s : LandStartScan K}

omit [Field K] in
theorem LastMarker.succ {d : ℕ} (h : LastMarker items n d) (hno : ¬ At items isLandStart n) :
    LastMarker items (n + 1) d := by
  refine ⟨h.pos, Nat.lt_succ_of_lt h.lt, h.marker, fun d' hd' hat => ?_⟩
  rcases Nat.lt_succ_iff_lt_or_eq.mp hd' with hlt | rfl
  · exact h.last d' hlt hat
  · exact absurd hat hno

omit [Field K] in
theorem no_marker_succ (h : ∀ d, 1 ≤ d → d < n → ¬ At items isLandStart d)
    (hno : ¬ At items isLandStart n) : ∀ d, 1 ≤ d → d < n + 1 → ¬ At items isLandStart d := by
  intro d hd hlt
  rcases Nat.lt_succ_iff_lt_or_eq.mp hlt with hlt | rfl
  · exact h d hd hlt
  · exact hno

theorem Followed.marker_turn (h : Followed e items before n s) (hn : 1 ≤ n)
    (hitem : items[n]? = some item) (hstart : isLandStart item) :
    Followed e items before (n + 1)
      { s with found_land_start_marker := true, land_start_index := n } where
  marker _ := ⟨hn, n.lt_succ_self, (at_iff hitem).mpr hstart,
    fun d' hd' _ => Nat.lt_succ_iff.mp hd'⟩
  no_marker hfound := nomatch hfound
  available havail := by
    obtain ⟨m, hm, hfirst, hpos, -⟩ := h.available havail
    exact ⟨m, Nat.lt_succ_of_lt hm, hfirst, hpos, fun hfound => nomatch hfound⟩
  unavailable havail k hk hstarts := by
    rcases Nat.lt_succ_iff_lt_or_eq.mp hk with hlt | rfl
    · exact h.unavailable havail k hlt hstarts
    · exact isLandStart_no_position hstart ((at_iff hitem).mp hstarts.position)
  before _ hfound := nomatch hfound

theorem Followed.set_landing (h : Followed e items before n s) (position : Position K) :
    Followed e items before n { s with landing := position } :=
  ⟨h.marker, h.no_marker, h.available, h.unavailable, h.before⟩

theorem Followed.pass (h : Followed e items before n s) (hno : ¬ At items isLandStart n)
    (hstarts : s.land_start_available = false → ¬ Starts e items n) :
    Followed e items before (n + 1) s where
  marker hfound := (h.marker hfound).succ hno
  no_marker hfound := no_marker_succ (h.no_marker hfound) hno
  available havail := by
    obtain ⟨m, hm, hrest⟩ := h.available havail
    exact ⟨m, Nat.lt_succ_of_lt hm, hrest⟩
  unavailable havail k hk := by
    rcases Nat.lt_succ_iff_lt_or_eq.mp hk with hlt | rfl
    · exact h.unavailable havail k hlt
    · exact hstarts havail
  before := h.before

/-- The item at which the landing starts; the index is the one of the item, or of the marker. -/
theorem Followed.begin (h : Followed e items before n s) (hno : ¬ At items isLandStart n)
    (havail : s.land_start_available = false) (hitem : items[n]? = some item)
    (hstarts : Starts e items n) {index : ℕ}
    (hfound : s.found_land_start_marker = true → index = s.land_start_index)
    (hnone : s.found_land_start_marker = false → index = n) :
    Followed e items before (n + 1)
      { s with
        land_start_index := index
        landing_start := itemPosition e item
        land_start_available := true } where
  marker hmark := by
    have hlast := (h.marker hmark).succ hno
    rwa [← hfound hmark] at hlast
  no_marker hmark := no_marker_succ (h.no_marker hmark) hno
  available _ := ⟨n, n.lt_succ_self, ⟨hstarts, h.unavailable havail⟩, ⟨item, hitem, rfl⟩, hnone⟩
  unavailable hfalse := nomatch hfalse
  before hfalse := nomatch hfalse

/-- **One item.** -/
theorem Followed.turn (h : Followed e items before n s) (hn : 1 ≤ n)
    (hitem : items[n]? = some item) :
    Followed e items before (n + 1) (searchTurn e n item s) := by
  rw [searchTurn]
  by_cases hstart : isLandStart item
  · rw [markerTurn, if_pos hstart, positionTurn,
      if_neg fun hyes => isLandStart_no_position hstart hyes.2.2.2, landingItemTurn,
      if_neg (isLandStart_no_landing hstart)]
    exact h.marker_turn hn hitem hstart
  · have hno : ¬ At items isLandStart n := fun hat => hstart ((at_iff hitem).mp hat)
    rw [markerTurn, if_neg hstart]
    cases havail : s.land_start_available with
    | true =>
      have hpass := h.pass hno fun hfalse => absurd
        (havail.symm.trans hfalse) Bool.false_ne_true.symm
      rw [positionTurn, if_neg fun hyes => hyes.2.1 havail, landingItemTurn, if_pos havail]
      split_ifs
      · exact hpass.set_landing _
      · exact hpass
    | false =>
      cases hmark : s.found_land_start_marker with
      | true =>
        have hlast := h.marker hmark
        by_cases hpos : itemContainsPosition item
        · -- a position behind a land start
          have hstarts : Starts e items n := ⟨hn, (at_iff hitem).mpr hpos,
            .inr ⟨_, hlast.pos, hlast.lt, hlast.marker⟩⟩
          have hbegin := h.begin hno havail hitem hstarts (fun _ => rfl)
            fun hfalse => absurd (hmark.symm.trans hfalse) Bool.false_ne_true.symm
          rw [positionTurn, if_pos ⟨hmark, by rw [havail]; exact Bool.false_ne_true, hlast.lt,
            hpos⟩, landingItemTurn]
          dsimp only
          rw [if_pos rfl]
          split_ifs
          · exact hbegin.set_landing _
          · exact hbegin
        · rw [positionTurn, if_neg fun hyes => hpos hyes.2.2.2, landingItemTurn,
            if_neg fun hland => hpos (isLandingItem_position hland)]
          exact h.pass hno fun _ hstarts => hpos ((at_iff hitem).mp hstarts.position)
      | false =>
        rw [positionTurn, if_neg fun hyes => absurd (hmark.symm.trans hyes.1) Bool.false_ne_true,
          landingItemTurn]
        by_cases hland : isLandingItem e item
        · -- a landing without a land start
          have hstarts : Starts e items n := ⟨hn, (at_iff hitem).mpr (isLandingItem_position hland),
            .inl ((at_iff hitem).mpr hland)⟩
          rw [if_pos hland, if_neg fun htrue => absurd (havail.symm.trans htrue) Bool.false_ne_true]
          exact (h.begin hno havail hitem hstarts
            (fun htrue => absurd (hmark.symm.trans htrue) Bool.false_ne_true) fun _ =>
              rfl).set_landing _
        · rw [if_neg hland]
          refine h.pass hno fun _ hstarts => ?_
          rcases hstarts.start with hat | ⟨d, hd, hlt, hat⟩
          · exact hland ((at_iff hitem).mp hat)
          · exact h.no_marker hmark d hd hlt hat

theorem Followed.loop (h : Followed e items before n s) (hn : 1 ≤ n) {rest : List (MissionItem K)}
    (hrest : items.drop n = rest) :
    Followed e items before (n + rest.length) (searchLoop e (rest.map some) n s) := by
  induction rest generalizing n s with
  | nil => exact h
  | cons item rest ih =>
    have hitem : items[n]? = some item := by
      rw [← List.head?_drop, hrest, List.head?_cons]
    have hdrop : items.drop (n + 1) = rest := by
      rw [← List.tail_drop, hrest, List.tail_cons]
    have hloop := ih (h.turn hn hitem) (Nat.le_succ_of_le hn) hdrop
    rw [List.map_cons, searchLoop, List.length_cons, Nat.add_comm rest.length 1, ← Nat.add_assoc]
    exact hloop

theorem followed_find (e : LandStartEnv K) (items : List (MissionItem K)) (stored : LandStart K) :
    ∃ n, items.length ≤ n ∧ ∃ s, Followed e items stored.land_start_index n s ∧
      findMissionLandStart e (items.map some) stored = (s.land_start_available, s.toLandStart) := by
  have hinit : Followed e items stored.land_start_index 1
      { stored with land_start_available := false, found_land_start_marker := false } :=
    { marker := fun hfalse => nomatch hfalse
      no_marker := fun _ d hd hlt => absurd hlt (not_lt.mpr hd)
      available := fun hfalse => nomatch hfalse
      unavailable := fun _ k hk hstarts => absurd hk (not_lt.mpr hstarts.pos)
      before := fun _ _ => rfl }
  have hloop := hinit.loop le_rfl (Eq.refl (items.drop 1))
  rw [List.map_drop] at hloop
  refine ⟨_, ?_, _, hloop, rfl⟩
  rw [List.length_drop]
  omega

/-! ### The rule -/

/-- What is stored belongs together, and to the land start if there is one. -/
structure LandStartFound (e : LandStartEnv K) (items : List (MissionItem K))
    (stored : LandStart K) :
    Prop where
  returned : (findMissionLandStart e (items.map some) stored).1 = true ↔
    (findMissionLandStart e (items.map some) stored).2.land_start_available = true
  position : (findMissionLandStart e (items.map some) stored).1 = true → ∃ p,
    NextPosition items (findMissionLandStart e (items.map some) stored).2.land_start_index p ∧
      PositionOf e items p (findMissionLandStart e (items.map some) stored).2.landing_start
  index : ∀ d, At items isLandStart d → (∀ d', At items isLandStart d' → d' = d) →
    (∃ p, d < p ∧ At items itemContainsPosition p) →
    (findMissionLandStart e (items.map some) stored).2.land_start_index = d

/-- The last land start is behind the first item at which a landing may start, and the next position
is another one. -/
def Drifts (e : LandStartEnv K) (items : List (MissionItem K)) : Prop :=
  ∃ m d, FirstStart e items m ∧ LastMarker items items.length d ∧ m < d ∧
    ¬ ∃ p position, NextPosition items d p ∧ PositionOf e items p position ∧
      PositionOf e items m position

/-- The only land start is item 0, and the index is that of a landing, or what it was before. -/
structure Skipped (e : LandStartEnv K) (items : List (MissionItem K)) (stored : LandStart K) :
    Prop where
  first : At items isLandStart 0
  only : ∀ d, At items isLandStart d → d = 0
  position : ∃ p, 0 < p ∧ At items itemContainsPosition p
  index : stored.land_start_index ≠ 0 ∨ ∃ l, 1 ≤ l ∧ At items (isLandingItem e) l

theorem PositionOf.unique {m : ℕ} {p q : Position K} (hp : PositionOf e items m p)
    (hq : PositionOf e items m q) : p = q := by
  obtain ⟨item, hitem, rfl⟩ := hp
  obtain ⟨item', hitem', rfl⟩ := hq
  rw [Option.some.inj (hitem.symm.trans hitem')]

theorem Followed.index_eq (h : Followed e items before n s) (hn : items.length ≤ n) {d : ℕ}
    (hd : LastMarker items items.length d) : s.land_start_index = d := by
  have hlt : d < n := hd.lt.trans_le hn
  cases hmark : s.found_land_start_marker with
  | true =>
    have hlast := h.marker hmark
    exact le_antisymm (hd.last _ hlast.marker.lt_length hlast.marker) (hlast.last d hlt hd.marker)
  | false => exact absurd hd.marker (h.no_marker hmark d hd.pos hlt)

theorem Followed.position_iff (h : Followed e items before n s) (hn : items.length ≤ n) :
    (s.land_start_available = true → ∃ p, NextPosition items s.land_start_index p ∧
      PositionOf e items p s.landing_start) ↔ ¬ Drifts e items := by
  constructor
  · rintro hfound ⟨m, d, hm, hd, -, hno⟩
    have havail : s.land_start_available = true := by
      by_contra hfalse
      exact h.unavailable ((Bool.not_eq_true _).mp hfalse) m
        (hm.starts.position.lt_length.trans_le hn) hm.starts
    obtain ⟨m', -, hm', hposition, -⟩ := h.available havail
    obtain ⟨p, hfirst, hp⟩ := hfound havail
    exact hno ⟨p, _, h.index_eq hn hd ▸ hfirst, hp, hm.unique hm' ▸ hposition⟩
  · intro hdrift havail
    obtain ⟨m, -, hm, hposition, hindex⟩ := h.available havail
    cases hmark : s.found_land_start_marker with
    | false =>
      refine ⟨m, ⟨(hindex hmark).le, hm.starts.position, fun k hk hkm => ?_⟩, hposition⟩
      exact absurd (hindex hmark ▸ hk) (not_le.mpr hkm)
    | true =>
      have hlast := h.marker hmark
      obtain ⟨item, hitem, hstart⟩ := hlast.marker
      have hnot : ¬ At items itemContainsPosition s.land_start_index :=
        fun hat => isLandStart_no_position hstart ((at_iff hitem).mp hat)
      rcases Nat.lt_trichotomy m s.land_start_index with hmd | hmd | hmd
      · -- the land start is behind the position that was taken
        by_contra hno
        refine hdrift ⟨m, _, hm, ⟨hlast.pos, hlast.marker.lt_length, hlast.marker,
          fun d' hd' => hlast.last d' (hd'.trans_le hn)⟩, hmd, ?_⟩
        rintro ⟨p, position, hp, hpp, hpm⟩
        exact hno ⟨p, hp, hposition.unique hpm ▸ hpp⟩
      · exact absurd hm.starts.position (hmd ▸ hnot)
      · refine ⟨m, ⟨hmd.le, hm.starts.position, fun k hk hkm hat => ?_⟩, hposition⟩
        rcases hk.lt_or_eq with hlt | rfl
        · exact hm.first k hkm ⟨hlast.pos.trans hk, hat, .inr ⟨_, hlast.pos, hlt, hlast.marker⟩⟩
        · exact hnot hat

theorem Followed.index_iff {stored : LandStart K} (h : Followed e items stored.land_start_index n s)
    (hn : items.length ≤ n) :
    (∀ d, At items isLandStart d → (∀ d', At items isLandStart d' → d' = d) →
      (∃ p, d < p ∧ At items itemContainsPosition p) → s.land_start_index = d) ↔
      ¬ Skipped e items stored := by
  constructor
  · intro hfound hskip
    have hzero := hfound 0 hskip.first hskip.only hskip.position
    have hmark : s.found_land_start_marker = false := by
      by_contra htrue
      have hlast := h.marker ((Bool.not_eq_false _).mp htrue)
      exact absurd (hskip.only _ hlast.marker) (Nat.one_le_iff_ne_zero.mp hlast.pos)
    cases havail : s.land_start_available with
    | true =>
      obtain ⟨m, -, hm, -, hindex⟩ := h.available havail
      have hpos := hm.starts.pos
      rw [← hindex hmark] at hpos
      exact absurd hzero (Nat.one_le_iff_ne_zero.mp hpos)
    | false =>
      rcases hskip.index with hbefore | ⟨l, hl, hland⟩
      · exact hbefore ((h.before havail hmark).symm.trans hzero)
      · refine h.unavailable havail l (hland.lt_length.trans_le hn) ⟨hl, ?_, .inl hland⟩
        obtain ⟨item, hitem, hitemLand⟩ := hland
        exact ⟨item, hitem, isLandingItem_position hitemLand⟩
  · intro hskip d hd honly hpos
    cases hmark : s.found_land_start_marker with
    | true => exact honly _ (h.marker hmark).marker
    | false =>
      have hno : ∀ d, At items isLandStart d → ¬ 1 ≤ d := fun d hat hone =>
        h.no_marker hmark d hone (hat.lt_length.trans_le hn) hat
      have hzero : d = 0 := by
        by_contra hne
        exact hno d hd (Nat.one_le_iff_ne_zero.mpr hne)
      subst hzero
      have hbefore : stored.land_start_index = 0 := by
        by_contra hne
        exact hskip ⟨hd, honly, hpos, .inl hne⟩
      cases havail : s.land_start_available with
      | false => exact (h.before havail hmark).trans hbefore
      | true =>
        obtain ⟨m, -, hm, -⟩ := h.available havail
        rcases hm.starts.start with hland | ⟨d, hone, -, hat⟩
        · exact absurd ⟨hd, honly, hpos, .inr ⟨m, hm.starts.pos, hland⟩⟩ hskip
        · exact absurd hone (hno d hat)

/-- **When the land start is found**: if the position does not drift and item 0 is not skipped. -/
theorem landStartFound_iff (e : LandStartEnv K) (items : List (MissionItem K))
    (stored : LandStart K) :
    LandStartFound e items stored ↔ ¬ Drifts e items ∧ ¬ Skipped e items stored := by
  obtain ⟨n, hn, s, h, hfind⟩ := followed_find e items stored
  rw [← h.position_iff hn, ← h.index_iff hn]
  constructor
  · rintro ⟨-, hposition, hindex⟩
    rw [hfind] at hposition hindex
    exact ⟨hposition, hindex⟩
  · rintro ⟨hposition, hindex⟩
    refine ⟨by rw [hfind], ?_, ?_⟩
    · rw [hfind]
      exact hposition
    · rw [hfind]
      exact hindex

def twoLandings : List (MissionItem ℚ) :=
  [itemOf .NAV_WAYPOINT, itemOf .NAV_LAND, itemOf .DO_LAND_START,
    { itemOf .NAV_LAND with lat := num 1 }]

/-- The index is that of the second landing, the position that of the first one. -/
theorem not_landStartFound_twoLandings : ¬ LandStartFound ⟨num 0, false⟩ twoLandings
    ⟨false, 0, ⟨num 0, num 0, num 0⟩, ⟨num 0, num 0, num 0⟩⟩ := by
  intro hfound
  obtain ⟨p, hfirst, item, hitem, hposition⟩ := hfound.position rfl
  have hle : 2 ≤ p := hfirst.le
  have hlt : p < 4 := hfirst.position.lt_length
  have hlat : item.lat = num 0 := (congrArg Position.lat hposition).symm
  interval_cases p
  · obtain ⟨item', hitem', hpos⟩ := hfirst.position
    rw [← Option.some.inj hitem'] at hpos
    exact Bool.false_ne_true hpos
  · rw [← Option.some.inj hitem] at hlat
    revert hlat
    decide +kernel

end Navigator
