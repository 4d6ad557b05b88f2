/-
The cache of `ArmKinematics` across the calls of one object.

A run is any sequence of the four public calls.  `computeSystemInertia` trusts
the cached positions when the cached joint angles are close to its own; only the
profile `UamV5` also asks whether the cache is its own.

* `computeSystemInertia_snd`, `computeSystemInertia_fst` — the result and the
  object after the call, in terms of `stale`;
* `always_coherent` — in every run in which each trusting `UavArmV4` call finds
  positions of its own profile, every inertia is that of a fresh object;
* `first_inertia_incoherent` — the first call of a fresh object with zero angles
  trusts an empty cache.
-/
import AerialManipulator.Arm.ArmInertia
import AerialManipulator.Lib.Trace

open Matrix Trace

namespace ArmKinematics

section Generic

variable {K : Type*} [Field K] [Elementary K] {a : ArmKinematics K}

variable [LinearOrder K]

/-! ### Runs -/

/-- A fresh object with the profile and the parameters of `a`. -/
def fresh (a : ArmKinematics K) : ArmKinematics K :=
  ((init K).setModelProfile a.model_profile).setParameters a.mass_total_system a.base_com_offset
    a.base_inertia_val

inductive Call (K : Type*) where
  | setModelProfile (profile : ModelProfile)
  | setParameters (mass_total : K) (base_com_offset : Vec3 K) (base_inertia : Mat3 K)
  | computeSystemCoM (q : Joints K)
  | computeSystemInertia (q : Joints K)

/-- The object with its history: the profile that last computed positions. -/
structure Recorded (K : Type*) where
  arm : ArmKinematics K
  owner : Option ModelProfile

namespace Recorded

def init (K : Type*) [Field K] : Recorded K := ⟨ArmKinematics.init K, none⟩

def call (r : Recorded K) : Call K → Recorded K
  | .setModelProfile profile => { r with arm := r.arm.setModelProfile profile }
  | .setParameters m c I => { r with arm := r.arm.setParameters m c I }
  | .computeSystemCoM q => ⟨(r.arm.computeSystemCoM q).1, some r.arm.model_profile⟩
  | .computeSystemInertia q =>
    ⟨(r.arm.computeSystemInertia q).1,
      if r.arm.stale q then some r.arm.model_profile else r.owner⟩

end Recorded

/-- An inertia is what a fresh object computes after a centre of mass for
nearly the same angles. -/
def Coherent (r : Recorded K) : Call K → Prop
  | .computeSystemInertia q => ∃ q', Near r.arm.model_profile q' q ∧
      (r.arm.computeSystemInertia q).2
        = ((r.arm.fresh.computeSystemCoM q').1.computeSystemInertia q).2
  | _ => True

/-- A `UavArmV4` inertia recomputes the positions, or finds those that this
profile computed last. -/
def OwnCache (r : Recorded K) : Call K → Prop
  | .computeSystemInertia q =>
    r.arm.model_profile = .UavArmV4 → r.arm.stale q = true ∨ r.owner = some .UavArmV4
  | _ => True

/-- The positions of the owner, and the flag of `UamV5`. -/
structure Cached (r : Recorded K) : Prop where
  owned : ∀ p, r.owner = some p → r.arm.cached = positions p r.arm.cached_q
  valid : r.arm.uam_v5_cache_valid = true → r.arm.model_profile = .UamV5 ∧ r.owner = some .UamV5

theorem fresh_inertia {q q' : Joints K} (h : Near a.model_profile q' q) :
    ((a.fresh.computeSystemCoM q').1.computeSystemInertia q).2
      = inertia a.base_inertia_val a.model_profile (positions a.model_profile q') q :=
  computeSystemInertia_of_near (a := a.fresh) h

omit [Elementary K] in
theorem near_of_not_stale {q : Joints K} (h : a.stale q = false) :
    Near a.model_profile a.cached_q q ∧
      (a.model_profile = .UamV5 → a.uam_v5_cache_valid = true) := by
  rw [stale, Bool.or_eq_false_iff] at h
  refine ⟨fun i hi => ?_, fun hp => ?_⟩
  · have hm := List.any_eq_false.mp h.1 i hi
    rwa [jointMoved, decide_eq_true_eq, not_lt, abs_sub_comm] at hm
  · simpa [hp] using h.2

variable {r : Recorded K}

omit [LinearOrder K] in
theorem Cached.computeSystemCoM (h : Cached r) (q : Joints K) :
    Cached ⟨(r.arm.computeSystemCoM q).1, some r.arm.model_profile⟩ := by
  rw [computeSystemCoM_fst]
  refine ⟨?_, fun hv => ?_⟩
  · rintro p ⟨⟩
    rfl
  · have hprofile : r.arm.model_profile = .UamV5 := by
      rcases Bool.or_eq_true_iff.mp hv with hd | hd
      · exact of_decide_eq_true hd
      · exact (h.valid hd).1
    exact ⟨hprofile, congrArg some hprofile⟩

theorem Cached.call (h : Cached r) (c : Call K) : Cached (r.call c) := by
  cases c with
  | setModelProfile profile => exact ⟨h.owned, nofun⟩
  | setParameters m com I => exact ⟨h.owned, nofun⟩
  | computeSystemCoM q => exact h.computeSystemCoM q
  | computeSystemInertia q =>
    simp only [Recorded.call, computeSystemInertia_fst]
    split_ifs
    · exact h.computeSystemCoM q
    · exact h

theorem Cached.cached_eq (h : Cached r) {q : Joints K} (hs : r.arm.stale q = false)
    (hown : OwnCache r (.computeSystemInertia q)) :
    r.arm.cached = positions r.arm.model_profile r.arm.cached_q := by
  cases hp : r.arm.model_profile with
  | UavArmV4 =>
    have hstale := hown hp
    rw [hs] at hstale
    exact h.owned _ (hstale.resolve_left Bool.false_ne_true)
  | UamV5 => exact h.owned _ (h.valid ((near_of_not_stale hs).2 hp)).2

variable [IsStrictOrderedRing K]

theorem Cached.coherent (h : Cached r) {c : Call K} (hown : OwnCache r c) : Coherent r c := by
  cases c with
  | computeSystemInertia q =>
    cases hs : r.arm.stale q with
    | true =>
      have hnear := near_refl r.arm.model_profile q
      exact ⟨q, hnear, by rw [fresh_inertia hnear, computeSystemInertia_snd, if_pos hs]⟩
    | false =>
      refine ⟨r.arm.cached_q, (near_of_not_stale hs).1, ?_⟩
      rw [fresh_inertia (near_of_not_stale hs).1, computeSystemInertia_snd, hs, h.cached_eq hs hown]
      rfl
  | _ => trivial

/-- In every run of a fresh object in which each trusting `UavArmV4` call finds
positions of its own profile, every inertia is coherent. -/
theorem always_coherent {cs : List (Call K)}
    (h : Always Recorded.call OwnCache (Recorded.init K) cs) :
    Always Recorded.call Coherent (Recorded.init K) cs :=
  always_of_invariant (I := Cached) (fun _ c hI hC => ⟨hI.coherent hC, hI.call c⟩) ⟨nofun, nofun⟩ h

end Generic

/-! ### Concrete runs -/

/-- A base inertia and a centre of mass before the first inertia. -/
theorem always_coherent_home :
    Always Recorded.call Coherent (Recorded.init ℝ)
      [.setParameters 1.289 0 1, .computeSystemCoM 0, .computeSystemInertia 0] :=
  always_coherent ⟨trivial, trivial, fun _ => .inr rfl, trivial⟩

/-- Called first with zero angles, as by the rate controller, the inertia lacks
every parallel-axis term. -/
theorem first_inertia_incoherent :
    ¬ Always Recorded.call Coherent (Recorded.init ℝ)
      [.setModelProfile .UavArmV4,
        .setParameters 1.289 ![-0.01, 0, 0.161] (diagonal ![0.045, 0.045, 0.08]),
        .computeSystemInertia 0] := by
  rintro ⟨-, -, ⟨q', hnear, heq⟩, -⟩
  have hstale : stale (((init ℝ).setModelProfile .UavArmV4).setParameters 1.289 ![-0.01, 0, 0.161]
      (diagonal ![0.045, 0.045, 0.08])) 0 = false := by
    have heps : (0 : ℝ) ≤ 1e-6 := by norm_num
    simpa [stale, setParameters, setModelProfile, init, ModelProfile.joints, jointMoved] using heps
  rw [fresh_inertia hnear, computeSystemInertia_snd] at heq
  simp only [Recorded.call, Recorded.init, hstale] at heq
  exact inertia_UavArmV4_empty_ne _ 0 q' heq

end ArmKinematics
