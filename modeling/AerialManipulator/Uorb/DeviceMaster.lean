/-
Instances of a uORB topic: who may publish on which node.

`uORB::DeviceMaster::advertise` looks for an instance of a topic that nobody
advertises: it tries to create the nodes one after the other, and takes an existing
one if its flag is down.  `uORB::DeviceNode::unadvertise` takes the flag down again;
nodes are never removed.

`Topic` puts the nodes of one topic together with any number of publishers, each with
the handle it was granted last.

* **`tryInstances_advertiser`** — the loop stops at the first instance whose flag is
  down, or at none;
* **`Topic.invariant_step`** — the flags are up exactly on the instances of the
  publishers that are advertised, as long as nobody takes down the flag of another;
* **`Topic.advertise_exclusive`** — in such a run publishers never share an instance,
  and a request fails exactly when all instances are taken;
* **`Topic.stale_unadvertise_shares`** — a handle that is given back twice frees the
  instance of somebody else.
-/
import AerialManipulator.Lib.Literals
import AerialManipulator.Uorb.DeviceNode

namespace uORB

/-- What may go wrong in one try: no memory for the path or the node, or a failed
registration of a new one. -/
inductive Fault
  | none
  | alloc
  | register
  deriving DecidableEq

/-- The nodes of a topic by instance, and whether each is advertised. -/
abbrev Nodes := ℕ → Option Bool

namespace DeviceMaster

/-- The loop of `advertise`, with the number of tries left and `group_tries`.  It returns
the nodes, the result and `*instance`. -/
def tryInstances (is_advertiser is_single_instance_advertiser : Bool) (fault : ℕ → Fault)
    (nodes : Nodes) : ℕ → ℕ → Nodes × ℤ × ℕ
  | 0, group_tries => (nodes, -ENOMEM, group_tries - 1)
  | tries + 1, group_tries =>
    if fault group_tries = .alloc then (nodes, -ENOMEM, group_tries)
    else
      match nodes group_tries with
      | none =>
        if fault group_tries = .register then
          tryInstances is_advertiser is_single_instance_advertiser fault nodes tries
            (group_tries + 1)
        else (Function.update nodes group_tries (some is_advertiser), PX4_OK, group_tries)
      | some advertised =>
        -- `init` has failed with `-EEXIST`
        if !advertised || is_single_instance_advertiser || !is_advertiser then
          (if is_advertiser then Function.update nodes group_tries (some true) else nodes,
            PX4_OK, group_tries)
        else
          tryInstances is_advertiser is_single_instance_advertiser fault nodes tries
            (group_tries + 1)

/-- `advertise`, for `max` instances; without an instance pointer there is one try. -/
def advertise (max : ℕ) (nodes : Nodes) (is_advertiser : Bool) (instance_ : Option ℕ)
    (fault : ℕ → Fault) : Nodes × ℤ × ℕ :=
  match instance_ with
  | none => tryInstances is_advertiser is_advertiser fault nodes 1 0
  | some group_tries =>
    if group_tries ≥ max then (nodes, -ENOMEM, group_tries)
    else tryInstances is_advertiser false fault nodes (max - group_tries) group_tries

theorem advertise_zero (max : ℕ) (nodes : Nodes) (fault : ℕ → Fault) :
    advertise max nodes true (some 0) fault = tryInstances true false fault nodes max 0 := by
  unfold advertise
  rcases Nat.eq_zero_or_pos max with rfl | hpos
  · rfl
  · simp only [ge_iff_le, Nat.not_le.mpr hpos, if_false, Nat.sub_zero]

def unadvertise (nodes : Nodes) : Option ℕ → Nodes
  | none => nodes
  | some k => Function.update nodes k (some false)

/-- The first instance from `k` on whose flag is down. -/
def FirstFree (nodes : Nodes) (k n j : ℕ) : Prop :=
  k ≤ j ∧ j < k + n ∧ nodes j ≠ some true ∧ ∀ l, k ≤ l → l < j → nodes l = some true

theorem tryInstances_advertiser (nodes : Nodes) {fault : ℕ → Fault} (hf : ∀ k, fault k = .none)
    (n k : ℕ) :
    (∃ j, FirstFree nodes k n j ∧
      tryInstances true false fault nodes n k = (Function.update nodes j (some true), PX4_OK, j)) ∨
    ((∀ j, k ≤ j → j < k + n → nodes j = some true) ∧
      tryInstances true false fault nodes n k = (nodes, -ENOMEM, k + n - 1)) := by
  induction n generalizing k with
  | zero =>
    right
    refine ⟨fun j hj hlt => by omega, rfl⟩
  | succ n ih =>
    have hhere : nodes k ≠ some true → FirstFree nodes k (n + 1) k := by
      intro h
      exact ⟨le_refl k, by omega, h, fun l hl hlt => by omega⟩
    have hnext : nodes k = some true →
        tryInstances true false fault nodes (n + 1) k =
          tryInstances true false fault nodes n (k + 1) := by
      intro h
      simp [tryInstances, hf, h]
    rcases hk : nodes k with _ | _ | _
    · left
      exact ⟨k, hhere (by simp [hk]), by simp [tryInstances, hf, hk]⟩
    · left
      exact ⟨k, hhere (by simp [hk]), by simp [tryInstances, hf, hk]⟩
    · rw [hnext hk]
      rcases ih (k + 1) with ⟨j, ⟨hle, hlt, hfree, htaken⟩, heq⟩ | ⟨hall, heq⟩
      · left
        refine ⟨j, ⟨by omega, by omega, hfree, ?_⟩, heq⟩
        intro l hl hlj
        rcases Nat.eq_or_lt_of_le hl with rfl | hlt'
        · exact hk
        · exact htaken l hlt' hlj
      · right
        constructor
        · intro j hj hlt
          rcases Nat.eq_or_lt_of_le hj with rfl | hlt'
          · exact hk
          · exact hall j hlt' (by omega)
        · rw [heq]
          congr 2
          omega

/-- A granted instance had its flag down; without a grant nothing changes. -/
def Outcome (nodes : Nodes) (k n : ℕ) (r : Nodes × ℤ × ℕ) : Prop :=
  (∃ j, k ≤ j ∧ j < k + n ∧ nodes j ≠ some true ∧
    r = (Function.update nodes j (some true), PX4_OK, j)) ∨
  (∃ j, r = (nodes, -ENOMEM, j))

theorem Outcome.of_succ {nodes : Nodes} {k n : ℕ} {r : Nodes × ℤ × ℕ}
    (h : Outcome nodes (k + 1) n r) : Outcome nodes k (n + 1) r := by
  rcases h with ⟨j, hle, hlt, hfree, h⟩ | hnone
  · exact .inl ⟨j, by omega, by omega, hfree, h⟩
  · exact .inr hnone

theorem tryInstances_outcome (nodes : Nodes) (fault : ℕ → Fault) (n k : ℕ) :
    Outcome nodes k n (tryInstances true false fault nodes n k) := by
  induction n generalizing k with
  | zero => exact .inr ⟨k - 1, rfl⟩
  | succ n ih =>
    by_cases halloc : fault k = .alloc
    · exact .inr ⟨k, by simp [tryInstances, halloc]⟩
    · rcases hk : nodes k with _ | _ | _
      · by_cases hreg : fault k = .register
        · have heq : tryInstances true false fault nodes (n + 1) k =
              tryInstances true false fault nodes n (k + 1) := by
            simp [tryInstances, hreg, hk]
          rw [heq]
          exact (ih (k + 1)).of_succ
        · exact .inl ⟨k, le_refl k, by omega, by simp [hk],
            by simp [tryInstances, halloc, hreg, hk]⟩
      · exact .inl ⟨k, le_refl k, by omega, by simp [hk], by simp [tryInstances, halloc, hk]⟩
      · have heq : tryInstances true false fault nodes (n + 1) k =
            tryInstances true false fault nodes n (k + 1) := by
          simp [tryInstances, halloc, hk]
        rw [heq]
        exact (ih (k + 1)).of_succ

theorem tryInstances_subscriber (nodes : Nodes) (fault : ℕ → Fault) (n k j : ℕ) :
    (tryInstances false false fault nodes n k).1 j = some true ↔ nodes j = some true := by
  induction n generalizing k with
  | zero => rfl
  | succ n ih =>
    unfold tryInstances
    split
    · rfl
    · split
      · next hk =>
        split
        · exact ih (k + 1)
        · by_cases hjk : j = k
          · subst hjk
            simp [hk]
          · simp [Function.update_of_ne hjk]
      · simp

end DeviceMaster

/-! ### The publishers of a topic -/

/-- The nodes of one topic and its publishers: the handle each was granted last, and
whether it is advertised, that is, has not given it back. -/
structure Topic (ι : Type*) where
  nodes : Nodes := fun _ => none
  handle : ι → Option ℕ := fun _ => none
  advertised : ι → Bool := fun _ => false

/-- A publisher asks for an instance, or gives its handle back; a subscriber asks for
instance `k`, which creates the node if there is none. -/
inductive Topic.Event (ι : Type*)
  | advertise (i : ι) (fault : ℕ → Fault)
  | unadvertise (i : ι)
  | subscribe (k : ℕ) (fault : ℕ → Fault)

namespace Topic

variable {ι : Type*}

/-- Instance `k` is the one of a publisher that is advertised. -/
def Held (s : Topic ι) (k : ℕ) : Prop := ∃ i, s.advertised i = true ∧ s.handle i = some k

/-- The flags are up on the instances that are held, each by one publisher. -/
structure Invariant (max : ℕ) (s : Topic ι) : Prop where
  flag : ∀ k, s.nodes k = some true ↔ s.Held k
  distinct : ∀ i j, s.advertised i = true → s.advertised j = true → s.handle i = s.handle j → i = j
  bounded : ∀ i, s.advertised i = true → ∃ k < max, s.handle i = some k

theorem invariant_init (max : ℕ) : Invariant max ({} : Topic ι) where
  flag k := by simp [Held]
  distinct i j hi := by simp at hi
  bounded i hi := by simp at hi

variable [DecidableEq ι]

/-- One call.  A publisher that is advertised does not ask again. -/
def step (max : ℕ) (s : Topic ι) : Event ι → Topic ι
  | .advertise i fault =>
    if s.advertised i then s
    else
      let r := DeviceMaster.advertise max s.nodes true (some 0) fault
      if r.2.1 = PX4_OK then
        { nodes := r.1
          handle := Function.update s.handle i (some r.2.2)
          advertised := Function.update s.advertised i true }
      else { s with nodes := r.1 }
  | .unadvertise i =>
    { s with
      nodes := DeviceMaster.unadvertise s.nodes (s.handle i)
      advertised := Function.update s.advertised i false }
  | .subscribe k fault =>
    { s with nodes := (DeviceMaster.advertise max s.nodes false (some k) fault).1 }

/-- Who gives a handle back does not free the instance of another publisher. -/
def Owns (s : Topic ι) : Event ι → Prop
  | .unadvertise i => ∀ j, j ≠ i → s.advertised j = true → s.handle j ≠ s.handle i
  | _ => True

/-- The state after instance `k` has been granted to `i`. -/
def grant (s : Topic ι) (i : ι) (k : ℕ) : Topic ι where
  nodes := Function.update s.nodes k (some true)
  handle := Function.update s.handle i (some k)
  advertised := Function.update s.advertised i true

theorem Invariant.grant {max : ℕ} {s : Topic ι} (hs : Invariant max s) {i : ι} {k : ℕ}
    (hi : s.advertised i = false) (hk : k < max) (hfree : s.nodes k ≠ some true) :
    Invariant max (s.grant i k) := by
  have hnot : ∀ j, s.advertised j = true → s.handle j ≠ some k := by
    intro j hj hjk
    exact hfree ((hs.flag k).mpr ⟨j, hj, hjk⟩)
  have hother : ∀ j, s.advertised j = true → j ≠ i := by
    intro j hj hji
    rw [hji, hi] at hj
    exact absurd hj (by simp)
  refine ⟨?_, ?_, ?_⟩
  · intro l
    unfold Held Topic.grant
    dsimp only
    by_cases hl : l = k
    · subst hl
      simp only [Function.update_self, true_iff]
      exact ⟨i, by simp, by simp⟩
    · rw [Function.update_of_ne hl, hs.flag l]
      constructor
      · rintro ⟨j, hj, hjl⟩
        exact ⟨j, by simp [hother j hj, hj], by simp [hother j hj, hjl]⟩
      · rintro ⟨j, hj, hjl⟩
        by_cases hji : j = i
        · subst hji
          rw [Function.update_self, Option.some.injEq] at hjl
          exact absurd hjl.symm hl
        · rw [Function.update_of_ne hji] at hj hjl
          exact ⟨j, hj, hjl⟩
  · intro j j' hj hj' heq
    unfold Topic.grant at hj hj' heq
    dsimp only at hj hj' heq
    by_cases hji : j = i <;> by_cases hji' : j' = i
    · exact hji.trans hji'.symm
    · subst hji
      rw [Function.update_self, Function.update_of_ne hji'] at heq
      rw [Function.update_of_ne hji'] at hj'
      exact absurd heq.symm (hnot j' hj')
    · subst hji'
      rw [Function.update_self, Function.update_of_ne hji] at heq
      rw [Function.update_of_ne hji] at hj
      exact absurd heq (hnot j hj)
    · rw [Function.update_of_ne hji] at hj heq
      rw [Function.update_of_ne hji'] at hj' heq
      exact hs.distinct j j' hj hj' heq
  · intro j hj
    unfold Topic.grant at hj ⊢
    dsimp only at hj ⊢
    by_cases hji : j = i
    · subst hji
      exact ⟨k, hk, Function.update_self _ _ _⟩
    · rw [Function.update_of_ne hji] at hj ⊢
      exact hs.bounded j hj

theorem step_granted {max : ℕ} {s : Topic ι} {i : ι} (hi : s.advertised i = false)
    {fault : ℕ → Fault} {k : ℕ} (h : DeviceMaster.tryInstances true false fault s.nodes max 0 =
      (Function.update s.nodes k (some true), PX4_OK, k)) :
    s.step max (.advertise i fault) = s.grant i k := by
  simp [step, hi, DeviceMaster.advertise_zero, h, grant]

theorem step_refused {max : ℕ} {s : Topic ι} {i : ι} (hi : s.advertised i = false)
    {fault : ℕ → Fault} {k : ℕ} (h : DeviceMaster.tryInstances true false fault s.nodes max 0 =
      (s.nodes, -ENOMEM, k)) :
    s.step max (.advertise i fault) = s := by
  simp [step, hi, DeviceMaster.advertise_zero, h, ENOMEM, PX4_OK]

theorem step_advertise (max : ℕ) (s : Topic ι) {i : ι} (hi : s.advertised i = false)
    (fault : ℕ → Fault) :
    (∃ k < max, s.nodes k ≠ some true ∧ s.step max (.advertise i fault) = s.grant i k) ∨
    s.step max (.advertise i fault) = s := by
  rcases DeviceMaster.tryInstances_outcome s.nodes fault max 0 with
    ⟨k, -, hk, hfree, heq⟩ | ⟨k, heq⟩
  · exact .inl ⟨k, by omega, hfree, step_granted hi heq⟩
  · exact .inr (step_refused hi heq)

theorem step_advertise_noFault (max : ℕ) (s : Topic ι) {i : ι} (hi : s.advertised i = false)
    {fault : ℕ → Fault} (hf : ∀ k, fault k = .none) :
    (∃ k < max, s.nodes k ≠ some true ∧ (∀ l < k, s.nodes l = some true) ∧
      s.step max (.advertise i fault) = s.grant i k) ∨
    ((∀ k < max, s.nodes k = some true) ∧ s.step max (.advertise i fault) = s) := by
  rcases DeviceMaster.tryInstances_advertiser s.nodes hf max 0 with
    ⟨k, ⟨-, hk, hfree, htaken⟩, heq⟩ | ⟨hall, heq⟩
  · left
    exact ⟨k, by omega, hfree, fun l hl => htaken l (Nat.zero_le l) hl, step_granted hi heq⟩
  · right
    exact ⟨fun k hk => hall k (Nat.zero_le k) (by omega), step_refused hi heq⟩

theorem Invariant.unadvertise {max : ℕ} {s : Topic ι} (hs : Invariant max s) {i : ι}
    (howns : Owns s (.unadvertise i)) : Invariant max (s.step max (.unadvertise i)) := by
  have hheld : ∀ j, Function.update s.advertised i false j = true →
      j ≠ i ∧ s.advertised j = true := by
    intro j hj
    by_cases hji : j = i
    · subst hji
      rw [Function.update_self] at hj
      exact absurd hj (by simp)
    · rw [Function.update_of_ne hji] at hj
      exact ⟨hji, hj⟩
  refine ⟨?_, ?_, ?_⟩
  · intro k
    have hback : Held (s.step max (.unadvertise i)) k ↔ s.Held k ∧ s.handle i ≠ some k := by
      constructor
      · rintro ⟨j, hj, hjk⟩
        obtain ⟨hji, hjadv⟩ := hheld j hj
        refine ⟨⟨j, hjadv, hjk⟩, ?_⟩
        intro hik
        exact howns j hji hjadv (hjk.trans hik.symm)
      · rintro ⟨⟨j, hj, hjk⟩, hik⟩
        have hji : j ≠ i := fun h => hik (h ▸ hjk)
        refine ⟨j, ?_, hjk⟩
        show Function.update s.advertised i false j = true
        rw [Function.update_of_ne hji]
        exact hj
    rw [hback, ← hs.flag k]
    show DeviceMaster.unadvertise s.nodes (s.handle i) k = some true ↔ _
    rcases hh : s.handle i with _ | l
    · simp [DeviceMaster.unadvertise]
    · by_cases hkl : k = l
      · subst hkl
        simp [DeviceMaster.unadvertise]
      · simp [DeviceMaster.unadvertise, Function.update_of_ne hkl, Ne.symm hkl]
  · intro j j' hj hj' heq
    exact hs.distinct j j' (hheld j hj).2 (hheld j' hj').2 heq
  · intro j hj
    exact hs.bounded j (hheld j hj).2

theorem invariant_step {max : ℕ} {s : Topic ι} (hs : Invariant max s) {e : Event ι}
    (howns : Owns s e) : Invariant max (s.step max e) := by
  rcases e with ⟨i, fault⟩ | i | ⟨k, fault⟩
  · by_cases hi : s.advertised i = true
    · have hstep : s.step max (.advertise i fault) = s := by simp [step, hi]
      rw [hstep]
      exact hs
    · rw [Bool.not_eq_true] at hi
      rcases step_advertise max s hi fault with ⟨k, hk, hfree, heq⟩ | heq
      · rw [heq]
        exact hs.grant hi hk hfree
      · rw [heq]
        exact hs
  · exact hs.unadvertise howns
  · refine ⟨?_, hs.distinct, hs.bounded⟩
    intro l
    rw [show Held (s.step max (.subscribe k fault)) l ↔ s.Held l from Iff.rfl, ← hs.flag l]
    show (DeviceMaster.advertise max s.nodes false (some k) fault).1 l = some true ↔ _
    unfold DeviceMaster.advertise
    dsimp only
    split
    · rfl
    · exact DeviceMaster.tryInstances_subscriber _ _ _ _ _

/-- No two advertised publishers share an instance, and each has one of the topic's. -/
def Exclusive (max : ℕ) (s : Topic ι) : Prop :=
  (∀ i j, s.advertised i = true → s.advertised j = true → s.handle i = s.handle j → i = j) ∧
  (∀ i, s.advertised i = true → ∃ k < max, s.handle i = some k)

/-- A request (without lack of memory) fails exactly when all instances are held, and
otherwise gets the first that is not. -/
def RequestLaw (max : ℕ) (s : Topic ι) : Prop :=
  ∀ i fault, s.advertised i = false → (∀ k, fault k = .none) →
    ((s.step max (.advertise i fault)).advertised i = false ↔ ∀ k < max, s.Held k) ∧
    (∀ k < max, ¬ s.Held k → (∀ l < k, s.Held l) →
      (s.step max (.advertise i fault)).advertised i = true ∧
      (s.step max (.advertise i fault)).handle i = some k)

theorem Invariant.requestLaw {max : ℕ} {s : Topic ι} (hs : Invariant max s) : RequestLaw max s := by
  intro i fault hi hf
  rcases step_advertise_noFault max s hi hf with ⟨k, hk, hfree, htaken, heq⟩ | ⟨hall, heq⟩
  · have hfree' : ¬ s.Held k := fun h => hfree ((hs.flag k).mpr h)
    rw [heq]
    constructor
    · constructor
      · intro h
        simp [Topic.grant] at h
      · intro h
        exact absurd (h k hk) hfree'
    · intro l hl hnot hbelow
      have hkl : k = l := by
        rcases Nat.lt_trichotomy k l with hlt | heq' | hgt
        · exact absurd (hbelow k hlt) hfree'
        · exact heq'
        · exact absurd ((hs.flag l).mp (htaken l hgt)) hnot
      subst hkl
      simp [Topic.grant]
  · rw [heq]
    constructor
    · exact ⟨fun _ k hk => (hs.flag k).mp (hall k hk), fun _ => hi⟩
    · intro l hl hnot
      exact absurd ((hs.flag l).mp (hall l hl)) hnot

/-- In every run in which nobody frees the instance of another publisher, advertised
publishers never share an instance, a request fails exactly when all are held, and an
instance given back is free again. -/
theorem advertise_exclusive (max : ℕ) (es : List (Event ι))
    (h : Trace.Always (step max) Owns ({} : Topic ι) es) :
    Exclusive max (Trace.run (step max) {} es) ∧
    RequestLaw max (Trace.run (step max) ({} : Topic ι) es) ∧
    ∀ i k, (Trace.run (step max) {} es).advertised i = true →
      (Trace.run (step max) {} es).handle i = some k →
      k < max ∧ ¬ Held ((Trace.run (step max) {} es).step max (.unadvertise i)) k ∧
      RequestLaw max ((Trace.run (step max) {} es).step max (.unadvertise i)) := by
  have hs : Invariant max (Trace.run (step max) ({} : Topic ι) es) :=
    Trace.run_of_invariant (I := Invariant max) (fun _ _ hs he => invariant_step hs he)
      (invariant_init max) h
  generalize Trace.run (step max) ({} : Topic ι) es = s at hs
  refine ⟨⟨hs.distinct, hs.bounded⟩, hs.requestLaw, ?_⟩
  intro i k hi hk
  have howns : Owns s (.unadvertise i) := by
    intro j hji hj heq
    exact hji (hs.distinct j i hj hi heq)
  have hs' := hs.unadvertise howns
  obtain ⟨k', hk', heq⟩ := hs.bounded i hi
  rw [hk, Option.some.injEq] at heq
  refine ⟨heq ▸ hk', ?_, hs'.requestLaw⟩
  rw [← hs'.flag k]
  simp [step, DeviceMaster.unadvertise, hk]

def fine : ℕ → Fault := fun _ => .none

/-- Three publishers and a subscriber, with an instance given back in between. -/
theorem advertise_exclusive_three :
    Exclusive 4 (Trace.run (step 4) {} [.subscribe 0 fine, .advertise (0 : Fin 3) fine,
      .advertise 1 fine, .unadvertise 0, .advertise 2 fine]) := by
  have howns : Trace.Always (step 4) Owns {} [.subscribe 0 fine, .advertise (0 : Fin 3) fine,
      .advertise 1 fine, .unadvertise 0, .advertise 2 fine] := by
    simp only [Trace.always_cons, Trace.always_nil, Owns]
    decide
  exact (advertise_exclusive 4 _ howns).1

/-- Publisher 0 gives its handle back twice, as `~PublicationBase` does after an explicit
`unadvertise`; in between its instance has been granted to publisher 1. -/
theorem stale_unadvertise_shares :
    ¬ Exclusive 4 (Trace.run (step 4) {} [.advertise (0 : Fin 3) fine, .unadvertise 0,
      .advertise 1 fine, .unadvertise 0, .advertise 2 fine]) := by
  intro h
  have hshare := h.1 1 2 (by decide) (by decide) (by decide)
  exact nomatch hshare

end Topic

end uORB
