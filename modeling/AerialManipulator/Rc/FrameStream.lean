/-
How the parser for CRSF and GHST cuts the stream of the bytes.

While it is not in sync it passes over the bytes in which no length and type fit together.  From the
first ones that do, it goes from frame to frame, as their lengths say, until a length is impossible:
then it drops what it has.  It never goes back: of a frame that lost some bytes and of the next one
it makes a frame of its own.

* `Cut` — the frames that a stream has been cut into, and what is left of it;
* `Reads.turn` — one turn of the loop passes over at most one frame, and accepts it if and only if
  it is verified;
* **`reads_parseLoop`** — so a call accepts the frames that are verified among those it passes over.
-/
import AerialManipulator.Rc.FrameParser

open ByteStore CommonRc

namespace FrameParser

variable {α : Type} {F : Format α} {p : Parser α}

instance (F : Format α) (f : List UInt8) : Decidable (Verified F f) :=
  decidable_of_iff (F.isRc (f.getD 1 0) (f.getD 2 0) = true ∧ f.length = (f.getD 1 0).toNat + 2 ∧
    f.getD (f.length - 1) 0 = checksum f) ⟨fun h => ⟨h.1, h.2.1, h.2.2⟩, fun h => ⟨h.1, h.2, h.3⟩⟩

def lengthOf (s : List UInt8) : ℕ := (s.getD 1 0).toNat + 2

/-- A length and a type that fit together are behind the byte `i`. -/
def HeaderAt (F : Format α) (s : List UInt8) (i : ℕ) : Prop :=
  i + 2 < s.length ∧ F.isRc (s.getD (i + 1) 0) (s.getD (i + 2) 0) = true

/-- The stream has been cut into these frames, the last one first; whether the parser is in sync,
and the bytes that are left. -/
inductive Cut (F : Format α) (stream : List UInt8) : List (List UInt8) → Bool → List UInt8 → Prop
  | start : Cut F stream [] false stream
  | skip {fs : List (List UInt8)} {bs rest : List UInt8} : Cut F stream fs false (bs ++ rest) →
      2 ≤ rest.length → (∀ i < bs.length, ¬ HeaderAt F (bs ++ rest) i) → Cut F stream fs false rest
  | sync {fs : List (List UInt8)} {rest : List UInt8} : Cut F stream fs false rest →
      HeaderAt F rest 0 → Cut F stream fs true rest
  | frame {fs : List (List UInt8)} {f rest : List UInt8} : Cut F stream fs true (f ++ rest) →
      4 ≤ f.length → f.length ≤ F.size → lengthOf f = f.length → Cut F stream (f :: fs) true rest
  | drop {fs : List (List UInt8)} {bs rest : List UInt8} : Cut F stream fs true (bs ++ rest) →
      3 ≤ bs.length → bs.length ≤ F.size → (F.size < lengthOf bs ∨ lengthOf bs < 4) →
      Cut F stream fs false rest

theorem getD_append_left {s bytes : List UInt8} {i : ℕ} (h : i < s.length) :
    (s ++ bytes).getD i 0 = s.getD i 0 := by
  rw [List.getD_eq_getElem?_getD, List.getElem?_append_left h, List.getD_eq_getElem?_getD]

theorem headerAt_append {s bytes : List UInt8} {i : ℕ} (h : i + 2 < s.length) :
    HeaderAt F (s ++ bytes) i ↔ HeaderAt F s i := by
  have hlonger : i + 2 < (s ++ bytes).length := by
    rw [List.length_append]
    omega
  rw [HeaderAt, HeaderAt, getD_append_left (by omega), getD_append_left h,
    and_iff_right hlonger, and_iff_right h]

theorem Cut.append {stream : List UInt8} {fs : List (List UInt8)} {b : Bool} {rest : List UInt8}
    (h : Cut F stream fs b rest) (bytes : List UInt8) :
    Cut F (stream ++ bytes) fs b (rest ++ bytes) := by
  induction h with
  | start => exact .start
  | @skip fs bs rest _ hrest hnone ih =>
    rw [List.append_assoc] at ih
    refine .skip ih (hrest.trans (by rw [List.length_append]; omega)) fun i hi => ?_
    rw [← List.append_assoc, headerAt_append (by rw [List.length_append]; omega)]
    exact hnone i hi
  | sync _ hheader ih => exact .sync ih ((headerAt_append hheader.1).mpr hheader)
  | frame _ hmin hmax hlength ih =>
    rw [List.append_assoc] at ih
    exact .frame ih hmin hmax hlength
  | drop _ hmin hmax hlength ih =>
    rw [List.append_assoc] at ih
    exact .drop ih hmin hmax hlength

/-- The buffer holds what is left of the stream. -/
structure Reads (F : Format α) (stream : List UInt8) (fs : List (List UInt8)) (p : Parser α) :
    Prop where
  cut : Cut F stream fs p.synced p.content
  position : p.position < F.size

section Buffer

variable {stream : List UInt8} {fs : List (List UInt8)}

@[simp] theorem length_content : p.content.length = p.position := length_slice p.frame 0 p.position

theorem getD_content {i : ℕ} (h : i < p.position) : p.content.getD i 0 = p.frame i :=
  getD_slice p.frame h

theorem headerAt_content {i : ℕ} (h : i + 2 < p.position) :
    HeaderAt F p.content i ↔ F.isRc (p.frame (i + 1)) (p.frame (i + 2)) = true := by
  rw [HeaderAt, length_content, getD_content (by omega), getD_content h, and_iff_right h]

theorem lengthOf_content (h : 1 < p.position) : lengthOf p.content = p.frameLength := by
  rw [lengthOf, getD_content h, Parser.frameLength]

theorem cut_synchronize (hp : 1 ≤ p.position) (hp' : p.position < 2 ^ 32)
    (h : Cut F stream fs p.synced p.content) :
    Cut F stream fs (p.synchronize F).1.synced (p.synchronize F).1.content ∧
      ((p.synchronize F).1.synced = false → (p.synchronize F).1 = p ∧
        ∀ i, i + 2 < p.position → ¬ HeaderAt F p.content i) := by
  have hplaces := places_eq hp hp'
  unfold Parser.synchronize
  split
  next hsynced => exact ⟨h, fun hfalse => absurd (hsynced.symm.trans hfalse) (by decide)⟩
  next hsynced =>
    rw [Bool.not_eq_true] at hsynced
    split
    next hnone =>
      refine ⟨h, fun _ => ⟨rfl, fun i hi hheader => ?_⟩⟩
      have hmem : i + 1 ∈ List.range' 1 p.places := List.mem_range'_1.mpr (by omega)
      exact List.find?_eq_none.mp hnone _ hmem ((headerAt_content hi).mp hheader)
    next i hi =>
      have hi' := List.mem_range'_1.mp (List.mem_of_find?_eq_some hi)
      have hbefore : ∀ j, j + 1 < i → ¬ HeaderAt F p.content j := by
        intro j hj hheader
        rw [headerAt_content (by omega)] at hheader
        have hnone := (List.find?_range'_eq_some.mp hi).2.2 (j + 1) (by omega) hj
        rw [hheader] at hnone
        exact nomatch hnone
      have hheader : HeaderAt F (p.content.drop (i - 1)) 0 := by
        have hfound := List.find?_some hi
        have hat : HeaderAt F p.content (i - 1) := by
          rw [headerAt_content (by omega), show i - 1 + 1 = i by omega,
            show i - 1 + 2 = i + 1 by omega]
          exact hfound
        obtain ⟨hlength, hrc⟩ := hat
        refine ⟨by rw [List.length_drop]; omega, ?_⟩
        rwa [List.getD_eq_getElem?_getD, List.getD_eq_getElem?_getD, List.getElem?_drop,
          List.getElem?_drop, ← List.getD_eq_getElem?_getD, ← List.getD_eq_getElem?_getD]
      have hskipped : Cut F stream fs false (p.content.drop (i - 1)) := by
        rw [hsynced, ← List.take_append_drop (i - 1) p.content] at h
        refine .skip h (by rw [List.length_drop, length_content]; omega) fun j hj => ?_
        rw [List.take_append_drop]
        rw [List.length_take] at hj
        exact hbefore j (by omega)
      have hsync := hskipped.sync hheader
      split
      next =>
        refine ⟨?_, fun hfalse => nomatch hfalse⟩
        have hmoved := content_moveToFront (p := { p with synced := true })
          (show i - 1 ≤ p.position by omega)
        dsimp only
        rw [hmoved]
        exact hsync
      next hzero =>
        refine ⟨?_, fun hfalse => nomatch hfalse⟩
        rw [show i - 1 = 0 by omega, List.drop_zero] at hsync
        exact hsync

theorem content_discard (hF : F.Ok) (h : p.position = F.size) :
    (p.discard F).content = p.content.drop (F.size - 3) := by
  have hpos := hF.pos
  have hself := slice_put_self p.frame 0 (slice p.frame (F.size - 3) 3)
  rw [length_slice] at hself
  rw [Parser.content, Parser.content, slice_drop _ _ (by omega), Nat.zero_add, h,
    show F.size - (F.size - 3) = 3 by omega]
  exact hself

theorem acceptFrame_iff (hlen : 2 ≤ (p.frame 1).toNat) (hle : p.frameLength ≤ p.position) :
    (p.acceptFrame F).2.2 =
      if Verified F (p.content.take p.frameLength) then some (p.content.take p.frameLength)
      else none := by
  have hlength : p.frameLength = (p.frame 1).toNat + 2 := rfl
  rw [Parser.content, slice_take p.frame 0 hle]
  have hone := getD_slice p.frame (show 1 < p.frameLength by omega)
  have htwo := getD_slice p.frame (show 2 < p.frameLength by omega)
  unfold Parser.acceptFrame
  split
  next hrc =>
    split
    next hcrc => rw [if_pos (verified_slice hlen hrc hcrc)]
    next hcrc =>
      rw [if_neg]
      intro hverified
      have hlast := hverified.crc
      rw [length_slice, getD_slice _ (by omega), checksum_slice hlen] at hlast
      rw [show 3 + ((p.frame 1).toNat - 2) = p.frameLength - 1 by omega] at hcrc
      exact hcrc hlast
  next hrc =>
    rw [if_neg]
    intro hverified
    have hrc' := hverified.isRc
    rw [hone, htwo] at hrc'
    exact hrc hrc'

theorem cut_handleFrame (hsynced : p.synced = true) (hp : p.position ≤ F.size)
    (h : Cut F stream fs p.synced p.content) :
    ∃ new, Cut F stream (new ++ fs) (p.handleFrame F).1.synced (p.handleFrame F).1.content ∧
      (p.handleFrame F).2.2.toList = new.filter (Verified F ·) := by
  have hsame : ∃ new, Cut F stream (new ++ fs) p.synced p.content ∧
      ([] : List (List UInt8)) = new.filter (Verified F ·) := ⟨[], h, rfl⟩
  unfold Parser.handleFrame
  split
  next => exact hsame
  next hheader =>
    have hlengthOf := lengthOf_content (p := p) (by omega)
    split
    next hbad =>
      refine ⟨[], ?_, rfl⟩
      rw [hsynced, ← List.append_nil p.content] at h
      rw [← hlengthOf] at hbad
      exact .drop h (by rw [length_content]; omega) (by rwa [length_content]) hbad
    next hfits =>
      split
      next => exact hsame
      next hfull =>
        obtain ⟨hcontent, hposition, hsynced'⟩ := @acceptFrame_fields α F p
        have hle : p.frameLength ≤ p.position := Nat.le_of_not_lt hfull
        obtain ⟨hcontent', -, hsynced''⟩ :=
          content_removeFrame (p := (p.acceptFrame F).1) (hposition.symm ▸ hle)
        have hframe : lengthOf (p.content.take p.frameLength) = p.frameLength := by
          rw [← hlengthOf, lengthOf, lengthOf, List.getD_eq_getElem?_getD,
            List.getElem?_take_of_lt (by omega), ← List.getD_eq_getElem?_getD]
        have hlength : (p.content.take p.frameLength).length = p.frameLength := by
          rw [List.length_take, length_content, Nat.min_eq_left hle]
        have hdecoded := acceptFrame_iff (F := F) (p := p)
          (by rw [Parser.frameLength] at hfits; omega) hle
        refine ⟨[p.content.take p.frameLength], ?_, ?_⟩
        · dsimp only
          rw [hsynced'', hsynced', hsynced, hcontent', hcontent]
          rw [hsynced, ← List.take_append_drop p.frameLength p.content] at h
          exact .frame h (by omega) (by omega) (hframe.trans hlength.symm)
        · dsimp only
          rw [hdecoded, List.filter_singleton]
          by_cases hverified : Verified F (p.content.take p.frameLength)
          · rw [if_pos hverified, decide_eq_true hverified]
            rfl
          · rw [if_neg hverified, decide_eq_false hverified]
            rfl

theorem Reads.turn (hF : F.Ok) (h : Reads F stream fs p) {bytes : List UInt8} (hne : bytes ≠ []) :
    ∃ new, Reads F (stream ++ bytes.take (p.currentLen F bytes.length)) (new ++ fs)
        (p.next F bytes) ∧ (p.turn F bytes).decoded.toList = new.filter (Verified F ·) := by
  have hlt := hF.lt
  have hlen := currentLen_eq hF h.position bytes.length
  have hpos := List.length_pos_iff.mpr hne
  have hposition := h.position
  have hfill : (p.fill F bytes).position = p.position + p.currentLen F bytes.length := rfl
  have hfilled : Cut F (stream ++ bytes.take (p.currentLen F bytes.length)) fs
      (p.fill F bytes).synced (p.fill F bytes).content := by
    rw [content_fill]
    exact h.cut.append _
  obtain ⟨hnext, -⟩ := turn_spec hF h.position hne
  obtain ⟨hcut, hunsynced⟩ := cut_synchronize (by omega) (by omega) hfilled
  have hroom := (synchronize_spec hF (p := p.fill F bytes) (by omega) (by omega)).1
  suffices hhandled : ∃ new, Cut F (stream ++ bytes.take (p.currentLen F bytes.length)) (new ++ fs)
      ((p.fill F bytes).parseBuffer F).1.synced ((p.fill F bytes).parseBuffer F).1.content ∧
      ((p.fill F bytes).parseBuffer F).2.2.toList = new.filter (Verified F ·) by
    obtain ⟨new, hnew, hdecoded⟩ := hhandled
    exact ⟨new, ⟨hnew, hnext⟩, hdecoded⟩
  generalize p.fill F bytes = q at *
  unfold Parser.parseBuffer
  generalize q.synchronize F = r at *
  obtain ⟨q', searched⟩ := r
  dsimp only at hcut hunsynced hroom ⊢
  split
  next hfalse =>
    rw [Bool.not_eq_true'] at hfalse
    obtain ⟨rfl, hnone⟩ := hunsynced hfalse
    split
    next hge =>
      refine ⟨[], ?_, rfl⟩
      have hsize : q'.position = F.size := by omega
      have hmin := hF.pos
      rw [hfalse, ← List.take_append_drop (F.size - 3) q'.content] at hcut
      have hsynced : (q'.discard F).synced = false := hfalse
      dsimp only
      rw [hsynced, content_discard hF hsize]
      refine .skip hcut (by rw [List.length_drop, length_content]; omega) fun i hi => ?_
      rw [List.take_append_drop]
      rw [List.length_take] at hi
      exact hnone i (by omega)
    next => exact ⟨[], hcut, rfl⟩
  next htrue =>
    rw [Bool.not_eq_true', Bool.not_eq_false] at htrue
    exact cut_handleFrame htrue hroom hcut

theorem reads_parseLoop (hF : F.Ok) (h : Reads F stream fs p) (bytes : List UInt8) :
    ∃ r new, (∀ fuel ≥ bytes.length, Parser.parseLoop F fuel p bytes = some r) ∧
      Reads F (stream ++ bytes) (new ++ fs) r.1 ∧
      (frames r.2).reverse = new.filter (Verified F ·) := by
  induction hn : bytes.length using Nat.strong_induction_on generalizing p bytes stream fs with
  | _ n ih =>
    by_cases hne : bytes = []
    · subst hne
      refine ⟨(p, []), [], fun fuel _ => by rw [Parser.parseLoop], ?_, rfl⟩
      rwa [List.append_nil]
    · have hlen := currentLen_eq hF h.position bytes.length
      have hpos := List.length_pos_iff.mpr hne
      have hposition := h.position
      have hdrop := List.length_drop (l := bytes) (i := p.currentLen F bytes.length)
      obtain ⟨new, hturn, hdecoded⟩ := h.turn hF hne
      obtain ⟨r, new', hr, hreads, hframes⟩ :=
        ih _ (by omega) hturn (bytes.drop (p.currentLen F bytes.length)) rfl
      rw [List.append_assoc, List.take_append_drop, ← List.append_assoc] at hreads
      refine ⟨(r.1, p.turn F bytes :: r.2), new' ++ new, fun fuel hfuel => ?_, hreads, ?_⟩
      · obtain ⟨fuel, rfl⟩ : ∃ k, fuel = k + 1 := Nat.exists_eq_succ_of_ne_zero (by omega)
        rw [parseLoop_cons hF h.position fuel hne, hr fuel (by omega), Option.map_some]
      · have hone : (p.turn F bytes).decoded.toList.reverse =
            (p.turn F bytes).decoded.toList := by
          cases (p.turn F bytes).decoded <;> rfl
        rw [frames_cons, List.reverse_append, hone, hframes, hdecoded, List.filter_append]

end Buffer

end FrameParser
