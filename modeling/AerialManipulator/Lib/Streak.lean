/-
The last row of true values in a list.

* `length_append_of_forall`, `length_append_of_mem` — the row goes on, or starts again;
* `foldl_count` — a counter that is reset has its length;
* `length_flatten` — the row over the values of blocks of one size, and over the blocks.
-/
import AerialManipulator.Lib.Literals

namespace Streak

def length (l : List Bool) : ℕ := (l.rtakeWhile id).length

@[simp] theorem length_concat_true (l : List Bool) : length (l ++ [true]) = length l + 1 := by
  rw [length, List.rtakeWhile_concat_pos _ _ _ rfl, List.length_append, List.length_singleton,
    length]

@[simp] theorem length_concat_false (l : List Bool) : length (l ++ [false]) = 0 := by
  rw [length, List.rtakeWhile_concat_neg _ _ _ Bool.false_ne_true, List.length_nil]

theorem length_le (l : List Bool) : length l ≤ l.length :=
  (List.rtakeWhile_suffix id l).length_le

theorem length_append_of_forall {l m : List Bool} (h : ∀ b ∈ m, b = true) :
    length (l ++ m) = length l + m.length := by
  induction m using List.reverseRecOn with
  | nil => rw [List.append_nil, List.length_nil, add_zero]
  | append_singleton m b ih =>
    obtain rfl := h b (List.mem_append_right _ (List.mem_singleton_self b))
    rw [← List.append_assoc, length_concat_true, ih fun b hb => h b (List.mem_append_left _ hb),
      List.length_append, List.length_singleton, add_assoc]

theorem length_append_of_mem {l m : List Bool} (h : false ∈ m) : length (l ++ m) = length m := by
  induction m using List.reverseRecOn with
  | nil => exact nomatch h
  | append_singleton m b ih =>
    cases b with
    | false => rw [← List.append_assoc, length_concat_false, length_concat_false]
    | true =>
      have hm : false ∈ m := (List.mem_append.mp h).resolve_right (by simp)
      rw [← List.append_assoc, length_concat_true, length_concat_true, ih hm]

theorem length_lt_of_mem {m : List Bool} (h : false ∈ m) : length m < m.length := by
  refine lt_of_le_of_ne (length_le m) fun heq => ?_
  have hall := (List.rtakeWhile_suffix id m).eq_of_length heq
  exact Bool.false_ne_true (List.mem_rtakeWhile_imp (hall.symm ▸ h))

theorem length_of_forall_false {l : List Bool} (h : ∀ b ∈ l, b = false) : length l = 0 := by
  rcases l.eq_nil_or_concat' with rfl | ⟨init, last, rfl⟩
  · rfl
  · rw [h last (List.mem_append_right _ (List.mem_singleton_self last)), length_concat_false]

theorem foldl_count (l m : List Bool) :
    m.foldl (fun n b => if b then n + 1 else 0) (UInt32.ofNat (length l)) =
      UInt32.ofNat (length (l ++ m)) := by
  induction m generalizing l with
  | nil => rw [List.append_nil, List.foldl_nil]
  | cons b m ih =>
    have hstep : (if b then UInt32.ofNat (length l) + 1 else 0) =
        UInt32.ofNat (length (l ++ [b])) := by
      cases b with
      | true =>
        rw [if_pos rfl, length_concat_true, UInt32.ofNat_add]
        rfl
      | false =>
        rw [if_neg Bool.false_ne_true, length_concat_false]
        rfl
    rw [List.foldl_cons, hstep, ih, List.append_assoc, List.singleton_append]

theorem length_flatten {k : ℕ} (hk : 0 < k) {bs : List (List Bool)} (h : ∀ b ∈ bs, b.length = k) :
    ∃ rest < k, length bs.flatten = k * length (bs.map (·.all id)) + rest := by
  induction bs using List.reverseRecOn with
  | nil => exact ⟨0, hk, rfl⟩
  | append_singleton bs b ih =>
    obtain ⟨rest, hrest, hlen⟩ := ih fun b hb => h b (List.mem_append_left _ hb)
    have hb : b.length = k := h b (List.mem_append_right _ (List.mem_singleton_self b))
    rw [List.flatten_concat, List.map_append, List.map_singleton]
    cases hall : b.all id with
    | true =>
      rw [length_append_of_forall (List.all_eq_true.mp hall), length_concat_true, hlen, hb]
      exact ⟨rest, hrest, by ring⟩
    | false =>
      have hmem : false ∈ b := by
        obtain ⟨x, hx, hfalse⟩ := List.all_eq_false.mp hall
        exact (Bool.not_eq_true x ▸ hfalse : x = false) ▸ hx
      rw [length_append_of_mem hmem, length_concat_false]
      exact ⟨length b, hb ▸ length_lt_of_mem hmem, by ring⟩

end Streak
