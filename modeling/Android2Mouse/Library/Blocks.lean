import Mathlib.Algebra.Order.Floor.Div
import Mathlib.Data.List.Basic

/-!
# Cutting a list into blocks

`fullBlocks n s` are the complete blocks of length `n` at the front of `s`;
`blocks n s` adds the shorter rest, if any. Both are given by index, as a loop
with a running index produces them; `fullBlocks_append` and `blocks_append` are
the recursion over the blocks, and `block_induction` the matching induction.
-/
namespace Android2Mouse.Library

variable {α : Type}

def fullBlocks (n : ℕ) (s : List α) : List (List α) :=
  (List.range (s.length / n)).map fun k => (s.drop (n * k)).take n

def blocks (n : ℕ) (s : List α) : List (List α) :=
  fullBlocks n s ++ if s.length % n ≠ 0 then [s.drop (n * (s.length / n))] else []

theorem fullBlocks_of_lt (n : ℕ) (s : List α) (h : s.length < n) : fullBlocks n s = [] := by
  rw [fullBlocks, Nat.div_eq_of_lt h]
  rfl

private theorem drop_past (b s : List α) (n k : ℕ) (h : b.length = n) :
    (b ++ s).drop (n + k) = s.drop k := by
  rw [← h, List.drop_length_add_append]

theorem fullBlocks_append (n : ℕ) (pos : 0 < n) (b s : List α) (h : b.length = n) :
    fullBlocks n (b ++ s) = b :: fullBlocks n s := by
  have hcount : (b ++ s).length / n = s.length / n + 1 := by
    rw [List.length_append, h, Nat.add_div_left _ pos]
  have hrest : ∀ k, ((b ++ s).drop (n * (k + 1))).take n = (s.drop (n * k)).take n := by
    intro k
    rw [Nat.mul_succ, Nat.add_comm, drop_past b s n (n * k) h]
  rw [fullBlocks, hcount, List.range_succ_eq_map, List.map_cons, List.map_map]
  congr 1
  · rw [Nat.mul_zero, List.drop_zero, ← h, List.take_left']
    rfl
  · exact List.map_congr_left fun k _ => hrest k

theorem blocks_of_lt (n : ℕ) (s : List α) (h : s.length < n) (hne : s ≠ []) :
    blocks n s = [s] := by
  have hmod : s.length % n ≠ 0 := by
    rw [Nat.mod_eq_of_lt h]
    exact fun hz => hne (List.eq_nil_of_length_eq_zero hz)
  rw [blocks, fullBlocks_of_lt n s h, if_pos hmod, Nat.div_eq_of_lt h]
  simp

theorem blocks_nil (n : ℕ) : blocks n ([] : List α) = [] := by
  simp [blocks, fullBlocks]

theorem blocks_append (n : ℕ) (pos : 0 < n) (b s : List α) (h : b.length = n) :
    blocks n (b ++ s) = b :: blocks n s := by
  have hmod : (b ++ s).length % n = s.length % n := by
    rw [List.length_append, h, Nat.add_mod_left]
  have hdrop : (b ++ s).drop (n * ((b ++ s).length / n)) = s.drop (n * (s.length / n)) := by
    rw [List.length_append, h, Nat.add_div_left _ pos, Nat.mul_succ, Nat.add_comm, drop_past b s n _ h]
  rw [blocks, fullBlocks_append n pos b s h, hmod, hdrop, List.cons_append]
  rfl

theorem sublist_of_mem_blocks (n : ℕ) (s b : List α) (h : b ∈ blocks n s) : b.Sublist s := by
  rw [blocks, List.mem_append] at h
  rcases h with hfull | hrest
  · obtain ⟨k, _, rfl⟩ := List.mem_map.mp hfull
    exact (List.take_sublist _ _).trans (List.drop_sublist _ _)
  · split at hrest
    · rw [List.mem_singleton] at hrest
      subst hrest
      exact List.drop_sublist _ _
    · exact absurd hrest List.not_mem_nil

/-- Induction over the blocks of a list. -/
theorem block_induction (n : ℕ) (pos : 0 < n) {P : List α → Prop}
    (short : ∀ s, s.length < n → P s)
    (block : ∀ b s, b.length = n → P s → P (b ++ s)) (s : List α) : P s := by
  induction hlen : s.length using Nat.strongRecOn generalizing s with
  | ind m ih =>
    by_cases h : s.length < n
    · exact short s h
    · have htake : (s.take n).length = n := by
        rw [List.length_take]
        omega
      have hrest := ih (s.drop n).length (by rw [List.length_drop]; omega) (s.drop n) rfl
      have hjoin := block (s.take n) (s.drop n) htake hrest
      rwa [List.take_append_drop] at hjoin

theorem fullBlocks_replicate (n : ℕ) (pos : 0 < n) (m : ℕ) (a : α) :
    fullBlocks n (List.replicate m a) = List.replicate (m / n) (List.replicate n a) := by
  rw [fullBlocks, List.length_replicate, List.eq_replicate_iff]
  refine ⟨by rw [List.length_map, List.length_range], fun b hb => ?_⟩
  obtain ⟨k, hk, rfl⟩ := List.mem_map.mp hb
  have hfit : n * (k + 1) ≤ m := by
    have hle := Nat.mul_le_mul_left n (List.mem_range.mp hk)
    exact Nat.le_trans hle (Nat.mul_div_le m n)
  rw [Nat.mul_succ] at hfit
  rw [List.drop_replicate, List.take_replicate, Nat.min_eq_left (by omega)]

/-! ## The blocks of a list -/

theorem flatten_blocks (n : ℕ) (pos : 0 < n) (s : List α) : (blocks n s).flatten = s := by
  induction s using block_induction n pos with
  | short s h =>
    by_cases hne : s = []
    · rw [hne, blocks_nil, List.flatten_nil]
    · rw [blocks_of_lt n s h hne, List.flatten_singleton]
  | block b s h ih => rw [blocks_append n pos b s h, List.flatten_cons, ih]

theorem length_blocks (n : ℕ) (pos : 0 < n) (s : List α) :
    (blocks n s).length = s.length ⌈/⌉ n := by
  rw [Nat.ceilDiv_eq_add_pred_div]
  induction s using block_induction n pos with
  | short s h =>
    by_cases hne : s = []
    · rw [hne, blocks_nil, List.length_nil, List.length_nil, Nat.div_eq_of_lt (by omega)]
    · have hlen := List.length_pos_iff.mpr hne
      have hsplit : s.length + n - 1 = (s.length - 1) + n := by omega
      rw [blocks_of_lt n s h hne, List.length_singleton, hsplit, Nat.add_div_right _ pos,
        Nat.div_eq_of_lt (by omega)]
  | block b s h ih =>
    have hsplit : (b ++ s).length + n - 1 = (s.length + n - 1) + n := by
      rw [List.length_append, h]
      omega
    rw [blocks_append n pos b s h, List.length_cons, ih, hsplit, Nat.add_div_right _ pos]

/-- The last block may be short, the others are full; none is empty. -/
theorem blocks_shape (n : ℕ) (pos : 0 < n) (s : List α) :
    (∀ b ∈ (blocks n s).dropLast, b.length = n) ∧ ∀ b ∈ blocks n s, 1 ≤ b.length ∧ b.length ≤ n := by
  induction s using block_induction n pos with
  | short s h =>
    by_cases hne : s = []
    · rw [hne, blocks_nil]
      exact ⟨fun b hb => absurd hb List.not_mem_nil, fun b hb => absurd hb List.not_mem_nil⟩
    · rw [blocks_of_lt n s h hne]
      refine ⟨fun b hb => absurd hb List.not_mem_nil, fun b hb => ?_⟩
      rw [List.mem_singleton.mp hb]
      exact ⟨List.length_pos_iff.mpr hne, Nat.le_of_lt h⟩
  | block b s h ih =>
    rw [blocks_append n pos b s h]
    refine ⟨fun c hc => ?_, List.forall_mem_cons.mpr ⟨by omega, ih.2⟩⟩
    cases hrest : blocks n s with
    | nil =>
      rw [hrest] at hc
      exact absurd hc List.not_mem_nil
    | cons d rest =>
      rw [hrest, List.dropLast_cons_cons, ← hrest] at hc
      rcases List.mem_cons.mp hc with rfl | hc
      · exact h
      · exact ih.1 c hc

/-! ## A receiver that loses the last place of a block -/

/-- What is left of a list when each of its blocks is cut down to `n - 1`. -/
def shortened (n : ℕ) (s : List α) : List α := (blocks n s).flatMap fun b => b.take (n - 1)

theorem shortened_of_lt (n : ℕ) (s : List α) (h : s.length < n) : shortened n s = s := by
  by_cases hne : s = []
  · subst hne
    rw [shortened, blocks_nil, List.flatMap_nil]
  · rw [shortened, blocks_of_lt n s h hne, List.flatMap_singleton, List.take_of_length_le]
    omega

theorem shortened_append (n : ℕ) (pos : 0 < n) (b s : List α) (h : b.length = n) :
    shortened n (b ++ s) = b.take (n - 1) ++ shortened n s := by
  rw [shortened, blocks_append n pos b s h, List.flatMap_cons]
  rfl

theorem shortened_sublist (n : ℕ) (pos : 0 < n) (s : List α) : (shortened n s).Sublist s := by
  induction s using block_induction n pos with
  | short s h => rw [shortened_of_lt n s h]
  | block b s h ih =>
    rw [shortened_append n pos b s h]
    exact (List.take_sublist (n - 1) b).append ih

/-- The last places of the blocks of `b ++ s`, for one block `b`. -/
theorem last_places_append (n : ℕ) (pos : 0 < n) (q : α → Prop) (b s : List α)
    (h : b.length = n) :
    (∀ i (hi : i < (b ++ s).length), i % n = n - 1 → q (b ++ s)[i]) ↔
      q b[n - 1] ∧ ∀ i (hi : i < s.length), i % n = n - 1 → q s[i] := by
  constructor
  · intro hall
    refine ⟨?_, fun i hi hmod => ?_⟩
    · have hb := hall (n - 1) (by rw [List.length_append]; omega) (Nat.mod_eq_of_lt (by omega))
      rwa [List.getElem_append_left (by omega)] at hb
    · have hs := hall (n + i) (by rw [List.length_append]; omega) (by rwa [Nat.add_mod_left])
      rw [List.getElem_append_right (by omega)] at hs
      simpa only [h, Nat.add_sub_cancel_left] using hs
  · rintro ⟨hb, hs⟩ i hi hmod
    rw [List.length_append] at hi
    by_cases hlt : i < n
    · rw [Nat.mod_eq_of_lt hlt] at hmod
      subst hmod
      rwa [List.getElem_append_left (by omega)]
    · rw [List.getElem_append_right (by omega)]
      refine hs (i - b.length) (by omega) ?_
      rwa [h, ← Nat.mod_eq_sub_mod (by omega)]

/-- Of a kind of element nothing is lost exactly when none stands at the last
place of a block. -/
theorem shortened_filter_iff (n : ℕ) (pos : 0 < n) (p : α → Bool) (s : List α) :
    (shortened n s).filter p = s.filter p ↔
      ∀ i (h : i < s.length), i % n = n - 1 → p s[i] = false := by
  induction s using block_induction n pos with
  | short s h =>
    rw [shortened_of_lt n s h]
    refine iff_of_true rfl fun i hi hmod => ?_
    rw [Nat.mod_eq_of_lt (by omega)] at hmod
    omega
  | block b s h ih =>
    have hlast : b.take (n - 1) ++ [b[n - 1]] = b := by
      rw [List.take_append_getElem, List.take_of_length_le (by omega)]
    have hfilter : (b.take (n - 1)).filter p ++ [b[n - 1]].filter p = b.filter p := by
      rw [← List.filter_append, hlast]
    rw [last_places_append n pos (p · = false) b s h, ← ih, shortened_append n pos b s h,
      List.filter_append, List.filter_append, ← hfilter, List.append_assoc,
      List.append_cancel_left_eq]
    constructor
    · intro heq
      cases hp : p b[n - 1] with
      | true =>
        -- a kept last element would make the right side too long
        have hlen := congrArg List.length heq
        have hsub := ((shortened_sublist n pos s).filter p).length_le
        rw [List.filter_cons_of_pos hp, List.length_append] at hlen
        simp only [List.filter_nil, List.length_cons, List.length_nil] at hlen
        omega
      | false =>
        rw [List.filter_cons_of_neg (by simp [hp])] at heq
        exact ⟨rfl, heq⟩
    · rintro ⟨hp, heq⟩
      rw [List.filter_cons_of_neg (by simp [hp])]
      exact heq

end Android2Mouse.Library
