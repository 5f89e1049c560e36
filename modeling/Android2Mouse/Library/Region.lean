import Android2Mouse.Library.Heap

/-!
# A block that is filled from the front

A block of memory together with the number of its elements that are in use. Elements
are stored at its end, or over elements already there; a store past the end of the
block faults. `Extends bs r r'` says that `r'` is `r` with `bs` added, in the same
block: room may have been left for a header and filled in afterwards (`Extends.header`),
and what was added may have been given up again (`Extends.rewind`).
-/
namespace Android2Mouse.Library

structure Region (β : Type) where
  data : List β
  dataSize : ℕ
  deriving DecidableEq, Repr

namespace Region

variable {β : Type}

/-- The elements in use. -/
def filled (r : Region β) : List β := r.data.take r.dataSize

/-- Count `n` more elements as used, whatever they are. -/
def reserve (r : Region β) (n : ℕ) : Region β := { r with dataSize := r.dataSize + n }

@[simp] theorem reserve_data (r : Region β) (n : ℕ) : (r.reserve n).data = r.data := rfl

@[simp] theorem reserve_dataSize (r : Region β) (n : ℕ) :
    (r.reserve n).dataSize = r.dataSize + n := rfl

def store (r : Region β) (offset : ℕ) (bs : List β) : Except Fault (Region β) :=
  if offset + bs.length ≤ r.data.length then .ok { r with data := splice r.data offset bs }
  else .error .range

theorem store_ok (r : Region β) {offset : ℕ} {bs : List β}
    (h : offset + bs.length ≤ r.data.length) :
    r.store offset bs = .ok { r with data := splice r.data offset bs } := if_pos h

theorem store_fault (r : Region β) {offset : ℕ} {bs : List β}
    (h : r.data.length < offset + bs.length) : r.store offset bs = .error .range :=
  if_neg (by omega)

theorem length_filled (r : Region β) (h : r.dataSize ≤ r.data.length) :
    r.filled.length = r.dataSize := by
  rw [filled, List.length_take, Nat.min_eq_left h]

/-- What a store leaves of the first `m` elements, when it ends among them. -/
theorem take_splice (data : List β) {offset m : ℕ} (bs : List β) (h : offset + bs.length ≤ m)
    (hm : m ≤ data.length) :
    (splice data offset bs).take m =
      data.take offset ++ bs ++ (data.take m).drop (offset + bs.length) := by
  have hlen : (data.take offset ++ bs).length = offset + bs.length := by
    rw [List.length_append, List.length_take_of_le (by omega)]
  have hall : (data.take offset ++ bs).take m = data.take offset ++ bs :=
    List.take_of_length_le (by omega)
  rw [splice, List.take_append, hall, hlen, List.drop_take]

/-- Two stores side by side are one. -/
theorem splice_splice (data : List β) (offset : ℕ) (bs cs : List β)
    (h : offset + bs.length + cs.length ≤ data.length) :
    splice (splice data offset bs) (offset + bs.length) cs = splice data offset (bs ++ cs) := by
  have hlen : (data.take offset ++ bs).length = offset + bs.length := by
    rw [List.length_append, List.length_take_of_le (by omega)]
  have htake : (splice data offset bs).take (offset + bs.length) = data.take offset ++ bs := by
    rw [splice, List.take_left' hlen]
  have hdrop : (splice data offset bs).drop (offset + bs.length + cs.length) =
      data.drop (offset + (bs ++ cs).length) := by
    rw [splice, List.drop_append, hlen, List.drop_of_length_le (by omega), List.nil_append,
      List.drop_drop, List.length_append]
    congr 1
    omega
  rw [splice, htake, hdrop, splice, List.append_assoc (data.take offset)]

theorem store_store (r : Region β) (offset : ℕ) (bs cs : List β)
    (h : offset + bs.length + cs.length ≤ r.data.length) :
    (r.store offset bs >>= fun r => r.store (offset + bs.length) cs) =
      r.store offset (bs ++ cs) := by
  rw [store_ok r (by omega), ok_bind, store_ok _ (by rw [splice_length _ _ _ (by omega)]; omega),
    store_ok r (by rw [List.length_append]; omega), splice_splice _ _ _ _ h]

/-! ## Adding to the elements in use -/

/-- `r'` is `r` with `bs` added. -/
structure Extends (bs : List β) (r r' : Region β) : Prop where
  data_length : r'.data.length = r.data.length
  dataSize_eq : r'.dataSize = r.dataSize + bs.length
  filled_eq : r'.filled = r.filled ++ bs

theorem Extends.refl (r : Region β) : Extends [] r r := ⟨rfl, rfl, (List.append_nil _).symm⟩

theorem Extends.trans {bs cs : List β} {r s t : Region β} (h : Extends bs r s)
    (h' : Extends cs s t) : Extends (bs ++ cs) r t where
  data_length := h'.data_length.trans h.data_length
  dataSize_eq := by rw [h'.dataSize_eq, h.dataSize_eq, List.length_append, Nat.add_assoc]
  filled_eq := by rw [h'.filled_eq, h.filled_eq, List.append_assoc]

/-- Storing at the end and counting what was stored. -/
theorem store_end (r : Region β) (bs : List β) (h : r.dataSize + bs.length ≤ r.data.length) :
    ∃ r', r.store r.dataSize bs = .ok r' ∧ Extends bs r (r'.reserve bs.length) := by
  refine ⟨_, store_ok r h, splice_length _ _ _ h, rfl, ?_⟩
  change (splice r.data r.dataSize bs).take (r.dataSize + bs.length) = _
  rw [take_splice _ _ (Nat.le_refl _) h, List.drop_of_length_le, List.append_nil, filled]
  exact List.length_take_le ..

/-- Filling in a header for which room was left. -/
theorem Extends.header (hd : List β) {bs : List β} {r s : Region β}
    (h : Extends bs (r.reserve hd.length) s) (hfit : s.dataSize ≤ s.data.length) :
    ∃ t, s.store r.dataSize hd = .ok t ∧ Extends (hd ++ bs) r t := by
  have hsize : s.dataSize = r.dataSize + hd.length + bs.length := h.dataSize_eq
  have hlen : (r.reserve hd.length).filled.length = r.dataSize + hd.length :=
    length_filled _ (by rw [← h.data_length]; change r.dataSize + hd.length ≤ _; omega)
  have hprefix : s.data.take r.dataSize = r.filled := by
    have := congrArg (List.take r.dataSize) h.filled_eq
    rwa [filled, List.take_take, Nat.min_eq_left (by omega), List.take_append_of_le_length (by omega),
      filled, List.take_take, Nat.min_eq_left (by change _ ≤ r.dataSize + hd.length; omega)] at this
  refine ⟨_, store_ok s (by omega), (splice_length _ _ _ (by omega)).trans h.data_length, ?_, ?_⟩
  · change s.dataSize = _
    rw [hsize, List.length_append, Nat.add_assoc]
  · change (splice s.data r.dataSize hd).take s.dataSize = _
    rw [take_splice _ _ (by omega) hfit, hprefix, ← filled, h.filled_eq,
      List.drop_left' hlen, List.append_assoc]

/-- Giving up what was added, with the room before it. -/
theorem Extends.rewind {bs : List β} {r s : Region β} {n : ℕ} (h : Extends bs (r.reserve n) s)
    (hfit : s.dataSize ≤ s.data.length) :
    Extends [] r { s with dataSize := r.dataSize } := by
  have hsize : s.dataSize = r.dataSize + n + bs.length := h.dataSize_eq
  have hlen : (r.reserve n).filled.length = r.dataSize + n :=
    length_filled _ (by rw [← h.data_length]; change r.dataSize + n ≤ _; omega)
  refine ⟨h.data_length, rfl, ?_⟩
  have := congrArg (List.take r.dataSize) h.filled_eq
  rw [filled, List.take_take, Nat.min_eq_left (by omega), List.take_append_of_le_length (by omega),
    filled, List.take_take, Nat.min_eq_left (by change _ ≤ r.dataSize + n; omega)] at this
  rw [List.append_nil]
  exact this

/-- A store among the elements in use. -/
theorem store_filled (r : Region β) (offset : ℕ) (bs : List β)
    (h : offset + bs.length ≤ r.dataSize) (hr : r.dataSize ≤ r.data.length) :
    ∃ r', r.store offset bs = .ok r' ∧ r'.data.length = r.data.length ∧
      r'.dataSize = r.dataSize ∧ r'.filled = splice r.filled offset bs := by
  refine ⟨_, store_ok r (by omega), splice_length _ _ _ (by omega), rfl, ?_⟩
  change (splice r.data offset bs).take r.dataSize = splice (r.data.take r.dataSize) offset bs
  rw [take_splice _ _ h hr, splice, List.take_take, Nat.min_eq_left (by omega)]

end Region

end Android2Mouse.Library
