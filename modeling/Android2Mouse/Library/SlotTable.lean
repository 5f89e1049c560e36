import Mathlib.Data.Fintype.Card
import Mathlib.Data.List.FinRange

/-!
# A set kept in slots

A fixed number of slots, each with an element or with the mark that says it is
empty. Removals leave holes and insertions fill the first one, so where an
element is depends on the whole history; which elements there are does not. As
long as no element is in two slots (`Distinct`), the table is a set of at most
`n` elements, and inserting and removing are the set operations
(`held_insert`, `held_remove`).
-/
namespace Android2Mouse.Library.SlotTable

variable {κ : Type} [DecidableEq κ] {n : ℕ} (empty : κ)

/-- The first slot with a value. -/
def first (slots : Vector κ n) (v : κ) : Option (Fin n) :=
  (List.finRange n).find? fun i => slots[i] = v

/-- Some slot has the value. -/
def Has (slots : Vector κ n) (v : κ) : Prop := ∃ i : Fin n, slots[i] = v

instance (slots : Vector κ n) (v : κ) : Decidable (Has slots v) :=
  inferInstanceAs (Decidable (∃ i : Fin n, slots[i] = v))

/-- The elements in the table. -/
def held (slots : Vector κ n) : Finset κ := (Finset.univ.image fun i : Fin n => slots[i]).erase empty

/-- No element is in two slots. -/
def Distinct (slots : Vector κ n) : Prop :=
  ∀ i j : Fin n, slots[i] ≠ empty → slots[i] = slots[j] → i = j

/-- Put an element that is not there into the first empty slot, if there is one. -/
def insert (slots : Vector κ n) (k : κ) : Vector κ n :=
  if Has slots k then slots
  else match first slots empty with
    | some i => slots.set i k
    | none => slots

/-- Empty the first slot with the element. -/
def remove (slots : Vector κ n) (k : κ) : Vector κ n :=
  match first slots k with
  | some i => slots.set i empty
  | none => slots

theorem first_some {slots : Vector κ n} {v : κ} {i : Fin n} (h : first slots v = some i) :
    slots[i] = v := by
  simpa using List.find?_some h

theorem first_none {slots : Vector κ n} {v : κ} (h : first slots v = none) (i : Fin n) :
    slots[i] ≠ v := by
  simpa using List.find?_eq_none.mp h i (List.mem_finRange i)

theorem first_eq_none_iff (slots : Vector κ n) (v : κ) :
    first slots v = none ↔ ¬ Has slots v := by
  refine ⟨fun h ⟨i, hi⟩ => first_none h i hi, fun h => ?_⟩
  cases hfirst : first slots v with
  | none => rfl
  | some i => exact absurd ⟨i, first_some hfirst⟩ h

omit [DecidableEq κ] in
theorem getElem_set (slots : Vector κ n) (i j : Fin n) (v : κ) :
    (slots.set i v)[j] = if i = j then v else slots[j] := by
  simp [Vector.getElem_set, Fin.ext_iff]

theorem mem_held {slots : Vector κ n} {k : κ} :
    k ∈ held empty slots ↔ k ≠ empty ∧ Has slots k := by
  simp [held, Has]

/-! ## Inserting -/

theorem insert_present {slots : Vector κ n} {k : κ} (h : Has slots k) :
    insert empty slots k = slots := if_pos h

theorem insert_free {slots : Vector κ n} {k : κ} {i : Fin n} (h : ¬ Has slots k)
    (hfirst : first slots empty = some i) : insert empty slots k = slots.set i k := by
  rw [insert, if_neg h, hfirst]

theorem insert_full {slots : Vector κ n} {k : κ} (hfirst : first slots empty = none) :
    insert empty slots k = slots := by
  rw [insert, hfirst, ite_self]

/-- The mark is not an element. -/
theorem insert_empty (slots : Vector κ n) : insert empty slots empty = slots := by
  by_cases h : Has slots empty
  · exact insert_present empty h
  · exact insert_full empty ((first_eq_none_iff slots empty).mpr h)

theorem held_set {slots : Vector κ n} {i : Fin n} {k : κ} (hk : k ≠ empty)
    (hi : slots[i] = empty) : held empty (slots.set i k) = Insert.insert k (held empty slots) := by
  ext v
  rw [mem_held, Finset.mem_insert, mem_held]
  constructor
  · rintro ⟨hv, j, hj⟩
    rw [getElem_set] at hj
    split at hj
    · exact Or.inl hj.symm
    · exact Or.inr ⟨hv, j, hj⟩
  · rintro (rfl | ⟨hv, j, hj⟩)
    · exact ⟨hk, i, by rw [getElem_set, if_pos rfl]⟩
    · refine ⟨hv, j, ?_⟩
      have hne : i ≠ j := by
        rintro rfl
        exact hv (hj.symm.trans hi)
      rw [getElem_set, if_neg hne, hj]

omit [DecidableEq κ] in
theorem Distinct.set {slots : Vector κ n} (h : Distinct empty slots) {i : Fin n} {k : κ}
    (hnew : ¬ Has slots k) : Distinct empty (slots.set i k) := by
  intro a b ha hab
  rw [getElem_set] at ha
  rw [getElem_set, getElem_set] at hab
  by_cases hia : i = a
  · rw [if_pos hia] at hab
    by_cases hib : i = b
    · exact hia.symm.trans hib
    · rw [if_neg hib] at hab
      exact absurd ⟨b, hab.symm⟩ hnew
  · rw [if_neg hia] at ha hab
    by_cases hib : i = b
    · rw [if_pos hib] at hab
      exact absurd ⟨a, hab⟩ hnew
    · rw [if_neg hib] at hab
      exact h a b ha hab

theorem Distinct.insert {slots : Vector κ n} (h : Distinct empty slots) (k : κ) :
    Distinct empty (insert empty slots k) := by
  by_cases hk : Has slots k
  · rw [insert_present empty hk]
    exact h
  · cases hfirst : first slots empty with
    | none =>
      rw [insert_full empty hfirst]
      exact h
    | some i =>
      rw [insert_free empty hk hfirst]
      exact h.set empty hk

/-! ## Room -/

theorem card_held_lt {slots : Vector κ n} {i : Fin n} (hi : slots[i] = empty) :
    (held empty slots).card < n := by
  have hsub : held empty slots ⊆ (Finset.univ.erase i).image fun j : Fin n => slots[j] := by
    intro v hv
    obtain ⟨hne, j, hj⟩ := (mem_held empty).mp hv
    have hij : j ≠ i := by
      rintro rfl
      exact hne (hj.symm.trans hi)
    exact Finset.mem_image.mpr ⟨j, Finset.mem_erase.mpr ⟨hij, Finset.mem_univ j⟩, hj⟩
  have hle := (Finset.card_le_card hsub).trans Finset.card_image_le
  rw [Finset.card_erase_of_mem (Finset.mem_univ i), Finset.card_univ, Fintype.card_fin] at hle
  have hpos := i.isLt
  omega

theorem card_held_full {slots : Vector κ n} (h : Distinct empty slots)
    (hfull : ¬ Has slots empty) : (held empty slots).card = n := by
  have hmark : empty ∉ Finset.univ.image fun i : Fin n => slots[i] := by
    intro hmem
    obtain ⟨i, _, hi⟩ := Finset.mem_image.mp hmem
    exact hfull ⟨i, hi⟩
  have hinj : Function.Injective fun i : Fin n => slots[i] := fun i j hij =>
    h i j (fun hi => hfull ⟨i, hi⟩) hij
  rw [held, Finset.erase_eq_of_notMem hmark, Finset.card_image_of_injective _ hinj,
    Finset.card_univ, Fintype.card_fin]

/-- There is an empty slot exactly when the set has room. -/
theorem first_empty_eq_none_iff {slots : Vector κ n} (h : Distinct empty slots) :
    first slots empty = none ↔ ¬ (held empty slots).card < n := by
  constructor
  · intro hfirst
    rw [card_held_full empty h ((first_eq_none_iff slots empty).mp hfirst)]
    exact Nat.lt_irrefl n
  · intro hcard
    cases hfirst : first slots empty with
    | none => rfl
    | some i => exact absurd (card_held_lt empty (first_some hfirst)) hcard

/-- Inserting is set insertion while there is room, and nothing afterwards. -/
theorem held_insert {slots : Vector κ n} (h : Distinct empty slots) {k : κ} (hk : k ≠ empty) :
    held empty (insert empty slots k) =
      if k ∈ held empty slots then held empty slots
      else if (held empty slots).card < n then Insert.insert k (held empty slots)
      else held empty slots := by
  by_cases hpresent : Has slots k
  · rw [insert_present empty hpresent, if_pos ((mem_held empty).mpr ⟨hk, hpresent⟩)]
  · rw [if_neg fun hmem => hpresent ((mem_held empty).mp hmem).2]
    cases hfirst : first slots empty with
    | none => rw [insert_full empty hfirst, if_neg ((first_empty_eq_none_iff empty h).mp hfirst)]
    | some i =>
      rw [insert_free empty hpresent hfirst, held_set empty hk (first_some hfirst),
        if_pos (card_held_lt empty (first_some hfirst))]

/-! ## Removing -/

theorem remove_some {slots : Vector κ n} {k : κ} {i : Fin n} (h : first slots k = some i) :
    remove empty slots k = slots.set i empty := by
  rw [remove, h]

theorem remove_none {slots : Vector κ n} {k : κ} (h : first slots k = none) :
    remove empty slots k = slots := by
  rw [remove, h]

omit [DecidableEq κ] in
theorem set_same {slots : Vector κ n} {i : Fin n} {v : κ} (h : slots[i] = v) :
    slots.set i v = slots := by
  apply Vector.ext
  intro j hj
  have hset := getElem_set slots i ⟨j, hj⟩ v
  rw [← h, ite_eq_right_iff.mpr (by rintro rfl; rfl)] at hset
  rw [← h]
  exact hset

theorem remove_empty (slots : Vector κ n) : remove empty slots empty = slots := by
  cases hfirst : first slots empty with
  | none => exact remove_none empty hfirst
  | some i => rw [remove_some empty hfirst, set_same (first_some hfirst)]

omit [DecidableEq κ] in
theorem Distinct.clear {slots : Vector κ n} (h : Distinct empty slots) (i : Fin n) :
    Distinct empty (slots.set i empty) := by
  intro a b ha hab
  rw [getElem_set] at ha
  rw [getElem_set, getElem_set] at hab
  by_cases hia : i = a
  · rw [if_pos hia] at ha
    exact absurd rfl ha
  · rw [if_neg hia] at ha hab
    by_cases hib : i = b
    · rw [if_pos hib] at hab
      exact absurd hab ha
    · rw [if_neg hib] at hab
      exact h a b ha hab

theorem Distinct.remove {slots : Vector κ n} (h : Distinct empty slots) (k : κ) :
    Distinct empty (remove empty slots k) := by
  cases hfirst : first slots k with
  | none =>
    rw [remove_none empty hfirst]
    exact h
  | some i =>
    rw [remove_some empty hfirst]
    exact h.clear empty i

/-- Clearing one slot is enough, because the element is in no other. -/
theorem held_remove {slots : Vector κ n} (h : Distinct empty slots) {k : κ} (hk : k ≠ empty) :
    held empty (remove empty slots k) = (held empty slots).erase k := by
  ext v
  rw [Finset.mem_erase, mem_held, mem_held]
  cases hfirst : first slots k with
  | none =>
    rw [remove_none empty hfirst]
    refine ⟨fun hv => ⟨?_, hv⟩, fun hv => hv.2⟩
    rintro rfl
    obtain ⟨_, i, hi⟩ := hv
    exact first_none hfirst i hi
  | some i =>
    have hi := first_some hfirst
    rw [remove_some empty hfirst]
    constructor
    · rintro ⟨hv, j, hj⟩
      rw [getElem_set] at hj
      split at hj
      next => exact absurd hj.symm hv
      next hij =>
        refine ⟨?_, hv, j, hj⟩
        rintro rfl
        exact hij (h i j (hi ▸ hk) (hi.trans hj.symm))
    · rintro ⟨hvk, hv, j, hj⟩
      have hij : i ≠ j := by
        rintro rfl
        exact hvk (hj.symm.trans hi)
      exact ⟨hv, j, by rw [getElem_set, if_neg hij, hj]⟩

/-- An element that was not there is put into a slot that was empty, and removing
it empties that slot again. -/
theorem remove_insert {slots : Vector κ n} {k : κ} (h : k ∉ held empty slots) :
    remove empty (insert empty slots k) k = slots := by
  by_cases hk : k = empty
  · rw [hk, insert_empty, remove_empty]
  · have hnew : ¬ Has slots k := fun hex => h ((mem_held empty).mpr ⟨hk, hex⟩)
    cases hfirst : first slots empty with
    | none =>
      rw [insert_full empty hfirst]
      exact remove_none empty ((first_eq_none_iff slots k).mpr hnew)
    | some i =>
      rw [insert_free empty hnew hfirst]
      cases hback : first (slots.set i k) k with
      | none =>
        have hi := first_none hback i
        rw [getElem_set, if_pos rfl] at hi
        exact absurd rfl hi
      | some j =>
        have hj := first_some hback
        rw [getElem_set] at hj
        have hij : i = j := by
          by_contra hne
          rw [if_neg hne] at hj
          exact hnew ⟨j, hj⟩
        rw [remove_some empty hback, ← hij, Vector.set_set]
        exact set_same (first_some hfirst)

end Android2Mouse.Library.SlotTable
