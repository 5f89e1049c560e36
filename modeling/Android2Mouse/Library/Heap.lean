import Mathlib.Data.List.Basic
import Mathlib.Logic.Function.Basic

/-!
# Blocks of memory

A heap of blocks with an identity each, that are live from their allocation until
they are freed. A pointer is a block and an offset into it, or NULL. `load`,
`store` and `free` fault where a program in C has no defined behaviour: through
NULL, in a block that has been freed, and past the end of a block. Identities are
not used again, so that a pointer to a freed block is known as such.

The contents of a new block are the allocator's choice, and so is whether there is
one at all.
-/
namespace Android2Mouse.Library

/-- The blocks from `fresh` on have never been allocated. -/
@[ext]
structure Heap (β : Type) where
  blocks : ℕ → Option (List β)
  fresh : ℕ
  dead : ∀ b, fresh ≤ b → blocks b = none

structure Ptr where
  block : Option ℕ
  offset : ℕ
  deriving DecidableEq, Repr

/-- What one `malloc` does: whether it succeeds, and with which contents. -/
structure Malloc (β : Type) where
  ok : Bool
  junk : ℕ → β

inductive Fault where
  | null | freed | range
  deriving DecidableEq, Repr

theorem ok_bind {ε α β : Type} (a : α) (f : α → Except ε β) : (Except.ok a >>= f) = f a := rfl

/-! ## Overwriting -/

section

variable {β : Type}

/-- The list with some of its elements overwritten, longer where they reach past its end. -/
def splice (contents : List β) (offset : ℕ) (bs : List β) : List β :=
  contents.take offset ++ bs ++ contents.drop (offset + bs.length)

theorem length_splice (contents : List β) {offset : ℕ} (bs : List β) (h : offset ≤ contents.length) :
    (splice contents offset bs).length = max contents.length (offset + bs.length) := by
  simp only [splice, List.length_append, List.length_take, List.length_drop]
  omega

theorem splice_length (contents : List β) (offset : ℕ) (bs : List β)
    (h : offset + bs.length ≤ contents.length) :
    (splice contents offset bs).length = contents.length := by
  rw [length_splice contents bs (by omega), Nat.max_eq_left h]

end

namespace Ptr

def null : Ptr := ⟨none, 0⟩

/-- The first element of a block. -/
def start (b : ℕ) : Ptr := ⟨some b, 0⟩

def add (p : Ptr) (n : ℕ) : Ptr := { p with offset := p.offset + n }

theorem start_ne_null (b : ℕ) : start b ≠ null := fun h => by cases congrArg Ptr.block h

theorem start_add (b n : ℕ) : (start b).add n = ⟨some b, n⟩ :=
  congrArg (Ptr.mk (some b)) (Nat.zero_add n)

end Ptr

namespace Heap

variable {β : Type}

def empty : Heap β := ⟨fun _ => none, 0, fun _ _ => rfl⟩

theorem lt_fresh (h : Heap β) {b : ℕ} {contents : List β} (hb : h.blocks b = some contents) :
    b < h.fresh := by
  by_contra hge
  rw [h.dead b (Nat.le_of_not_lt hge)] at hb
  cases hb

/-! ## Changing one block -/

def alloc (h : Heap β) (contents : List β) : Heap β where
  blocks := Function.update h.blocks h.fresh (some contents)
  fresh := h.fresh + 1
  dead b hb := by
    rw [Function.update_of_ne (by omega)]
    exact h.dead b (by omega)

/-- Overwrite a block, unless it is not live. -/
def set (h : Heap β) (b : ℕ) (contents : List β) : Heap β where
  blocks := Function.update h.blocks b ((h.blocks b).map fun _ => contents)
  fresh := h.fresh
  dead b' hb' := by
    by_cases heq : b' = b
    · subst heq
      rw [Function.update_self, h.dead b' hb']
      rfl
    · rw [Function.update_of_ne heq]
      exact h.dead b' hb'

def kill (h : Heap β) (b : ℕ) : Heap β where
  blocks := Function.update h.blocks b none
  fresh := h.fresh
  dead b' hb' := by
    by_cases heq : b' = b
    · rw [heq, Function.update_self]
    · rw [Function.update_of_ne heq]
      exact h.dead b' hb'

@[simp] theorem alloc_fresh (h : Heap β) (contents : List β) :
    (h.alloc contents).blocks h.fresh = some contents := Function.update_self ..

theorem alloc_of_ne (h : Heap β) (contents : List β) {b : ℕ} (hb : b ≠ h.fresh) :
    (h.alloc contents).blocks b = h.blocks b := Function.update_of_ne hb ..

theorem set_blocks (h : Heap β) (b : ℕ) (contents : List β) :
    (h.set b contents).blocks = Function.update h.blocks b ((h.blocks b).map fun _ => contents) := rfl

theorem set_self (h : Heap β) {b : ℕ} {old : List β} (hb : h.blocks b = some old)
    (contents : List β) : (h.set b contents).blocks b = some contents := by
  rw [set_blocks, Function.update_self, hb]
  rfl

theorem set_of_ne (h : Heap β) {b b' : ℕ} (hb : b' ≠ b) (contents : List β) :
    (h.set b contents).blocks b' = h.blocks b' := Function.update_of_ne hb ..

theorem set_same (h : Heap β) {b : ℕ} {contents : List β} (hb : h.blocks b = some contents) :
    h.set b contents = h := by
  refine Heap.ext ?_ rfl
  rw [set_blocks, hb, Option.map_some]
  exact Function.update_eq_self_iff.mpr hb.symm

theorem kill_of_ne (h : Heap β) {b b' : ℕ} (hb : b' ≠ b) :
    (h.kill b).blocks b' = h.blocks b' := Function.update_of_ne hb ..

/-- Of two changes of one block the second stays. -/
theorem set_set (h : Heap β) (b : ℕ) (contents contents' : List β) :
    (h.set b contents).set b contents' = h.set b contents' := by
  refine Heap.ext ?_ rfl
  simp only [set, Function.update_self, Option.map_map, Function.update_idem]
  rfl

theorem alloc_set (h : Heap β) (contents contents' : List β) :
    (h.alloc contents).set h.fresh contents' = h.alloc contents' := by
  refine Heap.ext ?_ rfl
  simp only [set, alloc, Function.update_self, Function.update_idem, Option.map_some]

/-! ## Allocation and access -/

def malloc (h : Heap β) (m : Malloc β) (n : ℕ) : Ptr × Heap β :=
  if m.ok then (.start h.fresh, h.alloc ((List.range n).map m.junk)) else (.null, h)

/-- `free`, which does nothing to NULL. -/
def free (h : Heap β) (p : Ptr) : Except Fault (Heap β) :=
  match p.block with
  | none => .ok h
  | some b => if (h.blocks b).isSome ∧ p.offset = 0 then .ok (h.kill b) else .error .freed

def store (h : Heap β) (p : Ptr) (bs : List β) : Except Fault (Heap β) :=
  if bs.isEmpty then .ok h
  else match p.block with
    | none => .error .null
    | some b => match h.blocks b with
      | none => .error .freed
      | some contents =>
        if p.offset + bs.length ≤ contents.length then .ok (h.set b (splice contents p.offset bs))
        else .error .range

def load (h : Heap β) (p : Ptr) (n : ℕ) : Except Fault (List β) :=
  match p.block with
  | none => .error .null
  | some b => match h.blocks b with
    | none => .error .freed
    | some contents =>
      if p.offset + n ≤ contents.length then .ok ((contents.drop p.offset).take n)
      else .error .range

theorem malloc_ok (h : Heap β) {m : Malloc β} (hm : m.ok = true) (n : ℕ) :
    h.malloc m n = (.start h.fresh, h.alloc ((List.range n).map m.junk)) := if_pos hm

theorem malloc_fails (h : Heap β) {m : Malloc β} (hm : m.ok = false) (n : ℕ) :
    h.malloc m n = (.null, h) := if_neg (by rw [hm]; exact Bool.false_ne_true)

theorem free_start (h : Heap β) {b : ℕ} {contents : List β} (hb : h.blocks b = some contents) :
    h.free (.start b) = .ok (h.kill b) := if_pos ⟨by rw [hb]; rfl, rfl⟩

/-- A store of nothing is allowed anywhere. -/
theorem store_nil (h : Heap β) (p : Ptr) : h.store p [] = .ok h := rfl

theorem store_null (h : Heap β) (n : ℕ) {bs : List β} (hbs : bs ≠ []) :
    h.store ⟨none, n⟩ bs = .error .null := if_neg (by simpa using hbs)

/-- A store in the range of a live block. -/
theorem store_ok (h : Heap β) {b offset : ℕ} {contents bs : List β}
    (hb : h.blocks b = some contents) (hfit : offset + bs.length ≤ contents.length) :
    h.store ⟨some b, offset⟩ bs = .ok (h.set b (splice contents offset bs)) := by
  by_cases hbs : bs = []
  · subst hbs
    rw [store_nil, splice, List.append_nil, List.length_nil, Nat.add_zero, List.take_append_drop,
      set_same h hb]
  · rw [store, if_neg (by simpa using hbs)]
    simp only [hb, if_pos hfit]

theorem load_ok (h : Heap β) {b offset n : ℕ} {contents : List β}
    (hb : h.blocks b = some contents) (hfit : offset + n ≤ contents.length) :
    h.load ⟨some b, offset⟩ n = .ok ((contents.drop offset).take n) := by
  simp only [load, hb, if_pos hfit]

/-- Filling a whole block. -/
theorem store_all (h : Heap β) {b : ℕ} {contents bs : List β} (hb : h.blocks b = some contents)
    (hlen : bs.length = contents.length) : h.store (.start b) bs = .ok (h.set b bs) := by
  have hsplice : splice contents 0 bs = bs := by
    rw [splice, List.take_zero, List.nil_append, Nat.zero_add,
      List.drop_of_length_le (Nat.le_of_eq hlen.symm), List.append_nil]
  rw [Ptr.start, store_ok h hb (by omega), hsplice]

end Heap

end Android2Mouse.Library
