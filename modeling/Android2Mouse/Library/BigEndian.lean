import Mathlib.Algebra.Order.Ring.Nat
import Mathlib.Tactic.Ring
import Mathlib.Tactic.Linarith
import Mathlib.Tactic.Positivity

/-!
# Numbers in network byte order

The `w` low bytes of a number with the most significant first, and the number that a
string of bytes stands for in this order.
-/
namespace Android2Mouse.Library

/-- The `w` low bytes of `n`. -/
def bigEndian : ℕ → ℕ → List UInt8
  | 0, _ => []
  | w + 1, n => UInt8.ofNat (n / 256 ^ w) :: bigEndian w n

def ofBigEndian (bs : List UInt8) : ℕ :=
  bs.foldl (fun n b => 256 * n + b.toNat) 0

@[simp] theorem length_bigEndian (w n : ℕ) : (bigEndian w n).length = w := by
  induction w with
  | zero => rfl
  | succ w ih => rw [bigEndian, List.length_cons, ih]

/-- Only the low bytes are written. -/
theorem bigEndian_add_mul (w k n : ℕ) : bigEndian w (256 ^ w * k + n) = bigEndian w n := by
  induction w generalizing k with
  | zero => rfl
  | succ w ih =>
    have hsplit : 256 ^ (w + 1) * k + n = 256 ^ w * (256 * k) + n := by ring
    have hhead : UInt8.ofNat ((256 ^ w * (256 * k) + n) / 256 ^ w) = UInt8.ofNat (n / 256 ^ w) := by
      rw [Nat.mul_add_div (by positivity)]
      exact UInt8.toNat_inj.mp (by simp)
    rw [bigEndian, bigEndian, hsplit, hhead, ih]

theorem toNat_ofNat_mod (n : ℕ) : (UInt8.ofNat n).toNat = n % 256 := rfl

/-- Reading goes on from what has been read before. -/
theorem foldl_bigEndian (w n acc : ℕ) :
    (bigEndian w n).foldl (fun n b => 256 * n + b.toNat) acc = acc * 256 ^ w + n % 256 ^ w := by
  induction w generalizing acc with
  | zero => simp [bigEndian, Nat.mod_one]
  | succ w ih =>
    rw [bigEndian, List.foldl_cons, ih, toNat_ofNat_mod, pow_succ, Nat.mod_mul]
    ring

theorem ofBigEndian_bigEndian (w n : ℕ) : ofBigEndian (bigEndian w n) = n % 256 ^ w := by
  rw [ofBigEndian, foldl_bigEndian, Nat.zero_mul, Nat.zero_add]

/-- A number that fits its bytes is read back. -/
theorem ofBigEndian_bigEndian_of_lt {w n : ℕ} (h : n < 256 ^ w) :
    ofBigEndian (bigEndian w n) = n := by
  rw [ofBigEndian_bigEndian, Nat.mod_eq_of_lt h]

theorem foldl_append_bigEndian (bs : List UInt8) (acc : ℕ) :
    bs.foldl (fun n b => 256 * n + b.toNat) acc = acc * 256 ^ bs.length + ofBigEndian bs := by
  induction bs generalizing acc with
  | nil => simp [ofBigEndian]
  | cons b bs ih =>
    rw [ofBigEndian, List.foldl_cons, List.foldl_cons, ih, ih, List.length_cons, pow_succ]
    ring

theorem ofBigEndian_lt (bs : List UInt8) : ofBigEndian bs < 256 ^ bs.length := by
  induction bs with
  | nil => simp [ofBigEndian]
  | cons b bs ih =>
    have hb : b.toNat < 256 := b.toNat_lt
    rw [ofBigEndian, List.foldl_cons, foldl_append_bigEndian, List.length_cons, pow_succ]
    nlinarith

/-- A string of bytes is the number that it stands for. -/
theorem bigEndian_ofBigEndian (bs : List UInt8) :
    bigEndian bs.length (ofBigEndian bs) = bs := by
  induction bs with
  | nil => rfl
  | cons b bs ih =>
    have hlt := ofBigEndian_lt bs
    have hval : ofBigEndian (b :: bs) = 256 ^ bs.length * b.toNat + ofBigEndian bs := by
      rw [ofBigEndian, List.foldl_cons, foldl_append_bigEndian]
      ring
    have hhead : ofBigEndian (b :: bs) / 256 ^ bs.length = b.toNat := by
      rw [hval, Nat.mul_add_div (by positivity), Nat.div_eq_of_lt hlt, Nat.add_zero]
    have htail : bigEndian bs.length (ofBigEndian (b :: bs)) = bigEndian bs.length (ofBigEndian bs) := by
      rw [hval, bigEndian_add_mul]
    rw [List.length_cons, bigEndian, hhead, htail, ih, UInt8.ofNat_toNat]

end Android2Mouse.Library
