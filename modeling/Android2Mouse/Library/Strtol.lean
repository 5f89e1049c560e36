import Mathlib.Data.List.TakeWhile
import Mathlib.Data.Nat.Digits.Lemmas
import Mathlib.Tactic.IntervalCases

/-!
# Numbers in text (`strtol` with base 0)

`strtol` skips white space, takes a sign, picks the base from the prefix (`0x`
followed by a hexadecimal digit, `0`, or neither), reads digits as long as there
are any, and saturates to the width of `long`. A text is the bytes of a C string
without its NUL; a NUL among them is no digit and ends the number.

`decimal` writes an integer as `%d` does, and `strtol` reads it back
(`strtol_decimal`). `%x` writes an unsigned number: what `0x` and `numeral 16` make
of one reads back saturated (`strtol_hex`).
-/
namespace Android2Mouse.Library.Strtol

/-- The bytes of a string literal. -/
def literal (s : List Char) : List UInt8 := s.map fun c => UInt8.ofNat c.toNat

/-- `isspace` -/
def isSpace (b : UInt8) : Bool := b = 32 ∨ (9 ≤ b ∧ b ≤ 13)

/-- The value of a digit or letter; 36 is a digit in no base. -/
def digit (b : UInt8) : ℕ :=
  if 48 ≤ b ∧ b ≤ 57 then b.toNat - 48
  else if 97 ≤ b ∧ b ≤ 122 then b.toNat - 87
  else if 65 ≤ b ∧ b ≤ 90 then b.toNat - 55
  else 36

/-- The sign, and the text after it. -/
def sign (s : List UInt8) : Bool × List UInt8 :=
  if s.head? = some 45 then (true, s.tail)
  else if s.head? = some 43 then (false, s.tail)
  else (false, s)

/-- The base, and the text of the digits. -/
def radix (s : List UInt8) : ℕ × List UInt8 :=
  if s.head? = some 48 then
    if (s.getD 1 0 = 120 ∨ s.getD 1 0 = 88) ∧ digit (s.getD 2 0) < 16 then (16, s.drop 2) else (8, s)
  else (10, s)

/-- The digits at the front of a text. -/
def digits (base : ℕ) (s : List UInt8) : List ℕ := (s.map digit).takeWhile (· < base)

/-- The number they stand for. -/
def magnitude (base : ℕ) (s : List UInt8) : ℕ := (digits base s).foldl (fun n d => base * n + d) 0

/-- The values of a signed type of `width` bits. -/
def InRange (width : ℕ) (v : ℤ) : Prop := -2 ^ (width - 1) ≤ v ∧ v < 2 ^ (width - 1)

def saturate (width : ℕ) (v : ℤ) : ℤ := max (-2 ^ (width - 1)) (min (2 ^ (width - 1) - 1) v)

/-- `strtol(s, NULL, 0)`, for a `long` of `width` bits. -/
def strtol (width : ℕ) (s : List UInt8) : ℤ :=
  let (negative, s) := sign (s.dropWhile isSpace)
  let (base, s) := radix s
  saturate width (if negative then -magnitude base s else magnitude base s)

/-! ## Decimal text -/

/-- `%u` -/
def decimalNat (n : ℕ) : List UInt8 :=
  if n = 0 then [48] else (Nat.digits 10 n).reverse.map fun d => UInt8.ofNat (48 + d)

/-- `%d` -/
def decimal (v : ℤ) : List UInt8 := if v < 0 then 45 :: decimalNat v.natAbs else decimalNat v.natAbs

/-- The byte of a digit. -/
def digitByte (d : ℕ) : UInt8 := UInt8.ofNat (if d < 10 then 48 + d else 87 + d)

/-- A number in any base, as `%x` writes one in base sixteen. -/
def numeral (base n : ℕ) : List UInt8 :=
  if n = 0 then [48] else (Nat.digits base n).reverse.map digitByte

/-- What holds of the 256 bytes. -/
theorem all_bytes {p : UInt8 → Prop} (h : ∀ n : Fin 256, p (UInt8.ofFin n)) (c : UInt8) : p c :=
  h c.toFin

theorem digit_digitByte (d : ℕ) (h : d < 36) : digit (digitByte d) = d := by
  interval_cases d <;> rfl

theorem decimalNat_eq (n : ℕ) : decimalNat n = numeral 10 n := by
  unfold decimalNat numeral
  split
  · rfl
  · refine List.map_congr_left fun d hd => ?_
    rw [digitByte, if_pos (Nat.digits_lt_base (by decide) (List.mem_reverse.mp hd))]

theorem magnitude_digits {base : ℕ} {ds : List ℕ} (h : ∀ d ∈ ds, d < base) :
    (ds.reverse.takeWhile (· < base)).foldl (fun n d => base * n + d) 0 = Nat.ofDigits base ds := by
  have hall : ds.reverse.takeWhile (· < base) = ds.reverse := by
    refine List.takeWhile_eq_self_iff.mpr fun d hd => ?_
    simpa using h d (List.mem_reverse.mp hd)
  rw [hall, List.foldl_reverse, Nat.ofDigits_eq_foldr]
  congr 1
  funext d n
  rw [Nat.cast_id, Nat.add_comm]

/-- The text of a number reads back in its base. -/
theorem magnitude_numeral {base : ℕ} (hbase : 1 < base) (hle : base ≤ 36) (n : ℕ) :
    magnitude base (numeral base n) = n := by
  by_cases hn : n = 0
  · subst hn
    have hpos : digit 48 < base := Nat.zero_lt_of_lt hbase
    have hzero : digits base [48] = [0] := List.takeWhile_cons_of_pos (decide_eq_true hpos)
    rw [numeral, if_pos rfl, magnitude, hzero]
    exact Nat.mul_zero base
  · have hlt : ∀ d ∈ Nat.digits base n, d < base := fun d hd => Nat.digits_lt_base hbase hd
    have hmap : ((Nat.digits base n).reverse.map digitByte).map digit =
        (Nat.digits base n).reverse := by
      rw [List.map_map]
      refine (List.map_congr_left fun d hd => ?_).trans (List.map_id _)
      exact digit_digitByte d (Nat.lt_of_lt_of_le (hlt d (List.mem_reverse.mp hd)) hle)
    rw [magnitude, digits, numeral, if_neg hn, hmap, magnitude_digits hlt, Nat.ofDigits_digits]

theorem magnitude_decimalNat (n : ℕ) : magnitude 10 (decimalNat n) = n := by
  rw [decimalNat_eq, magnitude_numeral (by decide) (by decide)]

/-- A decimal text of a number begins with a digit, and not with zero. -/
theorem head_decimalNat (n : ℕ) (hn : n ≠ 0) :
    ∃ d, 0 < d ∧ d < 10 ∧ (decimalNat n).head? = some (UInt8.ofNat (48 + d)) := by
  have hnil : Nat.digits 10 n ≠ [] := Nat.digits_ne_nil_iff_ne_zero.mpr hn
  refine ⟨(Nat.digits 10 n).getLast hnil, ?_, ?_, ?_⟩
  · exact Nat.pos_of_ne_zero (Nat.getLast_digit_ne_zero 10 hn)
  · exact Nat.digits_lt_base (by decide) (List.getLast_mem hnil)
  · rw [decimalNat, if_neg hn, List.head?_map, List.head?_reverse, List.getLast?_eq_some_getLast hnil]
    rfl

theorem digit_not_prefix (d : ℕ) (h : d < 10) :
    isSpace (UInt8.ofNat (48 + d)) = false ∧ UInt8.ofNat (48 + d) ≠ 45 ∧
      UInt8.ofNat (48 + d) ≠ 43 ∧ (0 < d → UInt8.ofNat (48 + d) ≠ 48) := by
  interval_cases d <;> decide

theorem dropWhile_of_head {s : List UInt8} {b : UInt8} (h : s.head? = some b)
    (hb : isSpace b = false) : s.dropWhile isSpace = s := by
  obtain ⟨t, rfl⟩ : ∃ t, s = b :: t := by
    cases s with
    | nil => cases h
    | cons c t => exact ⟨t, by rw [Option.some.inj h]⟩
  rw [List.dropWhile_cons_of_neg (by simp [hb])]

theorem saturate_of_inRange {width : ℕ} {v : ℤ} (h : InRange width v) : saturate width v = v := by
  obtain ⟨hlo, hhi⟩ := h
  rw [saturate, min_eq_right (by omega), max_eq_right hlo]

/-- A decimal text without a sign has no white space, no sign and no prefix. -/
theorem decimalNat_bare (n : ℕ) (hn : n ≠ 0) :
    (sign (decimalNat n)).1 = false ∧ (sign (decimalNat n)).2 = decimalNat n ∧
      radix (decimalNat n) = (10, decimalNat n) ∧
      (decimalNat n).dropWhile isSpace = decimalNat n := by
  obtain ⟨d, hpos, hlt, hhead⟩ := head_decimalNat n hn
  obtain ⟨hspace, hminus, hplus, hzero⟩ := digit_not_prefix d hlt
  have hne : ∀ b, UInt8.ofNat (48 + d) ≠ b → ¬ (decimalNat n).head? = some b := by
    intro b hb heq
    rw [hhead] at heq
    exact hb (Option.some.inj heq)
  refine ⟨?_, ?_, ?_, dropWhile_of_head hhead hspace⟩
  · rw [sign, if_neg (hne _ hminus), if_neg (hne _ hplus)]
  · rw [sign, if_neg (hne _ hminus), if_neg (hne _ hplus)]
  · rw [radix, if_neg (hne _ (hzero hpos))]

/-- The decimal text of a value of the type reads back as the value. -/
theorem strtol_decimal (width : ℕ) (v : ℤ) (h : InRange width v) : strtol width (decimal v) = v := by
  by_cases hzero : v = 0
  · subst hzero
    have hsat : saturate width 0 = 0 := saturate_of_inRange h
    exact hsat
  · have hn : v.natAbs ≠ 0 := Int.natAbs_ne_zero.mpr hzero
    obtain ⟨hsign, hrest, hradix, hspace⟩ := decimalNat_bare v.natAbs hn
    by_cases hneg : v < 0
    · have hminus : sign (45 :: decimalNat v.natAbs) = (true, decimalNat v.natAbs) := rfl
      have hkeep : (45 :: decimalNat v.natAbs).dropWhile isSpace = 45 :: decimalNat v.natAbs := rfl
      have hvalue : -(v.natAbs : ℤ) = v := by omega
      rw [decimal, if_pos hneg, strtol, hkeep, hminus]
      simp only [hradix, magnitude_decimalNat, if_true, hvalue]
      exact saturate_of_inRange h
    · have hvalue : (v.natAbs : ℤ) = v := by omega
      rw [decimal, if_neg hneg, strtol, hspace]
      simp only [hsign, hrest, hradix, magnitude_decimalNat, Bool.false_eq_true, if_false, hvalue]
      exact saturate_of_inRange h

/-! ## Hexadecimal text -/

/-- The first byte of a number in hexadecimal is a digit. -/
theorem digit_head_hex (n : ℕ) : digit ((numeral 16 n).getD 0 0) < 16 := by
  rw [numeral]
  split
  · decide
  · next hn =>
    have hnil : Nat.digits 16 n ≠ [] := Nat.digits_ne_nil_iff_ne_zero.mpr hn
    have hlast : (Nat.digits 16 n).getLast hnil < 16 :=
      Nat.digits_lt_base (by decide) (List.getLast_mem hnil)
    have hhead : ((Nat.digits 16 n).reverse.map digitByte).head? =
        some (digitByte ((Nat.digits 16 n).getLast hnil)) := by
      rw [List.head?_map, List.head?_reverse, List.getLast?_eq_some_getLast hnil]
      rfl
    rw [List.getD_eq_getElem?_getD, ← List.head?_eq_getElem?, hhead, Option.getD_some,
      digit_digitByte _ (by omega)]
    exact hlast

/-- What `0x%x` prints reads back as the number, as far as the type goes. -/
theorem strtol_hex (width n : ℕ) : strtol width (48 :: 120 :: numeral 16 n) = saturate width n := by
  have hspace : (48 :: 120 :: numeral 16 n).dropWhile isSpace = 48 :: 120 :: numeral 16 n := rfl
  have hsign : sign (48 :: 120 :: numeral 16 n) = (false, 48 :: 120 :: numeral 16 n) := rfl
  have hradix : radix (48 :: 120 :: numeral 16 n) = (16, numeral 16 n) := by
    have hprefix : ((48 :: 120 :: numeral 16 n).getD 1 0 = 120 ∨
        (48 :: 120 :: numeral 16 n).getD 1 0 = 88) ∧
          digit ((48 :: 120 :: numeral 16 n).getD 2 0) < 16 := ⟨Or.inl rfl, digit_head_hex n⟩
    have hzero : (48 :: 120 :: numeral 16 n).head? = some 48 := rfl
    rw [radix, if_pos hzero, if_pos hprefix]
    rfl
  rw [strtol, hspace, hsign]
  simp only [hradix, magnitude_numeral (show 1 < 16 by decide) (show 16 ≤ 36 by decide),
    Bool.false_eq_true, if_false]

end Android2Mouse.Library.Strtol
