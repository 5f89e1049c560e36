import Android2Mouse.Library.Strtol

/-!
# Numbers out of text (`sscanf` with `%d`)

`%d` skips white space, takes a sign and the decimal digits that follow. A list of `%d` ends
where one of them finds no digit. What `%d` has written is read back, each number up to the
white space after it (`scanInts_decimals`). A number out of the range of the type, for which
there is no rule, saturates as in `strtol`.
-/
namespace Android2Mouse.Library.Scan
open Strtol

/-- `%d`: the number and the text after it. -/
def scanInt (width : ℕ) (s : List UInt8) : Option (ℤ × List UInt8) :=
  let (negative, s) := sign (s.dropWhile isSpace)
  let n := (digits 10 s).length
  if n = 0 then none
  else some (saturate width (if negative then -magnitude 10 s else magnitude 10 s), s.drop n)

/-- `n` times `%d`. -/
def scanInts (width : ℕ) : ℕ → List UInt8 → List ℤ
  | 0, _ => []
  | n + 1, s =>
    match scanInt width s with
    | none => []
    | some (v, s) => v :: scanInts width n s

/-- Numbers, each with a byte of white space behind it. -/
def decimals (vs : List (ℤ × UInt8)) : List UInt8 := vs.flatMap fun v => decimal v.1 ++ [v.2]

theorem digit_decimalNat (n : ℕ) : ∀ b ∈ decimalNat n, digit b < 10 := by
  intro b hb
  by_cases hn : n = 0
  · rw [decimalNat, if_pos hn, List.mem_singleton] at hb
    subst hb
    decide
  · rw [decimalNat, if_neg hn, List.mem_map] at hb
    obtain ⟨d, hd, rfl⟩ := hb
    have hlt : d < 10 := Nat.digits_lt_base (by decide) (List.mem_reverse.mp hd)
    interval_cases d <;> decide

/-- Digits end before the first byte that is none. -/
theorem digits_append {base : ℕ} {s : List UInt8} (hs : ∀ b ∈ s, digit b < base) {c : UInt8}
    (hc : ¬ digit c < base) (rest : List UInt8) :
    digits base (s ++ c :: rest) = digits base s ∧ (digits base s).length = s.length := by
  have hall : ∀ d ∈ s.map digit, (decide (d < base)) = true := by
    intro d hd
    obtain ⟨b, hb, rfl⟩ := List.mem_map.mp hd
    exact decide_eq_true (hs b hb)
  have hself : digits base s = s.map digit := List.takeWhile_eq_self_iff.mpr hall
  refine ⟨?_, by rw [hself, List.length_map]⟩
  rw [hself, digits, List.map_append, List.takeWhile_append_of_pos hall, List.map_cons,
    List.takeWhile_cons_of_neg (by simpa using hc), List.append_nil]

theorem magnitude_append {base : ℕ} {s : List UInt8} (hs : ∀ b ∈ s, digit b < base) {c : UInt8}
    (hc : ¬ digit c < base) (rest : List UInt8) :
    magnitude base (s ++ c :: rest) = magnitude base s := by
  rw [magnitude, (digits_append hs hc rest).1, magnitude]

/-- A decimal digit is neither white space nor a sign. -/
theorem digit_bare : ∀ c : UInt8, digit c < 10 → isSpace c = false ∧ c ≠ 45 ∧ c ≠ 43 :=
  all_bytes (by decide +kernel)

theorem space_not_digit (c : UInt8) (h : isSpace c = true) : ¬ digit c < 10 := by
  intro hc
  rw [(digit_bare c hc).1] at h
  cases h

theorem decimalNat_ne_nil (n : ℕ) : decimalNat n ≠ [] := by
  by_cases hn : n = 0
  · rw [decimalNat, if_pos hn]
    exact List.cons_ne_nil _ _
  · obtain ⟨d, -, -, hhead⟩ := head_decimalNat n hn
    intro hnil
    rw [hnil] at hhead
    cases hhead

/-- The digits at the front of a text are taken for a number without a sign. -/
theorem sign_decimalNat (n : ℕ) (rest : List UInt8) :
    (decimalNat n ++ rest).dropWhile isSpace = decimalNat n ++ rest ∧
      sign (decimalNat n ++ rest) = (false, decimalNat n ++ rest) := by
  obtain ⟨b, t, hbt⟩ := List.exists_cons_of_ne_nil (decimalNat_ne_nil n)
  have hdigit : digit b < 10 := digit_decimalNat n b (by rw [hbt]; exact List.mem_cons_self)
  obtain ⟨hspace, hminus, hplus⟩ := digit_bare b hdigit
  rw [hbt, List.cons_append]
  refine ⟨List.dropWhile_cons_of_neg (by rw [hspace]; decide), ?_⟩
  rw [sign, List.head?_cons, if_neg fun h => hminus (Option.some.inj h),
    if_neg fun h => hplus (Option.some.inj h)]

/-- The number before white space is read back. -/
theorem scanInt_decimal (width : ℕ) {v : ℤ} (h : InRange width v) {c : UInt8}
    (hc : isSpace c = true) (rest : List UInt8) :
    scanInt width (decimal v ++ c :: rest) = some (v, c :: rest) := by
  have hdigits := digit_decimalNat v.natAbs
  have hstop := space_not_digit c hc
  obtain ⟨hspace, hsign⟩ := sign_decimalNat v.natAbs (c :: rest)
  obtain ⟨hall, hlen⟩ := digits_append hdigits hstop rest
  have hmag := magnitude_append hdigits hstop rest
  rw [magnitude_decimalNat] at hmag
  have hpos : (decimalNat v.natAbs).length ≠ 0 := fun h0 =>
    decimalNat_ne_nil v.natAbs (List.length_eq_zero_iff.mp h0)
  by_cases hneg : v < 0
  · have hvalue : -(v.natAbs : ℤ) = v := by omega
    have hminus : sign ((45 :: (decimalNat v.natAbs ++ c :: rest)).dropWhile isSpace) =
        (true, decimalNat v.natAbs ++ c :: rest) := rfl
    rw [decimal, if_pos hneg, List.cons_append, scanInt, hminus]
    simp only [hall, hlen, hpos, hmag, if_false, if_true, hvalue, saturate_of_inRange h,
      List.drop_left]
  · have hvalue : (v.natAbs : ℤ) = v := by omega
    rw [decimal, if_neg hneg, scanInt, hspace, hsign]
    simp only [hall, hlen, hpos, hmag, if_false, Bool.false_eq_true, hvalue, saturate_of_inRange h,
      List.drop_left]

theorem scanInt_space (width : ℕ) {c : UInt8} (hc : isSpace c = true) (s : List UInt8) :
    scanInt width (c :: s) = scanInt width s := by
  rw [scanInt, List.dropWhile_cons_of_pos hc, scanInt]

/-- What has been written number by number is read back. -/
theorem scanInts_decimals (width : ℕ) {vs : List (ℤ × UInt8)} (hrange : ∀ v ∈ vs, InRange width v.1)
    (hspace : ∀ v ∈ vs, isSpace v.2 = true) (rest : List UInt8) :
    scanInts width vs.length (decimals vs ++ rest) = vs.map Prod.fst := by
  have hskip (n : ℕ) {c : UInt8} (hc : isSpace c = true) (s : List UInt8) :
      scanInts width n (c :: s) = scanInts width n s := by
    cases n with
    | zero => rfl
    | succ n => rw [scanInts, scanInt_space width hc, scanInts]
  induction vs with
  | nil => rfl
  | cons v vs ih =>
    have hc := hspace v List.mem_cons_self
    have htext : decimals (v :: vs) ++ rest = decimal v.1 ++ v.2 :: (decimals vs ++ rest) := by
      rw [decimals, List.flatMap_cons, List.append_assoc, List.append_assoc, List.singleton_append]
      rfl
    rw [htext, List.length_cons, scanInts, scanInt_decimal width (hrange v List.mem_cons_self) hc]
    simp only [hskip vs.length hc, ih (fun w hw => hrange w (List.mem_cons_of_mem _ hw))
      (fun w hw => hspace w (List.mem_cons_of_mem _ hw)), List.map_cons]

end Android2Mouse.Library.Scan
