import Android2Mouse.Source.Bluetooth

/-!
# Addresses in text

`str2ba` takes a string for an address exactly when the string is, but for the case of its
letters, what `ba2str` writes of that address (`address_text`).
-/
namespace Android2Mouse.Guarantees.AddressText
open Library.Strtol Source.Sdp Source.Bluetooth

/-- `toupper` -/
def toupper (c : UInt8) : UInt8 := if 97 ≤ c ∧ c ≤ 122 then c - 32 else c

/-! ## One byte -/

theorem toupper_digit_iff : ∀ (c : UInt8) (d : Fin 16), toupper c = upperDigit d ↔ digit c = d :=
  all_bytes (by decide +kernel)

theorem toupper_colon_iff : ∀ c : UInt8, toupper c = 58 ↔ c = 58 := all_bytes (by decide +kernel)

/-- A digit is neither white space, nor a sign, nor what makes `0` a prefix. -/
theorem isxdigit_bare : ∀ c : UInt8, isxdigit c = true →
    isSpace c = false ∧ c ≠ 45 ∧ c ≠ 43 ∧ c ≠ 120 ∧ c ≠ 88 := all_bytes (by decide +kernel)

/-- The text after a byte: the end, or a colon. -/
def Ends (rest : List UInt8) : Prop := ∀ c ∈ rest.head?, c = 58

theorem digits_pair {c d : UInt8} {rest : List UInt8} (hc : isxdigit c = true)
    (hd : isxdigit d = true) (hrest : Ends rest) :
    digits 16 (c :: d :: rest) = [digit c, digit d] := by
  have hstop : (rest.map digit).takeWhile (· < 16) = [] := by
    cases rest with
    | nil => rfl
    | cons e rest =>
      have he : e = 58 := hrest e rfl
      subst he
      rfl
  rw [digits, List.map_cons, List.map_cons, List.takeWhile_cons_of_pos (by exact hc),
    List.takeWhile_cons_of_pos (by exact hd), hstop]

theorem strtol16_pair {c d : UInt8} {rest : List UInt8} (hc : isxdigit c = true)
    (hd : isxdigit d = true) (hrest : Ends rest) :
    strtol16 (c :: d :: rest) = (16 * digit c + digit d : ℕ) := by
  obtain ⟨hspace, hminus, hplus, -, -⟩ := isxdigit_bare c hc
  obtain ⟨-, -, -, hx, hX⟩ := isxdigit_bare d hd
  have hsign : sign ((c :: d :: rest).dropWhile isSpace) = (false, c :: d :: rest) := by
    rw [List.dropWhile_cons_of_neg (by rw [hspace]; decide), sign]
    simp only [List.head?_cons, Option.some.injEq, hminus, hplus, if_false]
  have htext : hexText (c :: d :: rest) = c :: d :: rest :=
    if_neg fun h => h.2.1.elim hx hX
  have hmag : magnitude 16 (c :: d :: rest) = 16 * digit c + digit d := by
    rw [magnitude, digits_pair hc hd hrest, List.foldl_cons, List.foldl_cons, List.foldl_nil,
      Nat.mul_zero, Nat.zero_add]
  have hc' : digit c < 16 := of_decide_eq_true hc
  have hd' : digit d < 16 := of_decide_eq_true hd
  rw [strtol16, hsign]
  simp only [Bool.false_eq_true, if_false, htext, hmag]
  refine saturate_of_inRange ⟨?_, ?_⟩
  · omega
  · omega

theorem ofInt_toNat (n : ℕ) : UInt8.ofInt n = UInt8.ofNat n := by
  apply UInt8.toNat_inj.mp
  rw [UInt8.ofInt, UInt8.toNat_ofNat', UInt8.toNat_ofNat']
  omega

/-- Two characters are the text of a byte exactly when they are digits that stand for it. -/
theorem toupper_pair_iff (c d b : UInt8) :
    [toupper c, toupper d] = hexByte b ↔
      isxdigit c = true ∧ isxdigit d = true ∧ UInt8.ofInt (16 * digit c + digit d : ℕ) = b := by
  have hb := b.toNat_lt
  have hhigh := toupper_digit_iff c ⟨b.toNat / 16, by omega⟩
  have hlow := toupper_digit_iff d ⟨b.toNat % 16, Nat.mod_lt _ (by decide)⟩
  rw [hexByte, List.cons.injEq, List.cons.injEq, hhigh, hlow]
  constructor
  · rintro ⟨hc, hd, -⟩
    have hc' : digit c < 16 := by
      rw [hc]
      exact Fin.isLt _
    have hd' : digit d < 16 := by
      rw [hd]
      exact Fin.isLt _
    refine ⟨decide_eq_true hc', decide_eq_true hd', ?_⟩
    have hvalue : 16 * digit c + digit d = b.toNat := by
      rw [hc, hd]
      exact Nat.div_add_mod b.toNat 16
    rw [hvalue, ofInt_toNat, UInt8.ofNat_toNat]
  · rintro ⟨hc, hd, hvalue⟩
    have hc' : digit c < 16 := of_decide_eq_true hc
    have hd' : digit d < 16 := of_decide_eq_true hd
    have htoNat : b.toNat = 16 * digit c + digit d := by
      rw [← hvalue, ofInt_toNat, UInt8.toNat_ofNat']
      omega
    refine ⟨?_, ?_, rfl⟩
    · change digit c = b.toNat / 16
      omega
    · change digit d = b.toNat % 16
      omega

/-! ## Addresses -/

theorem bachkFrom_last (c d : UInt8) :
    bachkFrom [c, d] = 0 ↔ isxdigit c = true ∧ isxdigit d = true := by
  rw [bachkFrom]
  cases isxdigit c with
  | false => simp
  | true => cases isxdigit d <;> simp

theorem bachkFrom_cons (c d e : UInt8) (str : List UInt8) :
    bachkFrom (c :: d :: e :: str) = 0 ↔
      isxdigit c = true ∧ isxdigit d = true ∧ e = 58 ∧ bachkFrom str = 0 := by
  rw [bachkFrom]
  cases isxdigit c with
  | false => simp
  | true =>
    cases isxdigit d with
    | false => simp
    | true => by_cases he : e = 58 <;> simp [he]

theorem bachkFrom_neg (str : List UInt8) : bachkFrom str < 0 ↔ bachkFrom str ≠ 0 := by
  have hvalues : bachkFrom str = 0 ∨ bachkFrom str = -1 := by
    fun_induction bachkFrom str
    all_goals first | exact .inl rfl | exact .inr rfl | assumption
  omega

theorem hexBytes_cons (b b' : UInt8) (bs : List UInt8) :
    hexBytes (b :: b' :: bs) = hexByte b ++ 58 :: hexBytes (b' :: bs) := rfl

theorem length_hexBytes (b : UInt8) (bs : List UInt8) :
    (hexBytes (b :: bs)).length = 3 * bs.length + 2 := by
  induction bs generalizing b with
  | nil => rfl
  | cons b' bs ih =>
    rw [hexBytes_cons, List.length_append, List.length_cons, ih, List.length_cons]
    change 2 + _ = _
    omega

/-- The text of bytes, over what `bachk` checks and `str2ba` reads. -/
theorem toupper_bytes_iff (n : ℕ) {str : List UInt8} (hlen : str.length = 3 * n + 2)
    (bs : List UInt8) :
    str.map toupper = hexBytes bs ∧ bs.length = n + 1 ↔
      bachkFrom str = 0 ∧ readBytes (n + 1) str = bs := by
  induction n generalizing str bs with
  | zero =>
    obtain ⟨c, d, rfl⟩ := List.length_eq_two.mp hlen
    have hend : Ends [] := fun _ h => by cases h
    rw [bachkFrom_last]
    constructor
    · rintro ⟨htext, hbs⟩
      obtain ⟨b, rfl⟩ := List.length_eq_one_iff.mp hbs
      obtain ⟨hc, hd, hb⟩ := (toupper_pair_iff c d b).mp htext
      rw [readBytes, strtol16_pair hc hd hend, hb]
      exact ⟨⟨hc, hd⟩, rfl⟩
    · rintro ⟨⟨hc, hd⟩, rfl⟩
      rw [readBytes, strtol16_pair hc hd hend]
      exact ⟨(toupper_pair_iff c d _).mpr ⟨hc, hd, rfl⟩, rfl⟩
  | succ n ih =>
    rcases str with _ | ⟨c, _ | ⟨d, _ | ⟨e, str⟩⟩⟩
    · cases hlen
    · cases hlen
    · cases hlen
    have hlen' : str.length = 3 * n + 2 := by
      simp only [List.length_cons] at hlen
      omega
    have hend : Ends (58 :: str) := fun c h => by
      cases h
      rfl
    rw [bachkFrom_cons, readBytes]
    constructor
    · rintro ⟨htext, hbs⟩
      rcases bs with _ | ⟨b, _ | ⟨b', bs⟩⟩
      · cases hbs
      · cases hbs
      have hpair : [toupper c, toupper d] = hexByte b := congrArg (List.take 2) htext
      have hrest : toupper e :: str.map toupper = 58 :: hexBytes (b' :: bs) :=
        congrArg (List.drop 2) htext
      obtain ⟨hcolon, htext'⟩ := List.cons.inj hrest
      obtain ⟨hc, hd, hb⟩ := (toupper_pair_iff c d b).mp hpair
      obtain ⟨hchk, hread⟩ := (ih hlen' (b' :: bs)).mp ⟨htext', Nat.succ.inj hbs⟩
      have he := (toupper_colon_iff e).mp hcolon
      subst he
      refine ⟨⟨hc, hd, rfl, hchk⟩, ?_⟩
      rw [strtol16_pair hc hd hend, hb]
      exact congrArg (b :: ·) hread
    · rintro ⟨⟨hc, hd, rfl, hchk⟩, rfl⟩
      obtain ⟨htext, hbs⟩ := (ih hlen' _).mpr ⟨hchk, rfl⟩
      rw [strtol16_pair hc hd hend]
      have hpair := (toupper_pair_iff c d _).mpr ⟨hc, hd, rfl⟩
      refine ⟨?_, congrArg Nat.succ hbs⟩
      change toupper c :: toupper d :: 58 :: str.map toupper = _
      rw [htext]
      exact congrArg (· ++ 58 :: hexBytes (readBytes (n + 1) str)) hpair

theorem length_ba2str (ba : BdAddr) : (ba2str ba).length = 17 := by
  obtain ⟨b, bs, hbs⟩ := List.exists_cons_of_length_eq_add_one
    (show ba.b.reverse.length = 5 + 1 by rw [List.length_reverse, ba.length_b])
  have hlen : bs.length = 5 := by
    have hrev := congrArg List.length hbs
    rw [List.length_reverse, ba.length_b, List.length_cons] at hrev
    omega
  rw [ba2str, hbs, length_hexBytes, hlen]

theorem bdaddr_ext_iff (bs : List UInt8) (h : bs.length = 6) (ba : BdAddr) :
    (⟨bs, h⟩ : BdAddr) = ba ↔ bs = ba.b := by
  cases ba with
  | mk b length_b => exact BdAddr.mk.injEq .. ▸ Iff.rfl

theorem str2ba_iff (str : List UInt8) (ba : BdAddr) :
    str2ba str = (0, ba) ↔ str.map toupper = ba2str ba := by
  by_cases hlen : str.length = 17
  · have hbytes := toupper_bytes_iff 5 hlen ba.b.reverse
    rw [List.length_reverse, ba.length_b, and_iff_left rfl] at hbytes
    rw [ba2str, hbytes, str2ba, bachk, if_neg (not_not.mpr hlen)]
    by_cases hchk : bachkFrom str = 0
    · rw [if_neg fun h => (bachkFrom_neg str).mp h hchk, and_iff_right hchk, Prod.mk.injEq,
        and_iff_right rfl, bdaddr_ext_iff]
      exact ⟨fun h => by rw [← h, List.reverse_reverse], fun h => by rw [h, List.reverse_reverse]⟩
    · rw [if_pos ((bachkFrom_neg str).mpr hchk)]
      exact iff_of_false (fun h => by cases (Prod.mk.inj h).1) fun h => hchk h.1
  · rw [str2ba, bachk, if_pos hlen, if_pos (by decide)]
    refine iff_of_false (fun h => by cases (Prod.mk.inj h).1) fun h => hlen ?_
    rw [← List.length_map, h, length_ba2str]

theorem toupper_ba2str (ba : BdAddr) : (ba2str ba).map toupper = ba2str ba := by
  have hdigit (d : ℕ) (h : d < 16) : toupper (upperDigit d) = upperDigit d := by
    interval_cases d <;> decide
  have hbyte (b : UInt8) : (hexByte b).map toupper = hexByte b := by
    have hb := b.toNat_lt
    rw [hexByte, List.map_cons, List.map_cons, hdigit _ (by omega), hdigit _ (by omega)]
    rfl
  have hbytes (bs : List UInt8) : (hexBytes bs).map toupper = hexBytes bs := by
    induction bs with
    | nil => rfl
    | cons b bs ih =>
      cases bs with
      | nil => exact hbyte b
      | cons b' bs =>
        rw [hexBytes_cons, List.map_append, hbyte, List.map_cons, ih]
        rfl
  exact hbytes _

/-- A string is taken for an address exactly when it is the text that `ba2str` writes of that
address, but for the case of its letters; then `batostr` after `strtoba` writes it in upper
case, too, when both get their memory. And every address is read back from its text. -/
theorem address_text (str : List UInt8) (ba : BdAddr) :
    (str2ba str = (0, ba) ↔ str.map toupper = ba2str ba) ∧
      (str2ba str = (0, ba) → batostr (strtoba str) = str.map toupper) ∧
      str2ba (ba2str ba) = (0, ba) := by
  refine ⟨str2ba_iff str ba, fun h => ?_, (str2ba_iff _ ba).mpr (toupper_ba2str ba)⟩
  rw [(str2ba_iff str ba).mp h, strtoba, h]
  rfl

end Android2Mouse.Guarantees.AddressText
