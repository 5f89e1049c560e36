import Android2Mouse.Library.Strtol
import Mathlib.Algebra.GroupWithZero.Nat

/-!
# Formatted text (`printf`)

A format string is ordinary characters and conversions, and a conversion takes the next
argument (`%.*s` takes the pair of a precision and a string). `format` is the text that
comes of it. Its length is the number of the ordinary characters and the widths of the
conversions (`length_format`), and the width of a number is below a bound exactly when
the number is below a power of the base (`length_numeral_le_iff`).

`int`, `size_t` and `unsigned long` are one word of 32 bits each. A string is the list of
its bytes before the NUL. The specifications are those that the modelled calls use.
-/
namespace Android2Mouse.Library.Printf
open Strtol

/-! ## Format strings -/

/-- `%d` has the precision 1: at least one digit. -/
inductive Conversion where
  | signed (precision : ℕ)
  | unsigned (base : ℕ)
  | char
  | string
  | stringUpTo
  deriving DecidableEq, Repr

inductive Piece where
  | byte (b : UInt8)
  | convert (c : Conversion)
  deriving DecidableEq, Repr

/-- The conversion that the characters after a percent sign stand for. -/
def conversion (spec : List Char) : Option Conversion :=
  if spec = ['d'] ∨ spec = ['i'] then some (.signed 1)
  else if spec = ['.', '2', 'd'] then some (.signed 2)
  else if spec = ['x'] then some (.unsigned 16)
  else if spec = ['o'] then some (.unsigned 8)
  else if spec = ['l', 'u'] then some (.unsigned 10)
  else if spec = ['c'] then some .char
  else if spec = ['s'] then some .string
  else if spec = ['.', '*', 's'] then some .stringUpTo
  else none

/-- The pieces of a format string, where a percent sign and some characters after it
may have been read. -/
def piecesFrom : Option (List Char) → List Char → List Piece
  | _, [] => []
  | none, c :: fmt =>
    if c = '%' then piecesFrom (some []) fmt
    else .byte (UInt8.ofNat c.toNat) :: piecesFrom none fmt
  | some spec, c :: fmt =>
    match conversion (spec ++ [c]) with
    | some conv => .convert conv :: piecesFrom none fmt
    | none => piecesFrom (some (spec ++ [c])) fmt

def pieces (fmt : List Char) : List Piece := piecesFrom none fmt

/-! ## Text -/

inductive Arg where
  | word (v : UInt32)
  | text (s : List UInt8)
  | textUpTo (n : ℕ) (s : List UInt8)
  deriving DecidableEq, Repr

/-- An `int` argument. -/
def Arg.int (v : Int32) : Arg := .word v.toUInt32

/-- An argument of a type of one byte, promoted to `int`. -/
def Arg.byte (b : UInt8) : Arg := .word b.toUInt32

/-- A number with its sign, zeros up to the precision, and its digits. -/
def signedText (precision : ℕ) (v : ℤ) : List UInt8 :=
  (if v < 0 then [45] else []) ++
    (List.replicate (precision - (numeral 10 v.natAbs).length) 48 ++ numeral 10 v.natAbs)

/-- What a conversion makes of its argument; one of another type is no text in C. -/
def Conversion.text : Conversion → Arg → List UInt8
  | .signed precision, .word v => signedText precision v.toInt32.toInt
  | .unsigned base, .word v => numeral base v.toNat
  | .char, .word v => [v.toUInt8]
  | .string, .text s => s
  | .stringUpTo, .textUpTo n s => s.take n
  | _, _ => []

/-- The text of a format and its arguments. -/
def format : List Piece → List Arg → List UInt8
  | [], _ => []
  | .byte b :: fmt, args => b :: format fmt args
  | .convert _ :: fmt, [] => format fmt []
  | .convert c :: fmt, arg :: args => c.text arg ++ format fmt args

/-! ## Lengths -/

def Piece.conversion? : Piece → Option Conversion
  | .byte _ => none
  | .convert c => some c

def conversions (fmt : List Piece) : List Conversion := fmt.filterMap Piece.conversion?

/-- The number of ordinary characters. -/
def plain (fmt : List Piece) : ℕ := fmt.countP fun p => p.conversion? = none

def widths : List Conversion → List Arg → ℕ
  | c :: cs, arg :: args => (c.text arg).length + widths cs args
  | _, _ => 0

theorem widths_nil (cs : List Conversion) : widths cs [] = 0 := by
  cases cs with
  | nil => rfl
  | cons c cs => rfl

theorem length_format (fmt : List Piece) (args : List Arg) :
    (format fmt args).length = plain fmt + widths (conversions fmt) args := by
  induction fmt generalizing args with
  | nil => rfl
  | cons p fmt ih =>
    cases p with
    | byte b =>
      have hplain : plain (.byte b :: fmt) = plain fmt + 1 := List.countP_cons_of_pos rfl
      have hconvs : conversions (.byte b :: fmt) = conversions fmt := rfl
      rw [format, List.length_cons, ih, hplain, hconvs]
      omega
    | convert c =>
      have hplain : plain (.convert c :: fmt) = plain fmt :=
        List.countP_cons_of_neg (by simp [Piece.conversion?])
      have hconvs : conversions (.convert c :: fmt) = c :: conversions fmt := rfl
      cases args with
      | nil => rw [format, ih, hplain, hconvs, widths_nil, widths_nil]
      | cons arg args =>
        rw [format, List.length_append, ih, hplain, hconvs, widths]
        omega

theorem length_numeral_le_iff {base k : ℕ} (hbase : 1 < base) (hk : 0 < k) (n : ℕ) :
    (numeral base n).length ≤ k ↔ n < base ^ k := by
  by_cases hn : n = 0
  · subst hn
    rw [numeral, if_pos rfl]
    exact iff_of_true hk (Nat.pow_pos (Nat.zero_lt_of_lt hbase))
  · rw [numeral, if_neg hn, List.length_map, List.length_reverse]
    exact Nat.digits_length_le_iff hbase n

theorem length_numeral_pos (base n : ℕ) : 0 < (numeral base n).length := by
  unfold numeral
  split
  · exact Nat.one_pos
  · rw [List.length_map, List.length_reverse]
    exact List.length_pos_iff.mpr (Nat.digits_ne_nil_iff_ne_zero.mpr ‹_›)

theorem length_numeral_mono {base m n : ℕ} (hbase : 1 < base) (h : m ≤ n) :
    (numeral base m).length ≤ (numeral base n).length := by
  rw [length_numeral_le_iff hbase (length_numeral_pos base n)]
  exact Nat.lt_of_le_of_lt h
    ((length_numeral_le_iff hbase (length_numeral_pos base n) n).mp (Nat.le_refl _))

/-- The width of a byte in hexadecimal. -/
theorem length_hex_byte (b : UInt8) :
    (numeral 16 b.toNat).length = if 16 ≤ b then 2 else 1 := by
  have hpos := length_numeral_pos 16 b.toNat
  have htwo : (numeral 16 b.toNat).length ≤ 2 :=
    (length_numeral_le_iff (by decide) (by decide) _).mpr b.toNat_lt
  have hone := length_numeral_le_iff (show 1 < 16 by decide) Nat.one_pos b.toNat
  rw [Nat.pow_one] at hone
  by_cases h : 16 ≤ b
  · have hle : 16 ≤ b.toNat := UInt8.le_iff_toNat_le.mp h
    rw [if_pos h]
    omega
  · have hlt : ¬ 16 ≤ b.toNat := fun h' => h (UInt8.le_iff_toNat_le.mpr h')
    rw [if_neg h]
    omega

theorem length_signedText (precision : ℕ) (v : ℤ) :
    (signedText precision v).length =
      (if v < 0 then 1 else 0) + max precision (numeral 10 v.natAbs).length := by
  rw [signedText, List.length_append, List.length_append, List.length_replicate]
  split <;> simp only [List.length_singleton, List.length_nil] <;> omega

/-- A number of at most `k` digits takes a place more for its sign. -/
theorem length_signedText_le {precision k : ℕ} {v : ℤ} (hk : 0 < k) (hprec : precision ≤ k)
    (h : v.natAbs < 10 ^ k) : (signedText precision v).length ≤ k + 1 := by
  have hdigits := (length_numeral_le_iff (show 1 < 10 by decide) hk v.natAbs).mpr h
  rw [length_signedText]
  split <;> omega

/-- An `int` has at most ten digits. -/
theorem length_signed_word {precision : ℕ} (hprec : precision ≤ 10) (v : UInt32) :
    (signedText precision v.toInt32.toInt).length ≤ 11 := by
  have hlow := v.toInt32.le_toInt
  have hhigh := v.toInt32.toInt_lt
  exact length_signedText_le (by decide) hprec (by omega)

end Android2Mouse.Library.Printf
