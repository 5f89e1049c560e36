import Android2Mouse.Library.Strtol
import Android2Mouse.Source.SdpClient

/-!
# Addresses in text (`bluetooth.c`)

A string is its bytes without the NUL. An address keeps its bytes in the opposite order of
its text; `strtoba` and `batostr` swap them once more.
-/
namespace Android2Mouse.Source.Bluetooth
open Library.Strtol Sdp

/-- `isxdigit` -/
def isxdigit (c : UInt8) : Bool := digit c < 16

/-- The `while` of `bachk`. -/
def bachkFrom : List UInt8 → Int
  | [] => 0
  -- the second `isxdigit` is of the NUL
  | [_] => -1
  | [c, d] => if !isxdigit c then -1 else if !isxdigit d then -1 else 0
  | c :: d :: e :: str =>
    if !isxdigit c then -1
    else if !isxdigit d then -1
    else if e ≠ 58 then -1
    else bachkFrom str

def bachk (str : List UInt8) : Int := if str.length ≠ 17 then -1 else bachkFrom str

/-- The text of the digits for `strtol` with base 16, after the sign. -/
def hexText (s : List UInt8) : List UInt8 :=
  if s.head? = some 48 ∧ (s.getD 1 0 = 120 ∨ s.getD 1 0 = 88) ∧ digit (s.getD 2 0) < 16 then s.drop 2
  else s

/-- `strtol(s, NULL, 16)` -/
def strtol16 (s : List UInt8) : ℤ :=
  let (negative, s) := sign (s.dropWhile isSpace)
  saturate 32 (if negative then -magnitude 16 (hexText s) else magnitude 16 (hexText s))

/-- `ba->b[i] = strtol(str, NULL, 16)` for `i` from 5, with the bytes in the order of the text. -/
def readBytes : ℕ → List UInt8 → List UInt8
  | 0, _ => []
  | n + 1, str => UInt8.ofInt (strtol16 str) :: readBytes n (str.drop 3)

theorem length_readBytes (n : ℕ) (str : List UInt8) : (readBytes n str).length = n := by
  induction n generalizing str with
  | zero => rfl
  | succ n ih => rw [readBytes, List.length_cons, ih]

/-- `str2ba`, with what it leaves in the address. -/
def str2ba (str : List UInt8) : Int × BdAddr :=
  if bachk str < 0 then (-1, bdaddrAny)
  else (0, ⟨(readBytes 6 str).reverse, by rw [List.length_reverse, length_readBytes]⟩)

/-- A digit of `%X`. -/
def upperDigit (d : ℕ) : UInt8 := UInt8.ofNat (if d < 10 then 48 + d else 55 + d)

/-- `%2.2X` of a byte -/
def hexByte (b : UInt8) : List UInt8 := [upperDigit (b.toNat / 16), upperDigit (b.toNat % 16)]

/-- `"%2.2X:%2.2X:%2.2X:%2.2X:%2.2X:%2.2X"` -/
def hexBytes (bs : List UInt8) : List UInt8 := [58].intercalate (bs.map hexByte)

def ba2str (ba : BdAddr) : List UInt8 := hexBytes ba.b.reverse

def baswap (src : BdAddr) : BdAddr := ⟨src.b.reverse, by rw [List.length_reverse, src.length_b]⟩

/-- `batostr`, when there is memory. -/
def batostr (ba : BdAddr) : List UInt8 := hexBytes ba.b

/-- `strtoba`, when there is memory. -/
def strtoba (str : List UInt8) : BdAddr := baswap (str2ba str).2

end Android2Mouse.Source.Bluetooth
