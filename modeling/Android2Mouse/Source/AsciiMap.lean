import Mathlib.Data.List.Basic

/-!
# The key map (`ascii_map.inc.h`)

`kbdAsciimap` is the table of the header, entry for entry: the HID keycode of
each ASCII character, with the top bit set where the key needs shift, zero
where the character has no key.
-/
namespace Android2Mouse.Source.AsciiMap

/-- `SHIFT`, the table's own flag; not the modifier bit of a report. -/
def shift : UInt8 := 0x80

def kbdAsciimap : List UInt8 := [
  -- 0..31: only backspace, tab and line feed have a key
  0x00, 0x00, 0x00, 0x00, 0x00, 0x00, 0x00, 0x00,
  0x2a, 0x2b, 0x28, 0x00, 0x00, 0x00, 0x00, 0x00,
  0x00, 0x00, 0x00, 0x00, 0x00, 0x00, 0x00, 0x00,
  0x00, 0x00, 0x00, 0x00, 0x00, 0x00, 0x00, 0x00,
  -- 32..64: space, punctuation and digits
  0x2c, 0x1e ||| shift, 0x34 ||| shift, 0x20 ||| shift, 0x21 ||| shift, 0x22 ||| shift,
  0x24 ||| shift, 0x34, 0x26 ||| shift, 0x27 ||| shift, 0x25 ||| shift, 0x2e ||| shift,
  0x36, 0x2d, 0x37, 0x38, 0x27, 0x1e,
  0x1f, 0x20, 0x21, 0x22, 0x23, 0x24,
  0x25, 0x26, 0x33 ||| shift, 0x33, 0x36 ||| shift, 0x2e,
  0x37 ||| shift, 0x38 ||| shift, 0x1f ||| shift,
  -- 65..90: upper case
  0x04 ||| shift, 0x05 ||| shift, 0x06 ||| shift, 0x07 ||| shift, 0x08 ||| shift, 0x09 ||| shift,
  0x0a ||| shift, 0x0b ||| shift, 0x0c ||| shift, 0x0d ||| shift, 0x0e ||| shift, 0x0f ||| shift,
  0x10 ||| shift, 0x11 ||| shift, 0x12 ||| shift, 0x13 ||| shift, 0x14 ||| shift, 0x15 ||| shift,
  0x16 ||| shift, 0x17 ||| shift, 0x18 ||| shift, 0x19 ||| shift, 0x1a ||| shift, 0x1b ||| shift,
  0x1c ||| shift, 0x1d ||| shift,
  -- 91..96
  0x2f, 0x31, 0x30, 0x23 ||| shift, 0x2d ||| shift, 0x35,
  -- 97..122: lower case
  0x04, 0x05, 0x06, 0x07, 0x08, 0x09, 0x0a, 0x0b,
  0x0c, 0x0d, 0x0e, 0x0f, 0x10, 0x11, 0x12, 0x13,
  0x14, 0x15, 0x16, 0x17, 0x18, 0x19, 0x1a, 0x1b,
  0x1c, 0x1d,
  -- 123..127
  0x2f ||| shift, 0x31 ||| shift, 0x30 ||| shift, 0x35 ||| shift, 0]

@[simp] theorem kbdAsciimap_length : kbdAsciimap.length = 128 := by rfl

/-- The table entry of a byte, zero outside the table. -/
def entry (b : UInt8) : UInt8 := kbdAsciimap.getD b.toNat 0

/-- The table maps the byte to a key. -/
def Typeable (b : UInt8) : Prop := entry b ≠ 0

instance : DecidablePred Typeable := fun b => inferInstanceAs (Decidable (entry b ≠ 0))

/-- The keycode of an entry, `key & ~SHIFT`. -/
def keyOf (e : UInt8) : UInt8 := e &&& ~~~shift

/-- The entry asks for shift, `key & SHIFT`. -/
def shifted (e : UInt8) : Bool := e &&& shift != 0

theorem entry_eq_getElem (b : UInt8) (h : b.toNat < kbdAsciimap.length) :
    entry b = kbdAsciimap[b.toNat] := by
  simp only [entry, List.getD_eq_getElem?_getD, List.getElem?_eq_getElem h, Option.getD_some]

theorem entry_of_ge (b : UInt8) (h : kbdAsciimap.length ≤ b.toNat) : entry b = 0 := by
  simp only [entry, List.getD_eq_getElem?_getD, List.getElem?_eq_none h, Option.getD_none]

theorem entry_zero_of_not_typeable (b : UInt8) (h : ¬ Typeable b) : entry b = 0 :=
  Decidable.not_not.mp h

/-- The table settles a property of every byte. -/
theorem forall_byte {P : UInt8 → Prop} (h : ∀ n < 256, P (UInt8.ofNat n)) (b : UInt8) : P b := by
  simpa using h b.toNat b.toNat_lt

theorem keyOf_of_not_shifted (e : UInt8) : shifted e = false → keyOf e = e := by
  revert e
  exact forall_byte (by decide +kernel)

/-- A mapped entry has a keycode. -/
theorem keyOf_ne_zero (b : UInt8) : Typeable b → keyOf (entry b) ≠ 0 := by
  revert b
  exact forall_byte (by decide +kernel)

/-- The character whose entry is the keycode with that shift state. -/
def charOf (shifted' : Bool) (keycode : UInt8) : Option UInt8 :=
  (kbdAsciimap.findIdx? fun e => e ≠ 0 ∧ keyOf e = keycode ∧ shifted e = shifted').map UInt8.ofNat

/-- Looking a mapped character's own entry up gives the character back: no two
characters share a keycode and a shift state. -/
theorem charOf_entry (b : UInt8) :
    Typeable b → charOf (shifted (entry b)) (keyOf (entry b)) = some b := by
  revert b
  exact forall_byte (by decide +kernel)

end Android2Mouse.Source.AsciiMap
