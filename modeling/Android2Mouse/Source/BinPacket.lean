import Mathlib.Data.List.Basic

/-!
# Reports and the FIFO packet (`combo_conn.h`)

The three input reports are packed C structs; `bytes` is their object
representation on the little-endian target. `struct bin_packet` is kept at the
level of its storage: three header bytes, the padding byte that aligns the
union (`bin_char.mods` is an `int`), and the sixteen bytes of the union. A
union member is a view of these sixteen bytes at the offsets the compiler
gives its fields, so that two programs reading different members of one packet
is what the model actually computes.

Plain `char` is unsigned on the target; every use of one in the modelled code
is converted to `uint8_t`, so nothing depends on it.
-/
namespace Android2Mouse.Source.ComboConn

def kbdRepId : UInt8 := 1
def mouseRepId : UInt8 := 2
def gpadRepId : UInt8 := 3
def sysRepId : UInt8 := 14

/-! ## Little-endian fields -/

def le16 (lo hi : UInt8) : UInt16 := .ofNat (lo.toNat + 256 * hi.toNat)

def le16Bytes (v : UInt16) : List UInt8 := [v.toUInt8, (v >>> 8).toUInt8]

/-- An `int` stored at four consecutive bytes. -/
def le32 (b0 b1 b2 b3 : UInt8) : Int32 :=
  (UInt32.ofNat (b0.toNat + 256 * b1.toNat + 65536 * b2.toNat + 16777216 * b3.toNat)).toInt32

def le32Bytes (v : Int32) : List UInt8 :=
  let u := v.toUInt32
  [u.toUInt8, (u >>> 8).toUInt8, (u >>> 16).toUInt8, (u >>> 24).toUInt8]

/-- The string that starts at a byte, up to its NUL; `strlen` is its length. -/
def cstring (s : List UInt8) : List UInt8 := s.takeWhile (· ≠ 0)

/-- A string before the NULs that fill its field up. -/
theorem cstring_padded (s : List UInt8) (k : ℕ) (h : 0 ∉ s) :
    cstring (s ++ List.replicate k 0) = s := by
  have hkeep : ∀ b ∈ s, (b ≠ 0 : Bool) = true := by
    intro b hb
    simpa using fun h0 : b = 0 => h (h0 ▸ hb)
  have hpad : (List.replicate k (0 : UInt8)).takeWhile (· ≠ 0) = [] := by
    cases k with
    | zero => rfl
    | succ k => rfl
  rw [cstring, List.takeWhile_append_of_pos hkeep, hpad, List.append_nil]

theorem cstring_of_nulFree (s : List UInt8) (h : 0 ∉ s) : cstring s = s := by
  have hpadded := cstring_padded s 0 h
  rwa [List.replicate_zero, List.append_nil] at hpadded

/-- C conversion of an `int` to `uint8_t`. -/
def intToUInt8 (v : Int32) : UInt8 := v.toUInt32.toUInt8

/-- C conversion of an `int` to `int8_t` is `toInt8`. -/
theorem toInt_toInt8 (v : Int32) :
    v.toInt8.toInt = if v.toInt % 256 < 128 then v.toInt % 256 else v.toInt % 256 - 256 :=
  Int32.toInt_toInt8 v

/-- C conversion of an `int` to `uint16_t`. -/
def intToUInt16 (v : Int32) : UInt16 := v.toUInt32.toUInt16

/-- An `int` narrowed to either type of one byte is the same byte. -/
theorem toInt8_intToUInt8 (v : Int32) : (intToUInt8 v).toInt8 = v.toInt8 := by
  apply Int8.toBitVec_inj.mp
  exact (BitVec.signExtend_eq_setWidth_of_le v.toBitVec (by decide)).symm

theorem le16_bytes (v : UInt16) : le16 v.toUInt8 (v >>> 8).toUInt8 = v := by
  have hv := v.toNat_lt
  apply UInt16.toNat_inj.mp
  simp only [le16, UInt16.toNat_ofNat', UInt16.toNat_toUInt8, UInt16.toNat_shiftRight,
    Nat.shiftRight_eq_div_pow]
  have h8 : (8 : UInt16).toNat % 16 = 8 := by decide
  rw [h8]
  omega

/-- Narrowing a stored `int` keeps its first byte. -/
theorem intToUInt8_le32 (b0 b1 b2 b3 : UInt8) : intToUInt8 (le32 b0 b1 b2 b3) = b0 := by
  have h0 := b0.toNat_lt
  apply UInt8.toNat_inj.mp
  simp only [intToUInt8, le32, UInt32.toUInt32_toInt32, UInt32.toNat_toUInt8, UInt32.toNat_ofNat']
  omega

/-! ## Input reports -/

structure KeyboardReport where
  reportId : UInt8
  modifier : UInt8
  reserved : UInt8
  keycodes : Vector UInt8 6
  deriving DecidableEq, Repr

structure MouseReport where
  reportId : UInt8
  buttons : UInt8
  x : Int8
  y : Int8
  wheel : Int8
  deriving DecidableEq, Repr

structure GamepadReport where
  reportId : UInt8
  buttons : UInt16
  x : Int8
  y : Int8
  z : Int8
  rx : Int8
  ry : Int8
  rz : Int8
  deriving DecidableEq, Repr

def KeyboardReport.bytes (r : KeyboardReport) : List UInt8 :=
  [r.reportId, r.modifier, r.reserved] ++ r.keycodes.toList

def MouseReport.bytes (r : MouseReport) : List UInt8 :=
  [r.reportId, r.buttons, r.x.toUInt8, r.y.toUInt8, r.wheel.toUInt8]

def GamepadReport.bytes (r : GamepadReport) : List UInt8 :=
  [r.reportId] ++ le16Bytes r.buttons ++
    [r.x.toUInt8, r.y.toUInt8, r.z.toUInt8, r.rx.toUInt8, r.ry.toUInt8, r.rz.toUInt8]

/-- `__ZERO(kbd, KBD_REP_ID)` -/
def KeyboardReport.zero : KeyboardReport := ⟨kbdRepId, 0, 0, .replicate 6 0⟩

/-- `__ZERO(mouse, MOUSE_REP_ID)` -/
def MouseReport.zero : MouseReport := ⟨mouseRepId, 0, 0, 0, 0⟩

/-- `__ZERO(gpad, GPAD_REP_ID)` -/
def GamepadReport.zero : GamepadReport := ⟨gpadRepId, 0, 0, 0, 0, 0, 0, 0⟩

/-! ## The packet -/

def maxString : ℕ := 16

/-- bits of `bin_packet.flags` -/
def brptString : UInt8 := 1
def brptChar : UInt8 := 2
/-- bits of `bin_packet.flags2` for `BRPT_CHAR` -/
def charAscii : UInt8 := 1
def charRaw : UInt8 := 2
/-- bit of `bin_packet.flags` for `SYS_REP_ID` -/
def hcrShutdown : UInt8 := 1

@[ext]
structure BinPacket where
  reportId : UInt8
  flags : UInt8
  flags2 : UInt8
  pad : UInt8
  report : Vector UInt8 16
  deriving DecidableEq, Repr

/-- `sizeof(struct bin_packet)` -/
def binPacketSize : ℕ := 20

structure BinMouse where
  buttons : UInt8
  x : Int8
  y : Int8
  wheel : Int8
  deriving DecidableEq, Repr

structure BinKeyboard where
  modifier : UInt8
  keycodes : Vector UInt8 6
  deriving DecidableEq, Repr

structure BinGamepad where
  buttons : UInt16
  x : Int8
  y : Int8
  z : Int8
  rx : Int8
  ry : Int8
  rz : Int8
  deriving DecidableEq, Repr

structure BinChar where
  c : UInt8
  mods : Int32
  deriving DecidableEq, Repr

namespace BinPacket

/-- `memset(&packet, 0, sizeof(packet))` -/
def zero : BinPacket := ⟨0, 0, 0, 0, .replicate 16 0⟩

/-- `packet.report.mouse` -/
def mouse (p : BinPacket) : BinMouse :=
  let r := p.report
  ⟨r[0], r[1].toInt8, r[2].toInt8, r[3].toInt8⟩

/-- `packet.report.keyboard` -/
def keyboard (p : BinPacket) : BinKeyboard :=
  let r := p.report
  ⟨r[0], #v[r[1], r[2], r[3], r[4], r[5], r[6]]⟩

/-- `packet.report.gamepad` -/
def gamepad (p : BinPacket) : BinGamepad :=
  let r := p.report
  ⟨le16 r[0] r[1], r[2].toInt8, r[3].toInt8, r[4].toInt8, r[5].toInt8, r[6].toInt8, r[7].toInt8⟩

/-- `packet.report.string.s` -/
def string (p : BinPacket) : Vector UInt8 16 := p.report

/-- `packet.report.letter`: `mods` is aligned to offset four. -/
def letter (p : BinPacket) : BinChar :=
  let r := p.report
  ⟨r[0], le32 r[4] r[5] r[6] r[7]⟩

/-- Assign a field of the union: its bytes go to offset `off`. -/
def store (p : BinPacket) (off : ℕ) : List UInt8 → BinPacket
  | [] => p
  | b :: bs => store { p with report := p.report.setIfInBounds off b } (off + 1) bs

/-- Assigning a union field leaves the packet's header alone. -/
theorem store_header (p : BinPacket) (off : ℕ) (bs : List UInt8) :
    p.store off bs = { p with report := (p.store off bs).report } := by
  induction bs generalizing p off with
  | nil => rfl
  | cons b bs ih => exact ih _ _

@[simp] theorem store_reportId (p : BinPacket) (off : ℕ) (bs : List UInt8) :
    (p.store off bs).reportId = p.reportId := by
  rw [store_header]

@[simp] theorem store_flags (p : BinPacket) (off : ℕ) (bs : List UInt8) :
    (p.store off bs).flags = p.flags := by
  rw [store_header]

@[simp] theorem store_flags2 (p : BinPacket) (off : ℕ) (bs : List UInt8) :
    (p.store off bs).flags2 = p.flags2 := by
  rw [store_header]

theorem store_report (p : BinPacket) (off : ℕ) (bs : List UInt8) (i : ℕ) (hi : i < 16) :
    (p.store off bs).report[i] =
      if off ≤ i ∧ i < off + bs.length then bs.getD (i - off) 0 else p.report[i] := by
  induction bs generalizing p off with
  | nil =>
    have hout : ¬ (off ≤ i ∧ i < off + ([] : List UInt8).length) := by
      simp only [List.length_nil]
      omega
    rw [if_neg hout]
    rfl
  | cons b bs ih =>
    rw [store, ih]
    simp only [List.length_cons]
    by_cases hlater : off + 1 ≤ i ∧ i < off + 1 + bs.length
    · have hin : off ≤ i ∧ i < off + (bs.length + 1) := by omega
      have hindex : i - off = (i - (off + 1)) + 1 := by omega
      rw [if_pos hlater, if_pos hin, hindex, List.getD_cons_succ]
    · rw [if_neg hlater]
      by_cases hhere : off = i
      · subst hhere
        have hin : off ≤ off ∧ off < off + (bs.length + 1) := by omega
        rw [if_pos hin, Nat.sub_self, List.getD_cons_zero]
        simp
      · have hout : ¬ (off ≤ i ∧ i < off + (bs.length + 1)) := by omega
        rw [if_neg hout]
        simp [hhere]

/-- The object representation read and written on the FIFO. -/
def bytes (p : BinPacket) : List UInt8 :=
  [p.reportId, p.flags, p.flags2, p.pad] ++ p.report.toList

@[simp] theorem bytes_length (p : BinPacket) : p.bytes.length = binPacketSize := by
  simp [bytes, binPacketSize]

/-- The packet whose storage starts with `bs`; a missing byte reads zero. -/
def ofBytes (bs : List UInt8) : BinPacket :=
  ⟨bs.getD 0 0, bs.getD 1 0, bs.getD 2 0, bs.getD 3 0, .ofFn fun i => bs.getD (4 + i) 0⟩

/-- What `read(fd, &packet, sizeof(packet))` leaves in `packet` when it stores
the bytes `bs`: the rest of the buffer keeps its old contents. -/
def overlay (p : BinPacket) (bs : List UInt8) : BinPacket :=
  ofBytes (bs ++ p.bytes.drop bs.length)

theorem ofBytes_bytes (p : BinPacket) : ofBytes p.bytes = p := by
  obtain ⟨rid, fl, fl2, pad, report⟩ := p
  simp only [ofBytes, bytes, mk.injEq]
  refine ⟨rfl, rfl, rfl, rfl, ?_⟩
  apply Vector.ext
  intro i hi
  have hshift : 4 + i = i + 1 + 1 + 1 + 1 := by omega
  simp [hshift, hi]

theorem bytes_ofBytes (bs : List UInt8) (h : bs.length = binPacketSize) :
    (ofBytes bs).bytes = bs := by
  apply List.ext_getElem
  · simp [h]
  · intro i hi hj
    match i with
    | 0 | 1 | 2 | 3 => simp [bytes, ofBytes, hj]
    | i + 4 =>
      simp [bytes, ofBytes, Nat.add_comm 4 i, hj]

/-- A whole read leaves nothing of the old packet. -/
theorem overlay_bytes (old p : BinPacket) : old.overlay p.bytes = p := by
  have hrest : old.bytes.drop p.bytes.length = [] := by
    apply List.drop_eq_nil_of_le
    simp
  rw [overlay, hrest, List.append_nil, ofBytes_bytes]

end BinPacket

end Android2Mouse.Source.ComboConn
