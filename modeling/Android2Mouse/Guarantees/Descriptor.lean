import Android2Mouse.Library.HidDescriptor
import Android2Mouse.Source.BinPacket
import Android2Mouse.Source.Hidp
import Android2Mouse.Source.SelfRepr

/-!
# The descriptors describe the reports

`hid_spec` is interpreted once, to a list of fields (`multidev_fields`,
`mouse_fields`); the rest is about these lists. A report is read field by field:
the one-bit fields are the bits of a button or modifier word, the others are
whole bytes. `descriptor_describes_reports` puts the pieces together, for values
in the ranges which the descriptor declares.
-/
namespace Android2Mouse.Guarantees.Descriptor
open Library Library.HidDescriptor Source.ComboConn Source.Hidp Source.SelfRepr

/-! ## Usages -/

def desktopPage : ℕ := 0x01
def keyboardPage : ℕ := 0x07
def buttonPage : ℕ := 0x09

def usageX : Usage := ⟨desktopPage, 0x30⟩
def usageY : Usage := ⟨desktopPage, 0x31⟩
def usageZ : Usage := ⟨desktopPage, 0x32⟩
def usageRx : Usage := ⟨desktopPage, 0x33⟩
def usageRy : Usage := ⟨desktopPage, 0x34⟩
def usageRz : Usage := ⟨desktopPage, 0x35⟩
def usageWheel : Usage := ⟨desktopPage, 0x38⟩

/-- The last keycode of the array. -/
def topKeycode : ℕ := 0x65

/-! ## Fields -/

/-- Padding, under the logical range in force. -/
def padding (id offset size : ℕ) : Field := ⟨id, .constant, false, offset, size, 0, 1⟩

def keyboardFields (id : ℕ) : List Field :=
  bitFields id keyboardPage 0xE0 (8 * 0) 8 ++ [padding id 8 8] ++
    [slotField id keyboardPage topKeycode (8 * 2), slotField id keyboardPage topKeycode (8 * 3),
      slotField id keyboardPage topKeycode (8 * 4), slotField id keyboardPage topKeycode (8 * 5),
      slotField id keyboardPage topKeycode (8 * 6), slotField id keyboardPage topKeycode (8 * 7)]

def mouseFields (id : ℕ) : List Field :=
  bitFields id buttonPage 1 (8 * 0) 3 ++ [padding id 3 5] ++
    [axisField id usageX true (8 * 1), axisField id usageY true (8 * 2),
      axisField id usageWheel true (8 * 3)]

def gamepadFields (id : ℕ) : List Field :=
  bitFields id buttonPage 1 (8 * 0) 16 ++
    [axisField id usageX false (8 * 2), axisField id usageY false (8 * 3),
      axisField id usageZ false (8 * 4), axisField id usageRx false (8 * 5),
      axisField id usageRy false (8 * 6), axisField id usageRz false (8 * 7)]

def multidevFields : List Field := keyboardFields 1 ++ mouseFields 2 ++ gamepadFields 3

theorem multidev_fields : interpret BuildHidMultidev.hidSpec = some multidevFields := by
  decide +kernel

theorem mouse_fields : interpret BuildHidMouse.hidSpec = some (mouseFields 1) := by
  decide +kernel

/-! ## Readings -/

/-- The bits of a word as controls with consecutive usages. -/
def bitReadings (page firstUsage count v : ℕ) : List Reading :=
  (List.range count).map fun i => .control ⟨page, firstUsage + i⟩ (some (v / 2 ^ i % 2 : ℕ))

def axisReading (usage : Usage) (x : Int8) : Reading := .control usage (some x.toInt)

def keyboardReadings (r : KeyboardReport) : List Reading :=
  bitReadings keyboardPage 0xE0 8 r.modifier.toNat ++
    r.keycodes.toList.map fun k => .slot (some ⟨keyboardPage, k.toNat⟩)

def mouseReadings (r : MouseReport) : List Reading :=
  bitReadings buttonPage 1 3 r.buttons.toNat ++
    [axisReading usageX r.x, axisReading usageY r.y, axisReading usageWheel r.wheel]

def gamepadReadings (r : GamepadReport) : List Reading :=
  bitReadings buttonPage 1 16 r.buttons.toNat ++
    [axisReading usageX r.x, axisReading usageY r.y, axisReading usageZ r.z,
      axisReading usageRx r.rx, axisReading usageRy r.ry, axisReading usageRz r.rz]

/-! ## Values in the declared ranges -/

def KeyboardInRange (r : KeyboardReport) : Prop :=
  r.reserved = 0 ∧ ∀ k ∈ r.keycodes.toList, k.toNat ≤ topKeycode

def MouseInRange (r : MouseReport) : Prop :=
  r.buttons < 8 ∧ -127 ≤ r.x.toInt ∧ -127 ≤ r.y.toInt ∧ -127 ≤ r.wheel.toInt

def GamepadInRange (r : GamepadReport) : Prop :=
  -127 ≤ r.x.toInt ∧ -127 ≤ r.y.toInt ∧ -127 ≤ r.z.toInt ∧
    -127 ≤ r.rx.toInt ∧ -127 ≤ r.ry.toInt ∧ -127 ≤ r.rz.toInt

/-- The reports the descriptor provides for. -/
abbrev DeclaredKeyboard := {r : KeyboardReport // r.reportId = kbdRepId ∧ KeyboardInRange r}

abbrev DeclaredMouse := {r : MouseReport // r.reportId = mouseRepId ∧ MouseInRange r}

abbrev DeclaredGamepad := {r : GamepadReport // r.reportId = gpadRepId ∧ GamepadInRange r}

/-! ## Reading -/

theorem readReport_keyboard (data : List UInt8) :
    readReport multidevFields (kbdRepId :: data) = readFields (keyboardFields 1) data := rfl

theorem readReport_mouse (data : List UInt8) :
    readReport multidevFields (mouseRepId :: data) = readFields (mouseFields 2) data := rfl

theorem readReport_gamepad (data : List UInt8) :
    readReport multidevFields (gpadRepId :: data) = readFields (gamepadFields 3) data := rfl

/-- The bits of the first byte of a report. -/
theorem read_firstByte (id page firstUsage count : ℕ) (b : UInt8) (rest : List UInt8)
    (hcount : count ≤ 8) :
    readFields (bitFields id page firstUsage (8 * 0) count) (b :: rest) =
      bitReadings page firstUsage count b.toNat :=
  read_bitFields (b :: rest) id page firstUsage 0 count 8 b.toNat (leNat rest) rfl hcount

/-- The bits of the first two bytes of a report. -/
theorem read_firstWord (id page firstUsage count : ℕ) (v : UInt16) (rest : List UInt8)
    (hcount : count ≤ 16) :
    readFields (bitFields id page firstUsage (8 * 0) count) (le16Bytes v ++ rest) =
      bitReadings page firstUsage count v.toNat := by
  have hword : leNat (le16Bytes v ++ rest) = v.toNat + 2 ^ 16 * leNat rest := by
    have hv := v.toNat_lt
    have h8 : (8 : UInt16).toNat % 16 = 8 := by decide
    simp only [le16Bytes, List.cons_append, List.nil_append, leNat, UInt16.toNat_toUInt8,
      UInt16.toNat_shiftRight, h8, Nat.shiftRight_eq_div_pow]
    omega
  exact read_bitFields _ id page firstUsage 0 count 16 v.toNat (leNat rest) hword hcount

theorem read_mouseFields (id : ℕ) (r : MouseReport) (h : MouseInRange r) :
    readFields (mouseFields id) [r.buttons, r.x.toUInt8, r.y.toUInt8, r.wheel.toUInt8] =
      mouseReadings r := by
  obtain ⟨_, hx, hy, hwheel⟩ := h
  rw [mouseFields, readFields_append, readFields_append,
    read_firstByte id buttonPage 1 3 r.buttons _ (by decide), readFields_padding _ _ rfl,
    readFields_cons _ _ _ _ (read_axisField _ id usageX 1 true r.x _ rfl hx),
    readFields_cons _ _ _ _ (read_axisField _ id usageY 2 true r.y _ rfl hy),
    readFields_cons _ _ _ _ (read_axisField _ id usageWheel 3 true r.wheel _ rfl hwheel),
    readFields_nil, List.append_nil]
  rfl

theorem read_mouse (r : MouseReport) (hid : r.reportId = mouseRepId) (h : MouseInRange r) :
    readReport multidevFields r.bytes = mouseReadings r := by
  rw [MouseReport.bytes, hid, readReport_mouse, read_mouseFields 2 r h]

theorem read_gamepad (r : GamepadReport) (hid : r.reportId = gpadRepId) (h : GamepadInRange r) :
    readReport multidevFields r.bytes = gamepadReadings r := by
  obtain ⟨hx, hy, hz, hrx, hry, hrz⟩ := h
  rw [GamepadReport.bytes, hid, List.append_assoc, List.singleton_append, readReport_gamepad,
    gamepadFields, readFields_append, read_firstWord 3 buttonPage 1 16 r.buttons _ (by decide),
    readFields_cons _ _ _ _ (read_axisField _ 3 usageX 2 false r.x _ rfl hx),
    readFields_cons _ _ _ _ (read_axisField _ 3 usageY 3 false r.y _ rfl hy),
    readFields_cons _ _ _ _ (read_axisField _ 3 usageZ 4 false r.z _ rfl hz),
    readFields_cons _ _ _ _ (read_axisField _ 3 usageRx 5 false r.rx _ rfl hrx),
    readFields_cons _ _ _ _ (read_axisField _ 3 usageRy 6 false r.ry _ rfl hry),
    readFields_cons _ _ _ _ (read_axisField _ 3 usageRz 7 false r.rz _ rfl hrz),
    readFields_nil]
  rfl

theorem exists_slots (keycodes : Vector UInt8 6) :
    ∃ k0 k1 k2 k3 k4 k5, keycodes.toList = [k0, k1, k2, k3, k4, k5] := by
  have hlength := keycodes.length_toList
  generalize keycodes.toList = l at hlength
  match l, hlength with
  | [k0, k1, k2, k3, k4, k5], _ => exact ⟨k0, k1, k2, k3, k4, k5, rfl⟩

theorem read_keyboard (r : KeyboardReport) (hid : r.reportId = kbdRepId)
    (h : KeyboardInRange r) : readReport multidevFields r.bytes = keyboardReadings r := by
  obtain ⟨k0, k1, k2, k3, k4, k5, hslots⟩ := exists_slots r.keycodes
  obtain ⟨_, hkeys⟩ := h
  rw [hslots] at hkeys
  simp only [List.forall_mem_cons] at hkeys
  obtain ⟨h0, h1, h2, h3, h4, h5, _⟩ := hkeys
  rw [KeyboardReport.bytes, hid, hslots, List.cons_append, readReport_keyboard, keyboardFields,
    readFields_append, readFields_append, List.cons_append,
    read_firstByte 1 keyboardPage 0xE0 8 r.modifier _ (by decide), readFields_padding _ _ rfl,
    readFields_cons _ _ _ _ (read_slotField _ 1 keyboardPage topKeycode 2 k0 _ rfl h0),
    readFields_cons _ _ _ _ (read_slotField _ 1 keyboardPage topKeycode 3 k1 _ rfl h1),
    readFields_cons _ _ _ _ (read_slotField _ 1 keyboardPage topKeycode 4 k2 _ rfl h2),
    readFields_cons _ _ _ _ (read_slotField _ 1 keyboardPage topKeycode 5 k3 _ rfl h3),
    readFields_cons _ _ _ _ (read_slotField _ 1 keyboardPage topKeycode 6 k4 _ rfl h4),
    readFields_cons _ _ _ _ (read_slotField _ 1 keyboardPage topKeycode 7 k5 _ rfl h5),
    readFields_nil, List.append_nil, keyboardReadings, hslots]
  rfl

/-! ## Nothing is lost -/

theorem bitReadings_inj (page firstUsage count v v' : ℕ) (hv : v < 2 ^ count) (hv' : v' < 2 ^ count)
    (h : bitReadings page firstUsage count v = bitReadings page firstUsage count v') : v = v' := by
  have hbits := List.map_inj_left.mp h
  apply Nat.eq_of_testBit_eq
  intro i
  by_cases hi : i < count
  · have hbit := hbits i (List.mem_range.mpr hi)
    rw [Reading.control.injEq, Option.some.injEq, Int.natCast_inj] at hbit
    rw [Nat.testBit_eq_decide_div_mod_eq, Nat.testBit_eq_decide_div_mod_eq, hbit.2]
  · have hpow : 2 ^ count ≤ 2 ^ i := Nat.pow_le_pow_right (by decide) (by omega)
    rw [Nat.testBit_lt_two_pow (by omega), Nat.testBit_lt_two_pow (by omega)]

theorem bitReadings_length (page firstUsage count v : ℕ) :
    (bitReadings page firstUsage count v).length = count := by
  rw [bitReadings, List.length_map, List.length_range]

theorem axisReading_inj {usage : Usage} {x x' : Int8}
    (h : axisReading usage x = axisReading usage x') : x = x' := by
  rw [axisReading, axisReading, Reading.control.injEq, Option.some.injEq] at h
  exact Int8.toInt_inj.mp h.2

theorem mouseReadings_inj (r r' : MouseReport) (hid : r.reportId = r'.reportId)
    (hr : r.buttons < 8) (hr' : r'.buttons < 8) (h : mouseReadings r = mouseReadings r') :
    r = r' := by
  obtain ⟨hbits, haxes⟩ := List.append_inj h (by rw [bitReadings_length, bitReadings_length])
  have hbuttons := bitReadings_inj _ _ _ _ _ hr hr' hbits
  rw [List.cons.injEq, List.cons.injEq, List.cons.injEq] at haxes
  rw [MouseReport.mk.injEq]
  exact ⟨hid, UInt8.toNat_inj.mp hbuttons, axisReading_inj haxes.1, axisReading_inj haxes.2.1,
    axisReading_inj haxes.2.2.1⟩

theorem gamepadReadings_inj (r r' : GamepadReport) (hid : r.reportId = r'.reportId)
    (h : gamepadReadings r = gamepadReadings r') : r = r' := by
  obtain ⟨hbits, haxes⟩ := List.append_inj h (by rw [bitReadings_length, bitReadings_length])
  have hbuttons := bitReadings_inj _ _ _ _ _ r.buttons.toNat_lt r'.buttons.toNat_lt hbits
  simp only [List.cons.injEq] at haxes
  obtain ⟨hx, hy, hz, hrx, hry, hrz, _⟩ := haxes
  rw [GamepadReport.mk.injEq]
  exact ⟨hid, UInt16.toNat_inj.mp hbuttons, axisReading_inj hx, axisReading_inj hy,
    axisReading_inj hz, axisReading_inj hrx, axisReading_inj hry, axisReading_inj hrz⟩

theorem keyboardReadings_inj (r r' : KeyboardReport) (hid : r.reportId = r'.reportId)
    (hreserved : r.reserved = r'.reserved) (h : keyboardReadings r = keyboardReadings r') :
    r = r' := by
  obtain ⟨hbits, hslots⟩ := List.append_inj h (by rw [bitReadings_length, bitReadings_length])
  have hmodifier := bitReadings_inj _ _ _ _ _ r.modifier.toNat_lt r'.modifier.toNat_lt hbits
  have hkeys : r.keycodes.toList = r'.keycodes.toList := by
    refine List.map_injective_iff.mpr (fun k k' hk => ?_) hslots
    rw [Reading.slot.injEq, Option.some.injEq, Usage.mk.injEq] at hk
    exact UInt8.toNat_inj.mp hk.2
  rw [KeyboardReport.mk.injEq]
  exact ⟨hid, UInt8.toNat_inj.mp hmodifier, hreserved, Vector.toList_inj.mp hkeys⟩

/-! ## The two descriptors -/

/-- Read by the fields, a value gives its readings, and they determine it. -/
def Describes {ρ : Type} (fields : List Field) (bytes : ρ → List UInt8)
    (readings : ρ → List Reading) : Prop :=
  (∀ r, readReport fields (bytes r) = readings r) ∧
    Function.Injective fun r => readReport fields (bytes r)

theorem Describes.intro {ρ : Type} {fields : List Field} {bytes : ρ → List UInt8}
    {readings : ρ → List Reading} (hread : ∀ r, readReport fields (bytes r) = readings r)
    (hinj : Function.Injective readings) : Describes fields bytes readings := by
  refine ⟨hread, fun r r' heq => hinj ?_⟩
  rw [← hread r, ← hread r']
  exact heq

theorem describes_keyboard : Describes multidevFields (fun r : DeclaredKeyboard => r.1.bytes)
    fun r => keyboardReadings r.1 := by
  refine .intro (fun r => read_keyboard r.1 r.2.1 r.2.2) fun r r' heq => Subtype.ext ?_
  exact keyboardReadings_inj r.1 r'.1 (r.2.1.trans r'.2.1.symm) (r.2.2.1.trans r'.2.2.1.symm) heq

theorem describes_mouse : Describes multidevFields (fun r : DeclaredMouse => r.1.bytes)
    fun r => mouseReadings r.1 := by
  refine .intro (fun r => read_mouse r.1 r.2.1 r.2.2) fun r r' heq => Subtype.ext ?_
  exact mouseReadings_inj r.1 r'.1 (r.2.1.trans r'.2.1.symm) r.2.2.1 r'.2.2.1 heq

theorem describes_gamepad : Describes multidevFields (fun r : DeclaredGamepad => r.1.bytes)
    fun r => gamepadReadings r.1 := by
  refine .intro (fun r => read_gamepad r.1 r.2.1 r.2.2) fun r r' heq => Subtype.ext ?_
  exact gamepadReadings_inj r.1 r'.1 (r.2.1.trans r'.2.1.symm) heq

/-- The report of a stand-alone mouse, as a mouse report with id 1. -/
def standaloneReport (b x y w : UInt8) : MouseReport := ⟨1, b, x.toInt8, y.toInt8, w.toInt8⟩

abbrev DeclaredStandalone := {r : MouseReport // r.reportId = 1 ∧ MouseInRange r}

theorem sendMouseRep_attempts (b x y w : UInt8) (o : Outcomes) :
    (sendMouseRep b x y w).attempts o = [inputPayload (standaloneReport b x y w).bytes] := rfl

theorem read_standalone (r : MouseReport) (hid : r.reportId = 1) (h : MouseInRange r) :
    readReport (mouseFields 1) r.bytes = mouseReadings r := by
  have hfields : ∀ data, readReport (mouseFields 1) (1 :: data) = readFields (mouseFields 1) data :=
    fun _ => rfl
  rw [MouseReport.bytes, hid, hfields, read_mouseFields 1 r h]

theorem describes_standalone : Describes (mouseFields 1) (fun r : DeclaredStandalone => r.1.bytes)
    fun r => mouseReadings r.1 := by
  refine .intro (fun r => read_standalone r.1 r.2.1 r.2.2) fun r r' heq => Subtype.ext ?_
  exact mouseReadings_inj r.1 r'.1 (r.2.1.trans r'.2.1.symm) r.2.2.1 r'.2.2.1 heq

/-- Both descriptors can be interpreted. Their reports are those of the packed
structs, in id and in length, and reading the bytes of a report by the fields
gives its bits, keycodes and axes back, each under its usage, with nothing lost. -/
theorem descriptor_describes_reports :
    (∃ multi, interpret BuildHidMultidev.hidSpec = some multi ∧
      (∀ f ∈ multi, f.reportId ∈ [kbdRepId.toNat, mouseRepId.toNat, gpadRepId.toNat]) ∧
      (∀ r : KeyboardReport, 8 + reportBits multi kbdRepId.toNat = 8 * r.bytes.length) ∧
      (∀ r : MouseReport, 8 + reportBits multi mouseRepId.toNat = 8 * r.bytes.length) ∧
      (∀ r : GamepadReport, 8 + reportBits multi gpadRepId.toNat = 8 * r.bytes.length) ∧
      Describes multi (fun r : DeclaredKeyboard => r.1.bytes) (fun r => keyboardReadings r.1) ∧
      Describes multi (fun r : DeclaredMouse => r.1.bytes) (fun r => mouseReadings r.1) ∧
      Describes multi (fun r : DeclaredGamepad => r.1.bytes) (fun r => gamepadReadings r.1)) ∧
    (∃ mouse, interpret BuildHidMouse.hidSpec = some mouse ∧
      (∀ f ∈ mouse, f.reportId = 1) ∧
      (∀ (b x y w : UInt8) (o : Outcomes),
        (sendMouseRep b x y w).attempts o = [inputPayload (standaloneReport b x y w).bytes] ∧
        8 + reportBits mouse 1 = 8 * (standaloneReport b x y w).bytes.length) ∧
      Describes mouse (fun r : DeclaredStandalone => r.1.bytes) (fun r => mouseReadings r.1)) := by
  constructor
  · refine ⟨multidevFields, multidev_fields, by decide, fun r => ?_, fun _ => rfl, fun _ => rfl,
      describes_keyboard, describes_mouse, describes_gamepad⟩
    obtain ⟨k0, k1, k2, k3, k4, k5, hslots⟩ := exists_slots r.keycodes
    rw [KeyboardReport.bytes, hslots]
    rfl
  · exact ⟨mouseFields 1, mouse_fields, by decide,
      fun b x y w o => ⟨sendMouseRep_attempts b x y w o, rfl⟩, describes_standalone⟩

end Android2Mouse.Guarantees.Descriptor
