import Mathlib.Data.List.Basic
import Mathlib.Tactic.Ring

/-!
# HID report descriptors

A report descriptor is a byte code. Each short item is a head byte, whose bits
name the item and the size of its data, and the data, least significant byte
first. Global items stay in force until they are changed; local items last until
the next main item; an Input item lays out fields in the report with the current
id, one after another from the last bit used so far.

`interpret` runs a descriptor and returns the fields of its input reports, and
`readReport` reads a report by them. Descriptors with long items, with main items
other than Input and collections, with units, push or pop are not interpreted.

The second part is about reading. `bitsAt_word` is the extraction lemma: a field
that lies inside a little-endian word of the report is read off the word.
-/
namespace Android2Mouse.Library.HidDescriptor

/-! ## Items -/

inductive Item where
  | usagePage (page : ℕ)
  | logicalMinimum (value : Int)
  | logicalMaximum (value : Int)
  | reportSize (size : ℕ)
  | reportId (id : ℕ)
  | reportCount (count : ℕ)
  | usage (usage : ℕ)
  | usageMinimum (usage : ℕ)
  | usageMaximum (usage : ℕ)
  | input (flags : ℕ)
  | collection (kind : ℕ)
  | endCollection
  deriving DecidableEq, Repr

/-- The number written by bytes, least significant first. -/
def leNat : List UInt8 → ℕ
  | [] => 0
  | b :: bs => b.toNat + 256 * leNat bs

/-- A number of `bits` bits read as two's complement. -/
def signed (bits v : ℕ) : Int := if v < 2 ^ (bits - 1) then v else v - 2 ^ bits

def leInt (bs : List UInt8) : Int := if bs = [] then 0 else signed (8 * bs.length) (leNat bs)

/-- The item with a head byte, the size bits cleared, and its data. -/
def decodeItem (head : UInt8) (data : List UInt8) : Option Item :=
  if head = 0x04 then some (.usagePage (leNat data))
  else if head = 0x14 then some (.logicalMinimum (leInt data))
  else if head = 0x24 then some (.logicalMaximum (leInt data))
  else if head = 0x74 then some (.reportSize (leNat data))
  else if head = 0x84 then some (.reportId (leNat data))
  else if head = 0x94 then some (.reportCount (leNat data))
  else if head = 0x08 ∧ data.length ≤ 2 then some (.usage (leNat data))
  else if head = 0x18 ∧ data.length ≤ 2 then some (.usageMinimum (leNat data))
  else if head = 0x28 ∧ data.length ≤ 2 then some (.usageMaximum (leNat data))
  else if head = 0x80 then some (.input (leNat data))
  else if head = 0xA0 then some (.collection (leNat data))
  else if head = 0xC0 then some .endCollection
  else none

/-- The size of the data, from the two low bits of the head byte. -/
def dataSize (head : UInt8) : ℕ :=
  let size := (head &&& 0x03).toNat
  if size = 3 then 4 else size

/-- The items of a descriptor of at most `fuel` bytes. -/
def parseItems : ℕ → List UInt8 → Option (List Item)
  | _, [] => some []
  | 0, _ :: _ => none
  | fuel + 1, head :: rest => do
    let size := dataSize head
    if rest.length < size then none
    else
      let item ← decodeItem (head &&& 0xFC) (rest.take size)
      let items ← parseItems fuel (rest.drop size)
      return item :: items

/-! ## Fields -/

structure Usage where
  page : ℕ
  id : ℕ
  deriving DecidableEq, Repr

/-- What a field holds: padding, the value of one control, or the index of one
of many. -/
inductive Content where
  | constant
  | variable (usage : Usage)
  | array (page : ℕ) (usages : List (ℕ × ℕ))
  deriving DecidableEq, Repr

structure Field where
  reportId : ℕ
  content : Content
  relative : Bool
  offset : ℕ
  size : ℕ
  logicalMin : Int
  logicalMax : Int
  deriving DecidableEq, Repr

/-- The bits of a report that its fields take up. -/
def reportBits (fields : List Field) (id : ℕ) : ℕ :=
  ((fields.filter (·.reportId = id)).map Field.size).sum

structure Globals where
  usagePage : ℕ
  logicalMin : Int
  logicalMax : Int
  reportSize : ℕ
  reportCount : ℕ
  reportId : ℕ
  deriving DecidableEq, Repr

structure Locals where
  usages : List (ℕ × ℕ)
  usageMin : Option ℕ
  usageMax : Option ℕ
  deriving DecidableEq, Repr

structure State where
  globals : Globals
  locals : Locals
  depth : ℕ
  fields : List Field
  deriving DecidableEq, Repr

def Locals.none : Locals := ⟨[], .none, .none⟩

def State.initial : State := ⟨⟨0, 0, 0, 0, 0, 0⟩, .none, 0, []⟩

/-- The usage at an index of a list of usage ranges. -/
def usageAt : List (ℕ × ℕ) → ℕ → Option ℕ
  | [], _ => none
  | (lo, hi) :: ranges, k => if lo + k ≤ hi then some (lo + k) else usageAt ranges (k - (hi + 1 - lo))

/-- The usage of the `k`-th variable: the last usage serves all that are left. -/
def variableUsage (ranges : List (ℕ × ℕ)) (k : ℕ) : Option ℕ :=
  (usageAt ranges k).or (ranges.getLast?.map Prod.snd)

/-- The content of the `k`-th field of an Input item. -/
def inputContent (flags : ℕ) (page : ℕ) (usages : List (ℕ × ℕ)) (k : ℕ) : Option Content :=
  if flags.testBit 0 then some .constant
  else if flags.testBit 1 then (variableUsage usages k).map fun id => .variable ⟨page, id⟩
  else some (.array page usages)

def inputFields (s : State) (flags : ℕ) : Option (List Field) :=
  let g := s.globals
  (List.range g.reportCount).mapM fun k =>
    (inputContent flags g.usagePage s.locals.usages k).map fun content =>
      { reportId := g.reportId, content, relative := flags.testBit 2,
        offset := reportBits s.fields g.reportId + k * g.reportSize, size := g.reportSize,
        logicalMin := g.logicalMin, logicalMax := g.logicalMax }

/-- One end of a usage range; the range is there once both ends are. -/
def Locals.bound (l : Locals) (lo hi : Option ℕ) : Locals :=
  match lo.or l.usageMin, hi.or l.usageMax with
  | some lo, some hi => ⟨l.usages ++ [(lo, hi)], .none, .none⟩
  | lo, hi => { l with usageMin := lo, usageMax := hi }

def step (s : State) : Item → Option State
  | .usagePage page => some { s with globals := { s.globals with usagePage := page } }
  | .logicalMinimum value => some { s with globals := { s.globals with logicalMin := value } }
  | .logicalMaximum value => some { s with globals := { s.globals with logicalMax := value } }
  | .reportSize size => some { s with globals := { s.globals with reportSize := size } }
  | .reportId id =>
    if id = 0 then none else some { s with globals := { s.globals with reportId := id } }
  | .reportCount count => some { s with globals := { s.globals with reportCount := count } }
  | .usage id => some { s with locals := { s.locals with usages := s.locals.usages ++ [(id, id)] } }
  | .usageMinimum id => some { s with locals := s.locals.bound (some id) .none }
  | .usageMaximum id => some { s with locals := s.locals.bound .none (some id) }
  | .input flags =>
    if s.depth = 0 then none
    else (inputFields s flags).map fun fields =>
      { s with locals := .none, fields := s.fields ++ fields }
  | .collection _ => some { s with locals := .none, depth := s.depth + 1 }
  | .endCollection => if s.depth = 0 then none else some { s with locals := .none, depth := s.depth - 1 }

def run : State → List Item → Option State
  | s, [] => some s
  | s, item :: items => (step s item).bind fun s => run s items

/-- The fields of the input reports a descriptor declares. -/
def interpret (descriptor : List UInt8) : Option (List Field) := do
  let items ← parseItems descriptor.length descriptor
  let s ← run .initial items
  if s.depth = 0 then return s.fields else none

/-! ## Reading a report -/

/-- `size` bits of the data from bit `offset` on. -/
def bitsAt (data : List UInt8) (offset size : ℕ) : ℕ := leNat data / 2 ^ offset % 2 ^ size

/-- What a field tells: the value of a control, or which control of an array is
on. A number outside the logical range tells nothing. -/
inductive Reading where
  | control (usage : Usage) (value : Option Int)
  | slot (usage : Option Usage)
  deriving DecidableEq, Repr

/-- The number in a field, signed when its logical minimum is negative. -/
def Field.value (f : Field) (data : List UInt8) : Option Int :=
  let v := bitsAt data f.offset f.size
  let v : Int := if f.logicalMin < 0 then signed f.size v else v
  if f.logicalMin ≤ v ∧ v ≤ f.logicalMax then some v else none

def Field.read (f : Field) (data : List UInt8) : Option Reading :=
  match f.content with
  | .constant => none
  | .variable usage => some (.control usage (f.value data))
  | .array page usages => some (.slot do
    let v ← f.value data
    let id ← usageAt usages (v - f.logicalMin).toNat
    return ⟨page, id⟩)

def readFields (fields : List Field) (data : List UInt8) : List Reading :=
  fields.filterMap (·.read data)

/-- What a report that starts with its id tells. -/
def readReport (fields : List Field) : List UInt8 → List Reading
  | [] => []
  | id :: data => readFields (fields.filter (·.reportId = id.toNat)) data

theorem readFields_nil (data : List UInt8) : readFields [] data = [] := rfl

theorem readFields_append (fields fields' : List Field) (data : List UInt8) :
    readFields (fields ++ fields') data = readFields fields data ++ readFields fields' data :=
  List.filterMap_append

theorem readFields_cons (f : Field) (fields : List Field) (data : List UInt8) (r : Reading)
    (h : f.read data = some r) : readFields (f :: fields) data = r :: readFields fields data :=
  List.filterMap_cons_some h

theorem readFields_padding (f : Field) (data : List UInt8) (h : f.content = .constant) :
    readFields [f] data = [] := by
  have hread : f.read data = none := by
    rw [Field.read, h]
  exact List.filterMap_cons_none hread

/-! ## Extraction -/

theorem leNat_drop (data : List UInt8) (k : ℕ) :
    leNat data / 2 ^ (8 * k) = leNat (data.drop k) := by
  induction k generalizing data with
  | zero => simp
  | succ k ih =>
    cases data with
    | nil => simp [leNat]
    | cons b data =>
      have hb := b.toNat_lt
      have hstep : leNat (b :: data) / 2 ^ 8 = leNat data := by
        rw [leNat]
        omega
      rw [Nat.mul_succ, Nat.add_comm, Nat.pow_add, ← Nat.div_div_eq_div_mul, hstep, ih,
        List.drop_succ_cons]

/-- A field inside an `n`-bit word `v` of the data is a field of `v`. -/
theorem bitsAt_word (data : List UInt8) (k n v m i size : ℕ)
    (hword : leNat (data.drop k) = v + 2 ^ n * m) (hfit : i + size ≤ n) :
    bitsAt data (8 * k + i) size = v / 2 ^ i % 2 ^ size := by
  obtain ⟨q, rfl⟩ : ∃ q, n = i + size + q := ⟨n - (i + size), by omega⟩
  have hsplit : v + 2 ^ (i + size + q) * m = v + 2 ^ i * (2 ^ size * (2 ^ q * m)) := by
    rw [Nat.pow_add, Nat.pow_add]
    ring
  rw [bitsAt, Nat.pow_add, ← Nat.div_div_eq_div_mul, leNat_drop, hword, hsplit,
    Nat.add_mul_div_left _ _ (Nat.two_pow_pos i), Nat.add_mul_mod_self_left]

/-- A whole byte. -/
theorem bitsAt_byte (data : List UInt8) (k : ℕ) (b : UInt8) (rest : List UInt8)
    (h : data.drop k = b :: rest) : bitsAt data (8 * k) 8 = b.toNat := by
  have hword : leNat (data.drop k) = b.toNat + 2 ^ 8 * leNat rest := by
    rw [h]
    rfl
  have hbits := bitsAt_word data k 8 b.toNat (leNat rest) 0 8 hword (by omega)
  rw [Nat.add_zero, Nat.pow_zero, Nat.div_one, Nat.mod_eq_of_lt b.toNat_lt] at hbits
  exact hbits

theorem signed_byte (x : Int8) : signed 8 x.toUInt8.toNat = x.toInt := by
  have hcond := BitVec.toInt_eq_toNat_cond x.toBitVec
  have hint : x.toInt = x.toBitVec.toInt := rfl
  have hnat : x.toUInt8.toNat = x.toBitVec.toNat := rfl
  have hlt := x.toUInt8.toNat_lt
  unfold signed
  split at hcond
  · rw [if_pos (by omega)]
    omega
  · rw [if_neg (by omega)]
    omega

/-! ## Kinds of fields -/

/-- One-bit controls with consecutive usages. -/
def bitFields (id page firstUsage offset count : ℕ) : List Field :=
  (List.range count).map fun i =>
    ⟨id, .variable ⟨page, firstUsage + i⟩, false, offset + i, 1, 0, 1⟩

/-- A signed byte from -127 to 127. -/
def axisField (id : ℕ) (usage : Usage) (relative : Bool) (offset : ℕ) : Field :=
  ⟨id, .variable usage, relative, offset, 8, -127, 127⟩

/-- A byte that selects one of the usages from zero to `top`. -/
def slotField (id page top offset : ℕ) : Field :=
  ⟨id, .array page [(0, top)], false, offset, 8, 0, top⟩

theorem read_bitFields (data : List UInt8) (id page firstUsage k count n v m : ℕ)
    (hword : leNat (data.drop k) = v + 2 ^ n * m) (hfit : count ≤ n) :
    readFields (bitFields id page firstUsage (8 * k) count) data =
      (List.range count).map fun i => .control ⟨page, firstUsage + i⟩ (some (v / 2 ^ i % 2 : ℕ)) := by
  rw [readFields, bitFields, List.filterMap_map, ← List.filterMap_eq_map]
  refine List.filterMap_congr fun i hi => ?_
  have hbit := bitsAt_word data k n v m i 1 hword (by have := List.mem_range.mp hi; omega)
  have hlt : v / 2 ^ i % 2 < 2 := Nat.mod_lt _ (by decide)
  simp only [Function.comp_apply, Field.read, Field.value, hbit, Nat.pow_one, Int.lt_irrefl,
    if_false]
  rw [if_pos (by omega)]

theorem read_axisField (data : List UInt8) (id : ℕ) (usage : Usage) (k : ℕ) (relative : Bool)
    (x : Int8) (rest : List UInt8) (hbyte : data.drop k = x.toUInt8 :: rest)
    (hrange : -127 ≤ x.toInt) :
    (axisField id usage relative (8 * k)).read data = some (.control usage (some x.toInt)) := by
  have hbits := bitsAt_byte data k x.toUInt8 rest hbyte
  have hneg : (-127 : Int) < 0 := by decide
  have hmax : x.toInt ≤ 127 := x.toInt_le
  simp only [axisField, Field.read, Field.value, hbits, signed_byte]
  rw [if_pos hneg, if_pos ⟨hrange, hmax⟩]

theorem read_slotField (data : List UInt8) (id page top k : ℕ) (b : UInt8) (rest : List UInt8)
    (hbyte : data.drop k = b :: rest) (hrange : b.toNat ≤ top) :
    (slotField id page top (8 * k)).read data = some (.slot (some ⟨page, b.toNat⟩)) := by
  have hbits := bitsAt_byte data k b rest hbyte
  simp only [slotField, Field.read, Field.value, hbits, Int.lt_irrefl, if_false]
  rw [if_pos (by omega)]
  simp [usageAt, hrange]

end Android2Mouse.Library.HidDescriptor
