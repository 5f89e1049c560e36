import Android2Mouse.Library.BigEndian
import Android2Mouse.Library.Region

/-!
# Data elements and their encoding (`sdp.c`)

`sdp_data_t` is a chain of elements along `next`; the elements of a sequence hang from
`dataseq`. What `val` holds is fixed by `dtd`, so the descriptors of integers and
uuids, of strings, and of sequences are three types, and an integer has the width of
its descriptor. `unitSize` is left out: the encoder reads it of strings only, where it
is the length and one.

An element is encoded in two passes. `sdp_gen_buffer` computes how much memory to
allocate, and `sdp_gen_pdu` writes into this memory, where a short sequence that turns
out longer than 255 bytes is begun again as a long one. Sizes are natural numbers:
the wrap of `uint32_t` beyond 4 GiB is left out.
-/
namespace Android2Mouse.Source.Sdp
open Library

/-! ## Data type descriptors -/

/-- Descriptors of elements of a fixed size. -/
inductive NumDtd where
  | dataNil | uint8 | uint16 | uint32 | uint64 | uint128
  | int8 | int16 | int32 | int64 | int128
  | uuid16 | uuid32 | uuid128 | bool
  deriving DecidableEq, Repr

inductive StrDtd where
  | textStr8 | textStr16 | textStr32 | urlStr8 | urlStr16 | urlStr32
  deriving DecidableEq, Repr

inductive SeqDtd where
  | seq8 | seq16 | seq32 | alt8 | alt16 | alt32
  deriving DecidableEq, Repr

namespace NumDtd

/-- The `SDP_*` constant. -/
def code : NumDtd → UInt8
  | dataNil => 0x00 | uint8 => 0x08 | uint16 => 0x09 | uint32 => 0x0a | uint64 => 0x0b
  | uint128 => 0x0c | int8 => 0x10 | int16 => 0x11 | int32 => 0x12 | int64 => 0x13
  | int128 => 0x14 | uuid16 => 0x19 | uuid32 => 0x1a | uuid128 => 0x1c | bool => 0x28

/-- `sdp_get_data_size` -/
def size : NumDtd → ℕ
  | dataNil => 0 | uint8 => 1 | uint16 => 2 | uint32 => 4 | uint64 => 8 | uint128 => 16
  | int8 => 1 | int16 => 2 | int32 => 4 | int64 => 8 | int128 => 16
  | uuid16 => 2 | uuid32 => 4 | uuid128 => 16 | bool => 1

end NumDtd

namespace StrDtd

def code : StrDtd → UInt8
  | textStr8 => 0x25 | textStr16 => 0x26 | textStr32 => 0x27
  | urlStr8 => 0x45 | urlStr16 => 0x46 | urlStr32 => 0x47

/-- The bytes of the length that `sdp_set_seq_len` stores. -/
def width : StrDtd → ℕ
  | textStr8 => 1 | textStr16 => 2 | textStr32 => 4
  | urlStr8 => 1 | urlStr16 => 2 | urlStr32 => 4

/-- `sdp_get_data_type_size` -/
def typeSize (dtd : StrDtd) : ℕ := 1 + dtd.width

end StrDtd

namespace SeqDtd

def code : SeqDtd → UInt8
  | seq8 => 0x35 | seq16 => 0x36 | seq32 => 0x37
  | alt8 => 0x3d | alt16 => 0x3e | alt32 => 0x3f

def width : SeqDtd → ℕ
  | seq8 => 1 | seq16 => 2 | seq32 => 4
  | alt8 => 1 | alt16 => 2 | alt32 => 4

def typeSize (dtd : SeqDtd) : ℕ := 1 + dtd.width

end SeqDtd

/-! ## Elements -/

/-- `sdp_data_t`; `null` is the null pointer at the end of a chain. Integers are given by
their bits, and the bytes of a 128 bit uuid by the number they are the network order of. -/
inductive SdpData where
  | null
  | num (dtd : NumDtd) (val : BitVec (8 * dtd.size)) (next : SdpData)
  | str (dtd : StrDtd) (val : List UInt8) (next : SdpData)
  | seq (dtd : SeqDtd) (dataseq next : SdpData)
  deriving DecidableEq, Repr

namespace SdpData

/-- `d->next = next` -/
def setNext : SdpData → SdpData → SdpData
  | null, _ => null
  | num dtd val _, next => num dtd val next
  | str dtd val _, next => str dtd val next
  | seq dtd dataseq _, next => seq dtd dataseq next

/-- How deep sequences are nested in a chain. -/
def depth : SdpData → ℕ
  | null => 0
  | num _ _ next => next.depth
  | str _ _ next => next.depth
  | seq _ dataseq next => max (dataseq.depth + 1) next.depth

end SdpData

/-- `sdp_data_alloc_with_length` of a string; the longest types print an error and keep no
string. -/
def sdpDataAllocStr (dtd : StrDtd) (value : List UInt8) : SdpData :=
  match dtd with
  | .textStr32 | .urlStr32 => .str dtd [] .null
  | _ => if value.length ≤ 65535 then .str dtd value .null else .null

/-- What `sdp_seq_alloc` is given for one element: a descriptor with a value, of which a
string is as long as the caller or `strlen` says, or an element there already. -/
inductive Value where
  | num (dtd : NumDtd) (val : BitVec (8 * dtd.size))
  | str (dtd : StrDtd) (val : List UInt8)
  | data (d : SdpData)
  deriving DecidableEq, Repr

/-- `sdp_data_alloc_with_length`, `sdp_data_alloc` -/
def Value.alloc : Value → SdpData
  | .num dtd val => .num dtd val .null
  | .str dtd val => sdpDataAllocStr dtd val
  | .data d => d

/-- The elements linked along `next`. -/
def link : List SdpData → SdpData
  | [] => .null
  | d :: ds => d.setNext (link ds)

/-- `sdp_seq_alloc_with_length`, `sdp_seq_alloc` -/
def sdpSeqAlloc (values : List Value) : SdpData :=
  if (values.map Value.alloc).contains .null then .null
  else .seq .seq8 (link (values.map Value.alloc)) .null

/-! ## How much memory -/

section

-- Whether `buf->buf_size += sdp_get_data_size(buf, d)` reads `buf_size` after the call, which
-- changes it; the order is the compiler's choice.
variable (reread : Bool)

/-- `sdp_gen_buffer`, from and to `buf_size`. `dataSize` is `sdp_get_data_size`, which for a
sequence changes `buf_size` itself and returns by how much. -/
def sdpGenBuffer (code : UInt8) (typeSize : ℕ) (dataSize : ℕ → ℕ × ℕ) (bufSize : ℕ) : ℕ :=
  let bufSize := if bufSize = 0 ∧ code = 0 then bufSize + 1 + 1 else bufSize
  let bufSize := bufSize + (1 + 2) + typeSize
  let bufSize := (if reread then (dataSize bufSize).1 else bufSize) + (dataSize bufSize).2
  if 255 < bufSize ∧ code = SeqDtd.seq8.code then bufSize + 1 else bufSize

/-- `get_data_size` while there is no memory: every element of the chain through
`sdp_gen_buffer`. It returns the new `buf_size` and the sum of the changes. -/
def bufferSizes : SdpData → ℕ → ℕ × ℕ
  | .null, bufSize => (bufSize, 0)
  | .num dtd _ next, bufSize =>
    let after := sdpGenBuffer reread dtd.code 1 (fun s => (s, dtd.size)) bufSize
    let rest := bufferSizes next after
    (rest.1, after - bufSize + rest.2)
  | .str dtd val next, bufSize =>
    let after := sdpGenBuffer reread dtd.code dtd.typeSize (fun s => (s, val.length)) bufSize
    let rest := bufferSizes next after
    (rest.1, after - bufSize + rest.2)
  | .seq dtd dataseq next, bufSize =>
    let after := sdpGenBuffer reread dtd.code dtd.typeSize (bufferSizes dataseq) bufSize
    let rest := bufferSizes next after
    (rest.1, after - bufSize + rest.2)

/-- `sdp_gen_buffer` of one element -/
def SdpData.genBuffer (d : SdpData) (bufSize : ℕ) : ℕ :=
  (bufferSizes reread (d.setNext .null) bufSize).1

end

/-! ## The bytes -/

/-- `sdp_buf_t`: the memory that is allocated, as long as `buf_size`, and `data_size`. -/
abbrev SdpBuf := Region UInt8

/-- What `sdp_gen_pdu` leaves: the elements, whose descriptors it may have changed, the
buffer, and the size that it returns. -/
structure Gen where
  data : SdpData
  buf : SdpBuf
  size : ℕ
  deriving DecidableEq, Repr

/-- The descriptor at `seqp`, and the length that `sdp_set_seq_len` puts after it. -/
def putHeader (buf : SdpBuf) (seqp : ℕ) (code : UInt8) (len : List UInt8) : Except Fault SdpBuf := do
  let buf ← buf.store seqp [code]
  buf.store (seqp + 1) len

/-- `sdp_gen_pdu` of an element that is no sequence, `len` its length if it has one and
`src` its bytes. -/
def genScalar (buf : SdpBuf) (code : UInt8) (len src : List UInt8) : Except Fault SdpBuf := do
  let seqp := buf.dataSize
  let buf ← putHeader (buf.reserve (1 + len.length)) seqp code len
  if buf.dataSize + src.length ≤ buf.data.length then
    let buf ← buf.store buf.dataSize src
    return buf.reserve src.length
  else return buf

/-- `get_data_size` once there is memory: every element of the chain through `sdp_gen_pdu`,
which is `genSeq` for sequences. -/
def getDataSize (genSeq : SeqDtd → SdpData → SdpBuf → Except Fault (SeqDtd × Gen)) :
    SdpData → SdpBuf → Except Fault Gen
  | .null, buf => .ok ⟨.null, buf, 0⟩
  | .num dtd val next, buf => do
    let buf ← genScalar buf dtd.code [] (bigEndian dtd.size val.toNat)
    let rest ← getDataSize genSeq next buf
    return ⟨.num dtd val rest.data, rest.buf, 1 + dtd.size + rest.size⟩
  | .str dtd val next, buf => do
    let buf ← genScalar buf dtd.code (bigEndian dtd.width val.length) val
    let rest ← getDataSize genSeq next buf
    return ⟨.str dtd val rest.data, rest.buf, dtd.typeSize + val.length + rest.size⟩
  | .seq dtd dataseq next, buf => do
    let made ← genSeq dtd dataseq buf
    let rest ← getDataSize genSeq next made.2.buf
    return ⟨.seq made.1 made.2.data rest.data, rest.buf, made.2.size + rest.size⟩

/-- The end of `sdp_gen_pdu` for a sequence at `seqp` whose elements are there. -/
def putSeq (seqp : ℕ) (dtd : SeqDtd) (made : Gen) : Except Fault (SeqDtd × Gen) := do
  let buf ← putHeader made.buf seqp dtd.code (bigEndian dtd.width made.size)
  return (dtd, ⟨made.data, buf, dtd.typeSize + made.size⟩)

/-- `sdp_gen_pdu` of a sequence. The first argument bounds the nesting; without it there is
nothing to recurse on, because the second pass is over elements that the first has
changed. -/
def genSeq : ℕ → SeqDtd → SdpData → SdpBuf → Except Fault (SeqDtd × Gen)
  | 0, _, _, _ => .error .range
  | depth + 1, dtd, dataseq, buf => do
    let made ← getDataSize (genSeq depth) dataseq (buf.reserve dtd.typeSize)
    if 255 < made.size ∧ dtd = .seq8 then
      -- `goto recalculate`, with the descriptor changed and `data_size` set back
      let back : SdpBuf := { made.buf with dataSize := buf.dataSize }
      let made ← getDataSize (genSeq depth) made.data (back.reserve SeqDtd.seq16.typeSize)
      putSeq buf.dataSize .seq16 made
    else putSeq buf.dataSize dtd made

/-- `sdp_gen_pdu`, which looks at one element only. -/
def sdpGenPdu (d : SdpData) (buf : SdpBuf) : Except Fault Gen :=
  match d with
  | .null => .error .null
  | d => getDataSize (genSeq d.depth) (d.setNext .null) buf

end Android2Mouse.Source.Sdp
