import Mathlib.Data.List.Sort
import Android2Mouse.Source.SdpData
import Android2Mouse.Source.SelfRepr

/-!
# Service records (`sdp.c`, `self_repr.c`)

A record is its list of attributes in the order of their identifiers. `sdp_gen_record_pdu`
encodes it into memory of the size that `sdp_gen_buffer` adds up over the attributes:
each attribute is encoded on its own and appended behind the header of the whole, which
`sdp_append_to_buf` makes longer when the record passes 255 bytes.

`build_hid_mouse` and `build_hid_multidev` are one function but for `hid_spec`. There is
memory for the elements that they make; whether there is for the node of an attribute in the
list is given (`nodes`). An element is put into a record once. The search pattern, `svclass`
and the descriptors that encoding changes in the record are left out: nothing that is
modelled reads them.
-/
namespace Android2Mouse.Source.Sdp
open Library

/-- An element with its `attrId`. -/
structure Attr where
  attrId : UInt16
  data : SdpData
  deriving DecidableEq, Repr

/-! ## The attributes of a record -/

section

variable (attrlist : List Attr)

/-- `sdp_data_get` -/
def sdpDataGet (attr : UInt16) : Option SdpData := (attrlist.find? (·.attrId = attr)).map Attr.data

/-- Before the first attribute that is not less. -/
def insertSorted (d : Attr) : List Attr := attrlist.orderedInsert (fun a b => a.attrId ≤ b.attrId) d

/-- `sdp_list_insert_sorted` with `sdp_attrid_comp_func`. Without memory for the node it
returns NULL, which the callers put in the place of the list. -/
def sdpListInsertSorted (node : Bool) (d : Attr) : List Attr :=
  if node then insertSorted attrlist d else []

/-- `sdp_attr_add`, which leaves an attribute alone that is there, with what it returns. -/
def sdpAttrAdd (node : Bool) (attr : UInt16) (d : SdpData) : Except Fault (List Attr × Int) :=
  if (sdpDataGet attrlist attr).isSome then .ok (attrlist, -1)
  else if d = .null then .error .null
  else .ok (sdpListInsertSorted attrlist node ⟨attr, d⟩, 0)

/-- `sdp_attr_remove` -/
def sdpAttrRemove (attr : UInt16) : List Attr := attrlist.eraseP (·.attrId = attr)

/-- `sdp_attr_replace` -/
def sdpAttrReplace (node : Bool) (attr : UInt16) (d : SdpData) : Except Fault (List Attr) :=
  if d = .null then .error .null
  else .ok (sdpListInsertSorted (attrlist.eraseP (·.attrId = attr)) node ⟨attr, d⟩)

end

/-! ## Building the record of a HID device -/

/-- `sdp_uuid16_create`, as it is given to `sdp_seq_alloc`. -/
def uuid16 (val : BitVec 16) : Value := .num .uuid16 val

def uint16 (val : BitVec 16) : Value := .num .uint16 val

section

variable (nodes : UInt16 → Bool) (attrlist : List Attr)

/-- `sdp_attr_add`, of which no caller looks at what it returns. -/
def addAttr (attr : UInt16) (d : SdpData) : Except Fault (List Attr) := do
  let r ← sdpAttrAdd attrlist (nodes attr) attr d
  return r.1

/-- `sdp_attr_add_new`; nothing is added when there is no element. -/
def sdpAttrAddNew (attr : UInt16) (value : Value) : Except Fault (List Attr) :=
  if value.alloc = .null then .ok attrlist
  else sdpAttrReplace attrlist (nodes attr) attr value.alloc

/-- `sdp_set_uuidseq_attr` of 16 bit uuids -/
def sdpSetUuidseqAttr (attr : UInt16) (seq : List (BitVec 16)) : Except Fault (List Attr) :=
  if seq.isEmpty then .ok attrlist
  else sdpAttrReplace attrlist (nodes attr) attr (sdpSeqAlloc (seq.map uuid16))

/-- `sdp_set_browse_groups` -/
def sdpSetBrowseGroups (seq : List (BitVec 16)) : Except Fault (List Attr) :=
  sdpSetUuidseqAttr nodes attrlist 0x0005 seq

/-- `sdp_set_service_classes` -/
def sdpSetServiceClasses (seq : List (BitVec 16)) : Except Fault (List Attr) :=
  sdpSetUuidseqAttr nodes attrlist 0x0001 seq

/-- `sdp_set_lang_attr`, of `code_ISO639`, `encoding` and `base_offset` of each language. -/
def sdpSetLangAttr (langs : List (List (BitVec 16))) : Except Fault (List Attr) :=
  addAttr nodes attrlist 0x0006 (sdpSeqAlloc (langs.flatten.map uint16))

/-- `sdp_add_lang_attr` -/
def sdpAddLangAttr : Except Fault (List Attr) :=
  sdpSetLangAttr nodes attrlist [[0x656e, 106, 0x0100]]

/-- `sdp_set_profile_descs`, of the uuid and the version of each profile. -/
def sdpSetProfileDescs (profiles : List (BitVec 16 × BitVec 16)) : Except Fault (List Attr) :=
  let seqs := profiles.map fun p => Value.data (sdpSeqAlloc [uuid16 p.1, uint16 p.2])
  addAttr nodes attrlist 0x0009 (sdpSeqAlloc seqs)

/-- `access_proto_to_dataseq`: the first ten parts of each protocol. -/
def accessProtoToDataseq (proto : List (List Value)) : SdpData :=
  sdpSeqAlloc (proto.map fun parts => .data (sdpSeqAlloc (parts.take 10)))

/-- `sdp_set_access_protos`; of several alternatives the attribute is the first. -/
def sdpSetAccessProtos (ap : List (List (List Value))) : Except Fault (List Attr) :=
  addAttr nodes attrlist 0x0004 (link (ap.map accessProtoToDataseq))

/-- `sdp_set_add_access_protos` -/
def sdpSetAddAccessProtos (ap : List (List (List Value))) : Except Fault (List Attr) :=
  let protos := link (ap.map accessProtoToDataseq)
  addAttr nodes attrlist 0x000d (if protos ≠ .null then .seq .seq8 protos .null else .null)

/-- `sdp_set_info_attr` with a name only -/
def sdpSetInfoAttr (name : List UInt8) : Except Fault (List Attr) :=
  sdpAttrAddNew nodes attrlist 0x0100 (.str .textStr8 name)

/-- `sdp_attr_add_new` of 16 bit integers, to successive attributes. -/
def addUint16s (attr : UInt16) (vals : List (BitVec 16)) : Except Fault (List Attr) :=
  (vals.zipIdx).foldlM
    (fun attrs v => sdpAttrAddNew nodes attrs (attr + UInt16.ofNat v.2) (uint16 v.1)) attrlist

end

/-- The protocols L2CAP on the channel `psm` and HIDP. -/
def hidProtos (psm : BitVec 16) : List (List (List Value)) :=
  [[[uuid16 0x0100, uint16 psm], [uuid16 0x0011]]]

/-- `ctrl` and `intr` -/
def ctrl : BitVec 16 := 0x11
def intr : BitVec 16 := 0x13

/-- "HID Mouse" -/
def serviceName : List UInt8 := [0x48, 0x49, 0x44, 0x20, 0x4d, 0x6f, 0x75, 0x73, 0x65]

section

variable (nodes : UInt16 → Bool)

/-- What `build_hid_mouse` and `build_hid_multidev` do with their `hid_spec`. -/
def buildHid (hidSpec : List UInt8) : Except Fault (List Attr) := do
  let attrs ← sdpSetBrowseGroups nodes [] [0x1002]
  let attrs ← sdpAddLangAttr nodes attrs
  let attrs ← sdpSetServiceClasses nodes attrs [0x1124]
  let attrs ← sdpSetProfileDescs nodes attrs [(0x1124, 0x0100)]
  let attrs ← sdpSetAccessProtos nodes attrs (hidProtos ctrl)
  let attrs ← sdpSetAddAccessProtos nodes attrs (hidProtos intr)
  let attrs ← sdpSetInfoAttr nodes attrs serviceName
  let attrs ← addUint16s nodes attrs 0x0200 [0x100, 0x111, 0x80, 0x00, 0x01, 0x01]
  let hidSpecLst := sdpSeqAlloc [.num .uint8 0x22, .str .textStr8 hidSpec]
  let attrs ← addAttr nodes attrs 0x0206 (.seq .seq8 hidSpecLst .null)
  let langLst := sdpSeqAlloc [uint16 0x409, uint16 0x100]
  let attrs ← addAttr nodes attrs 0x0207 (.seq .seq8 langLst .null)
  let attrs ← sdpAttrAddNew nodes attrs 0x0208 (uint16 0x0)
  addUint16s nodes attrs 0x020a [0x01, 0x100, 0x1f40, 0x01, 0x01]

/-- `build_hid_mouse` -/
def buildHidMouse : Except Fault (List Attr) := buildHid nodes SelfRepr.BuildHidMouse.hidSpec

/-- `build_hid_multidev` -/
def buildHidMultidev : Except Fault (List Attr) := buildHid nodes SelfRepr.BuildHidMultidev.hidSpec

end

/-! ## Encoding a record -/

/-- `sdp_set_attrid` -/
def sdpSetAttrid (buf : SdpBuf) (attr : UInt16) : Except Fault SdpBuf := do
  let buf ← buf.store 0 [NumDtd.uint16.code]
  let buf ← buf.store 1 (bigEndian 2 attr.toNat)
  return { buf with dataSize := 1 + 2 }

/-- The byte at the front of the memory. -/
def firstByte (buf : SdpBuf) : Except Fault UInt8 :=
  match buf.data with
  | [] => .error .range
  | b :: _ => .ok b

/-- The start of `sdp_append_to_buf`: create the initial sequence, and reserve space for its
size. -/
def createSequence (dst : SdpBuf) (dtd : UInt8) : Except Fault SdpBuf := do
  if dst.dataSize = 0 ∧ dtd = 0 then
    let dst ← dst.store 0 [SeqDtd.seq8.code]
    return { dst with dataSize := 1 + 1 }
  else return dst

/-- The `memmove` in `sdp_append_to_buf`, when the sequence outgrows its descriptor. -/
def outgrow (dst : SdpBuf) (dtd : UInt8) : Except Fault SdpBuf := do
  if 255 < dst.dataSize ∧ dtd = SeqDtd.seq8.code then
    let dst ← dst.store 3 (dst.filled.drop 2)
    let dst ← dst.store 0 [SeqDtd.seq16.code]
    return dst.reserve 1
  else return dst

/-- The end of `sdp_append_to_buf`: the size of the sequence. -/
def putSize (dst : SdpBuf) (dtd : UInt8) : Except Fault SdpBuf :=
  if dtd = SeqDtd.seq8.code then dst.store 1 (bigEndian 1 (dst.dataSize - 2))
  else if dtd = SeqDtd.seq16.code then dst.store 1 (bigEndian 2 (dst.dataSize - 3))
  else if dtd = SeqDtd.seq32.code then dst.store 1 (bigEndian 4 (dst.dataSize - 5))
  else .ok dst

/-- `sdp_append_to_buf` -/
def sdpAppendToBuf (dst : SdpBuf) (data : List UInt8) : Except Fault SdpBuf := do
  let dst ← createSequence dst (← firstByte dst)
  let dst ← dst.store dst.dataSize data
  let dst := dst.reserve data.length
  let dst ← outgrow dst (← firstByte dst)
  putSize dst (← firstByte dst)

section

variable (reread : Bool)

/-- `sdp_append_to_pdu`, which drops an attribute that it gets no memory for. -/
def sdpAppendToPdu (mallocs : UInt16 → Malloc UInt8) (pdu : SdpBuf) (d : Attr) :
    Except Fault SdpBuf := do
  let m := mallocs d.attrId
  if !m.ok then return pdu
  let append : SdpBuf := ⟨(List.range (d.data.genBuffer reread 0)).map m.junk, 0⟩
  let append ← sdpSetAttrid append d.attrId
  let made ← sdpGenPdu d.data append
  sdpAppendToBuf pdu made.buf.filled

/-- `buf_size` after the first pass of `sdp_gen_record_pdu` -/
def recordBufSize (attrlist : List Attr) : ℕ :=
  attrlist.foldl (fun bufSize d => d.data.genBuffer reread bufSize) 0

/-- `sdp_gen_record_pdu` once it has the memory -/
def sdpGenRecordPdu (mallocs : UInt16 → Malloc UInt8) (attrlist : List Attr) : Except Fault SdpBuf :=
  attrlist.foldlM (sdpAppendToPdu reread mallocs)
    ⟨List.replicate (recordBufSize reread attrlist) 0, 0⟩

end

end Android2Mouse.Source.Sdp
