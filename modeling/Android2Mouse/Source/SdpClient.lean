import Android2Mouse.Source.SdpRecord

/-!
# Registering a record with the local server (`sdp.c`)

`sdp_device_record_register` and `sdp_device_record_unregister_binary`, of a session that
`sdp_connect` has opened. What the socket does during a request is given (`Exchange`): how
much each `send` takes, whether `select` times out and what `recv` delivers. Memory that
`malloc` returns has arbitrary contents, and a store outside of it is a fault.
-/
namespace Android2Mouse.Source.Sdp
open Library

/-- `errno`; `os` is what a system call has set. -/
inductive Errno where
  | einval | eremote | enomem | eproto | etimedout | os
  deriving DecidableEq, Repr

/-- `sdp_session_t` -/
structure Session where
  tid : UInt16
  local' : Bool
  deriving DecidableEq, Repr

/-- The session that `sdp_connect` opens to `BDADDR_LOCAL`. -/
def sdpConnectLocal : Session := ⟨0, true⟩

def sdpReqBufferSize : ℕ := 2048
def sdpRspBufferSize : ℕ := 65535

/-- `sizeof(sdp_pdu_hdr_t)`: `pdu_id`, `tid` and `plen`. -/
def sizeofPduHdr : ℕ := 5

/-- `none` is a call that fails. -/
structure Exchange where
  sends : List (Option ℕ)
  timedOut : Bool
  recv : Option (List UInt8)
  deriving DecidableEq, Repr

/-- The two `malloc`s of a request. -/
structure Buffers where
  req : Malloc UInt8
  rsp : Malloc UInt8

/-- What is left when a request is over: the session, the bytes the server was sent, and
the value or the `errno` for -1. -/
structure Outcome (α : Type) where
  session : Session
  sent : List UInt8
  result : Except Errno α

/-- `sdp_send_req`: whether all was sent, and what was; `none` while it has not ended. -/
def sdpSendReq : List (Option ℕ) → List UInt8 → Option (Bool × List UInt8)
  | _, [] => some (true, [])
  | [], _ :: _ => none
  | none :: _, _ :: _ => some (false, [])
  | some n :: sends, b :: buf =>
    (sdpSendReq sends ((b :: buf).drop n)).map fun r => (r.1, (b :: buf).take n ++ r.2)

/-- `sdp_read_rsp` -/
def sdpReadRsp (x : Exchange) : Except Errno (List UInt8) :=
  if x.timedOut then .error .etimedout
  else match x.recv with
    | none => .error .os
    | some bytes => .ok (bytes.take sdpRspBufferSize)

/-- The response buffer: the bytes read over what `malloc` left there. -/
def rspbuf (junk : ℕ → UInt8) (bytes : List UInt8) (i : ℕ) : UInt8 := bytes.getD i (junk i)

/-- The end of `sdp_send_req_w4_rsp`: the response has to carry the `tid` of the request. -/
def w4Rsp (x : Exchange) (junk : ℕ → UInt8) (reqbuf : List UInt8) : Except Errno (List UInt8) := do
  let bytes ← sdpReadRsp x
  if bytes.length = 0 ∨ (reqbuf.drop 1).take 2 ≠ [rspbuf junk bytes 1, rspbuf junk bytes 2] then
    .error .eproto
  else .ok bytes

/-- `sdp_send_req_w4_rsp`, with what was sent. -/
def sdpSendReqW4Rsp (x : Exchange) (junk : ℕ → UInt8) (reqbuf : List UInt8) :
    Option (List UInt8 × Except Errno (List UInt8)) :=
  (sdpSendReq x.sends reqbuf).map fun r =>
    (r.2, if r.1 then w4Rsp x junk reqbuf else .error .os)

/-- Bytes are put at `p`, and `p` is moved behind them. -/
def putBytes (req : SdpBuf) (bs : List UInt8) : Except Fault SdpBuf := do
  let req ← req.store req.dataSize bs
  return req.reserve bs.length

/-- The header of a request, without its length. -/
def startReq (junk : ℕ → UInt8) (pduId : UInt8) (tid : UInt16) : Except Fault SdpBuf := do
  let req : SdpBuf := ⟨(List.range sdpReqBufferSize).map junk, 0⟩
  let req ← req.store 0 [pduId]
  let req ← req.store 1 (bigEndian 2 tid.toNat)
  return req.reserve sizeofPduHdr

/-- The request: what is put behind the header, and last its length. -/
def buildReq (junk : ℕ → UInt8) (pduId : UInt8) (tid : UInt16) (params : List (List UInt8)) :
    Except Fault SdpBuf := do
  let req ← startReq junk pduId tid
  let req ← params.foldlM putBytes req
  req.store 3 (bigEndian 2 (req.dataSize - sizeofPduHdr))

/-- What the requests have in common, with `parse` for what they do with a response. -/
def request {α : Type} (bufs : Buffers) (x : Exchange) (session : Session) (pduId : UInt8)
    (params : List (List UInt8)) (parse : (ℕ → UInt8) → ℕ → Except Errno α) :
    Except Fault (Option (Outcome α)) :=
  if !session.local' then .ok (some ⟨session, [], .error .eremote⟩)
  else if !bufs.req.ok || !bufs.rsp.ok then .ok (some ⟨session, [], .error .enomem⟩)
  else do
    let req ← buildReq bufs.req.junk pduId session.tid params
    -- `sdp_gen_tid`
    let session := { session with tid := session.tid + 1 }
    return (sdpSendReqW4Rsp x bufs.rsp.junk req.filled).map fun r =>
      ⟨session, r.1, r.2.bind fun bytes => parse (rspbuf bufs.rsp.junk bytes) bytes.length⟩

/-- The end of `sdp_device_record_register_binary` -/
def parseRegister (rsp : ℕ → UInt8) (rspsize : ℕ) : Except Errno UInt32 :=
  if rspsize < sizeofPduHdr then .error .eproto
  -- SDP_ERROR_RSP: Invalid service record
  else if rsp 0 = 0x01 then .error .einval
  else if rsp 0 ≠ 0x76 then .error .eproto
  else if rspsize < sizeofPduHdr + 4 then .error .eproto
  else .ok (UInt32.ofNat (ofBigEndian [rsp 5, rsp 6, rsp 7, rsp 8]))

/-- The end of `sdp_device_record_unregister_binary`; the status is in the order of the host,
lowest byte first. -/
def parseUnregister (rsp : ℕ → UInt8) (rspsize : ℕ) : Except Errno UInt16 :=
  if rspsize < sizeofPduHdr + 2 then .error .eproto
  else if rsp 0 = 0x01 then .error .einval
  else if rsp 0 ≠ 0x80 then .error .eproto
  else .ok (UInt16.ofNat (ofBigEndian [rsp 6, rsp 5]))

/-- `bdaddr_t` -/
structure BdAddr where
  b : List UInt8
  length_b : b.length = 6
  deriving DecidableEq

/-- `BDADDR_ANY` -/
def bdaddrAny : BdAddr := ⟨[0, 0, 0, 0, 0, 0], rfl⟩

section

variable (bufs : Buffers) (x : Exchange) (session : Session)

/-- `sdp_device_record_register_binary` -/
def sdpDeviceRecordRegisterBinary (device : BdAddr) (data : List UInt8) (flags : UInt8) :
    Except Fault (Option (Outcome UInt32)) :=
  let params :=
    -- SDP_DEVICE_RECORD
    if device ≠ bdaddrAny then [[flags ||| 0x02], device.b, data] else [[flags], data]
  request bufs x session 0x75 params parseRegister

/-- `sdp_device_record_unregister_binary`; the record of the server itself stays. -/
def sdpDeviceRecordUnregisterBinary (handle : UInt32) : Except Fault (Option (Outcome UInt16)) :=
  if handle = 0 then .ok (some ⟨session, [], .error .einval⟩)
  else request bufs x session 0x79 [bigEndian 4 handle.toNat] parseUnregister

end

/-- `sdp_record_t` -/
structure SdpRecord where
  handle : UInt32
  attrlist : List Attr
  deriving DecidableEq

/-- The allocations for the attribute with the handle: the element, and its node in the list. -/
structure HandleMallocs where
  data : Bool
  node : Bool
  deriving DecidableEq, Repr

/-- `sdp_data_alloc` of a handle and `sdp_attr_replace`, which gets NULL when there is no memory. -/
def setHandleAttr (m : HandleMallocs) (rec' : SdpRecord) (handle : UInt32) :
    Except Fault SdpRecord := do
  let d : SdpData := if m.data then .num .uint32 handle.toBitVec .null else .null
  let attrlist ← sdpAttrReplace rec'.attrlist m.node 0x0000 d
  return { rec' with attrlist := attrlist }

/-- The allocations of `sdp_device_record_register`: of the attribute with the handle, before and
after the request, of the encoded record and of its parts. -/
structure RegisterMallocs where
  before : HandleMallocs
  after : HandleMallocs
  pdu : Bool
  attrs : UInt16 → Malloc UInt8
  bufs : Buffers

/-- The end of `sdp_device_record_register`: the record takes the handle. -/
def keepHandle (m : HandleMallocs) (rec' : SdpRecord) :
    Option (Outcome UInt32) → Except Fault (Option (SdpRecord × Outcome UInt32))
  | none => .ok none
  | some done =>
    match done.result with
    | .error _ => .ok (some (rec', done))
    | .ok handle => do
      let rec' ← setHandleAttr m { rec' with handle := handle } handle
      return some (rec', done)

/-- `sdp_device_record_register`, with the record that the caller is left with. -/
def sdpDeviceRecordRegister (reread : Bool) (m : RegisterMallocs) (x : Exchange) (session : Session)
    (device : BdAddr) (rec' : SdpRecord) (flags : UInt8) :
    Except Fault (Option (SdpRecord × Outcome UInt32)) := do
  let rec' ←
    if rec'.handle ≠ 0 ∧ rec'.handle ≠ 0xffffffff then setHandleAttr m.before rec' rec'.handle
    else pure rec'
  if !m.pdu then pure (some (rec', ⟨session, [], .error .enomem⟩))
  else
    let pdu ← sdpGenRecordPdu reread m.attrs rec'.attrlist
    let done ← sdpDeviceRecordRegisterBinary m.bufs x session device pdu.filled flags
    keepHandle m.after rec' done

/-- `sdp_record_register` -/
def sdpRecordRegister (reread : Bool) (m : RegisterMallocs) (x : Exchange) (session : Session)
    (rec' : SdpRecord) (flags : UInt8) : Except Fault (Option (SdpRecord × Outcome UInt32)) :=
  sdpDeviceRecordRegister reread m x session bdaddrAny rec' flags

end Android2Mouse.Source.Sdp
