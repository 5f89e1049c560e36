import Android2Mouse.Library.Writing
import Android2Mouse.Source.ApplyProfile
import Android2Mouse.Source.Hci
import Android2Mouse.Source.SdpClient

/-!
# `bmouse` with its library (`self_repr.c`, `apply_profile.c`)

`add_sdp_record` and `remove_sdp_record` over the requests of `sdp.c`, and `main` over them,
`get_dev_class` and `set_dev_class`. What is written is what the server of the records is
sent. Whether `sdp_connect` opens its socket is given, as is what the calls on it do.
-/
namespace Android2Mouse.Source.Bmouse
open Library Library.Strtol Sdp SelfRepr ApplyProfile

/-- What the calls of a run meet: the allocations and the socket of its request to the
server, and the adapter while the class is written and while it is read. -/
structure Surroundings where
  nodes : UInt16 → Bool
  sdpConnect : Bool
  reread : Bool
  mallocs : RegisterMallocs
  exchange : Exchange
  write : Hci.Adapter
  read : Hci.Adapter
  rp : Vector UInt8 4

variable (s : Surroundings)

def getDevClass : Writing Fault UInt8 (Option UInt32) := .ofResult do
  let r ← Hci.getDevClass s.read s.rp
  return r.map fun cod => ([], cod)

def setDevClass (class' : UInt32) : Writing Fault UInt8 Int := .ofResult do
  let r ← Hci.setDevClass s.write class'
  return r.map fun status => ([], status)

/-- What `add_sdp_record` makes of `sdp_record_register`. -/
def registered (r : SdpRecord × Outcome UInt32) : Option UInt32 :=
  match r.2.result with
  | .error _ => none
  | .ok _ => some r.1.handle

/-- `rep->build_record` -/
def buildRecord : SdpRecordBuilder → Except Fault (List Attr)
  | .hidMouse => buildHidMouse s.nodes
  | .hidMulti => buildHidMultidev s.nodes

/-- `add_sdp_record`, with the handle for 0 and `none` for -1. -/
def addSdpRecord (rep : SdpRecordBuilder) : Writing Fault UInt8 (Option UInt32) := .ofResult do
  let attrlist ← buildRecord s rep
  if !s.sdpConnect then return some ([], none)
  else
    let record : SdpRecord := ⟨rep.buildRecord.handle, attrlist⟩
    let r ← sdpRecordRegister s.reread s.mallocs s.exchange sdpConnectLocal record 0x01
    return r.map fun r => (r.2.sent, registered r)

/-- What `remove_sdp_record` makes of `sdp_device_record_unregister_binary`; a status other than 0
is a failure, too. -/
def unregistered (done : Outcome UInt16) : Int :=
  match done.result with
  | .error _ => -1
  | .ok status => if status ≠ 0 then -1 else 0

/-- `remove_sdp_record` -/
def removeSdpRecord (handle : Int32) : Writing Fault UInt8 Int :=
  if !s.sdpConnect then pure (-1)
  else .ofResult do
    let r ← sdpDeviceRecordUnregisterBinary s.mallocs.bufs s.exchange sdpConnectLocal handle.toUInt32
    return r.map fun done => (done.sent, unregistered done)

/-- The code at the label `print_cod`. -/
def printCod : Writing Fault UInt8 Exit := do
  match (← getDevClass s) with
  | none => return .error .getDevClass
  | some cod => return .success (some cod)

/-- The commands `mouse` and `multi` -/
def applyRepr (rep : SdpRecordBuilder) : Writing Fault UInt8 Exit := do
  match (← addSdpRecord s rep) with
  | none => return .error .applyRepr
  | some handle =>
    if (← setDevClass s dcMouse) ≠ 0 then return .error .setDevClass
    return .success (some handle)

/-- The command `phone` -/
def applyPhone (arg : List UInt8) : Writing Fault UInt8 Exit := do
  let handle := Int32.ofInt (strtol 32 arg)
  if (← removeSdpRecord s handle) = -1 then return .error .removeRecord
  if (← setDevClass s dcPhone) ≠ 0 then return .error .setDevClass
  return .success none

/-- `main` -/
def main (argv : List (List UInt8)) : Writing Fault UInt8 Exit :=
  match argv[1]? with
  | none => pure .failure
  | some command =>
    if command = literal ['c', 'o', 'd'] then printCod s
    else if command = literal ['c', 'o', 'd', '-', 'm', 'o', 'u', 's', 'e'] then do
      if (← setDevClass s dcMouse) ≠ 0 then return .error .setDevClass
      printCod s
    else if command = literal ['m', 'o', 'u', 's', 'e'] then applyRepr s .hidMouse
    else if command = literal ['m', 'u', 'l', 't', 'i'] then applyRepr s .hidMulti
    else if command = literal ['p', 'h', 'o', 'n', 'e'] then
      match argv[2]? with
      | none => pure .failure
      | some arg => applyPhone s arg
    else pure (.success none)

end Android2Mouse.Source.Bmouse
