import Mathlib.Data.Finset.Filter
import Mathlib.Data.Finset.Insert
import Android2Mouse.Library.Attempt

/-!
# The advertised device (`self_repr.c`)

`hid_spec` of `build_hid_multidev` and of `build_hid_mouse`, byte for byte, and the
functions that register a record and set the device class. Of a service record its
handle and its HID descriptor are kept.

The calls of the Bluetooth library (`hci.c`, `sdp.c`) are abstracted here: a call succeeds,
or fails without effect (`LibCall`), and what a successful call hands back is in `Replies`.
`devClass_refines` and `bmouse_run` say so of the library as it is modelled in `Hci` and
`SdpClient`. Calls that only close something are left out.
-/
namespace Android2Mouse.Source.SelfRepr
open Library

namespace BuildHidMultidev

/-- `hid_spec` in `build_hid_multidev` -/
def hidSpec : List UInt8 := [
  -- keyboard: report 1, modifier bits, the reserved byte, six array slots
  0x05, 0x01, 0x09, 0x06, 0xa1, 0x01, 0x85, 0x01, 0x05, 0x07,
  0x19, 0xe0, 0x29, 0xe7, 0x15, 0x00, 0x25, 0x01, 0x75, 0x01, 0x95, 0x08, 0x81, 0x02,
  0x95, 0x01, 0x75, 0x08, 0x81, 0x03,
  0x95, 0x06, 0x75, 0x08, 0x15, 0x00, 0x25, 0x65, 0x05, 0x07, 0x19, 0x00, 0x29, 0x65, 0x81, 0x00,
  0xc0,
  -- mouse: report 2, three buttons, padding, X, Y and wheel
  0x05, 0x01, 0x09, 0x02, 0xa1, 0x01, 0x09, 0x01, 0xa1, 0x00, 0x85, 0x02,
  0x05, 0x09, 0x19, 0x01, 0x29, 0x03, 0x15, 0x00, 0x25, 0x01, 0x95, 0x03, 0x75, 0x01, 0x81, 0x02,
  0x95, 0x01, 0x75, 0x05, 0x81, 0x03,
  0x05, 0x01, 0x09, 0x30, 0x09, 0x31, 0x09, 0x38, 0x15, 0x81, 0x25, 0x7f, 0x75, 0x08, 0x95, 0x03,
  0x81, 0x06, 0xc0, 0xc0,
  -- game pad: report 3, sixteen buttons, six axes
  0x05, 0x01, 0x09, 0x05, 0xa1, 0x01, 0xa1, 0x00, 0x85, 0x03,
  0x05, 0x09, 0x19, 0x01, 0x29, 0x10, 0x15, 0x00, 0x25, 0x01, 0x95, 0x10, 0x75, 0x01, 0x81, 0x02,
  0x05, 0x01, 0x09, 0x30, 0x09, 0x31, 0x09, 0x32, 0x09, 0x33, 0x09, 0x34, 0x09, 0x35,
  0x15, 0x81, 0x25, 0x7f, 0x75, 0x08, 0x95, 0x06, 0x81, 0x02, 0xc0, 0xc0]

end BuildHidMultidev

namespace BuildHidMouse

/-- `hid_spec` in `build_hid_mouse` -/
def hidSpec : List UInt8 := [
  0x05, 0x01, 0x09, 0x02, 0xa1, 0x01, 0x09, 0x01, 0xa1, 0x00, 0x85, 0x01,
  0x05, 0x09, 0x19, 0x01, 0x29, 0x03, 0x15, 0x00, 0x25, 0x01, 0x95, 0x03, 0x75, 0x01, 0x81, 0x02,
  0x95, 0x01, 0x75, 0x05, 0x81, 0x03,
  0x05, 0x01, 0x09, 0x30, 0x09, 0x31, 0x09, 0x38, 0x15, 0x81, 0x25, 0x7f, 0x75, 0x08, 0x95, 0x03,
  0x81, 0x06, 0xc0, 0xc0]

end BuildHidMouse

/-! ## Records and the device class -/

def dcMouse : UInt32 := 0x10590
def dcPhone : UInt32 := 0x5a020c

structure ServiceRecord where
  handle : UInt32
  hidSpec : List UInt8
  deriving DecidableEq, Repr

/-- `struct sdp_record_builder`, of which only `build_record` is set. -/
inductive SdpRecordBuilder where
  | hidMouse | hidMulti
  deriving DecidableEq, Repr

/-- `build_record`; the server replaces the handle when it registers the record. -/
def SdpRecordBuilder.buildRecord : SdpRecordBuilder → ServiceRecord
  | .hidMouse => ⟨0xffffffff, BuildHidMouse.hidSpec⟩
  | .hidMulti => ⟨0xffffffff, BuildHidMultidev.hidSpec⟩

/-- Calls of the Bluetooth library that can fail. A registered record is given with
the handle that it gets. -/
inductive LibCall where
  | hciOpenDev
  | hciReadClassOfDev
  | hciWriteClassOfDev (class' : UInt32)
  | sdpConnect
  | sdpRecordRegister (record : ServiceRecord)
  | sdpDeviceRecordUnregisterBinary (handle : UInt32)
  deriving DecidableEq, Repr

/-- What the library hands back: the class it reads and the handle it assigns. -/
structure Replies where
  classOfDev : UInt32
  handle : UInt32
  deriving DecidableEq, Repr

def getDevClass (replies : Replies) : Attempt LibCall (Option UInt32) := do
  if !(← Attempt.attempt .hciOpenDev) then return none
  if !(← Attempt.attempt .hciReadClassOfDev) then return none
  return some replies.classOfDev

def setDevClass (class' : UInt32) : Attempt LibCall Int := do
  if !(← Attempt.attempt .hciOpenDev) then return -1
  if !(← Attempt.attempt (.hciWriteClassOfDev class')) then return -1
  return 0

/-- `add_sdp_record`, with the handle for 0 and `none` for -1. -/
def addSdpRecord (rep : SdpRecordBuilder) (replies : Replies) : Attempt LibCall (Option UInt32) := do
  let record := { rep.buildRecord with handle := replies.handle }
  if !(← Attempt.attempt .sdpConnect) then return none
  if !(← Attempt.attempt (.sdpRecordRegister record)) then return none
  return some record.handle

def removeSdpRecord (handle : Int32) : Attempt LibCall Int := do
  if !(← Attempt.attempt .sdpConnect) then return -1
  if !(← Attempt.attempt (.sdpDeviceRecordUnregisterBinary handle.toUInt32)) then return -1
  return 0

/-! ## The adapter -/

/-- The records that are registered, and the device class, which has three bytes. -/
structure Adapter where
  records : Finset ServiceRecord
  devClass : UInt32
  deriving DecidableEq

/-- What a successful call does. -/
def LibCall.effect (adapter : Adapter) : LibCall → Adapter
  | .hciWriteClassOfDev class' => { adapter with devClass := class' &&& 0xffffff }
  | .sdpRecordRegister record => { adapter with records := insert record adapter.records }
  | .sdpDeviceRecordUnregisterBinary handle =>
    { adapter with records := adapter.records.filter (·.handle ≠ handle) }
  | .hciOpenDev => adapter
  | .hciReadClassOfDev => adapter
  | .sdpConnect => adapter

/-- The adapter after a program whose calls meet `o`. -/
def adapterAfter {α : Type} (prog : Attempt LibCall α) (o : Outcomes) (adapter : Adapter) : Adapter :=
  (prog.taken o).foldl LibCall.effect adapter

end Android2Mouse.Source.SelfRepr
