import Android2Mouse.Library.Strtol
import Android2Mouse.Source.SelfRepr

/-!
# `bmouse` (`apply_profile.c`)

What `main` does with the adapter, how it exits and what it prints. The macro `error` of
`self_repr.c` is not in scope here, so that `error("...")` is `error(status, errnum, format, ...)`
of the C library with the address of the message for the status, and what follows it is
reached for the address 0 only. What the library writes on standard error is left out.
-/
namespace Android2Mouse.Source.ApplyProfile
open Library Library.Strtol SelfRepr

/-- The messages that `error` is called with. -/
inductive Message where
  -- "Failed to get device class"
  | getDevClass
  -- "failed to set dev class"
  | setDevClass
  -- "failed to apply repr"
  | applyRepr
  -- "failed to remove %x record\n"
  | removeRecord
  deriving DecidableEq, Repr

/-- A call of `error` and the `exit(EXIT_FAILURE)` after it, `exit(EXIT_FAILURE)` alone, or
`exit(EXIT_SUCCESS)` after the number that was printed as `0x%x`, if any. -/
inductive Exit where
  | error (message : Message)
  | failure
  | success (printed : Option UInt32)
  deriving DecidableEq, Repr

def exitSuccess : UInt8 := 0
def exitFailure : UInt8 := 1

/-- The status of the process, given the addresses of the messages: `error` ends it with a
status other than 0, of which `exit` keeps the low byte. -/
def Exit.status (address : Message → UInt32) : Exit → UInt8
  | .error message =>
    if address message ≠ 0 then (address message).toUInt8 else exitFailure
  | .failure => exitFailure
  | .success _ => exitSuccess

/-- The code at the label `print_cod`. -/
def printCod (replies : Replies) : Attempt LibCall Exit := do
  match (← getDevClass replies) with
  | none => return .error .getDevClass
  | some cod => return .success (some cod)

/-- The commands `mouse` and `multi`, which differ in the record. -/
def applyRepr (rep : SdpRecordBuilder) (replies : Replies) : Attempt LibCall Exit := do
  match (← addSdpRecord rep replies) with
  | none => return .error .applyRepr
  | some handle =>
    if (← setDevClass dcMouse) ≠ 0 then return .error .setDevClass
    return .success (some handle)

/-- The command `phone`. -/
def applyPhone (arg : List UInt8) : Attempt LibCall Exit := do
  let handle := Int32.ofInt (strtol 32 arg)
  if (← removeSdpRecord handle) = -1 then return .error .removeRecord
  if (← setDevClass dcPhone) ≠ 0 then return .error .setDevClass
  return .success none

/-- `main`; the names of the commands exclude each other. -/
def main (argv : List (List UInt8)) (replies : Replies) : Attempt LibCall Exit :=
  match argv[1]? with
  | none => .done .failure
  | some command =>
    if command = literal ['c', 'o', 'd'] then printCod replies
    else if command = literal ['c', 'o', 'd', '-', 'm', 'o', 'u', 's', 'e'] then do
      if (← setDevClass dcMouse) ≠ 0 then return .error .setDevClass
      printCod replies
    else if command = literal ['m', 'o', 'u', 's', 'e'] then applyRepr .hidMouse replies
    else if command = literal ['m', 'u', 'l', 't', 'i'] then applyRepr .hidMulti replies
    else if command = literal ['p', 'h', 'o', 'n', 'e'] then
      match argv[2]? with
      | none => .done .failure
      | some arg => applyPhone arg
    else .done (.success none)

end Android2Mouse.Source.ApplyProfile
