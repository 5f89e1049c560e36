import Android2Mouse.Library.Effect
import Android2Mouse.Source.Bluetooth
import Android2Mouse.Source.Logging

/-!
# How the daemon starts and ends (`main` of `hidp_clientd.c`, `l2cap_connect`, `close_sk`)

`main` up to its loop and from there on; the loop is that of `HidpClientd` and `MouseConn`.
The outcome of a system call is given, and the descriptor that `socket` returns for each of
the two channels. Messages are left out, with the `getsockopt` that is only for one.
-/
namespace Android2Mouse.Source.DaemonMain
open Library Library.Strtol Library.Attempt Sdp Bluetooth

/-! ## System calls -/

/-- `struct sockaddr_l2` -/
structure SockaddrL2 where
  psm : UInt16
  bdaddr : BdAddr
  deriving DecidableEq

inductive SysCall where
  | fopen (path : List UInt8)
  | fclose
  | malloc (size : ℕ)
  | mkfifo (path : List UInt8)
  | open (path : List UInt8)
  | atexit
  | socket (result : Int32)
  | connect (sk : Int32) (addr : SockaddrL2)
  | close (sk : Int32)
  deriving DecidableEq

/-- What a successful `socket` returns. -/
abbrev Descriptor := {sk : Int32 // sk ≠ -1}

/-- `start_log(path)`, true for 0 -/
def startLog (path : List UInt8) : Attempt SysCall Bool := do
  let notFile := path = literal "stdout".toList ∨ path = literal "sterr".toList
  let fopen ← if notFile then pure true else attempt (.fopen path)
  if !fopen then return false
  attempt (.malloc 64)

/-- `end_log()` -/
def endLog (path : List UInt8) : Attempt SysCall Bool :=
  if path = literal "stdout".toList ∨ path = literal "sterr".toList then .done true
  else attempt .fclose

/-- `l2cap_connect(psm)` to `daddr` -/
def l2capConnect (sk : Descriptor) (daddr : BdAddr) (psm : UInt16) : Attempt SysCall Int32 := do
  if !(← attempt (.socket sk)) then return -1
  if !(← attempt (.connect sk ⟨psm, daddr⟩)) then
    let _ ← attempt (.close sk)
    return -1
  return sk

/-- The globals `int_sock` and `cnt_sock`. -/
structure Socks where
  intSock : Int32
  cntSock : Int32

def closeIf (sk : Int32) : Attempt SysCall Bool := if sk ≠ -1 then attempt (.close sk) else .done true

/-- `close_sk` -/
def closeSk (sks : Socks) : Attempt SysCall Bool := do
  let _ ← closeIf sks.intSock
  closeIf sks.cntSock

/-- `hipd_cleanup`, which is called at exit once `atexit` has registered it -/
def hipdCleanup (logFile : List UInt8) (sks : Socks) : Attempt SysCall Bool := do
  let _ ← closeSk sks
  endLog logFile

/-! ## The command line -/

/-- What `getopt_long` returns, with `optarg`. -/
inductive Opt where
  | logfile (optarg : List UInt8)
  | fifo (optarg : List UInt8)
  | help
  | raw
  | unknown
  deriving DecidableEq

/-- An entry of `get_options`, with the option that it stands for. -/
structure LongOption where
  name : List UInt8
  takesArg : Bool
  val : List UInt8 → Opt

def getOptions : List LongOption := [
  ⟨literal "help".toList, false, fun _ => .help⟩,
  ⟨literal "logfile".toList, true, .logfile⟩,
  ⟨literal "fifo".toList, true, .fifo⟩,
  ⟨literal "raw".toList, false, fun _ => .raw⟩]

/-- The entry of that name, or the only one whose name begins so. -/
def longOption (name : List UInt8) : Option LongOption :=
  match getOptions.find? fun entry => entry.name = name with
  | some entry => some entry
  | none =>
    match getOptions.filter fun entry => name.isPrefixOf entry.name with
    | [entry] => some entry
    | [] => none
    | _ :: _ :: _ => none

/-- The options and the arguments from `optind` on; the next word may be the argument of an
option before it. -/
def getoptFrom : Option LongOption → List (List UInt8) → List Opt × List (List UInt8)
  | none, [] => ([], [])
  | some _, [] => ([.unknown], [])
  | some entry, optarg :: args =>
    let (opts, rest) := getoptFrom none args
    (entry.val optarg :: opts, rest)
  | none, arg :: args =>
    if arg = literal "--".toList then ([], args)
    else if (literal "--".toList).isPrefixOf arg then
      let name := (arg.drop 2).takeWhile (· ≠ 61)
      match longOption name, (arg.drop 2).drop name.length with
      | none, _ =>
        let (opts, rest) := getoptFrom none args
        (.unknown :: opts, rest)
      | some entry, _ :: optarg =>
        let (opts, rest) := getoptFrom none args
        ((if entry.takesArg then entry.val optarg else .unknown) :: opts, rest)
      | some entry, [] =>
        if entry.takesArg then getoptFrom (some entry) args
        else
          let (opts, rest) := getoptFrom none args
          (entry.val [] :: opts, rest)
    else if (literal "-".toList).isPrefixOf arg ∧ arg.length ≠ 1 then
      let (opts, rest) := getoptFrom none args
      ((arg.drop 1).map (fun _ => .unknown) ++ opts, rest)
    else ([], arg :: args)

/-- `getopt_long` with the short options `"+"`, until it returns -1 -/
def getoptLong (args : List (List UInt8)) : List Opt × List (List UInt8) := getoptFrom none args

/-- The `for_each_opt` loop, with `log_file` and `fifo_file`; none where it goes to `usage`. -/
def forEachOpt (logFile fifoFile : List UInt8) : List Opt → Option (List UInt8 × List UInt8)
  | [] => some (logFile, fifoFile)
  | .logfile optarg :: opts => forEachOpt optarg fifoFile opts
  | .fifo optarg :: opts => forEachOpt logFile optarg opts
  | .help :: _ => none
  | .raw :: opts => forEachOpt logFile fifoFile opts
  | .unknown :: opts => forEachOpt logFile fifoFile opts

/-- `FIFO_PATH` -/
def fifoPath : List UInt8 := literal "/data/hidp_clientd.fifo".toList

/-- The options, and the arguments after them. -/
structure CmdLine where
  opts : List Opt
  argv : List (List UInt8)

/-- The command line of a program that is started with these arguments. -/
def CmdLine.of (args : List (List UInt8)) : CmdLine := ⟨(getoptLong args).1, (getoptLong args).2⟩

inductive ConnInfo where
  | mouse | multiChar | multiBin
  deriving DecidableEq, Repr

/-- `info->process_src` is not null. -/
def ConnInfo.implemented : ConnInfo → Bool
  | .mouse => true
  | .multiChar => false
  | .multiBin => true

def connLookup : List (List UInt8 × ConnInfo) := [
  (literal "mouse".toList, .mouse),
  (literal "multi-char".toList, .multiChar),
  (literal "multi".toList, .multiBin)]

def lookupConnType (name : List UInt8) : Option ConnInfo :=
  match connLookup.find? fun conn => name = conn.1 with
  | none => none
  | some (_, info) => if !info.implemented then none else some info

/-- `init_conn`, with `daddr` and the connection. -/
def initConn (type addr : List UInt8) : Option (BdAddr × ConnInfo) :=
  let (err, daddr) := str2ba addr
  if err = -1 then none
  else (lookupConnType type).map fun info => (daddr, info)

/-! ## `main` -/

inductive Exit where
  | failure | success
  deriving DecidableEq, Repr

/-- Where the process is: gone, or in the loop. -/
inductive Process where
  | exited (code : Exit)
  | polling (daddr : BdAddr) (info : ConnInfo)
  deriving DecidableEq

/-- `exit(code)` after the call of `atexit` -/
def exitWith (logFile : List UInt8) (sks : Socks) (code : Exit) : Attempt SysCall Process := do
  let _ ← hipdCleanup logFile sks
  return .exited code

/-- From the registration on. The loop ends with `loop`, if at all. -/
def serve (logFile : List UInt8) (cnt int : Descriptor) (daddr : BdAddr) (info : ConnInfo)
    (loop : Option Exit) : Attempt SysCall Process := do
  let cntSock ← l2capConnect cnt daddr 0x11 /- Control channel -/
  if cntSock = -1 then exitWith logFile ⟨-1, -1⟩ .failure
  else do
    let intSock ← l2capConnect int daddr 0x13 /- Interrupt channel -/
    if intSock = -1 then exitWith logFile ⟨-1, cntSock⟩ .failure
    else match loop with
      | none => return .polling daddr info
      | some code => exitWith logFile ⟨intSock, cntSock⟩ code

/-- From the log on, with the arguments. `eexist` is whether a `mkfifo` that fails has found
the file. -/
def connect (logFile fifoFile type addr : List UInt8) (eexist : Bool) (cnt int : Descriptor)
    (loop : Option Exit) : Attempt SysCall Process := do
  if !(← attempt (.mkfifo fifoFile)) && !eexist then return .exited .failure
  if !(← attempt (.open fifoFile)) then return .exited .failure
  match initConn type addr with
  | none => return .exited .failure
  | some (daddr, info) => do
    if !(← attempt (.malloc 16)) then return .exited .failure
    if !(← attempt (.malloc 16)) then return .exited .failure
    if !(← attempt .atexit) then return .exited .failure
    serve logFile cnt int daddr info loop

def main (cmd : CmdLine) (eexist : Bool) (cnt int : Descriptor) (loop : Option Exit) :
    Attempt SysCall Process :=
  match forEachOpt (literal "hidp_clientd.log".toList) fifoPath cmd.opts with
  | none => .done (.exited .failure)
  | some (logFile, fifoFile) => do
    if !(← startLog logFile) then return .exited .failure
    match cmd.argv with
    | type :: addr :: _ => connect logFile fifoFile type addr eexist cnt int loop
    | [_] => return .exited .failure
    | [] => return .exited .failure

end Android2Mouse.Source.DaemonMain
