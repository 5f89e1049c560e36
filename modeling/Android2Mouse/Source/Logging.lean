import Android2Mouse.Library.Heap
import Android2Mouse.Library.Printf
import Android2Mouse.Source.BinPacket

/-!
# The log (`log.c`, `log.h`)

`size_t` and `unsigned long` have 32 bits. The stream is the bytes of the file and the
position in it; it is unbuffered, every write succeeds, and `ftell` returns the position.
What `fopen` and `malloc` answer is given. `vsprintf` past the end of `buf` is the fault
of a store out of range.
-/
namespace Android2Mouse.Source.Logging
open Library Library.Strtol Library.Printf ComboConn

def lDbg : Int32 := 0x0
def lErr : Int32 := 0x1
def lInfo : Int32 := 0x2

/-- `GET_LV(i)` -/
def getLv (i : Int32) : List UInt8 :=
  literal (if i = lDbg then "DBG".toList else if i = lErr then "ERR".toList
    else if i = lInfo then "INF".toList else "UNK".toList)

structure Stream where
  contents : List UInt8
  position : ℕ
  deriving DecidableEq, Repr

def Stream.rewind (f : Stream) : Stream := { f with position := 0 }

/-- What `fprintf` does with the text it has made. -/
def Stream.write (f : Stream) (text : List UInt8) : Stream :=
  ⟨splice f.contents f.position text, f.position + text.length⟩

/-- `struct log`; `bufSize` is the size of the block at `buf`. -/
structure Log where
  lineSize : UInt32
  fileSize : UInt32
  stream : Stream
  path : List UInt8
  bufSize : ℕ
  notFile : Bool
  counter : UInt32
  deriving DecidableEq, Repr

/-! ## Opening -/

/-- `_open_log` and `__open_log`; none where they return -1. -/
def openStream (lineSize fileSize : UInt32) (path : List UInt8) (notFile malloc : Bool) :
    Option Log :=
  let lineSize' := lineSize - 6
  let fileSize' := fileSize / lineSize * lineSize
  let bufSize := (lineSize' + 6).toNat
  if malloc then some ⟨lineSize', fileSize', ⟨[], 0⟩, path, bufSize, notFile, 0⟩ else none

def openLog (lineSize fileSize : UInt32) (path : List UInt8) (fopen malloc : Bool) : Option Log :=
  if path = literal "stdout".toList then openStream lineSize fileSize path true malloc
  else if path = literal "sterr".toList then openStream lineSize fileSize path true malloc
  else if fopen then openStream lineSize fileSize path false malloc
  else none

/-- `start_log(path)` -/
def startLog (path : List UInt8) (fopen malloc : Bool) : Option Log :=
  openLog 64 (1024 * 64) path fopen malloc

/-! ## Writing -/

def recordFormat : List Piece := pieces "[%lu]:%s: %.*s\n".toList

/-- The text that `push_string` hands to `fprintf`. -/
def Log.record (l : Log) (level : Int32) (s : List UInt8) : List UInt8 :=
  format recordFormat [.word l.counter, .text (getLv level), .textUpTo l.lineSize.toNat s]

/-- The stream that it is written to. -/
def Log.placed (l : Log) : Stream :=
  if l.notFile = false ∧ l.fileSize.toNat ≤ l.stream.position then l.stream.rewind else l.stream

def pushString (l : Log) (level : Int32) (s : List UInt8) : Log :=
  { l with stream := l.placed.write (l.record level s), counter := l.counter + 1 }

/-- The text that `vsprintf` makes may have NULs in it, and `push_string` reads up to
the first. -/
def printString (l : Log) (level : Int32) (fmt : List Char) (args : List Arg) :
    Except Fault Log :=
  let text := format (pieces fmt) args
  if text.length + 1 ≤ l.bufSize then .ok (pushString l level (cstring text))
  else .error .range

/-! ## A started log -/

/-- What `start_log` sets. -/
structure Started (l : Log) : Prop where
  lineSize : l.lineSize = 58
  fileSize : l.fileSize = 65536
  bufSize : l.bufSize = 64

theorem openStream_started {path : List UInt8} {notFile malloc : Bool} {l : Log}
    (h : openStream 64 (1024 * 64) path notFile malloc = some l) :
    Started l ∧ l.stream = ⟨[], 0⟩ ∧ l.counter = 0 ∧ l.notFile = notFile := by
  unfold openStream at h
  split at h
  · obtain rfl := Option.some.inj h
    have hline : (64 : UInt32) - 6 = 58 := by decide
    have hfile : (1024 * 64 : UInt32) / 64 * 64 = 65536 := by decide
    have hbuf : ((64 : UInt32) - 6 + 6).toNat = 64 := by decide
    exact ⟨⟨hline, hfile, hbuf⟩, rfl, rfl, rfl⟩
  · cases h

/-- A log that `start_log` has just opened. -/
theorem startLog_started {path : List UInt8} {fopen malloc : Bool} {l : Log}
    (h : startLog path fopen malloc = some l) :
    Started l ∧ l.stream = ⟨[], 0⟩ ∧ l.counter = 0 := by
  have hstarted : ∀ notFile, openStream 64 (1024 * 64) path notFile malloc = some l →
      Started l ∧ l.stream = ⟨[], 0⟩ ∧ l.counter = 0 := fun _ hopen =>
    ⟨(openStream_started hopen).1, (openStream_started hopen).2.1, (openStream_started hopen).2.2.1⟩
  unfold startLog openLog at h
  split at h
  · exact hstarted true h
  · split at h
    · exact hstarted true h
    · split at h
      · exact hstarted false h
      · cases h

theorem pushString_started {l : Log} (h : Started l) (level : Int32) (s : List UInt8) :
    Started (pushString l level s) := ⟨h.lineSize, h.fileSize, h.bufSize⟩

end Android2Mouse.Source.Logging
