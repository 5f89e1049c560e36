import Android2Mouse.Library.Scan
import Android2Mouse.Source.HidpClientd

/-!
# The connection type `mouse` (`hidp_clientd.c`)

`process_mouse_nice` reads lines of text from the FIFO through a stream that `fdopen` makes
at its first call. The stream keeps what it has read and not yet handed out, and that it has
been at the end of the file. Whether that lasts is up to the C library: where it does, the
stream reads no more (`lasts`), else the next call of `getline` reads on. A read takes as much
as the buffer of the stream has room for.

As in `HidpClientd` the FIFO is the bytes written and not yet read, and whether it has no
writer; the process waits in `getline` while the FIFO is empty and has a writer, so that one
step of the `while` loop is an `advance`. Log calls are left out.
-/
namespace Android2Mouse.Source.MouseConn
open Library Library.Scan Hidp ComboConn HidpClientd

/-- `send_mouse_rep(b, x, y, w)` -/
def sendMouseRep (b x y w : UInt8) : Attempt Payload Int := sendInputRep [1, b, x, y, w]

/-- What `getline` reads of: `info->data`. -/
structure File where
  buffer : List UInt8
  eof : Bool
  deriving DecidableEq, Repr

/-- `\n` -/
def newline : UInt8 := 10

/-- A line that is in the buffer, with its newline, and what it leaves. -/
def File.line (lasts : Bool) (f : File) : Option (List UInt8 × File) :=
  if newline ∈ f.buffer then
    let line := f.buffer.takeWhile (· ≠ newline) ++ [newline]
    some (line, { f with buffer := f.buffer.drop line.length })
  -- the last line may have no newline
  else if f.eof ∧ f.buffer ≠ [] then some (f.buffer, ⟨[], lasts⟩)
  else none

/-- The numbers of a line, 0 where there is none. -/
def scanned (line : List UInt8) (i : ℕ) : Int32 :=
  Int32.ofInt ((scanInts 32 4 (cstring line)).getD i 0)

/-- The body of the `while` loop, with what it returns if it does. -/
def handleLine (line : List UInt8) : Attempt Payload (Option Method) := do
  let x := scanned line 0
  let y := scanned line 1
  let b := scanned line 2
  let f := scanned line 3
  if f &&& 1 ≠ 0 then return some .shutdown
  if (← sendMouseRep (intToUInt8 b) (intToUInt8 x) (intToUInt8 y) 0) = -1 then return some .error
  return none

inductive Control where
  | polling
  | reading
  | exited
  deriving DecidableEq, Repr

def Control.returned : Method → Control
  | .shutdown => .exited
  | .error => .polling
  | .success => .polling

structure Reader where
  fifo : Fifo
  file : File
  control : Control
  deriving DecidableEq, Repr

/-- One step of `process_mouse_nice`, whose stream reads up to `bufsiz` bytes at once. -/
def advance (lasts : Bool) (bufsiz : ℕ) (m : Reader) : Attempt Payload Reader :=
  match m.file.line lasts with
  | some (line, file) => do
    match ← handleLine line with
    | none => return { m with file }
    | some code => return { m with file, control := .returned code }
  | none =>
    if m.file.eof then .done { m with file.eof := lasts, control := .returned .success }
    else if m.fifo.pending = [] then
      .done (if m.fifo.hungUp then { m with file := { m.file with eof := true } } else m)
    else .done { m with
      fifo := { m.fifo with pending := m.fifo.pending.drop bufsiz }
      file := { m.file with buffer := m.file.buffer ++ m.fifo.pending.take bufsiz } }

end Android2Mouse.Source.MouseConn
