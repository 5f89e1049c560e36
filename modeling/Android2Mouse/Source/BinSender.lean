import Android2Mouse.Library.Strtol
import Android2Mouse.Source.BinPacket

/-!
# The command line sender (`bin_sender.c`)

`bin_sender <name> <flags> ...` builds one packet from its arguments and writes it
to the FIFO. The static packet starts zeroed; `flags2` is not set from anything. The
log calls, the writing itself and what `test` prints are left out. An argument is
the bytes of a C string without its NUL. `long` has the 32 bits of `int` on the
target.
-/
namespace Android2Mouse.Source.BinSender
open Library Library.Strtol ComboConn

def bpktLookup : List (List UInt8) :=
  [literal ['n', 'u', 'l', 'l'], literal ['k', 'b', 'd'], literal ['m', 'o', 'u', 's', 'e'],
    literal ['g', 'p', 'a', 'd'], literal ['s', 'y', 's'], literal ['t', 'e', 's', 't']]

def lookupBpkt (name : List UInt8) : Int32 :=
  match bpktLookup.findIdx? (· = name) with
  | some i => Int32.ofNat i
  | none => -1

/-- `strtol(argv[i], NULL, 0)` of an argument that is there. -/
def number (argv : List (List UInt8)) (i : ℕ) : Int32 :=
  Int32.ofInt (strtol 32 (argv.getD i []))

/-- The loops that store `count` numbers, from `argv[i]` on, in bytes. -/
def numbers (argv : List (List UInt8)) (i count : ℕ) : List UInt8 :=
  (List.range count).map fun k => intToUInt8 (number argv (i + k))

/-- The bytes `snprintf(_, size, "%s", s)` stores. -/
def snprintf (size : ℕ) (s : List UInt8) : List UInt8 := (cstring s).take (size - 1) ++ [0]

/-- Ways to stop before the packet is sent: `goto usage`, or an argument that is not
there, which is then a null pointer. -/
inductive Stopped where
  | usage | nullArgument
  deriving DecidableEq, Repr

/-- The packet when `main` comes to its `switch`. -/
def header (argv : List (List UInt8)) : BinPacket :=
  { BinPacket.zero with
    reportId := intToUInt8 (lookupBpkt (argv.getD 1 [])), flags := intToUInt8 (number argv 2) }

/-- The packet that `main` sends. -/
def main (argv : List (List UInt8)) : Except Stopped BinPacket :=
  let packet := header argv
  if argv.length < 3 then .error .usage
  else if packet.reportId = kbdRepId then
    if packet.flags &&& brptString ≠ 0 then
      if argv.length < 4 then .error .nullArgument
      else .ok (packet.store 0 (snprintf maxString (argv.getD 3 [])))
    else if packet.flags &&& brptChar ≠ 0 then
      if argv.length < 5 then .error .nullArgument
      else .ok (packet |>.store 0 [intToUInt8 (number argv 3)]
        |>.store 4 (le32Bytes (number argv 4)))
    else if argv.length < 10 then .error .usage
    else .ok (packet |>.store 0 [intToUInt8 (number argv 3)] |>.store 1 (numbers argv 4 6))
  else if packet.reportId = gpadRepId then
    if argv.length < 10 then .error .usage
    -- `p` starts at `x`, and the six bytes from there on are the axes
    else .ok (packet |>.store 0 (le16Bytes (intToUInt16 (number argv 3)))
      |>.store 2 (numbers argv 4 6))
  else if packet.reportId = mouseRepId then
    if argv.length < 7 then .error .usage
    -- `p` starts at `buttons`
    else .ok (packet.store 0 (numbers argv 3 4))
  else if packet.reportId = sysRepId then .ok packet
  else if packet.reportId = 5 then
    if argv.length < 4 then .error .nullArgument else .ok packet
  else .ok packet

end Android2Mouse.Source.BinSender
