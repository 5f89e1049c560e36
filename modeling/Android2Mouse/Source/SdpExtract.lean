import Android2Mouse.Library.Attempt
import Android2Mouse.Source.SdpRecord

/-!
# Reading records back (`sdp.c`)

`sdp_extract_pdu` and what it calls, over the bytes that are left of the buffer, so that
`bufsize` is their number. What is attempted are the allocations: memory for the record, for
each element, for each string and for the node of each attribute in the list. A sequence
whose header is cut off has length 0, and the loop over the elements of the sequence around
it then does not advance; the first argument bounds the calls, and `none` is for a run that
it does not suffice for. `some none` is the null pointer.

The search pattern, with its allocations, `svclass` and the handle of the record are left out:
nothing that is modelled reads them.
-/
namespace Android2Mouse.Source.Sdp
open Library

/-- What memory is asked for. -/
inductive Alloc where
  | record
  | data
  | str (size : ℕ)
  | node
  deriving DecidableEq, Repr

/-- All descriptors. -/
inductive Dtd where
  | num (dtd : NumDtd)
  | str (dtd : StrDtd)
  | seq (dtd : SeqDtd)
  deriving DecidableEq, Repr

namespace Dtd

def code : Dtd → UInt8
  | num dtd => dtd.code
  | str dtd => dtd.code
  | seq dtd => dtd.code

def all : List Dtd :=
  [num .dataNil, num .uint8, num .uint16, num .uint32, num .uint64, num .uint128,
    num .int8, num .int16, num .int32, num .int64, num .int128,
    num .uuid16, num .uuid32, num .uuid128, num .bool,
    str .textStr8, str .textStr16, str .textStr32, str .urlStr8, str .urlStr16, str .urlStr32,
    seq .seq8, seq .seq16, seq .seq32, seq .alt8, seq .alt16, seq .alt32]

/-- The `switch` on the descriptor. -/
def ofCode (b : UInt8) : Option Dtd := all.find? (·.code = b)

end Dtd

/-- A 32 bit number as `int` -/
def toInt (n : ℕ) : ℤ := if n < 2 ^ 31 then n else (n : ℤ) - 2 ^ 32

/-- `extract_int`, `extract_uuid` behind the descriptor -/
def extractNum (dtd : NumDtd) (rest : List UInt8) : Attempt Alloc (Option (SdpData × ℕ)) := do
  let d ← Attempt.attempt .data
  if d = false ∨ rest.length < dtd.size then return none
  else return some (.num dtd (BitVec.ofNat _ (ofBigEndian (rest.take dtd.size))) .null, 1 + dtd.size)

/-- `extract_str` behind the descriptor; the longest strings are refused. -/
def extractStr (dtd : StrDtd) (rest : List UInt8) : Attempt Alloc (Option (SdpData × ℕ)) := do
  let d ← Attempt.attempt .data
  if d = false ∨ dtd = .textStr32 ∨ dtd = .urlStr32 ∨ rest.length < dtd.width then return none
  else
    let n := ofBigEndian (rest.take dtd.width)
    if (rest.drop dtd.width).length < n then return none
    else
      let s ← Attempt.attempt (.str (n + 1))
      if s = false then return none
      else return some (.str dtd ((rest.drop dtd.width).take n) .null, dtd.typeSize + n)

mutual

/-- `sdp_extract_attr`, with the size of the element. -/
def sdpExtractAttr : ℕ → List UInt8 → Attempt Alloc (Option (Option (SdpData × ℕ)))
  | _, [] => return some none
  | 0, _ :: _ => return none
  | calls + 1, b :: rest =>
    match Dtd.ofCode b with
    | none => return some none
    | some (.num dtd) => do return some (← extractNum dtd rest)
    | some (.str dtd) => do return some (← extractStr dtd rest)
    | some (.seq dtd) => do
      -- `extract_seq`
      let d ← Attempt.attempt .data
      if d = false then return some none
      else if rest.length < dtd.width then return some (some (.seq dtd .null .null, 0))
      else
        let seqlen := toInt (ofBigEndian (rest.take dtd.width))
        let r ← extractElements calls (rest.drop dtd.width) seqlen 0
        return r.map fun r => some (.seq dtd r.1 .null, dtd.typeSize + r.2)

/-- The loop of `extract_seq`, up to `seqlen` bytes or to an element that is not there. -/
def extractElements : ℕ → List UInt8 → ℤ → ℕ → Attempt Alloc (Option (SdpData × ℕ))
  | 0, _, seqlen, n => if (n : ℤ) < seqlen then return none else return some (.null, n)
  | calls + 1, p, seqlen, n => do
    if (n : ℤ) < seqlen then
      let r ← sdpExtractAttr calls p
      match r with
      | none => return none
      | some none => return some (.null, n)
      | some (some (curr, attrlen)) =>
        let r ← extractElements calls (p.drop attrlen) seqlen (n + attrlen)
        return r.map fun r => (curr.setNext r.1, r.2)
    else return some (.null, n)

end

/-- `sdp_extract_seqtype`: the size of the sequence and of its header. -/
def sdpExtractSeqtype (buf : List UInt8) : Option (ℤ × ℕ) :=
  match buf with
  | [] => none
  | b :: rest =>
    match Dtd.ofCode b with
    | some (.seq dtd) =>
      if rest.length < dtd.width then none
      else some (toInt (ofBigEndian (rest.take dtd.width)), dtd.typeSize)
    | _ => none

/-- The loop of `sdp_extract_pdu`. The descriptor of an attribute identifier is not looked at. -/
def extractAttrs : ℕ → List UInt8 → ℤ → ℕ → List Attr →
    Attempt Alloc (Except Fault (Option (List Attr)))
  | 0, p, seqlen, extracted, attrlist =>
    if (extracted : ℤ) < seqlen ∧ p ≠ [] then return .ok none else return .ok (some attrlist)
  | calls + 1, p, seqlen, extracted, attrlist => do
    if (extracted : ℤ) < seqlen ∧ p ≠ [] then
      if p.length < 1 + 2 then return .ok (some attrlist)
      else
        let attr := UInt16.ofNat (ofBigEndian ((p.drop 1).take 2))
        let r ← sdpExtractAttr calls (p.drop 3)
        match r with
        | none => return .ok none
        | some none => return .ok (some attrlist)
        | some (some (data, attrlen)) =>
          let node ← Attempt.attempt .node
          match sdpAttrReplace attrlist node attr data with
          | .error e => return .error e
          | .ok attrlist =>
            extractAttrs calls (p.drop (3 + attrlen)) seqlen (extracted + (3 + attrlen)) attrlist
    else return .ok (some attrlist)

/-- `sdp_extract_pdu`, with `*scanned`. The record is written to without a look at what
`sdp_record_alloc` returned. -/
def sdpExtractPdu (calls : ℕ) (buf : List UInt8) :
    Attempt Alloc (Except Fault (Option (List Attr × ℤ))) := do
  let rec' ← Attempt.attempt .record
  if rec' = false then return .error .null
  else
    match sdpExtractSeqtype buf with
    | none => return .ok (some ([], 0))
    | some (seqlen, scanned) =>
      let attrs ← extractAttrs calls (buf.drop scanned) seqlen 0 []
      return attrs.map fun attrs => attrs.map fun attrlist => (attrlist, scanned + seqlen)

end Android2Mouse.Source.Sdp
