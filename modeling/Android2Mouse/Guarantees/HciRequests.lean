import Android2Mouse.Source.Hci
import Mathlib.Data.Nat.Bitwise

/-!
# Requests to the adapter

Of the events that arrive after a command, the first of ten that is meant for the request
decides what `hci_send_req` returns, whatever the buffer held before and however often the
calls are interrupted (`request_decided`).
-/
namespace Android2Mouse.Guarantees.HciRequests
open Library Source.ComboConn Source.Hci

/-! ## Events -/

/-- An event, with what the standard puts into it. -/
inductive HciEvent where
  | cmdStatus (status ncmd : UInt8) (opcode : UInt16)
  | cmdComplete (ncmd : UInt8) (opcode : UInt16) (params : List UInt8)
  | remoteName (status : UInt8) (bdaddr : Vector UInt8 6) (name : List UInt8)
  | leMeta (subevent : UInt8) (data : List UInt8)
  | other (evt : UInt8) (params : List UInt8)
      (listed : evt ∉ [evtCmdStatus, evtCmdComplete, evtRemoteNameReqComplete, evtLeMetaEvent])

namespace HciEvent

def code : HciEvent → UInt8
  | .cmdStatus _ _ _ => evtCmdStatus
  | .cmdComplete _ _ _ => evtCmdComplete
  | .remoteName _ _ _ => evtRemoteNameReqComplete
  | .leMeta _ _ => evtLeMetaEvent
  | .other evt _ _ => evt

def params : HciEvent → List UInt8
  | .cmdStatus status ncmd opcode => [status, ncmd] ++ le16Bytes opcode
  | .cmdComplete ncmd opcode params => [ncmd] ++ le16Bytes opcode ++ params
  | .remoteName status bdaddr name => [status] ++ bdaddr.toList ++ name
  | .leMeta subevent data => [subevent] ++ data
  | .other _ params _ => params

/-- The packet that is read. -/
def bytes (e : HciEvent) : List UInt8 :=
  [hciEventPkt, e.code, UInt8.ofNat e.params.length] ++ e.params

/-- The response or the failure that an event is for a request, if it is meant for it. -/
def answer (r : HciRequest) : HciEvent → Option (Except Errno (List UInt8))
  | .cmdStatus status ncmd opcode =>
    if opcode ≠ r.opcode then none
    else if r.event = evtCmdStatus then some (.ok ([status, ncmd] ++ le16Bytes opcode))
    else if status = 0 then none
    else some (.error .eio)
  | .cmdComplete _ opcode params => if opcode = r.opcode then some (.ok params) else none
  | .remoteName status bdaddr name =>
    if r.event = evtRemoteNameReqComplete ∧ bdaddr.toList = r.cparam.take 6 then
      some (.ok ([status] ++ bdaddr.toList ++ name))
    else none
  | .leMeta subevent data => if subevent = r.event then some (.ok data) else none
  | .other evt params _ => if evt = r.event then some (.ok params) else none

end HciEvent

/-- The buffer after an event has been read. -/
def readOver (bytes : List UInt8) (buf : ℕ → UInt8) : ℕ → UInt8 := fun i => bytes.getD i (buf i)

/-- A request for the name of a device has its address in the parameters. -/
def Named (r : HciRequest) : Prop := r.event = evtRemoteNameReqComplete → 6 ≤ r.cparam.length

/-- The request with its response. -/
def responded (r : HciRequest) (response : List UInt8) : HciRequest :=
  { r with
    rparam := splice r.rparam 0 (response.take r.rlen), rlen := min response.length r.rlen }

/-- The response is at an offset of the buffer. -/
theorem respond_over (r : HciRequest) (buf : ℕ → UInt8) (front response : List UInt8) {len : Int}
    (hlen : len = response.length) :
    r.respond (readOver (front ++ response) buf) front.length len = .ok (responded r response) := by
  have hrlen : (if len < r.rlen then len else (r.rlen : Int)) = (min response.length r.rlen : ℕ) := by
    subst hlen
    split <;> omega
  have hbytes : (List.range (min response.length r.rlen)).map
      (fun i => readOver (front ++ response) buf (front.length + i)) = response.take r.rlen := by
    refine List.ext_getElem ?_ fun i hi hi' => ?_
    · rw [List.length_map, List.length_range, List.length_take, Nat.min_comm]
    · rw [List.length_take] at hi'
      have hin : i < response.length := by omega
      rw [List.getElem_map, List.getElem_range, List.getElem_take, readOver,
        List.getD_append_right _ _ _ _ (by omega), Nat.add_sub_cancel_left]
      exact List.getD_eq_getElem _ _ hin
  rw [HciRequest.respond]
  simp only [hrlen]
  rw [if_neg (by omega)]
  simp only [Int.toNat_natCast, hbytes]
  rfl

/-- What the loop does after a read, with `rest` for the next tries. -/
def afterRead (r : HciRequest) (buf : ℕ → UInt8) (size : ℕ)
    (rest : Except Fault (Option (Except Errno HciRequest))) :
    Except Fault (Option (Except Errno HciRequest)) :=
  match r.verdict buf size with
  | .next => rest
  | .failed => .ok (some (.error .eio))
  | .outside => .error .range
  | .done offset len => do
    let r ← r.respond buf offset len
    return some (.ok r)

theorem afterRead_next {r : HciRequest} {buf : ℕ → UInt8} {size : ℕ}
    {rest : Except Fault (Option (Except Errno HciRequest))} (h : r.verdict buf size = .next) :
    afterRead r buf size rest = rest := by rw [afterRead, h]

theorem afterRead_failed {r : HciRequest} {buf : ℕ → UInt8} {size : ℕ}
    {rest : Except Fault (Option (Except Errno HciRequest))} (h : r.verdict buf size = .failed) :
    afterRead r buf size rest = .ok (some (.error .eio)) := by rw [afterRead, h]

theorem afterRead_done {r : HciRequest} {buf : ℕ → UInt8} {front response : List UInt8} {len : Int}
    {rest : Except Fault (Option (Except Errno HciRequest))} (hlen : len = response.length)
    (h : r.verdict (readOver (front ++ response) buf) (front ++ response).length =
      .done front.length len) :
    afterRead r (readOver (front ++ response) buf) (front ++ response).length rest =
      .ok (some (.ok (responded r response))) := by
  rw [afterRead, h]
  simp only [respond_over r buf front response hlen]
  rfl

/-- What a request makes of an event, `rest` if it goes on waiting. -/
def decide1 (r : HciRequest) (e : HciEvent) (rest : Except Fault (Option (Except Errno HciRequest))) :
    Except Fault (Option (Except Errno HciRequest)) :=
  match e.answer r with
  | none => rest
  | some a => .ok (some (a.map (responded r)))

theorem afterRead_cmdStatus (r : HciRequest) (status ncmd : UInt8) (opcode : UInt16)
    (buf : ℕ → UInt8) (rest : Except Fault (Option (Except Errno HciRequest))) :
    afterRead r (readOver (HciEvent.cmdStatus status ncmd opcode).bytes buf) 7 rest =
      decide1 r (.cmdStatus status ncmd opcode) rest := by
  have hverdict : r.verdict (readOver (HciEvent.cmdStatus status ncmd opcode).bytes buf) 7 =
      if opcode ≠ r.opcode then .next
      else if r.event ≠ evtCmdStatus then if status ≠ 0 then .failed else .next
      else .done 3 4 := by
    change (if le16 opcode.toUInt8 (opcode >>> 8).toUInt8 ≠ r.opcode then _ else _) = _
    rw [le16_bytes]
    rfl
  rw [decide1, HciEvent.answer]
  by_cases hop : opcode ≠ r.opcode
  · rw [if_pos hop] at hverdict
    rw [afterRead_next hverdict, if_pos hop]
  · rw [if_neg hop] at hverdict
    rw [if_neg hop]
    by_cases hevent : r.event = evtCmdStatus
    · rw [if_neg (not_not.mpr hevent)] at hverdict
      rw [if_pos hevent]
      exact @afterRead_done r buf [hciEventPkt, evtCmdStatus, 4] ([status, ncmd] ++ le16Bytes opcode)
        4 rest rfl hverdict
    · rw [if_pos hevent] at hverdict
      rw [if_neg hevent]
      by_cases hstatus : status = 0
      · rw [if_neg (not_not.mpr hstatus)] at hverdict
        rw [afterRead_next hverdict, if_pos hstatus]
      · rw [if_pos hstatus] at hverdict
        rw [afterRead_failed hverdict, if_neg hstatus]
        rfl

theorem afterRead_cmdComplete (r : HciRequest) (ncmd : UInt8) (opcode : UInt16)
    (params : List UInt8) (buf : ℕ → UInt8)
    (rest : Except Fault (Option (Except Errno HciRequest))) :
    let e : HciEvent := .cmdComplete ncmd opcode params
    afterRead r (readOver e.bytes buf) e.bytes.length rest = decide1 r e rest := by
  intro e
  let front := [hciEventPkt, evtCmdComplete, UInt8.ofNat e.params.length, ncmd] ++ le16Bytes opcode
  have hbytes : e.bytes = front ++ params := rfl
  have hlen : (front ++ params).length = params.length + 6 := rfl
  have hverdict : r.verdict (readOver (front ++ params) buf) (front ++ params).length =
      if opcode ≠ r.opcode then .next else .done 6 (params.length : Int) := by
    change (if le16 opcode.toUInt8 (opcode >>> 8).toUInt8 ≠ r.opcode then _ else _) = _
    have hsize : ((params.length + 6 : ℕ) : Int) - 3 - 3 = params.length := by omega
    rw [le16_bytes, hlen, hsize]
  rw [hbytes, decide1, HciEvent.answer]
  by_cases hop : opcode = r.opcode
  · rw [if_neg (not_not.mpr hop)] at hverdict
    rw [if_pos hop]
    exact afterRead_done rfl hverdict
  · rw [if_pos hop] at hverdict
    rw [afterRead_next hverdict, if_neg hop]

theorem afterRead_remoteName {r : HciRequest} (hnamed : Named r) (status : UInt8)
    (bdaddr : Vector UInt8 6) (name : List UInt8) (buf : ℕ → UInt8)
    (rest : Except Fault (Option (Except Errno HciRequest))) :
    let e : HciEvent := .remoteName status bdaddr name
    afterRead r (readOver e.bytes buf) e.bytes.length rest = decide1 r e rest := by
  intro e
  let front := [hciEventPkt, evtRemoteNameReqComplete, UInt8.ofNat e.params.length]
  let response := [status] ++ bdaddr.toList ++ name
  have hbytes : e.bytes = front ++ response := rfl
  have haddr : (List.range 6).map (fun i => readOver (front ++ response) buf (3 + 1 + i)) =
      bdaddr.toList := by
    refine List.ext_getElem (by rw [List.length_map, List.length_range, Vector.length_toList])
      fun i hi hi' => ?_
    rw [List.getElem_map, List.getElem_range]
    have hfront : front ++ response = (front ++ [status]) ++ (bdaddr.toList ++ name) := rfl
    have hoffset : 3 + 1 + i = (front ++ [status]).length + i := rfl
    rw [readOver, hfront, hoffset, List.getD_append_right _ _ _ _ (by omega), Nat.add_sub_cancel_left,
      List.getD_append _ _ _ _ hi']
    exact List.getD_eq_getElem _ _ hi'
  have hverdict : r.verdict (readOver (front ++ response) buf) (front ++ response).length =
      if evtRemoteNameReqComplete ≠ r.event then .next
      else if r.cparam.length < 6 then .outside
      else if bdaddr.toList ≠ r.cparam.take 6 then .next
      else .done 3 (response.length : Int) := by
    have hsize : ((front ++ response).length : Int) - 3 = response.length := by
      rw [List.length_append]
      have hfront : front.length = 3 := rfl
      omega
    rw [HciRequest.verdict]
    simp only [haddr, hsize]
    rfl
  rw [hbytes, decide1, HciEvent.answer]
  by_cases hevent : r.event = evtRemoteNameReqComplete
  · rw [if_neg (not_not.mpr hevent.symm), if_neg (Nat.not_lt.mpr (hnamed hevent))] at hverdict
    by_cases hmatch : bdaddr.toList = r.cparam.take 6
    · rw [if_neg (not_not.mpr hmatch)] at hverdict
      rw [if_pos ⟨hevent, hmatch⟩]
      exact afterRead_done rfl hverdict
    · rw [if_pos hmatch] at hverdict
      rw [afterRead_next hverdict, if_neg fun h => hmatch h.2]
  · rw [if_pos (Ne.symm hevent)] at hverdict
    rw [afterRead_next hverdict, if_neg fun h => hevent h.1]

theorem afterRead_leMeta (r : HciRequest) (subevent : UInt8) (data : List UInt8) (buf : ℕ → UInt8)
    (rest : Except Fault (Option (Except Errno HciRequest))) :
    let e : HciEvent := .leMeta subevent data
    afterRead r (readOver e.bytes buf) e.bytes.length rest = decide1 r e rest := by
  intro e
  let front := [hciEventPkt, evtLeMetaEvent, UInt8.ofNat e.params.length, subevent]
  have hbytes : e.bytes = front ++ data := rfl
  have hlen : (front ++ data).length = data.length + 4 := rfl
  have hverdict : r.verdict (readOver (front ++ data) buf) (front ++ data).length =
      if subevent ≠ r.event then .next else .done 4 (data.length : Int) := by
    change (if subevent ≠ r.event then _ else _) = _
    have hsize : ((data.length + 4 : ℕ) : Int) - 3 - 1 = data.length := by omega
    rw [hlen, hsize]
  rw [hbytes, decide1, HciEvent.answer]
  by_cases hevent : subevent = r.event
  · rw [if_neg (not_not.mpr hevent)] at hverdict
    rw [if_pos hevent]
    exact afterRead_done rfl hverdict
  · rw [if_pos hevent] at hverdict
    rw [afterRead_next hverdict, if_neg hevent]

theorem afterRead_other (r : HciRequest) (evt : UInt8) (params : List UInt8)
    (listed : evt ∉ [evtCmdStatus, evtCmdComplete, evtRemoteNameReqComplete, evtLeMetaEvent])
    (buf : ℕ → UInt8) (rest : Except Fault (Option (Except Errno HciRequest))) :
    let e : HciEvent := .other evt params listed
    afterRead r (readOver e.bytes buf) e.bytes.length rest = decide1 r e rest := by
  intro e
  let front := [hciEventPkt, evt, UInt8.ofNat e.params.length]
  have hbytes : e.bytes = front ++ params := rfl
  have hcode : readOver (front ++ params) buf 1 = evt := rfl
  simp only [List.mem_cons, List.not_mem_nil, or_false, not_or] at listed
  have hverdict : r.verdict (readOver (front ++ params) buf) (front ++ params).length =
      if evt ≠ r.event then .next else .done 3 (params.length : Int) := by
    have hsize : ((front ++ params).length : Int) - 3 = params.length := by
      rw [List.length_append]
      have hfront : front.length = 3 := rfl
      omega
    rw [HciRequest.verdict]
    simp only [hcode, hsize]
    rw [if_neg listed.1, if_neg listed.2.1, if_neg listed.2.2.1, if_neg listed.2.2.2]
  rw [hbytes, decide1, HciEvent.answer]
  by_cases hevent : evt = r.event
  · rw [if_neg (not_not.mpr hevent)] at hverdict
    rw [if_pos hevent]
    exact afterRead_done rfl hverdict
  · rw [if_pos hevent] at hverdict
    rw [afterRead_next hverdict, if_neg hevent]

/-- Whatever the buffer held before, an event is taken for what it is. -/
theorem afterRead_event {r : HciRequest} (hnamed : Named r) (e : HciEvent) (buf : ℕ → UInt8)
    (rest : Except Fault (Option (Except Errno HciRequest))) :
    afterRead r (readOver e.bytes buf) e.bytes.length rest = decide1 r e rest := by
  cases e with
  | cmdStatus status ncmd opcode => exact afterRead_cmdStatus r status ncmd opcode buf rest
  | cmdComplete ncmd opcode params => exact afterRead_cmdComplete r ncmd opcode params buf rest
  | remoteName status bdaddr name => exact afterRead_remoteName hnamed status bdaddr name buf rest
  | leMeta subevent data => exact afterRead_leMeta r subevent data buf rest
  | other evt params listed => exact afterRead_other r evt params listed buf rest

/-! ## Waiting -/

/-- An event that arrives, and how often the calls are interrupted before it has been read. -/
structure Turn where
  polls : ℕ
  reads : ℕ
  event : HciEvent

def Turn.pollAnswers (t : Turn) : List (Answer Bool) := List.replicate t.polls .again ++ [.ok true]

def Turn.readAnswers (t : Turn) : List (Answer (List UInt8)) :=
  List.replicate t.reads .again ++ [.ok t.event.bytes]

/-- One try. -/
theorem waitEvent_turn {r : HciRequest} (hnamed : Named r) (t : Turn) (n : ℕ) {to' : Int}
    (hto : to' ≠ 0) (polls : List (Answer Bool)) (reads : List (Answer (List UInt8))) (buf : ℕ → UInt8) :
    waitEvent r (n + 1) to' (t.pollAnswers ++ polls) (t.readAnswers ++ reads) buf =
      decide1 r t.event
        (waitEvent r n (lessTime to') polls reads (readOver t.event.bytes buf)) := by
  have hpoll : pollFor to' (t.pollAnswers ++ polls) = some (.ok (), polls) := by
    rw [pollFor, if_neg hto, Turn.pollAnswers, List.append_assoc, List.singleton_append, retry_ok]
    rfl
  have hread : retry (t.readAnswers ++ reads) = some (some t.event.bytes, reads) := by
    rw [Turn.readAnswers, List.append_assoc, List.singleton_append, retry_ok]
  rw [waitEvent, hpoll]
  simp only [hread]
  exact afterRead_event hnamed t.event buf _

/-- The first event that is meant for the request decides; without one it times out. -/
def decided (r : HciRequest) (events : List HciEvent) : Except Errno HciRequest :=
  match events.findSome? (HciEvent.answer r) with
  | none => .error .etimedout
  | some a => a.map (responded r)

theorem decide1_ok (r : HciRequest) (e : HciEvent) (events : List HciEvent) :
    decide1 r e (.ok (some (decided r events))) = .ok (some (decided r (e :: events))) := by
  rw [decide1, decided, decided, List.findSome?_cons]
  cases e.answer r with
  | none => rfl
  | some a => rfl

/-- Over any events, when nothing comes after them. -/
theorem waitEvent_turns {r : HciRequest} (hnamed : Named r) (turns : List Turn) (n : ℕ) {to' : Int}
    (hto : 10 * n ≤ to') (buf : ℕ → UInt8) :
    waitEvent r n to' (turns.flatMap Turn.pollAnswers ++ [.ok false])
      (turns.flatMap Turn.readAnswers) buf =
        .ok (some (decided r ((turns.map Turn.event).take n))) := by
  induction n generalizing turns to' buf with
  | zero => rfl
  | succ n ih =>
    have hto' : to' ≠ 0 := by omega
    cases turns with
    | nil =>
      have hpoll : pollFor to' [.ok false] = some (.error .etimedout, []) := by
        rw [pollFor, if_neg hto']
        rfl
      rw [List.flatMap_nil, List.nil_append, waitEvent, hpoll]
      rfl
    | cons t turns =>
      have hless : 10 * (n : Int) ≤ lessTime to' := by
        rw [lessTime, if_neg hto']
        split <;> omega
      rw [List.flatMap_cons, List.flatMap_cons, List.append_assoc, waitEvent_turn hnamed t n hto',
        ih turns hless, List.map_cons, List.take_succ_cons, decide1_ok]

/-! ## Requests -/

/-- What a request leaves the filter of the socket as. -/
def leftFilter (dev : Device) (of : HciFilter) (r : HciRequest) : HciFilter :=
  if dev.getsockopt && dev.setsockopt && !dev.restore then r.filter else of

/-- However a request ends, the filter is as it was, unless it cannot be restored; and if the
request succeeds its command has been written. -/
theorem hciSendReq_leaves {dev : Device} {of : HciFilter} {buf : ℕ → UInt8} {r : HciRequest}
    {to' : Int} {out : Outcome} (h : hciSendReq dev of buf r to' = .ok (some out)) :
    out.filter = leftFilter dev of r ∧
      (out.sent = r.command ∨ out.sent = [] ∧ out.result = .error .os) := by
  rw [hciSendReq] at h
  rw [leftFilter]
  cases hget : dev.getsockopt with
  | false =>
    rw [hget] at h
    cases h
    exact ⟨rfl, .inr ⟨rfl, rfl⟩⟩
  | true =>
    cases hset : dev.setsockopt with
    | false =>
      rw [hget, hset] at h
      cases h
      exact ⟨rfl, .inr ⟨rfl, rfl⟩⟩
    | true =>
      have hleft : (if dev.restore = true then of else r.filter) =
          if (true && true && !dev.restore) = true then r.filter else of := by
        cases dev.restore <;> rfl
      simp only [hget, hset, Bool.not_true, Bool.false_eq_true, if_false, hleft] at h
      cases hwrite : retry dev.writes with
      | none =>
        rw [hwrite] at h
        cases h
      | some written =>
        obtain ⟨value, answers⟩ := written
        rw [hwrite] at h
        cases value with
        | none =>
          cases h
          exact ⟨rfl, .inr ⟨rfl, rfl⟩⟩
        | some value =>
          dsimp only at h
          cases hwait : waitEvent r 10 to' dev.polls dev.reads buf with
          | error e =>
            rw [hwait] at h
            cases h
          | ok waited =>
            rw [hwait] at h
            cases waited with
            | none => cases h
            | some result =>
              cases h
              exact ⟨rfl, .inl rfl⟩

/-- The answers of an adapter that takes the command and sends events. -/
def serving (interrupted : ℕ) (turns : List Turn) : Device where
  getsockopt := true
  setsockopt := true
  writes := List.replicate interrupted .again ++ [.ok ()]
  polls := turns.flatMap Turn.pollAnswers ++ [.ok false]
  reads := turns.flatMap Turn.readAnswers
  restore := true

/-- The loop as a whole, between the two changes of the filter. -/
theorem hciSendReq_serving {r : HciRequest} (hnamed : Named r) {to' : Int} (hto : 100 ≤ to')
    (interrupted : ℕ) (turns : List Turn) (of : HciFilter) (buf : ℕ → UInt8) :
    hciSendReq (serving interrupted turns) of buf r to' =
      .ok (some ⟨of, r.command, decided r ((turns.map Turn.event).take 10)⟩) := by
  have hwrite : retry (serving interrupted turns).writes = some (some (), []) :=
    retry_ok interrupted () []
  have hwait := waitEvent_turns hnamed turns 10 hto buf
  rw [hciSendReq, hwrite]
  change ((waitEvent r 10 to' (turns.flatMap Turn.pollAnswers ++ [.ok false])
    (turns.flatMap Turn.readAnswers) buf) >>= _) = _
  rw [hwait]
  rfl

/-! ## The filter -/

/-- The number of a bit within its word. -/
theorem bit_toNat (nr : UInt32) : (nr &&& 31).toNat = nr.toNat % 32 := by
  have hmask : (31 : UInt32).toNat = 2 ^ 5 - 1 := by decide
  rw [UInt32.toNat_and, hmask, Nat.and_two_pow_sub_one_eq_mod]

theorem shifted_toNat (nr : UInt32) : ((1 : UInt32) <<< (nr &&& 31)).toNat = 2 ^ (nr.toNat % 32) := by
  have hlt : nr.toNat % 32 < 32 := Nat.mod_lt _ (by decide)
  have hpow : 2 ^ (nr.toNat % 32) < 2 ^ 32 := Nat.pow_lt_pow_right (by decide) hlt
  have hone : (1 : UInt32).toNat = 1 := rfl
  rw [UInt32.toNat_shiftLeft, bit_toNat, Nat.mod_eq_of_lt hlt, hone, Nat.one_shiftLeft,
    Nat.mod_eq_of_lt hpow]

theorem testBit_eq (nr word : UInt32) : testBit nr word = word.toNat.testBit (nr.toNat % 32) := by
  have hand : (word &&& (1 <<< (nr &&& 31))).toNat =
      (word.toNat.testBit (nr.toNat % 32)).toNat * 2 ^ (nr.toNat % 32) := by
    rw [UInt32.toNat_and, shifted_toNat, Nat.and_two_pow]
  rw [testBit]
  cases htest : word.toNat.testBit (nr.toNat % 32) with
  | false =>
    rw [htest, Bool.toNat_false, Nat.zero_mul] at hand
    exact decide_eq_false (not_not.mpr (UInt32.toNat_inj.mp hand))
  | true =>
    rw [htest, Bool.toNat_true, Nat.one_mul] at hand
    refine decide_eq_true fun hzero => ?_
    rw [hzero] at hand
    exact absurd hand.symm (Nat.two_pow_pos _).ne'

theorem testBit_setBit (nr nr' word : UInt32) :
    testBit nr (setBit nr' word) =
      (decide (nr.toNat % 32 = nr'.toNat % 32) || testBit nr word) := by
  rw [testBit_eq, setBit, UInt32.toNat_or, shifted_toNat, Nat.testBit_or, Nat.testBit_two_pow,
    testBit_eq, Bool.or_comm]
  congr 1
  exact decide_eq_decide.mpr eq_comm

/-- The number of an event within the mask. -/
theorem event_toNat (e : UInt8) : (e.toUInt32 &&& 63).toNat = e.toNat % 64 := by
  have hmask : (63 : UInt32).toNat = 2 ^ 6 - 1 := by decide
  rw [UInt32.toNat_and, hmask, Nat.and_two_pow_sub_one_eq_mod]
  rfl

theorem firstWord_iff (e : UInt8) : (e.toUInt32 &&& 63) >>> 5 = 0 ↔ e.toNat % 64 < 32 := by
  have hshift : ((e.toUInt32 &&& 63) >>> 5).toNat = e.toNat % 64 / 32 := by
    rw [UInt32.toNat_shiftRight, event_toNat, Nat.shiftRight_eq_div_pow]
    rfl
  have hzero : (0 : UInt32).toNat = 0 := rfl
  rw [← UInt32.toNat_inj, hshift, hzero]
  omega

/-- Setting the bit of an event lets that event pass, and what has passed before. -/
theorem testEvent_setEvent (e e' : UInt8) (f : HciFilter) :
    hciFilterTestEvent e (hciFilterSetEvent e' f) =
      (decide (e.toNat % 64 = e'.toNat % 64) || hciFilterTestEvent e f) := by
  rw [hciFilterTestEvent, hciFilterSetEvent, hciFilterTestEvent]
  simp only [firstWord_iff]
  have hsame (h : e.toNat % 64 < 32 ↔ e'.toNat % 64 < 32) :
      decide (e.toNat % 64 % 32 = e'.toNat % 64 % 32) =
        decide (e.toNat % 64 = e'.toNat % 64) := by
    refine decide_eq_decide.mpr ?_
    omega
  by_cases he : e.toNat % 64 < 32
  · by_cases he' : e'.toNat % 64 < 32
    · rw [if_pos he, if_pos he, if_pos he', testBit_setBit, event_toNat, event_toNat,
        hsame (iff_of_true he he')]
    · have hne : e.toNat % 64 ≠ e'.toNat % 64 := by omega
      rw [if_pos he, if_pos he, if_neg he', decide_eq_false hne, Bool.false_or]
  · by_cases he' : e'.toNat % 64 < 32
    · have hne : e.toNat % 64 ≠ e'.toNat % 64 := by omega
      rw [if_neg he, if_neg he, if_pos he', decide_eq_false hne, Bool.false_or]
    · rw [if_neg he, if_neg he, if_neg he', testBit_setBit, event_toNat, event_toNat,
        hsame (iff_of_false he he')]

theorem testEvent_clear (e : UInt8) : hciFilterTestEvent e hciFilterClear = false := by
  have hzero (nr : UInt32) : testBit nr 0 = false := by
    have htoNat : (0 : UInt32).toNat = 0 := rfl
    rw [testBit_eq, htoNat, Nat.zero_testBit]
  rw [hciFilterTestEvent, hciFilterClear]
  simp only [hzero, ite_self]

/-- While a request waits, its socket is sent the answers to commands, LE events and the
event it asks for, and those whose code is the same in the lower six bits. -/
theorem filter_passes_iff (r : HciRequest) (e : UInt8) :
    hciFilterTestEvent e r.filter = true ↔
      e.toNat % 64 = r.event.toNat % 64 ∨
        e.toNat % 64 ∈ [evtLeMetaEvent, evtCmdComplete, evtCmdStatus].map UInt8.toNat := by
  have hopcode (f : HciFilter) :
      hciFilterTestEvent e (hciFilterSetOpcode r.opcode f) = hciFilterTestEvent e f := rfl
  have hptype : hciFilterTestEvent e (hciFilterSetPtype hciEventPkt hciFilterClear) =
      hciFilterTestEvent e hciFilterClear := rfl
  rw [HciRequest.filter]
  simp only [hopcode, testEvent_setEvent, hptype, testEvent_clear, Bool.or_false, Bool.or_eq_true,
    decide_eq_true_iff, List.map_cons, List.map_nil, List.mem_cons, List.not_mem_nil, or_false]
  rfl

/-- Whatever events an adapter sends, however often the calls are interrupted and whatever the
buffer held, a request with 100 ms or more is over: it has written the command and has the
outcome that the first event for it has among the first ten, or has timed out. The events that
its socket is sent meanwhile have the lower six bits of the answers to commands, of LE events or
of the event it asks for. And over whatever answers of the calls, the filter is in the end what
it was before, unless it cannot be restored. -/
theorem request_decided {r : HciRequest} (hnamed : Named r) {to' : Int} (hto : 100 ≤ to')
    (of : HciFilter) (buf : ℕ → UInt8) :
    (∀ (interrupted : ℕ) (turns : List Turn),
      hciSendReq (serving interrupted turns) of buf r to' =
        .ok (some ⟨of, r.command, decided r ((turns.map Turn.event).take 10)⟩)) ∧
    (∀ e : UInt8, hciFilterTestEvent e r.filter = true ↔
      e.toNat % 64 = r.event.toNat % 64 ∨
        e.toNat % 64 ∈ [evtLeMetaEvent, evtCmdComplete, evtCmdStatus].map UInt8.toNat) ∧
    ∀ (dev : Device) (out : Outcome), hciSendReq dev of buf r to' = .ok (some out) →
      out.filter = leftFilter dev of r ∧
        (out.sent = r.command ∨ out.sent = [] ∧ out.result = .error .os) :=
  ⟨fun interrupted turns => hciSendReq_serving hnamed hto interrupted turns of buf,
    filter_passes_iff r, fun _ _ => hciSendReq_leaves⟩

/-- The name of a device is asked for. -/
theorem request_decided_name :
    let r : HciRequest := ⟨0x01, 0x0019, evtRemoteNameReqComplete, [1, 2, 3, 4, 5, 6, 2, 0, 0, 0],
      List.replicate 255 0, 255⟩
    (∀ (interrupted : ℕ) (turns : List Turn),
      hciSendReq (serving interrupted turns) hciFilterClear (fun _ => 0) r 1000 =
        .ok (some ⟨hciFilterClear, r.command, decided r ((turns.map Turn.event).take 10)⟩)) ∧
    (∀ e : UInt8, hciFilterTestEvent e r.filter = true ↔
      e.toNat % 64 = r.event.toNat % 64 ∨
        e.toNat % 64 ∈ [evtLeMetaEvent, evtCmdComplete, evtCmdStatus].map UInt8.toNat) ∧
    ∀ (dev : Device) (out : Outcome),
      hciSendReq dev hciFilterClear (fun _ => 0) r 1000 = .ok (some out) →
        out.filter = leftFilter dev hciFilterClear r ∧
          (out.sent = r.command ∨ out.sent = [] ∧ out.result = .error .os) :=
  request_decided (fun _ => by decide) (by decide) hciFilterClear fun _ => 0

end Android2Mouse.Guarantees.HciRequests
