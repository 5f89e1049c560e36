import Android2Mouse.Guarantees.HciRequests
import Android2Mouse.Source.SelfRepr

/-!
# The device class on its way to the adapter

`get_dev_class` and `set_dev_class` do on top of `hci_send_req` what `SelfRepr` says of
them, over any events (`devClass_refines`). What an adapter keeps as its class is handed back
when it is asked again; but a class that it rejects may be reported as set
(`class_handed_back`).
-/
namespace Android2Mouse.Guarantees.DeviceClass
open Library Source Source.ComboConn Source.Hci HciRequests

/-! ## The class as bytes -/

def classBytes (cls : UInt32) : List UInt8 :=
  [cls.toUInt8, (cls >>> 8).toUInt8, (cls >>> 16).toUInt8]

def ofClassBytes (bytes : List UInt8) : UInt32 :=
  ((bytes.getD 2 0).toUInt32 <<< 16) ||| ((bytes.getD 1 0).toUInt32 <<< 8) |||
    (bytes.getD 0 0).toUInt32

theorem or_bytes (a : ℕ) {b c : ℕ} (hb : b < 256) (hc : c < 256) :
    a * 65536 ||| b * 256 ||| c = a * 65536 + b * 256 + c := by
  have hhigh : a * 65536 ||| b * 256 = (a * 256 + b) * 256 := by
    have hor := Nat.two_pow_add_eq_or_of_lt (show b * 256 < 2 ^ 16 by omega) a
    rw [Nat.mul_comm a, ← hor]
    omega
  have hor := Nat.two_pow_add_eq_or_of_lt (show c < 2 ^ 8 from hc) (a * 256 + b)
  rw [hhigh, Nat.mul_comm (a * 256 + b), ← hor]
  omega

theorem shifted_byte (b : ℕ) {k : ℕ} (hb : b < 256) (hk : k ≤ 65536) : b * k % 4294967296 = b * k := by
  have hle : b * k ≤ 255 * 65536 := Nat.mul_le_mul (by omega) hk
  exact Nat.mod_eq_of_lt (by omega)

theorem ofClassBytes_classBytes (cls : UInt32) : ofClassBytes (classBytes cls) = cls &&& 0xffffff := by
  apply UInt32.toNat_inj.mp
  change ((cls >>> 16).toUInt8.toUInt32 <<< 16 ||| (cls >>> 8).toUInt8.toUInt32 <<< 8 |||
    cls.toUInt8.toUInt32).toNat = (cls &&& 0xffffff).toNat
  have hmask := Nat.and_two_pow_sub_one_eq_mod cls.toNat 24
  have hhigh : cls.toNat / 65536 % 256 < 256 := Nat.mod_lt _ (by decide)
  have hmid : cls.toNat / 256 % 256 < 256 := Nat.mod_lt _ (by decide)
  have hlow : cls.toNat % 256 < 256 := Nat.mod_lt _ (by decide)
  simp only [UInt32.toNat_or, UInt32.toNat_shiftLeft, UInt32.toNat_shiftRight,
    UInt8.toNat_toUInt32, UInt32.toNat_toUInt8, UInt32.toNat_and, UInt32.reduceToNat]
  simp only [Nat.shiftLeft_eq, Nat.shiftRight_eq_div_pow, Nat.reduceMod, Nat.reducePow,
    Nat.reduceSub] at hmask ⊢
  rw [hmask, shifted_byte _ hhigh (by decide), shifted_byte _ hmid (by decide), or_bytes _ hmid hlow]
  clear hmask hhigh hmid hlow
  omega

/-! ## Over any events -/

theorem writeClass_named (cls : UInt32) : Named (writeClassOfDev cls) := fun h => absurd h (by
  change (0 : UInt8) ≠ evtRemoteNameReqComplete
  decide)

theorem readClass_named (rp : Vector UInt8 4) : Named (readClassOfDev rp) := fun h => absurd h (by
  change (0 : UInt8) ≠ evtRemoteNameReqComplete
  decide)

/-- An adapter whose socket `hci_open_dev` opens or not, and which then sends events. -/
def sending (socket bind : Bool) (interrupted : ℕ) (turns : List Turn) (of : HciFilter)
    (buf : ℕ → UInt8) : Adapter := ⟨socket, bind, serving interrupted turns, of, buf⟩

/-- How the calls of the library go: `hci_open_dev`, and the request. -/
def calls (opened requested : Bool) : Outcomes := fun n => if n = 0 then opened else requested

/-- The class that has been read, unless the status says that it has not. -/
def readClass (result : Except Errno HciRequest) : Option UInt32 :=
  match result with
  | .error _ => none
  | .ok r =>
    if r.rparam.getD 0 0 ≠ 0 then none
    else some (ofClassBytes [r.rparam.getD 1 0, r.rparam.getD 2 0, r.rparam.getD 3 0])

theorem getDevClass_eq (socket bind : Bool) (interrupted : ℕ) (turns : List Turn) (of : HciFilter)
    (buf : ℕ → UInt8) (rp : Vector UInt8 4) :
    Hci.getDevClass (sending socket bind interrupted turns of buf) rp =
      .ok (some (if socket && bind then
        readClass (decided (readClassOfDev rp) ((turns.map Turn.event).take 10)) else none)) := by
  have hrequest := hciSendReq_serving (readClass_named rp) (show (100 : Int) ≤ 1000 by decide)
    interrupted turns of buf
  rw [Hci.getDevClass, Adapter.hciOpenDev, sending]
  cases socket with
  | false => rfl
  | true =>
    cases bind with
    | false => rfl
    | true =>
      simp only [Bool.and_self, Bool.not_true, Bool.false_eq_true, if_false, hrequest, ok_bind,
        Option.map_some, if_true]
      cases decided (readClassOfDev rp) ((turns.map Turn.event).take 10) with
      | error e => rfl
      | ok r =>
        rw [readClass]
        rfl

theorem setDevClass_eq (socket bind : Bool) (interrupted : ℕ) (turns : List Turn) (of : HciFilter)
    (buf : ℕ → UInt8) (cls : UInt32) :
    Hci.setDevClass (sending socket bind interrupted turns of buf) cls =
      .ok (some (if socket && bind &&
        (decided (writeClassOfDev cls) ((turns.map Turn.event).take 10)).isOk then 0 else -1)) := by
  have hrequest := hciSendReq_serving (writeClass_named cls) (show (100 : Int) ≤ 2000 by decide)
    interrupted turns of buf
  rw [Hci.setDevClass, Adapter.hciOpenDev, sending]
  cases socket with
  | false => rfl
  | true =>
    cases bind with
    | false => rfl
    | true =>
      simp only [Bool.and_self, Bool.not_true, Bool.false_eq_true, if_false, hrequest, ok_bind,
        Option.map_some, Bool.true_and]
      cases decided (writeClassOfDev cls) ((turns.map Turn.event).take 10) with
      | error e => rfl
      | ok r => rfl

/-- Whatever the adapter sends, `get_dev_class` and `set_dev_class` do what they do over the
calls of the library: `hci_open_dev` succeeds if the socket is bound, writing the class if the
first of ten events for the request is no failure, and reading it if that event has the status
0, too, with the class after the status. -/
theorem devClass_refines (socket bind : Bool) (interrupted : ℕ) (turns : List Turn)
    (of : HciFilter) (buf : ℕ → UInt8) (rp : Vector UInt8 4) (cls handle : UInt32) :
    let a := sending socket bind interrupted turns of buf
    let events := (turns.map Turn.event).take 10
    let class' := readClass (decided (readClassOfDev rp) events)
    Hci.getDevClass a rp = .ok (some ((SelfRepr.getDevClass ⟨class'.getD 0, handle⟩).result
        (calls (socket && bind) class'.isSome))) ∧
      Hci.setDevClass a cls = .ok (some ((SelfRepr.setDevClass cls).result
        (calls (socket && bind) (decided (writeClassOfDev cls) events).isOk))) := by
  intro a events class'
  rw [getDevClass_eq, setDevClass_eq]
  constructor
  · cases socket && bind with
    | false => rfl
    | true =>
      change Except.ok (some class') = _
      cases class' with
      | none => rfl
      | some c => rfl
  · change Except.ok (some (if (socket && bind && (decided (writeClassOfDev cls) events).isOk) = true
      then 0 else -1)) = _
    cases socket && bind with
    | false => rfl
    | true =>
      cases (decided (writeClassOfDev cls) events).isOk with
      | false => rfl
      | true => rfl

/-! ## An adapter -/

/-- What the standard says of an adapter that receives the commands for its class: writing is
completed with a status or refused with one, only the status 0 of a completed command changes
the class, and reading is completed with the class. The adapter is given by its class and the
event that it answers with, for each class and command. -/
structure KeepsClass (receive : UInt32 → List UInt8 → UInt32 × HciEvent) : Prop where
  write : ∀ (devClass : UInt32) (bytes : List UInt8), bytes.length = 3 → ∃ ncmd status,
    receive devClass ([hciCommandPkt, 0x24, 0x0c, 3] ++ bytes) =
        (if status = 0 then ofClassBytes bytes else devClass, .cmdComplete ncmd 0x0c24 [status]) ∨
      status ≠ 0 ∧ receive devClass ([hciCommandPkt, 0x24, 0x0c, 3] ++ bytes) =
        (devClass, .cmdStatus status ncmd 0x0c24)
  read : ∀ devClass : UInt32, ∃ ncmd,
    receive devClass [hciCommandPkt, 0x23, 0x0c, 0] =
      (devClass, .cmdComplete ncmd 0x0c23 ([0x00] ++ classBytes devClass))

/-- Events that are not meant for a request. -/
def Noise (r : HciRequest) (noise : List Turn) : Prop := ∀ t ∈ noise, t.event.answer r = none

theorem decided_after_noise {r : HciRequest} {noise : List Turn} (h : Noise r noise)
    (hlen : noise.length ≤ 9) (t : Turn) (later : List Turn) {a : Except Errno (List UInt8)}
    (ha : t.event.answer r = some a) :
    decided r (((noise ++ t :: later).map Turn.event).take 10) = a.map (responded r) := by
  have hnone : (noise.map Turn.event).findSome? (HciEvent.answer r) = none := by
    rw [List.findSome?_eq_none_iff]
    intro e he
    obtain ⟨t', ht', rfl⟩ := List.mem_map.mp he
    exact h t' ht'
  have htake : ((noise ++ t :: later).map Turn.event).take 10 =
      noise.map Turn.event ++ t.event :: (later.map Turn.event).take (9 - noise.length) := by
    have hsub : 10 - (noise.map Turn.event).length = (9 - noise.length) + 1 := by
      rw [List.length_map]
      omega
    rw [List.map_append, List.map_cons, List.take_append, List.take_of_length_le, hsub,
      List.take_succ_cons]
    rw [List.length_map]
    omega
  rw [decided, htake, List.findSome?_append, hnone, Option.none_or, List.findSome?_cons, ha]

theorem opcode_write (cls : UInt32) : (writeClassOfDev cls).opcode = 0x0c24 := by
  change cmdOpcodePack 0x03 0x0024 = 0x0c24
  decide

theorem opcode_read (rp : Vector UInt8 4) : (readClassOfDev rp).opcode = 0x0c23 := by
  change cmdOpcodePack 0x03 0x0023 = 0x0c23
  decide

theorem command_write (cls : UInt32) :
    (writeClassOfDev cls).command = [hciCommandPkt, 0x24, 0x0c, 3] ++ classBytes cls := by
  have hopcode : le16Bytes (0x0c24 : UInt16) = [0x24, 0x0c] := by decide
  rw [HciRequest.command, opcode_write, hopcode]
  rfl

theorem command_read (rp : Vector UInt8 4) :
    (readClassOfDev rp).command = [hciCommandPkt, 0x23, 0x0c, 0] := by
  have hopcode : le16Bytes (0x0c23 : UInt16) = [0x23, 0x0c] := by decide
  rw [HciRequest.command, opcode_read, hopcode]
  rfl

/-- The completion of a command is its answer, whatever the status. -/
theorem answer_complete {r : HciRequest} {opcode : UInt16} (h : r.opcode = opcode) (ncmd : UInt8)
    (params : List UInt8) :
    (HciEvent.cmdComplete ncmd opcode params).answer r = some (.ok params) := by
  rw [HciEvent.answer, if_pos h.symm]

theorem readClass_responded (devClass : UInt32) (rp : Vector UInt8 4) :
    readClass (.ok (responded (readClassOfDev rp) ([0x00] ++ classBytes devClass))) =
      some (devClass &&& 0xffffff) := by
  rw [← ofClassBytes_classBytes]
  rfl

/-- A status is the answer of a command that is refused. -/
theorem answer_refused {r : HciRequest} {opcode : UInt16} (h : r.opcode = opcode)
    (hevent : r.event ≠ evtCmdStatus) {status : UInt8} (hstatus : status ≠ 0) (ncmd : UInt8) :
    (HciEvent.cmdStatus status ncmd opcode).answer r = some (.error .eio) := by
  rw [HciEvent.answer, if_neg (not_not.mpr h.symm), if_neg hevent, if_neg hstatus]

/-- `set_dev_class` returns 0 for a command that has been completed, whether the adapter has
accepted the class or not, and -1 for one that has been refused. `get_dev_class` after it
returns the class that the adapter has kept, so the one that was set exactly if it was accepted.
In either call up to nine other events may come before the answer, and any after it. -/
theorem class_handed_back {receive : UInt32 → List UInt8 → UInt32 × HciEvent}
    (hkeeps : KeepsClass receive) (devClass cls : UInt32) (rp : Vector UInt8 4)
    (interrupted : ℕ) (of : HciFilter) (buf : ℕ → UInt8) {noise noise' : List Turn}
    (hnoise : Noise (writeClassOfDev cls) noise) (hnoise' : Noise (readClassOfDev rp) noise')
    (hlen : noise.length ≤ 9) (hlen' : noise'.length ≤ 9) (later : List Turn) (polls reads : ℕ) :
    let set := receive devClass (writeClassOfDev cls).command
    let get := receive set.1 (readClassOfDev rp).command
    let ret := Hci.setDevClass
      (sending true true interrupted (noise ++ ⟨polls, reads, set.2⟩ :: later) of buf) cls
    (∃ ncmd status,
      set = (if status = 0 then cls &&& 0xffffff else devClass, .cmdComplete ncmd 0x0c24 [status]) ∧
          ret = .ok (some 0) ∨
        status ≠ 0 ∧ set = (devClass, .cmdStatus status ncmd 0x0c24) ∧ ret = .ok (some (-1))) ∧
      Hci.getDevClass
        (sending true true interrupted (noise' ++ ⟨polls, reads, get.2⟩ :: later) of buf) rp =
          .ok (some (some (set.1 &&& 0xffffff))) := by
  intro set get ret
  constructor
  · obtain ⟨ncmd, status, hset | ⟨hstatus, hset⟩⟩ := hkeeps.write devClass (classBytes cls) rfl
    · rw [← command_write, ofClassBytes_classBytes] at hset
      refine ⟨ncmd, status, Or.inl ⟨hset, ?_⟩⟩
      have hreply : set.2 = .cmdComplete ncmd 0x0c24 [status] := congrArg Prod.snd hset
      change Hci.setDevClass _ cls = _
      rw [setDevClass_eq, hreply, decided_after_noise hnoise hlen _ later
        (answer_complete (opcode_write cls) ncmd [status])]
      rfl
    · rw [← command_write] at hset
      refine ⟨ncmd, status, Or.inr ⟨hstatus, hset, ?_⟩⟩
      have hreply : set.2 = .cmdStatus status ncmd 0x0c24 := congrArg Prod.snd hset
      have hevent : (writeClassOfDev cls).event ≠ evtCmdStatus := by
        change (0 : UInt8) ≠ evtCmdStatus
        decide
      change Hci.setDevClass _ cls = _
      rw [setDevClass_eq, hreply, decided_after_noise hnoise hlen _ later
        (answer_refused (opcode_write cls) hevent hstatus ncmd)]
      rfl
  · obtain ⟨ncmd, hget⟩ := hkeeps.read set.1
    rw [← command_read rp] at hget
    have hreply : get.2 = .cmdComplete ncmd 0x0c23 ([0x00] ++ classBytes set.1) :=
      congrArg Prod.snd hget
    rw [getDevClass_eq, hreply, decided_after_noise hnoise' hlen' _ later
      (answer_complete (opcode_read rp) ncmd _)]
    exact congrArg (fun c => Except.ok (some c)) (readClass_responded set.1 rp)

/-- An adapter that completes the command with an error. -/
def rejecting (devClass : UInt32) (packet : List UInt8) : UInt32 × HciEvent :=
  if packet.getD 1 0 = 0x23 then (devClass, .cmdComplete 1 0x0c23 ([0x00] ++ classBytes devClass))
  else (devClass, .cmdComplete 1 0x0c24 [0x0c])

/-- The class of a mouse is rejected by a phone. -/
theorem class_rejected :
    let set := rejecting 0x5a020c (writeClassOfDev 0x10590).command
    let get := rejecting set.1 (readClassOfDev #v[0, 0, 0, 0]).command
    let noise : List Turn := [⟨0, 1, .cmdComplete 1 0x0405 [0x00]⟩]
    let ret := Hci.setDevClass
      (sending true true 1 (noise ++ ⟨0, 0, set.2⟩ :: []) hciFilterClear fun _ => 0) 0x10590
    (∃ ncmd status,
      set = (if status = 0 then 0x10590 &&& 0xffffff else 0x5a020c,
            .cmdComplete ncmd 0x0c24 [status]) ∧ ret = .ok (some 0) ∨
        status ≠ 0 ∧ set = (0x5a020c, .cmdStatus status ncmd 0x0c24) ∧ ret = .ok (some (-1))) ∧
      Hci.getDevClass (sending true true 1 (noise ++ ⟨0, 0, get.2⟩ :: []) hciFilterClear fun _ => 0)
        #v[0, 0, 0, 0] = .ok (some (some (set.1 &&& 0xffffff))) := by
  have hnoise (r : HciRequest) (h : r.opcode ≠ 0x0405) :
      Noise r [⟨0, 1, .cmdComplete 1 0x0405 [0x00]⟩] := by
    intro t ht
    rw [List.mem_singleton.mp ht]
    exact if_neg h.symm
  have hkeeps : KeepsClass rejecting :=
    ⟨fun _ _ _ => ⟨1, 0x0c, Or.inl rfl⟩, fun _ => ⟨1, rfl⟩⟩
  exact class_handed_back hkeeps 0x5a020c 0x10590 #v[0, 0, 0, 0] 1 hciFilterClear (fun _ => 0)
    (hnoise _ (by rw [opcode_write]; decide)) (hnoise _ (by rw [opcode_read]; decide))
    (by decide) (by decide) [] 0 0

end Android2Mouse.Guarantees.DeviceClass
