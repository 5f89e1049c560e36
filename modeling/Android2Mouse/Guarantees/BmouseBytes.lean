import Android2Mouse.Guarantees.DeviceClass
import Android2Mouse.Guarantees.RecordHandle
import Android2Mouse.Guarantees.SdpRegistration
import Android2Mouse.Source.Bmouse

/-!
# What `bmouse` sends

`bmouse` over its library does what it does over calls that succeed or fail, and the server
of the records is sent what these calls carry (`bmouse_run`). So the handle that the server has
assigned to the record comes back to it in the request of `phone`, up to the largest `long`
(`handle_returned`).
-/
namespace Android2Mouse.Guarantees.BmouseBytes
open Library Library.Strtol Library.Writing Source Source.Sdp Source.SelfRepr Source.Bmouse
open Source.BecomeAMouse SdpEncoding SdpRecordPdu HidRecord SdpRegistration DeviceClass FailedRun
open RecordHandle

/-! ## What a call carries -/

/-- The bytes that the server is sent for a call, which it answers if the call succeeds. -/
def Carries (x : Exchange) : LibCall → Bool → List UInt8 → Prop
  | .sdpRecordRegister record, ok, sent => ∃ pdu, ReadsBack record.hidSpec pdu ∧
      sent <+: reqBytes 0x75 0 (0x01 :: pdu) ∧
      (ok = true → sent = reqBytes 0x75 0 (0x01 :: pdu) ∧
        Responds x 0x76 0 (bigEndian 4 record.handle.toNat))
  | .sdpDeviceRecordUnregisterBinary handle, ok, sent =>
      sent <+: reqBytes 0x79 0 (bigEndian 4 handle.toNat) ∧
      (ok = true → sent = reqBytes 0x79 0 (bigEndian 4 handle.toNat) ∧
        Responds x 0x80 0 [0x00, 0x00])
  | _, _, sent => sent = []

/-- The functions of `self_repr.c` make two calls, of which the first carries nothing. -/
theorem refines_bothCalls {α : Type} {x : Exchange} {w : Writing Fault UInt8 α}
    {first second : LibCall} {good bad : α} (hfirst : ∀ ok, Carries x first ok [])
    (h : ∀ sent a, w = .ended sent a → a = bad ∧ sent = [] ∨
      ∃ ok, Carries x second ok sent ∧ a = if ok then good else bad) :
    Refines (Carries x) w (bothCalls first second good bad) := by
  intro sent a hends
  obtain ⟨rfl, rfl⟩ | ⟨ok, hcarries, rfl⟩ := h sent a hends
  · exact ⟨[(first, false)], .send false (.done _), .silent (hfirst false) .nil⟩
  · refine ⟨[(first, true), (second, ok)], .send true (.send ok (.done _)), ?_⟩
    have hsecond := Carried.cons hcarries .nil
    rw [List.append_nil] at hsecond
    exact .silent (hfirst true) hsecond

section

variable {s : Surroundings}

/-! ## The record -/

/-- There is memory for the record and its encoding. -/
structure Memory (s : Surroundings) : Prop where
  nodes : ∀ attr, s.nodes attr = true
  data : s.mallocs.after.data = true
  node : s.mallocs.after.node = true
  attrs : ∀ attr, (s.mallocs.attrs attr).ok = true

theorem hidSpec_short (rep : SdpRecordBuilder) : rep.buildRecord.hidSpec.length ≤ 255 := by
  cases rep <;> decide +kernel

theorem buildRecord_eq (rep : SdpRecordBuilder) :
    Bmouse.buildRecord s rep = buildHid s.nodes rep.buildRecord.hidSpec := by
  cases rep <;> rfl

/-- `add_sdp_record` is over, or waits for the server. -/
theorem addSdpRecord_cases (hmem : Memory s) (rep : SdpRecordBuilder) :
    Bmouse.addSdpRecord s rep = .ended [] none ∨
      ∃ (r : Option (SdpRecord × Outcome UInt32)) (pdu : List UInt8) (attrlist : List Attr),
        ReadsBack rep.buildRecord.hidSpec pdu ∧
        (Sends s.exchange sdpReqBufferSize → r.isSome) ∧
        (∀ rec' done, r = some (rec', done) → Registered pdu s.exchange attrlist rec' done) ∧
        Bmouse.addSdpRecord s rep = .ofResult (.ok (r.map fun r => (r.2.sent, registered r))) := by
  have hshort := hidSpec_short rep
  rw [Bmouse.addSdpRecord, buildRecord_eq, buildHid_eq hmem.nodes (by omega), ok_bind]
  cases hconnect : s.sdpConnect with
  | false => exact .inl rfl
  | true =>
    obtain ⟨pdu, hgen, hfilled, hlen⟩ := hidAttrs_generated s.reread hmem.attrs hshort
    have hroom : pdu.filled.length + 6 ≤ sdpReqBufferSize := by
      rw [sdpReqBufferSize]
      omega
    obtain ⟨r, hr, hends, hregistered⟩ := register_generated hmem.data hmem.node s.exchange
      (hidAttrs_ordered rep.buildRecord.hidSpec) hgen hroom
    have hhandle : rep.buildRecord.handle = 0xffffffff := by cases rep <;> rfl
    refine .inr ⟨r, pdu.filled, _, hfilled ▸ hidAttrs_extracted hshort,
      fun h => hends ⟨h.1, Nat.le_trans hroom h.2⟩, hregistered, ?_⟩
    rw [if_neg (by decide), hhandle]
    dsimp only
    rw [hr]
    rfl

theorem addSdpRecord_ends (hmem : Memory s) (hsends : Sends s.exchange sdpReqBufferSize)
    (rep : SdpRecordBuilder) : (Bmouse.addSdpRecord s rep).Ends := by
  obtain h | ⟨r, pdu, attrlist, -, hends, -, h⟩ := addSdpRecord_cases hmem rep
  · exact ⟨_, _, h⟩
  · obtain ⟨r, rfl⟩ := Option.isSome_iff_exists.mp (hends hsends)
    exact ⟨_, _, h⟩

/-- What the server has been sent when `add_sdp_record` is over. -/
theorem addSdpRecord_ended (hmem : Memory s) {rep : SdpRecordBuilder} {sent : List UInt8}
    {a : Option UInt32} (hends : Bmouse.addSdpRecord s rep = .ended sent a) :
    a = none ∧ sent = [] ∨ ∃ pdu, ReadsBack rep.buildRecord.hidSpec pdu ∧
      sent <+: reqBytes 0x75 0 (0x01 :: pdu) ∧
      ∀ handle, a = some handle → sent = reqBytes 0x75 0 (0x01 :: pdu) ∧
        Responds s.exchange 0x76 0 (bigEndian 4 handle.toNat) := by
  obtain h | ⟨r, pdu, attrlist, hread, -, hregistered, h⟩ := addSdpRecord_cases hmem rep
  · obtain ⟨rfl, rfl⟩ := Writing.ended.inj (h.symm.trans hends)
    exact .inl ⟨rfl, rfl⟩
  · cases r with
    | none =>
      rw [h] at hends
      cases hends
    | some r =>
      have hreg := hregistered r.1 r.2 rfl
      obtain ⟨rfl, rfl⟩ := Writing.ended.inj (h.symm.trans hends)
      refine .inr ⟨pdu, hread, hreg.front, fun handle (hhandle : registered r = some handle) => ?_⟩
      unfold registered at hhandle
      cases hresult : r.2.result with
      | error e =>
        rw [hresult] at hhandle
        cases hhandle
      | ok handle' =>
        obtain ⟨hwhole, hresponds, hkept, -⟩ := hreg.assigned handle' hresult
        rw [hresult] at hhandle
        obtain rfl := Option.some.inj hhandle
        exact ⟨hwhole, hkept.symm ▸ hresponds⟩

theorem addSdpRecord_refines (hmem : Memory s) (rep : SdpRecordBuilder) {replies : Replies}
    (hreplies : ∀ sent handle, Bmouse.addSdpRecord s rep = .ended sent (some handle) →
      replies.handle = handle) :
    Refines (Carries s.exchange) (Bmouse.addSdpRecord s rep) (SelfRepr.addSdpRecord rep replies) := by
  rw [addSdpRecord_eq]
  refine refines_bothCalls (fun _ => rfl) fun sent a hends => ?_
  obtain hnone | ⟨pdu, hread, hfront, hwhole⟩ := addSdpRecord_ended hmem hends
  · exact .inl hnone
  · right
    cases a with
    | none => exact ⟨false, ⟨pdu, hread, hfront, fun h => Bool.noConfusion h⟩, rfl⟩
    | some handle =>
      obtain rfl := hreplies sent handle hends
      exact ⟨true, ⟨pdu, hread, hfront, fun _ => hwhole _ rfl⟩, rfl⟩

theorem unregistered_cases (done : Outcome UInt16) :
    unregistered done = 0 ∧ done.result = .ok 0 ∨ unregistered done = -1 := by
  rw [unregistered]
  cases done.result with
  | error e => exact .inr rfl
  | ok status =>
    by_cases hstatus : status = 0
    · exact .inl ⟨if_neg (not_not.mpr hstatus), congrArg Except.ok hstatus⟩
    · exact .inr (if_pos hstatus)

/-- `remove_sdp_record` is over, or waits for the server. -/
theorem removeSdpRecord_cases (s : Surroundings) (handle : Int32) :
    Bmouse.removeSdpRecord s handle = .ended [] (-1) ∨
      ∃ r : Option (Outcome UInt16), (Sends s.exchange sdpReqBufferSize → r.isSome) ∧
        (∀ done, r = some done →
          done.sent <+: reqBytes 0x79 0 (bigEndian 4 handle.toUInt32.toNat) ∧
            (unregistered done = 0 →
              done.sent = reqBytes 0x79 0 (bigEndian 4 handle.toUInt32.toNat) ∧
                Responds s.exchange 0x80 0 [0x00, 0x00]) ∧
            (unregistered done = 0 ∨ unregistered done = -1)) ∧
        Bmouse.removeSdpRecord s handle =
          .ofResult (.ok (r.map fun done => (done.sent, unregistered done))) := by
  rw [Bmouse.removeSdpRecord]
  cases hconnect : s.sdpConnect with
  | false => exact .inl rfl
  | true =>
    obtain ⟨r, hr, hends, hsent⟩ := unregister_spec handle.toUInt32 s.mallocs.bufs s.exchange
    rw [if_neg (by decide), hr]
    refine .inr ⟨r, hends, fun done hdone => ⟨(hsent done hdone).1, ?_⟩, rfl⟩
    obtain ⟨hzero, hresult⟩ | hfailed := unregistered_cases done
    · exact ⟨fun _ => (hsent done hdone).2 0 hresult, .inl hzero⟩
    · rw [hfailed]
      exact ⟨fun h => absurd h (by decide), .inr rfl⟩

theorem removeSdpRecord_ends (hsends : Sends s.exchange sdpReqBufferSize) (handle : Int32) :
    (Bmouse.removeSdpRecord s handle).Ends := by
  obtain h | ⟨r, hends, -, h⟩ := removeSdpRecord_cases s handle
  · exact ⟨_, _, h⟩
  · obtain ⟨r, rfl⟩ := Option.isSome_iff_exists.mp (hends hsends)
    exact ⟨_, _, h⟩

/-- What the server has been sent when `remove_sdp_record` is over. -/
theorem removeSdpRecord_ended {handle : Int32} {sent : List UInt8} {a : Int}
    (hends : Bmouse.removeSdpRecord s handle = .ended sent a) :
    a = -1 ∧ sent = [] ∨ sent <+: reqBytes 0x79 0 (bigEndian 4 handle.toUInt32.toNat) ∧
      (a = 0 → sent = reqBytes 0x79 0 (bigEndian 4 handle.toUInt32.toNat) ∧
        Responds s.exchange 0x80 0 [0x00, 0x00]) ∧ (a = 0 ∨ a = -1) := by
  obtain h | ⟨r, -, hsent, h⟩ := removeSdpRecord_cases s handle
  · obtain ⟨rfl, rfl⟩ := Writing.ended.inj (h.symm.trans hends)
    exact .inl ⟨rfl, rfl⟩
  · cases r with
    | none =>
      rw [h] at hends
      cases hends
    | some done =>
      obtain ⟨rfl, rfl⟩ := Writing.ended.inj (h.symm.trans hends)
      exact .inr (hsent done rfl)

theorem removeSdpRecord_refines (s : Surroundings) (handle : Int32) :
    Refines (Carries s.exchange) (Bmouse.removeSdpRecord s handle)
      (SelfRepr.removeSdpRecord handle) := by
  rw [removeSdpRecord_eq]
  refine refines_bothCalls (fun _ => rfl) fun sent a hends => ?_
  obtain hnone | ⟨hfront, hwhole, rfl | rfl⟩ := removeSdpRecord_ended hends
  · exact .inl hnone
  · exact .inr ⟨true, ⟨hfront, fun _ => hwhole rfl⟩, rfl⟩
  · exact .inr ⟨false, ⟨hfront, fun h => Bool.noConfusion h⟩, rfl⟩

/-! ## The device class -/

theorem setDevClass_refines (s : Surroundings) (class' : UInt32) :
    Refines (Carries s.exchange) (Bmouse.setDevClass s class') (SelfRepr.setDevClass class') := by
  rw [FailedRun.setDevClass_eq]
  refine refines_bothCalls (fun _ => rfl) fun sent a hends => ?_
  have hret := ofResult_ended.mp hends
  rw [Hci.setDevClass] at hret
  split at hret
  · obtain ⟨rfl, rfl⟩ := Prod.mk.inj (Option.some.inj (Except.ok.inj hret))
    exact .inl ⟨rfl, rfl⟩
  · cases hreq : Hci.hciSendReq s.write.dev s.write.of s.write.buf (Hci.writeClassOfDev class')
        2000 with
    | error e =>
      rw [hreq] at hret
      cases hret
    | ok outcome =>
      rw [hreq] at hret
      cases outcome with
      | none => cases hret
      | some outcome =>
        obtain ⟨rfl, rfl⟩ := Prod.mk.inj (Option.some.inj (Except.ok.inj hret))
        refine .inr ⟨outcome.result.isOk, rfl, ?_⟩
        dsimp only
        cases outcome.result with
        | error e => rfl
        | ok r => rfl

theorem getDevClass_refines (s : Surroundings) {replies : Replies}
    (hreplies : ∀ sent cod, Bmouse.getDevClass s = .ended sent (some cod) →
      replies.classOfDev = cod) :
    Refines (Carries s.exchange) (Bmouse.getDevClass s) (SelfRepr.getDevClass replies) := by
  have hcalls : SelfRepr.getDevClass replies =
      bothCalls .hciOpenDev .hciReadClassOfDev (some replies.classOfDev) none :=
    guarded_calls _ _ _ _
  rw [hcalls]
  refine refines_bothCalls (fun _ => rfl) fun sent a hends => ?_
  have hret := ofResult_ended.mp hends
  rw [Hci.getDevClass] at hret
  split at hret
  · obtain ⟨rfl, rfl⟩ := Prod.mk.inj (Option.some.inj (Except.ok.inj hret))
    exact .inl ⟨rfl, rfl⟩
  · cases hreq : Hci.hciSendReq s.read.dev s.read.of s.read.buf (Hci.readClassOfDev s.rp) 1000 with
    | error e =>
      rw [hreq] at hret
      cases hret
    | ok outcome =>
      rw [hreq] at hret
      cases outcome with
      | none => cases hret
      | some outcome =>
        obtain ⟨rfl, ha⟩ := Prod.mk.inj (Option.some.inj (Except.ok.inj hret))
        cases a with
        | none => exact .inr ⟨false, rfl, rfl⟩
        | some cod =>
          refine .inr ⟨true, rfl, ?_⟩
          rw [if_pos rfl, hreplies [] cod hends]

/-- The server takes what it is sent, and both adapters answer with events. -/
structure Answered (s : Surroundings) : Prop where
  sends : Sends s.exchange sdpReqBufferSize
  write : ∃ socket bind interrupted turns of buf,
    s.write = sending socket bind interrupted turns of buf
  read : ∃ socket bind interrupted turns of buf,
    s.read = sending socket bind interrupted turns of buf

theorem setDevClass_ends (h : Answered s) (class' : UInt32) : (Bmouse.setDevClass s class').Ends := by
  obtain ⟨socket, bind, interrupted, turns, of, buf, hwrite⟩ := h.write
  rw [Bmouse.setDevClass, hwrite, DeviceClass.setDevClass_eq]
  exact ⟨_, _, rfl⟩

theorem getDevClass_ends (h : Answered s) : (Bmouse.getDevClass s).Ends := by
  obtain ⟨socket, bind, interrupted, turns, of, buf, hread⟩ := h.read
  rw [Bmouse.getDevClass, hread, DeviceClass.getDevClass_eq]
  exact ⟨_, _, rfl⟩

/-! ## The program -/

/-- Setting the class, and what comes after it. -/
theorem setDevClass_then {class' : UInt32} {f : Writing Fault UInt8 ApplyProfile.Exit}
    {g : Attempt LibCall ApplyProfile.Exit} (h : Refines (Carries s.exchange) f g) :
    Refines (Carries s.exchange)
      (do if (← Bmouse.setDevClass s class') ≠ 0 then return .error .setDevClass else f)
      (do if (← SelfRepr.setDevClass class') ≠ 0 then return .error .setDevClass else g) := by
  refine (setDevClass_refines s class').bind fun ret => ?_
  split
  · exact .pure _
  · exact h

theorem applyRepr_refines (hmem : Memory s) (rep : SdpRecordBuilder) {replies : Replies}
    (hreplies : ∀ sent handle, Bmouse.addSdpRecord s rep = .ended sent (some handle) →
      replies.handle = handle) :
    Refines (Carries s.exchange) (Bmouse.applyRepr s rep) (ApplyProfile.applyRepr rep replies) := by
  refine (addSdpRecord_refines hmem rep hreplies).bind fun handle => ?_
  cases handle with
  | none => exact .pure _
  | some handle => exact setDevClass_then (.pure _)

theorem printCod_refines {replies : Replies}
    (hreplies : ∀ sent cod, Bmouse.getDevClass s = .ended sent (some cod) →
      replies.classOfDev = cod) :
    Refines (Carries s.exchange) (Bmouse.printCod s) (ApplyProfile.printCod replies) := by
  refine (getDevClass_refines s hreplies).bind fun cod => ?_
  cases cod with
  | none => exact .pure _
  | some cod => exact .pure _

theorem applyPhone_refines (s : Surroundings) (arg : List UInt8) :
    Refines (Carries s.exchange) (Bmouse.applyPhone s arg) (ApplyProfile.applyPhone arg) := by
  refine (removeSdpRecord_refines s _).bind fun ret => ?_
  split
  · exact .pure _
  · exact setDevClass_then (.pure _)

theorem exists_replies (s : Surroundings) (rep : SdpRecordBuilder) :
    ∃ replies : Replies,
      (∀ sent cod, Bmouse.getDevClass s = .ended sent (some cod) → replies.classOfDev = cod) ∧
        ∀ sent handle, Bmouse.addSdpRecord s rep = .ended sent (some handle) →
          replies.handle = handle := by
  have hread : ∃ cod', ∀ sent cod, Bmouse.getDevClass s = .ended sent (some cod) → cod' = cod := by
    cases h : Bmouse.getDevClass s with
    | fault e => exact ⟨0, fun _ _ h => (by cases h)⟩
    | waiting => exact ⟨0, fun _ _ h => (by cases h)⟩
    | ended written a =>
      refine ⟨a.getD 0, fun sent cod h => ?_⟩
      obtain ⟨-, rfl⟩ := Writing.ended.inj h
      rfl
  have hassigned : ∃ handle', ∀ sent handle,
      Bmouse.addSdpRecord s rep = .ended sent (some handle) → handle' = handle := by
    cases h : Bmouse.addSdpRecord s rep with
    | fault e => exact ⟨0, fun _ _ h => (by cases h)⟩
    | waiting => exact ⟨0, fun _ _ h => (by cases h)⟩
    | ended written a =>
      refine ⟨a.getD 0, fun sent handle h => ?_⟩
      obtain ⟨-, rfl⟩ := Writing.ended.inj h
      rfl
  obtain ⟨cod, hcod⟩ := hread
  obtain ⟨handle, hhandle⟩ := hassigned
  exact ⟨⟨cod, handle⟩, hcod, hhandle⟩

/-- The record of the command, if it has one. -/
def recordOf (argv : List (List UInt8)) : SdpRecordBuilder :=
  if argv[1]? = some (literal ['m', 'o', 'u', 's', 'e']) then .hidMouse else .hidMulti

theorem main_refines (hmem : Memory s) (argv : List (List UInt8)) {replies : Replies}
    (hread : ∀ sent cod, Bmouse.getDevClass s = .ended sent (some cod) → replies.classOfDev = cod)
    (hassigned : ∀ sent handle, Bmouse.addSdpRecord s (recordOf argv) = .ended sent (some handle) →
      replies.handle = handle) :
    Refines (Carries s.exchange) (Bmouse.main s argv) (ApplyProfile.main argv replies) := by
  rw [Bmouse.main, ApplyProfile.main]
  rw [recordOf] at hassigned
  cases hargv : argv[1]? with
  | none => exact .pure _
  | some command =>
    rw [hargv] at hassigned
    dsimp only
    split
    · exact printCod_refines hread
    split
    · exact setDevClass_then (printCod_refines hread)
    split
    next hmouse =>
      rw [hmouse, if_pos rfl] at hassigned
      exact applyRepr_refines hmem .hidMouse hassigned
    next hmouse =>
      rw [if_neg fun h => hmouse (Option.some.inj h)] at hassigned
      split
      · exact applyRepr_refines hmem .hidMulti hassigned
      split
      · cases argv[2]? with
        | none => exact .pure _
        | some arg => exact applyPhone_refines s arg
      · exact .pure _

theorem main_ends (hmem : Memory s) (h : Answered s) (argv : List (List UInt8)) :
    (Bmouse.main s argv).Ends := by
  have hprint : (Bmouse.printCod s).Ends := (getDevClass_ends h).bind fun cod => by
    cases cod <;> exact .pure _
  have hset : ∀ (class' : UInt32) (w : Writing Fault UInt8 ApplyProfile.Exit), w.Ends →
      (do if (← Bmouse.setDevClass s class') ≠ 0 then return .error .setDevClass else w :
        Writing Fault UInt8 ApplyProfile.Exit).Ends := by
    intro class' w hw
    refine (setDevClass_ends h class').bind fun ret => ?_
    split
    · exact .pure _
    · exact hw
  have happly : ∀ rep, (Bmouse.applyRepr s rep).Ends := fun rep =>
    (addSdpRecord_ends hmem h.sends rep).bind fun handle => by
      cases handle with
      | none => exact .pure _
      | some handle => exact hset _ _ (.pure _)
  have hphone : ∀ arg, (Bmouse.applyPhone s arg).Ends := fun arg =>
    (removeSdpRecord_ends h.sends _).bind fun ret => by
      split
      · exact .pure _
      · exact hset _ _ (.pure _)
  rw [Bmouse.main]
  cases argv[1]? with
  | none => exact .pure _
  | some command =>
    dsimp only
    split
    · exact hprint
    split
    · exact hset _ _ hprint
    split
    · exact happly .hidMouse
    split
    · exact happly .hidMulti
    split
    · cases argv[2]? with
      | none => exact .pure _
      | some arg => exact hphone arg
    · exact .pure _

/-- Every run of `bmouse` over its library that ends is a run over calls that succeed or fail, and
the server is sent what these calls carry, one after the other. With a server that takes what it
is sent, and an adapter that answers with events, each run ends, without a fault. -/
theorem bmouse_run (hmem : Memory s) (argv : List (List UInt8)) :
    (∀ sent exit, Bmouse.main s argv = .ended sent exit → ∃ replies o,
      (ApplyProfile.main argv replies).result o = exit ∧
        Carried (Carries s.exchange) ((ApplyProfile.main argv replies).trace o) sent) ∧
    (Answered s → ∃ sent exit, Bmouse.main s argv = .ended sent exit) := by
  obtain ⟨replies, hread, hassigned⟩ := exists_replies s (recordOf argv)
  refine ⟨fun sent exit hends => ?_, fun h => main_ends hmem h argv⟩
  obtain ⟨calls, hruns, hcarried⟩ := main_refines hmem argv hread hassigned sent exit hends
  obtain ⟨o, htrace, hresult⟩ := hruns.outcomes
  exact ⟨replies, o, hresult, htrace ▸ hcarried⟩

end

/-- All goes well, and the server assigns the handle 0x10007. -/
def served : Surroundings where
  nodes := fun _ => true
  sdpConnect := true
  reread := true
  mallocs := ⟨⟨true, true⟩, ⟨true, true⟩, true, fun _ => ⟨true, fun _ => 0⟩,
    ⟨⟨true, fun _ => 0xcc⟩, ⟨true, fun _ => 0xcc⟩⟩⟩
  exchange := ⟨List.replicate 2048 (some 100), false, some [0x76, 0, 0, 0, 4, 0, 1, 0, 7]⟩
  write := sending true true 0 [⟨0, 0, .cmdComplete 1 0x0c24 [0x00]⟩] Hci.hciFilterClear fun _ => 0
  read := sending true true 0 [] Hci.hciFilterClear fun _ => 0
  rp := #v[0, 0, 0, 0]

theorem served_memory : Memory served := ⟨fun _ => rfl, rfl, rfl, fun _ => rfl⟩

theorem served_answered : Answered served where
  sends := ⟨fun k hk => by
    obtain rfl := Option.some.inj (List.eq_of_mem_replicate hk)
    decide, by rw [served, List.length_replicate, sdpReqBufferSize]⟩
  write := ⟨_, _, _, _, _, _, rfl⟩
  read := ⟨_, _, _, _, _, _, rfl⟩

theorem bmouse_run_multi :
    ∃ sent exit replies o, Bmouse.main served Registers.multi.argv = .ended sent exit ∧
      (ApplyProfile.main Registers.multi.argv replies).result o = exit ∧
      Carried (Carries served.exchange)
        ((ApplyProfile.main Registers.multi.argv replies).trace o) sent := by
  obtain ⟨hruns, hends⟩ := bmouse_run served_memory Registers.multi.argv
  obtain ⟨sent, exit, hmain⟩ := hends served_answered
  obtain ⟨replies, o, hresult, hcarried⟩ := hruns sent exit hmain
  exact ⟨sent, exit, replies, o, hmain, hresult, hcarried⟩

/-! ## The handle on its way back -/

section

variable {s : Surroundings}

theorem setDevClass_silent {class' : UInt32} {sent : List UInt8} {ret : Int}
    (h : Bmouse.setDevClass s class' = .ended sent ret) : sent = [] := by
  have hret := ofResult_ended.mp h
  cases hset : Hci.setDevClass s.write class' with
  | error e =>
    rw [hset] at hret
    cases hret
  | ok r =>
    rw [hset] at hret
    cases r with
    | none => cases hret
    | some ret => exact (Prod.mk.inj (Option.some.inj (Except.ok.inj hret))).1.symm

/-- The commands that set the class last write nothing more for it. -/
theorem setDevClass_last {class' : UInt32} {exit exit' : ApplyProfile.Exit} {sent : List UInt8}
    (h : (do if (← Bmouse.setDevClass s class') ≠ 0 then return .error .setDevClass
             return exit : Writing Fault UInt8 ApplyProfile.Exit) = .ended sent exit') :
    sent = [] ∧ (exit' = exit ∨ exit' = .error .setDevClass) := by
  obtain ⟨first, ret, rest, hset, hrest, rfl⟩ := bind_ended.mp h
  obtain rfl := setDevClass_silent hset
  by_cases hret : ret ≠ 0
  · rw [if_pos hret] at hrest
    obtain ⟨rfl, rfl⟩ := Writing.ended.inj hrest
    exact ⟨rfl, .inr rfl⟩
  · rw [if_neg hret] at hrest
    obtain ⟨rfl, rfl⟩ := Writing.ended.inj hrest
    exact ⟨rfl, .inl rfl⟩

/-- The record that `mouse` or `multi` registers. -/
def record : Registers → SdpRecordBuilder
  | .mouse => .hidMouse
  | .multi => .hidMulti

theorem main_registers (s : Surroundings) (who : Registers) :
    Bmouse.main s who.argv = Bmouse.applyRepr s (record who) := by
  cases who <;> rfl

theorem main_phone (s : Surroundings) (arg : List UInt8) :
    Bmouse.main s [bmouse, literal ['p', 'h', 'o', 'n', 'e'], arg] = Bmouse.applyPhone s arg := rfl

/-- A run that prints a handle has registered the record under it. -/
theorem applyRepr_assigned (hmem : Memory s) {rep : SdpRecordBuilder} {sent : List UInt8}
    {handle : UInt32} (h : Bmouse.applyRepr s rep = .ended sent (.success (some handle))) :
    (∃ pdu, ReadsBack rep.buildRecord.hidSpec pdu ∧ sent = reqBytes 0x75 0 (0x01 :: pdu)) ∧
      Responds s.exchange 0x76 0 (bigEndian 4 handle.toNat) := by
  obtain ⟨first, ret, rest, hadd, hrest, rfl⟩ := bind_ended.mp h
  cases ret with
  | none =>
    obtain ⟨-, hexit⟩ := Writing.ended.inj hrest
    cases hexit
  | some handle' =>
    obtain ⟨rfl, hexit | hexit⟩ := setDevClass_last hrest
    · obtain rfl := Option.some.inj (ApplyProfile.Exit.success.inj hexit)
      obtain ⟨hnone, -⟩ | ⟨pdu, hread, -, hwhole⟩ := addSdpRecord_ended hmem hadd
      · cases hnone
      · obtain ⟨hsent, hresponds⟩ := hwhole handle rfl
        exact ⟨⟨pdu, hread, by rw [List.append_nil, hsent]⟩, hresponds⟩
    · cases hexit

/-- What `phone` sends, and that its request has been answered when it succeeds. -/
theorem applyPhone_sent {arg sent : List UInt8} {exit : ApplyProfile.Exit}
    (h : Bmouse.applyPhone s arg = .ended sent exit) :
    let req := reqBytes 0x79 0 (bigEndian 4 (Int32.ofInt (strtol 32 arg)).toUInt32.toNat)
    sent <+: req ∧
      (exit = .success none → sent = req ∧ Responds s.exchange 0x80 0 [0x00, 0x00]) := by
  obtain ⟨first, ret, rest, hremove, hrest, rfl⟩ := bind_ended.mp h
  by_cases hret : ret = -1
  · rw [if_pos hret] at hrest
    obtain ⟨rfl, rfl⟩ := Writing.ended.inj hrest
    rw [List.append_nil]
    obtain ⟨-, rfl⟩ | ⟨hfront, -⟩ := removeSdpRecord_ended hremove
    · exact ⟨List.nil_prefix, fun h => (by cases h)⟩
    · exact ⟨hfront, fun h => (by cases h)⟩
  · rw [if_neg hret] at hrest
    obtain ⟨rfl, -⟩ := setDevClass_last hrest
    rw [List.append_nil]
    obtain ⟨hnone, -⟩ | ⟨hfront, hwhole, hzero | hminus⟩ := removeSdpRecord_ended hremove
    · exact absurd hnone hret
    · exact ⟨hfront, fun _ => hwhole hzero⟩
    · exact absurd hminus hret

/-- The handle that the server has assigned in a run of `mouse` or `multi` comes back to it in
the request of the `phone` that is given the text which the app has stored of that run, up to the
largest `long`; and a `phone` that succeeds has sent the whole request and been answered. -/
theorem handle_returned {first : Surroundings} (hmem : Memory first) (second : Surroundings)
    (who : Registers) {sent : List UInt8} {handle : UInt32}
    (hfirst : Bmouse.main first who.argv = .ended sent (.success (some handle))) :
    let text := stdout (.success (some handle))
    let req := reqBytes 0x79 0 (bigEndian 4 (min (2 ^ 31 - 1) handle.toNat))
    ((∃ pdu, ReadsBack (record who).buildRecord.hidSpec pdu ∧
        sent = reqBytes 0x75 0 (0x01 :: pdu)) ∧
      Responds first.exchange 0x76 0 (bigEndian 4 handle.toNat)) ∧
    ∀ sent' exit, Bmouse.main second
        [bmouse, literal ['p', 'h', 'o', 'n', 'e'], readLines text.length text] =
          .ended sent' exit →
      sent' <+: req ∧
        (exit = .success none → sent' = req ∧ Responds second.exchange 0x80 0 [0x00, 0x00]) := by
  intro text req
  rw [main_registers] at hfirst
  refine ⟨applyRepr_assigned hmem hfirst, fun sent' exit hsecond => ?_⟩
  have hstored : readLines text.length text = hexText handle := stored_text handle
  have hsent := applyPhone_sent ((main_phone ..).symm.trans hsecond)
  rwa [hstored, hexText, strtol_hex, saturated_toNat] at hsent

end

theorem handle_returned_multi :
    let second : Surroundings :=
      { served with
        exchange := ⟨List.replicate 2048 (some 100), false, some [0x80, 0, 0, 0, 2, 0, 0]⟩ }
    let text := stdout (.success (some 0x10007))
    let req := reqBytes 0x79 0 (bigEndian 4 (min (2 ^ 31 - 1) (0x10007 : UInt32).toNat))
    let pdu := recordBytes ((hidAttrs BuildHidMultidev.hidSpec).flatMap attrBytes)
    ((∃ pdu', ReadsBack (record .multi).buildRecord.hidSpec pdu' ∧
        reqBytes 0x75 0 (0x01 :: pdu) = reqBytes 0x75 0 (0x01 :: pdu')) ∧
      Responds served.exchange 0x76 0 (bigEndian 4 (0x10007 : UInt32).toNat)) ∧
    ∀ sent' exit, Bmouse.main second
        [bmouse, literal ['p', 'h', 'o', 'n', 'e'], readLines text.length text] =
          .ended sent' exit →
      sent' <+: req ∧
        (exit = .success none → sent' = req ∧ Responds second.exchange 0x80 0 [0x00, 0x00]) := by
  intro second text req pdu
  have hfirst : Bmouse.main served Registers.multi.argv =
      .ended (reqBytes 0x75 0 (0x01 :: pdu)) (.success (some 0x10007)) := by decide +kernel
  exact handle_returned served_memory second .multi hfirst

end Android2Mouse.Guarantees.BmouseBytes
