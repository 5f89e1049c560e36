import Android2Mouse.Guarantees.HidRecord
import Android2Mouse.Source.SdpClient

/-!
# Registering the device

A request stays within its buffer exactly up to 2043 bytes behind its header, and what the
server is sent is this request, or a front part of it where a `send` fails. The response
that a request accepts is characterized without regard to what `malloc` left in the
buffer, and the handle that the server assigned is the one that is unregistered.
-/
namespace Android2Mouse.Guarantees.SdpRegistration
open Library Library.Region Source Source.Sdp SdpEncoding SdpRecordPdu SdpRoundTrip HidRecord

/-! ## The request -/

/-- A request with its header, whose last field is the number of bytes behind it. -/
def reqBytes (pduId : UInt8) (tid : UInt16) (params : List UInt8) : List UInt8 :=
  pduId :: (bigEndian 2 tid.toNat ++ bigEndian 2 params.length ++ params)

theorem length_reqBytes (pduId : UInt8) (tid : UInt16) (params : List UInt8) :
    (reqBytes pduId tid params).length = sizeofPduHdr + params.length := by
  rw [reqBytes, List.length_cons, List.length_append, List.length_append, length_bigEndian,
    length_bigEndian, sizeofPduHdr]
  omega

theorem foldlM_putBytes (params : List (List UInt8)) (req : SdpBuf) :
    (req.dataSize + params.flatten.length ≤ req.data.length →
      ∃ req', params.foldlM putBytes req = .ok req' ∧ Extends params.flatten req req') ∧
    (req.dataSize ≤ req.data.length → req.data.length < req.dataSize + params.flatten.length →
      params.foldlM putBytes req = .error .range) := by
  induction params generalizing req with
  | nil => exact ⟨fun _ => ⟨req, rfl, Extends.refl req⟩, fun h h' => absurd h' (Nat.not_lt.mpr h)⟩
  | cons bs params ih =>
    rw [List.flatten_cons, List.length_append, List.foldlM_cons, putBytes]
    constructor
    · intro h
      obtain ⟨req₁, hstore, hext⟩ := store_end req bs (by omega)
      have hdata := hext.data_length
      have hsize := hext.dataSize_eq
      obtain ⟨req', hrest, hext'⟩ := (ih (req₁.reserve bs.length)).1 (by omega)
      refine ⟨req', ?_, hext.trans hext'⟩
      rw [hstore, ok_bind]
      exact hrest
    · intro hfit h
      by_cases hroom : req.dataSize + bs.length ≤ req.data.length
      · obtain ⟨req₁, hstore, hext⟩ := store_end req bs hroom
        have hdata := hext.data_length
        have hsize := hext.dataSize_eq
        rw [hstore, ok_bind]
        exact (ih (req₁.reserve bs.length)).2 (by omega) (by omega)
      · rw [store_fault req (by omega)]
        rfl

/-- The header goes over memory that may hold anything. -/
theorem startReq_spec (junk : ℕ → UInt8) (pduId : UInt8) (tid : UInt16) :
    ∃ req rest, startReq junk pduId tid = .ok req ∧ req.data.length = sdpReqBufferSize ∧
      req.dataSize = sizeofPduHdr ∧ rest.length = 2 ∧
      req.filled = pduId :: bigEndian 2 tid.toNat ++ rest := by
  have hdata : ((List.range sdpReqBufferSize).map junk).length = 2048 := by
    rw [List.length_map, List.length_range, sdpReqBufferSize]
  rw [startReq]
  generalize (List.range sdpReqBufferSize).map junk = data at hdata ⊢
  have hfront : (pduId :: bigEndian 2 tid.toNat).length = 3 := by
    rw [List.length_cons, length_bigEndian]
  have hid : (⟨data, 0⟩ : SdpBuf).store 0 [pduId] = .ok ⟨splice data 0 [pduId], 0⟩ :=
    store_ok (⟨data, 0⟩ : SdpBuf) (by change 0 + 1 ≤ data.length; omega)
  have hlen : (splice data 0 [pduId]).length = 2048 := by
    rw [splice_length data 0 [pduId] (by change 0 + 1 ≤ data.length; omega), hdata]
  have htid : (⟨splice data 0 [pduId], 0⟩ : SdpBuf).store 1 (bigEndian 2 tid.toNat) =
      .ok ⟨splice data 0 (pduId :: bigEndian 2 tid.toNat), 0⟩ := by
    rw [store_ok _ (by rw [length_bigEndian]; change 1 + 2 ≤ (splice data 0 [pduId]).length; omega)]
    change Except.ok (Region.mk (splice (splice data 0 [pduId]) (0 + [pduId].length) _) 0) = _
    rw [splice_splice _ _ _ _ (by rw [length_bigEndian]; change 0 + 1 + 2 ≤ data.length; omega)]
    rfl
  refine ⟨_, (data.take 5).drop 3, by rw [hid, ok_bind, htid, ok_bind]; rfl, ?_, rfl, ?_, ?_⟩
  · change (splice data 0 (pduId :: bigEndian 2 tid.toNat)).length = _
    rw [splice_length _ _ _ (by omega), hdata, sdpReqBufferSize]
  · rw [List.length_drop, List.length_take]
    omega
  · change (splice data 0 (pduId :: bigEndian 2 tid.toNat)).take 5 = _
    rw [take_splice _ _ (by omega) (by omega), List.take_zero, List.nil_append, hfront]

/-- A request fits its buffer, or putting it there is a fault. -/
theorem buildReq_spec (junk : ℕ → UInt8) (pduId : UInt8) (tid : UInt16)
    (params : List (List UInt8)) :
    (sizeofPduHdr + params.flatten.length ≤ sdpReqBufferSize →
      ∃ req, buildReq junk pduId tid params = .ok req ∧
        req.filled = reqBytes pduId tid params.flatten) ∧
    (sdpReqBufferSize < sizeofPduHdr + params.flatten.length →
      buildReq junk pduId tid params = .error .range) := by
  obtain ⟨req, rest, hstart, hdata, hsize, hrest, hfilled⟩ := startReq_spec junk pduId tid
  have hfive : sizeofPduHdr = 5 := rfl
  have hroom : sdpReqBufferSize = 2048 := rfl
  rw [buildReq, hstart, ok_bind]
  constructor
  · intro hfit
    obtain ⟨req', hput, hext⟩ := (foldlM_putBytes params req).1 (by omega)
    have hsize' := hext.dataSize_eq
    have hdata' := hext.data_length
    have hplen : req'.dataSize - sizeofPduHdr = params.flatten.length := by omega
    obtain ⟨req'', hstore, -, -, hfilled'⟩ := store_filled req' 3
      (bigEndian 2 (req'.dataSize - sizeofPduHdr)) (by rw [length_bigEndian]; omega) (by omega)
    refine ⟨req'', by rw [hput, ok_bind, hstore], ?_⟩
    have hfront : (pduId :: bigEndian 2 tid.toNat).length = 3 := by
      rw [List.length_cons, length_bigEndian]
    have hhdr : (pduId :: bigEndian 2 tid.toNat ++ rest).length = 3 + 2 := by
      rw [List.length_append, hfront, hrest]
    rw [hfilled', hext.filled_eq, hfilled, splice, length_bigEndian, hplen, List.drop_left' hhdr,
      List.append_assoc _ rest, List.take_left' hfront, reqBytes, List.cons_append, List.cons_append]
  · intro hover
    rw [(foldlM_putBytes params req).2 (by omega) (by omega)]
    rfl

/-! ## What the server is sent -/

/-- A front part of the buffer, and all of it exactly when no `send` has failed. -/
theorem sdpSendReq_front {sends : List (Option ℕ)} {buf sent : List UInt8} {ok : Bool}
    (h : sdpSendReq sends buf = some (ok, sent)) : sent <+: buf ∧ (ok = true ↔ sent = buf) := by
  induction sends, buf using sdpSendReq.induct generalizing ok sent with
  | case1 sends =>
    obtain ⟨rfl, rfl⟩ : ok = true ∧ sent = [] := by simpa [sdpSendReq, eq_comm] using h
    simp
  | case2 b buf => simp [sdpSendReq] at h
  | case3 sends b buf =>
    obtain ⟨rfl, rfl⟩ : ok = false ∧ sent = [] := by simpa [sdpSendReq, eq_comm] using h
    simp
  | case4 n sends b buf ih =>
    rw [sdpSendReq] at h
    obtain ⟨⟨ok', sent'⟩, hrest, hr⟩ := Option.map_eq_some_iff.mp h
    obtain ⟨rfl, rfl⟩ := Prod.mk.inj hr
    obtain ⟨hpart, hall⟩ := ih hrest
    have hsplit : (b :: buf).take n ++ (b :: buf).drop n = b :: buf := List.take_append_drop ..
    refine ⟨?_, hall.trans ⟨fun h => by rw [h, hsplit], fun h => ?_⟩⟩
    · nth_rewrite 2 [← hsplit]
      exact (List.prefix_append_right_inj _).mpr hpart
    · nth_rewrite 2 [← hsplit] at h
      exact List.append_cancel_left h

/-- It ends when each `send` that does not fail takes something. -/
theorem sdpSendReq_ends {sends : List (Option ℕ)} {buf : List UInt8}
    (hsome : ∀ n, some n ∈ sends → 0 < n) (hlen : buf.length ≤ sends.length) :
    (sdpSendReq sends buf).isSome := by
  induction sends, buf using sdpSendReq.induct with
  | case1 sends => simp [sdpSendReq]
  | case2 b buf => simp at hlen
  | case3 sends b buf => simp [sdpSendReq]
  | case4 n sends b buf ih =>
    have hn := hsome n (.head _)
    rw [sdpSendReq, Option.isSome_map]
    refine ih (fun n h => hsome n (.tail _ h)) ?_
    rw [List.length_cons, List.length_cons] at hlen
    rw [List.length_drop, List.length_cons]
    omega

/-! ## What a request accepts -/

/-- The response `pduId` to the request `tid`, with a value at the front of its parameters.
Its length field is not looked at, and no more is read than fits the buffer. -/
def Responds (x : Exchange) (pduId : UInt8) (tid : UInt16) (value : List UInt8) : Prop :=
  x.timedOut = false ∧ ∃ bytes plen rest, x.recv = some bytes ∧ plen.length = 2 ∧
    bytes.take sdpRspBufferSize = pduId :: (bigEndian 2 tid.toNat ++ (plen ++ (value ++ rest)))

theorem request_eq {α : Type} (bufs : Buffers) (x : Exchange) (session : Session) (pduId : UInt8)
    (params : List (List UInt8)) (parse : (ℕ → UInt8) → ℕ → Except Errno α)
    (hlocal : session.local' = true) (hreq : bufs.req.ok = true) (hrsp : bufs.rsp.ok = true)
    (hfit : sizeofPduHdr + params.flatten.length ≤ sdpReqBufferSize) :
    request bufs x session pduId params parse = .ok
      ((sdpSendReqW4Rsp x bufs.rsp.junk (reqBytes pduId session.tid params.flatten)).map fun r =>
        ⟨{ session with tid := session.tid + 1 }, r.1,
          r.2.bind fun bytes => parse (rspbuf bufs.rsp.junk bytes) bytes.length⟩) := by
  obtain ⟨req, hbuild, hfilled⟩ := (buildReq_spec bufs.req.junk pduId session.tid params).1 hfit
  rw [request, hlocal, hreq, hrsp, hbuild, ← hfilled]
  rfl

theorem list_of_length (bytes : List UInt8) (h : 5 ≤ bytes.length) :
    ∃ a b c d e rest, bytes = a :: b :: c :: d :: e :: rest := by
  rcases bytes with _ | ⟨a, _ | ⟨b, _ | ⟨c, _ | ⟨d, _ | ⟨e, rest⟩⟩⟩⟩⟩
  case cons.cons.cons.cons.cons => exact ⟨a, b, c, d, e, rest, rfl⟩
  all_goals simp at h

/-- The buffer holds a response exactly when these bytes of it do, whatever is behind them. -/
theorem response_iff (junk : ℕ → UInt8) (bytes : List UInt8) (pduId : UInt8) (tid : UInt16)
    (value : List UInt8) :
    (∃ plen rest, plen.length = 2 ∧
      bytes = pduId :: (bigEndian 2 tid.toNat ++ (plen ++ (value ++ rest)))) ↔
    sizeofPduHdr + value.length ≤ bytes.length ∧ rspbuf junk bytes 0 = pduId ∧
      bigEndian 2 tid.toNat = [rspbuf junk bytes 1, rspbuf junk bytes 2] ∧
      (bytes.drop sizeofPduHdr).take value.length = value := by
  have hfive : sizeofPduHdr = 5 := rfl
  obtain ⟨t₁, t₂, htid⟩ : ∃ t₁ t₂, bigEndian 2 tid.toNat = [t₁, t₂] := ⟨_, _, rfl⟩
  rw [htid]
  constructor
  · rintro ⟨plen, rest, hplen, rfl⟩
    obtain ⟨d, e, rfl⟩ := List.length_eq_two.mp hplen
    refine ⟨?_, rfl, rfl, ?_⟩
    · simp only [List.length_cons, List.length_append, List.length_nil]
      omega
    · change (value ++ rest).take value.length = value
      rw [List.take_left]
  · rintro ⟨hlen, hpdu, htid', hvalue⟩
    obtain ⟨a, b, c, d, e, rest, rfl⟩ := list_of_length bytes (by omega)
    change rest.take value.length = value at hvalue
    refine ⟨[d, e], rest.drop value.length, rfl, ?_⟩
    have hrest : value ++ rest.drop value.length = rest := by
      have := List.take_append_drop value.length rest
      rwa [hvalue] at this
    rw [hrest, htid', ← hpdu]
    rfl

/-- What `sdp_send_req_w4_rsp` accepts, once all has been sent. -/
theorem w4Rsp_ok_iff (x : Exchange) (junk : ℕ → UInt8) (req bytes : List UInt8) :
    w4Rsp x junk req = .ok bytes ↔
      x.timedOut = false ∧ ∃ got, x.recv = some got ∧ bytes = got.take sdpRspBufferSize ∧
        bytes.length ≠ 0 ∧ (req.drop 1).take 2 = [rspbuf junk bytes 1, rspbuf junk bytes 2] := by
  rw [w4Rsp, sdpReadRsp]
  constructor
  · intro h
    cases hto : x.timedOut with
    | true => rw [hto] at h; cases h
    | false =>
      refine ⟨rfl, ?_⟩
      rw [hto] at h
      cases hrecv : x.recv with
      | none => rw [hrecv] at h; cases h
      | some got =>
        rw [hrecv] at h
        refine ⟨got, rfl, ?_⟩
        by_cases hbad : (got.take sdpRspBufferSize).length = 0 ∨ (req.drop 1).take 2 ≠
            [rspbuf junk (got.take sdpRspBufferSize) 1, rspbuf junk (got.take sdpRspBufferSize) 2]
        · rw [if_neg Bool.false_ne_true, ok_bind, if_pos hbad] at h
          cases h
        · rw [if_neg Bool.false_ne_true, ok_bind, if_neg hbad] at h
          obtain rfl := Except.ok.inj h
          rw [not_or, not_not] at hbad
          exact ⟨rfl, hbad⟩
  · rintro ⟨hto, got, hrecv, rfl, hgood⟩
    rw [hto, hrecv, if_neg Bool.false_ne_true, ok_bind,
      if_neg (not_or.mpr ⟨hgood.1, not_not.mpr hgood.2⟩)]

/-- The value that a request returns depends on the response alone: not on what was left in
the memory, and nothing but a complete response gives one. -/
theorem request_returns_iff {α : Type} {bufs : Buffers} {x : Exchange} {session : Session}
    {pduId rspId : UInt8} {params : List (List UInt8)} {parse : (ℕ → UInt8) → ℕ → Except Errno α}
    (value : α → List UInt8)
    (hparse : ∀ junk bytes v, parse (rspbuf junk bytes) bytes.length = .ok v ↔
      sizeofPduHdr + (value v).length ≤ bytes.length ∧ rspbuf junk bytes 0 = rspId ∧
        (bytes.drop sizeofPduHdr).take (value v).length = value v)
    (hlocal : session.local' = true) (hreq : bufs.req.ok = true) (hrsp : bufs.rsp.ok = true)
    (hfit : sizeofPduHdr + params.flatten.length ≤ sdpReqBufferSize)
    {done : Outcome α} (hdone : request bufs x session pduId params parse = .ok (some done)) (v : α) :
    done.result = .ok v ↔
      done.sent = reqBytes pduId session.tid params.flatten ∧
        Responds x rspId session.tid (value v) := by
  rw [request_eq bufs x session pduId params parse hlocal hreq hrsp hfit] at hdone
  obtain ⟨⟨sent, rsp⟩, hw4, rfl⟩ := Option.map_eq_some_iff.mp (Except.ok.inj hdone)
  obtain ⟨⟨ok, sent'⟩, hsend, hr⟩ := Option.map_eq_some_iff.mp hw4
  obtain ⟨rfl, rfl⟩ := Prod.mk.inj hr
  have hall := (sdpSendReq_front hsend).2
  have htid : ((reqBytes pduId session.tid params.flatten).drop 1).take 2 =
      bigEndian 2 session.tid.toNat := by
    change (bigEndian 2 session.tid.toNat ++ _ ++ params.flatten).take 2 = _
    rw [List.append_assoc, List.take_left' (length_bigEndian ..)]
  dsimp only
  rw [← hall]
  cases ok with
  | false => exact ⟨fun h => (by cases h), fun h => absurd h.1 Bool.false_ne_true⟩
  | true =>
    rw [if_pos rfl]
    constructor
    · intro h
      cases hw : w4Rsp x bufs.rsp.junk (reqBytes pduId session.tid params.flatten) with
      | error e => rw [hw] at h; cases h
      | ok bytes =>
        rw [hw] at h
        obtain ⟨hto, got, hrecv, rfl, -, hrsptid⟩ := (w4Rsp_ok_iff ..).mp hw
        obtain ⟨hlen, hid, hvalue⟩ := (hparse ..).mp h
        obtain ⟨plen, rest, hplen, hbytes⟩ := (response_iff bufs.rsp.junk _ rspId session.tid
          (value v)).mpr ⟨hlen, hid, htid ▸ hrsptid, hvalue⟩
        exact ⟨rfl, hto, got, plen, rest, hrecv, hplen, hbytes⟩
    · rintro ⟨-, hto, got, plen, rest, hrecv, hplen, hbytes⟩
      obtain ⟨hlen, hid, hrsptid, hvalue⟩ := (response_iff bufs.rsp.junk
        (got.take sdpRspBufferSize) rspId session.tid (value v)).mp ⟨plen, rest, hplen, hbytes⟩
      have hfive : sizeofPduHdr = 5 := rfl
      have hw := (w4Rsp_ok_iff x bufs.rsp.junk (reqBytes pduId session.tid params.flatten) _).mpr
        ⟨hto, got, hrecv, rfl, by omega, htid.trans hrsptid⟩
      rw [hw]
      exact (hparse ..).mpr ⟨hlen, hid, hvalue⟩

/-- The bytes behind the header, as the parsers read them one by one. -/
theorem rspbuf_params (junk : ℕ → UInt8) {bytes : List UInt8} {n : ℕ}
    (h : sizeofPduHdr + n ≤ bytes.length) :
    (bytes.drop sizeofPduHdr).take n =
      (List.range n).map fun i => rspbuf junk bytes (sizeofPduHdr + i) := by
  refine List.ext_getElem ?_ fun i hi hi' => ?_
  · rw [List.length_take, List.length_drop, List.length_map, List.length_range]
    omega
  · rw [List.length_map, List.length_range] at hi'
    rw [List.getElem_take, List.getElem_drop, List.getElem_map, List.getElem_range]
    exact List.getElem_eq_getD _

theorem parseRegister_iff (junk : ℕ → UInt8) (bytes : List UInt8) (handle : UInt32) :
    parseRegister (rspbuf junk bytes) bytes.length = .ok handle ↔
      sizeofPduHdr + (bigEndian 4 handle.toNat).length ≤ bytes.length ∧
        rspbuf junk bytes 0 = 0x76 ∧
        (bytes.drop sizeofPduHdr).take (bigEndian 4 handle.toNat).length =
          bigEndian 4 handle.toNat := by
  rw [length_bigEndian, parseRegister]
  by_cases hlen : sizeofPduHdr + 4 ≤ bytes.length
  · have hparams := rspbuf_params junk hlen
    have hhdr : ¬ bytes.length < sizeofPduHdr := by omega
    change _ = [rspbuf junk bytes 5, rspbuf junk bytes 6, rspbuf junk bytes 7,
      rspbuf junk bytes 8] at hparams
    rw [if_neg hhdr, ← hparams]
    have hlen4 : ((bytes.drop sizeofPduHdr).take 4).length = 4 := by rw [hparams]; rfl
    have hback : ofBigEndian ((bytes.drop sizeofPduHdr).take 4) < UInt32.size := by
      have := ofBigEndian_lt ((bytes.drop sizeofPduHdr).take 4)
      rwa [hlen4] at this
    by_cases hid : rspbuf junk bytes 0 = 0x76
    · rw [hid, if_neg (by decide), if_neg (not_not.mpr rfl), if_neg (Nat.not_lt.mpr hlen)]
      constructor
      · intro hok
        obtain rfl := Except.ok.inj hok
        refine ⟨hlen, rfl, ?_⟩
        have := bigEndian_ofBigEndian ((bytes.drop sizeofPduHdr).take 4)
        rw [hlen4] at this
        rw [UInt32.toNat_ofNat_of_lt' hback, this]
      · rintro ⟨-, -, hvalue⟩
        rw [hvalue, ofBigEndian_bigEndian_of_lt handle.toNat_lt, UInt32.ofNat_toNat]
    · refine ⟨fun h => ?_, fun h => absurd h.2.1 hid⟩
      rw [if_pos hid] at h
      split at h <;> cases h
  · refine ⟨fun h => ?_, fun h => absurd h.1 hlen⟩
    rw [if_pos (Nat.not_le.mp hlen)] at h
    split at h
    · cases h
    · split at h
      · cases h
      · split at h <;> cases h

theorem parseUnregister_iff (junk : ℕ → UInt8) (bytes : List UInt8) (status : UInt16) :
    parseUnregister (rspbuf junk bytes) bytes.length = .ok status ↔
      sizeofPduHdr + (bigEndian 2 status.toNat).reverse.length ≤ bytes.length ∧
        rspbuf junk bytes 0 = 0x80 ∧
        (bytes.drop sizeofPduHdr).take (bigEndian 2 status.toNat).reverse.length =
          (bigEndian 2 status.toNat).reverse := by
  rw [List.length_reverse, length_bigEndian, parseUnregister]
  by_cases hlen : sizeofPduHdr + 2 ≤ bytes.length
  · have hparams := rspbuf_params junk hlen
    have hreverse : [rspbuf junk bytes 6, rspbuf junk bytes 5] =
        ((bytes.drop sizeofPduHdr).take 2).reverse := by rw [hparams]; rfl
    have hlen2 : ((bytes.drop sizeofPduHdr).take 2).reverse.length = 2 := by
      rw [← hreverse]
      rfl
    have hback : ofBigEndian ((bytes.drop sizeofPduHdr).take 2).reverse < UInt16.size := by
      have := ofBigEndian_lt ((bytes.drop sizeofPduHdr).take 2).reverse
      rwa [hlen2] at this
    rw [if_neg (Nat.not_lt.mpr hlen), hreverse]
    by_cases hid : rspbuf junk bytes 0 = 0x80
    · rw [hid, if_neg (by decide), if_neg (not_not.mpr rfl)]
      constructor
      · intro hok
        obtain rfl := Except.ok.inj hok
        refine ⟨hlen, rfl, ?_⟩
        have := bigEndian_ofBigEndian ((bytes.drop sizeofPduHdr).take 2).reverse
        rw [hlen2] at this
        rw [UInt16.toNat_ofNat_of_lt' hback, this, List.reverse_reverse]
      · rintro ⟨-, -, hvalue⟩
        rw [hvalue, List.reverse_reverse, ofBigEndian_bigEndian_of_lt status.toNat_lt,
          UInt16.ofNat_toNat]
    · refine ⟨fun h => ?_, fun h => absurd h.2.1 hid⟩
      rw [if_pos hid] at h
      split at h <;> cases h
  · refine ⟨fun h => ?_, fun h => absurd h.1 hlen⟩
    rw [if_pos (Nat.not_le.mp hlen)] at h
    cases h

/-! ## Registering and unregistering -/

theorem request_sent {α : Type} (bufs : Buffers) (x : Exchange) (session : Session)
    (pduId : UInt8) (params : List (List UInt8)) (parse : (ℕ → UInt8) → ℕ → Except Errno α)
    (hfit : sizeofPduHdr + params.flatten.length ≤ sdpReqBufferSize) :
    ∃ r, request bufs x session pduId params parse = .ok r ∧
      ∀ done, r = some done → done.sent <+: reqBytes pduId session.tid params.flatten := by
  rw [request]
  split
  · refine ⟨_, rfl, ?_⟩
    rintro done ⟨⟩
    exact List.nil_prefix
  · split
    · refine ⟨_, rfl, ?_⟩
      rintro done ⟨⟩
      exact List.nil_prefix
    · obtain ⟨req, hbuild, hfilled⟩ := (buildReq_spec bufs.req.junk pduId session.tid params).1 hfit
      rw [hbuild]
      refine ⟨_, rfl, fun done hdone => ?_⟩
      obtain ⟨⟨sent, rsp⟩, hw4, rfl⟩ := Option.map_eq_some_iff.mp hdone
      obtain ⟨⟨ok, sent'⟩, hsend, hr⟩ := Option.map_eq_some_iff.mp hw4
      obtain ⟨rfl, -⟩ := Prod.mk.inj hr
      rw [← hfilled]
      exact (sdpSendReq_front hsend).1

/-- A request that returns a value has had its memory. -/
theorem memory_of_result {α : Type} {bufs : Buffers} {x : Exchange} {session : Session}
    {pduId : UInt8} {params : List (List UInt8)} {parse : (ℕ → UInt8) → ℕ → Except Errno α}
    {done : Outcome α} (hdone : request bufs x session pduId params parse = .ok (some done)) {v : α}
    (hv : done.result = .ok v) : bufs.req.ok = true ∧ bufs.rsp.ok = true := by
  rw [request] at hdone
  split at hdone
  · obtain rfl := Option.some.inj (Except.ok.inj hdone)
    cases hv
  · split at hdone
    · obtain rfl := Option.some.inj (Except.ok.inj hdone)
      cases hv
    next hok =>
      rw [Bool.or_eq_true, not_or] at hok
      exact ⟨by simpa using hok.1, by simpa using hok.2⟩

/-- What `sdp_device_record_register_binary` puts behind the header. -/
def registerParams (device : BdAddr) (data : List UInt8) (flags : UInt8) : List UInt8 :=
  if device ≠ bdaddrAny then (flags ||| 0x02) :: (device.b ++ data) else flags :: data

theorem registerBinary_eq (bufs : Buffers) (x : Exchange) (session : Session) (device : BdAddr)
    (data : List UInt8) (flags : UInt8) :
    ∃ params, params.flatten = registerParams device data flags ∧
      sdpDeviceRecordRegisterBinary bufs x session device data flags =
        request bufs x session 0x75 params parseRegister := by
  rw [sdpDeviceRecordRegisterBinary, registerParams]
  by_cases hdev : device ≠ bdaddrAny
  · rw [if_pos hdev, if_pos hdev]
    exact ⟨_, by simp, rfl⟩
  · rw [if_neg hdev, if_neg hdev]
    exact ⟨_, by simp, rfl⟩

/-- Each `send` that does not fail takes something, and there are enough of them for `n` bytes. -/
def Sends (x : Exchange) (n : ℕ) : Prop := (∀ k, some k ∈ x.sends → 0 < k) ∧ n ≤ x.sends.length

theorem request_ends {α : Type} (bufs : Buffers) (x : Exchange) (session : Session) (pduId : UInt8)
    (params : List (List UInt8)) (parse : (ℕ → UInt8) → ℕ → Except Errno α)
    (hfit : sizeofPduHdr + params.flatten.length ≤ sdpReqBufferSize)
    (hsends : Sends x (sizeofPduHdr + params.flatten.length)) :
    ∃ done, request bufs x session pduId params parse = .ok (some done) := by
  rw [request]
  split
  · exact ⟨_, rfl⟩
  split
  · exact ⟨_, rfl⟩
  obtain ⟨req, hbuild, hfilled⟩ := (buildReq_spec bufs.req.junk pduId session.tid params).1 hfit
  have hlen := hsends.2
  rw [← length_reqBytes pduId session.tid params.flatten, ← hfilled] at hlen
  obtain ⟨r, hr⟩ := Option.isSome_iff_exists.mp (sdpSendReq_ends hsends.1 hlen)
  rw [hbuild, ok_bind, sdpSendReqW4Rsp, hr]
  exact ⟨_, rfl⟩

/-- A request that fits its buffer sends a front part of itself, and all of it when a value is
returned, which the response then carries. -/
theorem request_spec {α : Type} {rspId : UInt8} (bufs : Buffers) (x : Exchange) (session : Session)
    (pduId : UInt8) (params : List (List UInt8)) {parse : (ℕ → UInt8) → ℕ → Except Errno α}
    (value : α → List UInt8)
    (hparse : ∀ junk bytes v, parse (rspbuf junk bytes) bytes.length = .ok v ↔
      sizeofPduHdr + (value v).length ≤ bytes.length ∧ rspbuf junk bytes 0 = rspId ∧
        (bytes.drop sizeofPduHdr).take (value v).length = value v)
    (hlocal : session.local' = true)
    (hfit : sizeofPduHdr + params.flatten.length ≤ sdpReqBufferSize) :
    ∃ r, request bufs x session pduId params parse = .ok r ∧
      (Sends x (sizeofPduHdr + params.flatten.length) → r.isSome) ∧
      ∀ done, r = some done → done.sent <+: reqBytes pduId session.tid params.flatten ∧
        ∀ v, done.result = .ok v → done.sent = reqBytes pduId session.tid params.flatten ∧
          Responds x rspId session.tid (value v) := by
  obtain ⟨r, hr, hsent⟩ := request_sent bufs x session pduId params parse hfit
  refine ⟨r, hr, fun hsends => ?_, fun done hdone => ⟨hsent done hdone, fun v hv => ?_⟩⟩
  · obtain ⟨done, hdone⟩ := request_ends bufs x session pduId params parse hfit hsends
    rw [Except.ok.inj (hr.symm.trans hdone)]
    rfl
  · rw [hdone] at hr
    obtain ⟨hreq, hrsp⟩ := memory_of_result hr hv
    exact (request_returns_iff value hparse hlocal hreq hrsp hfit hr v).mp hv

/-- Over fresh memory with any contents a record is registered without a store outside of the
request exactly when it fits the buffer behind the header, and then registering ends if the
server takes the request. A handle is returned exactly when the server was sent the whole
request, with the number of bytes that follow in its header, and its response to this request is
complete and assigns the handle. -/
theorem register_iff {bufs : Buffers} {x : Exchange} {session : Session}
    (hlocal : session.local' = true) (hreq : bufs.req.ok = true) (hrsp : bufs.rsp.ok = true)
    (device : BdAddr) (data : List UInt8) (flags : UInt8) :
    let n := sizeofPduHdr + (registerParams device data flags).length
    let register := sdpDeviceRecordRegisterBinary bufs x session device data flags
    ((∃ r, register = .ok r) ↔ n ≤ sdpReqBufferSize) ∧
    (n ≤ sdpReqBufferSize → Sends x n → ∃ done, register = .ok (some done)) ∧
    ∀ done handle, register = .ok (some done) →
      (done.result = .ok handle ↔
        done.sent = reqBytes 0x75 session.tid (registerParams device data flags) ∧
          Responds x 0x76 session.tid (bigEndian 4 handle.toNat)) := by
  intro n register
  obtain ⟨params, hparams, heq⟩ := registerBinary_eq bufs x session device data flags
  have hover : sdpReqBufferSize < sizeofPduHdr + params.flatten.length →
      request bufs x session 0x75 params parseRegister = .error .range := by
    intro h
    rw [request, hlocal, hreq, hrsp, (buildReq_spec ..).2 h]
    rfl
  subst register n
  rw [heq, ← hparams]
  refine ⟨⟨?_, fun hfit => ?_⟩, request_ends bufs x session _ _ _, fun done handle hdone => ?_⟩
  · rintro ⟨r, hr⟩
    by_contra h
    rw [hover (Nat.not_le.mp h)] at hr
    cases hr
  · obtain ⟨r, hr, -⟩ := request_sent bufs x session 0x75 params parseRegister hfit
    exact ⟨r, hr⟩
  · have hfit : sizeofPduHdr + params.flatten.length ≤ sdpReqBufferSize := by
      by_contra h
      rw [hover (Nat.not_le.mp h)] at hdone
      cases hdone
    exact request_returns_iff (fun handle => bigEndian 4 handle.toNat) parseRegister_iff hlocal
      hreq hrsp hfit hdone handle

theorem register_iff_local :
    let bufs : Buffers := ⟨⟨true, fun _ => 0xcc⟩, ⟨true, fun _ => 0xcc⟩⟩
    let x : Exchange := ⟨List.replicate 8 (some 3), false, some [0x76, 0, 0, 0, 4, 0, 1, 0, 7]⟩
    let n := sizeofPduHdr + (registerParams bdaddrAny [0x35, 0] 1).length
    let register := sdpDeviceRecordRegisterBinary bufs x sdpConnectLocal bdaddrAny [0x35, 0] 1
    ((∃ r, register = .ok r) ↔ n ≤ sdpReqBufferSize) ∧
    (n ≤ sdpReqBufferSize → Sends x n → ∃ done, register = .ok (some done)) ∧
    ∀ done handle, register = .ok (some done) →
      (done.result = .ok handle ↔
        done.sent = reqBytes 0x75 sdpConnectLocal.tid (registerParams bdaddrAny [0x35, 0] 1) ∧
          Responds x 0x76 sdpConnectLocal.tid (bigEndian 4 handle.toNat)) :=
  register_iff rfl rfl rfl bdaddrAny [0x35, 0] 1

theorem register_fresh (reread : Bool) (m : RegisterMallocs) (x : Exchange) (session : Session)
    (attrlist : List Attr) (flags : UInt8) :
    sdpRecordRegister reread m x session ⟨0xffffffff, attrlist⟩ flags =
      if !m.pdu then .ok (some (⟨0xffffffff, attrlist⟩, ⟨session, [], .error .enomem⟩))
      else sdpGenRecordPdu reread m.attrs attrlist >>= fun pdu =>
        sdpDeviceRecordRegisterBinary m.bufs x session bdaddrAny pdu.filled flags >>=
          keepHandle m.after ⟨0xffffffff, attrlist⟩ := rfl

theorem keepHandle_error (m : HandleMallocs) (rec' : SdpRecord) {done : Outcome UInt32} {e : Errno}
    (h : done.result = .error e) : keepHandle m rec' (some done) = .ok (some (rec', done)) := by
  rw [keepHandle, h]

/-- With memory the record holds the handle. -/
theorem keepHandle_ok {m : HandleMallocs} (hdata : m.data = true) (hnode : m.node = true)
    (rec' : SdpRecord) (hordered : Ordered rec'.attrlist) {done : Outcome UInt32} {handle : UInt32}
    (h : done.result = .ok handle) :
    ∃ attrlist, keepHandle m rec' (some done) = .ok (some (⟨handle, attrlist⟩, done)) ∧
      sdpDataGet attrlist 0 = some (.num .uint32 handle.toBitVec .null) := by
  obtain ⟨e, hrun, -⟩ | ⟨attrlist, hrun, -, heffect⟩ :=
    attrOp_step hordered (.replace true 0 (.num .uint32 handle.toBitVec .null))
  · rw [AttrOp.run, sdpAttrReplace, if_neg SdpData.noConfusion] at hrun
    cases hrun
  · rw [AttrOp.run] at hrun
    rw [AttrOp.effect, put, if_neg SdpData.noConfusion, if_pos rfl] at heffect
    refine ⟨attrlist, ?_, ?_⟩
    · rw [keepHandle, h]
      dsimp only
      rw [setHandleAttr, hdata, hnode, if_pos rfl, hrun]
      rfl
    · rw [← Except.ok.inj heffect, Function.update_self]

/-- The handle 0 is refused before anything is sent. -/
theorem unregister_spec (handle : UInt32) (bufs : Buffers) (x : Exchange) :
    ∃ r, sdpDeviceRecordUnregisterBinary bufs x sdpConnectLocal handle = .ok r ∧
      (Sends x sdpReqBufferSize → r.isSome) ∧
      ∀ done, r = some done → done.sent <+: reqBytes 0x79 0 (bigEndian 4 handle.toNat) ∧
        ∀ status : UInt16, done.result = .ok status →
          done.sent = reqBytes 0x79 0 (bigEndian 4 handle.toNat) ∧
            Responds x 0x80 0 (bigEndian 2 status.toNat).reverse := by
  rw [sdpDeviceRecordUnregisterBinary]
  by_cases hzero : handle = 0
  · rw [if_pos hzero]
    refine ⟨some _, rfl, fun _ => rfl, ?_⟩
    rintro done ⟨⟩
    exact ⟨List.nil_prefix, fun status h => by cases h⟩
  · have hflat : [bigEndian 4 handle.toNat].flatten = bigEndian 4 handle.toNat :=
      List.append_nil _
    have hfit : sizeofPduHdr + [bigEndian 4 handle.toNat].flatten.length ≤ sdpReqBufferSize := by
      rw [hflat, length_bigEndian]
      decide
    obtain ⟨r, hr, hends, hdone⟩ := request_spec bufs x sdpConnectLocal 0x79
      [bigEndian 4 handle.toNat] (fun status : UInt16 => (bigEndian 2 status.toNat).reverse)
      parseUnregister_iff rfl hfit
    rw [hflat] at hdone
    rw [if_neg hzero]
    exact ⟨r, hr, fun h => hends ⟨h.1, Nat.le_trans hfit h.2⟩, hdone⟩

/-- What registering the record of a device comes to, with the handle that is returned. -/
structure Registered (pdu : List UInt8) (x : Exchange) (attrlist : List Attr)
    (rec' : SdpRecord) (done : Outcome UInt32) : Prop where
  /-- The server has been sent the request, or a front part of it. -/
  front : done.sent <+: reqBytes 0x75 0 (0x01 :: pdu)
  failed : ∀ e, done.result = .error e → rec' = ⟨0xffffffff, attrlist⟩
  assigned : ∀ handle, done.result = .ok handle →
    done.sent = reqBytes 0x75 0 (0x01 :: pdu) ∧ Responds x 0x76 0 (bigEndian 4 handle.toNat) ∧
      rec'.handle = handle ∧
      sdpDataGet rec'.attrlist 0 = some (.num .uint32 handle.toBitVec .null)

/-- Registering a record that has been generated. -/
theorem register_generated {reread : Bool} {m : RegisterMallocs} (hdata : m.after.data = true)
    (hnode : m.after.node = true) (x : Exchange) {attrlist : List Attr} (hordered : Ordered attrlist)
    {pdu : SdpBuf} (hgen : sdpGenRecordPdu reread m.attrs attrlist = .ok pdu)
    (hlen : pdu.filled.length + 6 ≤ sdpReqBufferSize) :
    ∃ r, sdpRecordRegister reread m x sdpConnectLocal ⟨0xffffffff, attrlist⟩ 0x01 = .ok r ∧
      (Sends x (pdu.filled.length + 6) → r.isSome) ∧
      ∀ rec' done, r = some (rec', done) →
        Registered pdu.filled x attrlist rec' done := by
  obtain ⟨params, hparams, hrequest⟩ := registerBinary_eq m.bufs x sdpConnectLocal bdaddrAny
    pdu.filled 0x01
  rw [registerParams, if_neg (not_not.mpr rfl)] at hparams
  have hsize : sizeofPduHdr + params.flatten.length = pdu.filled.length + 6 := by
    rw [hparams, List.length_cons, sizeofPduHdr]
    omega
  have hfit : sizeofPduHdr + params.flatten.length ≤ sdpReqBufferSize := by rwa [hsize]
  obtain ⟨done, hdone, hends, hsent⟩ := request_spec m.bufs x sdpConnectLocal 0x75
    params (fun handle : UInt32 => bigEndian 4 handle.toNat) parseRegister_iff rfl hfit
  rw [hsize] at hends
  rw [hparams] at hsent
  rw [register_fresh]
  by_cases hpdu : m.pdu = true
  · rw [hpdu, Bool.not_true, if_neg Bool.false_ne_true, hgen, ok_bind, hrequest, hdone, ok_bind]
    cases done with
    | none => exact ⟨none, rfl, hends, fun _ _ h => by cases h⟩
    | some done =>
      obtain ⟨hall, hwhole⟩ := hsent done rfl
      cases hresult : done.result with
      | error e =>
        rw [keepHandle_error m.after _ hresult]
        refine ⟨_, rfl, fun _ => rfl, ?_⟩
        rintro rec' done' ⟨⟩
        refine ⟨hall, fun _ _ => rfl, fun handle hhandle => ?_⟩
        rw [hresult] at hhandle
        cases hhandle
      | ok handle =>
        obtain ⟨attrlist', hkeep, hfound⟩ := keepHandle_ok hdata hnode ⟨0xffffffff, attrlist⟩
          hordered hresult
        rw [hkeep]
        refine ⟨_, rfl, fun _ => rfl, ?_⟩
        rintro rec' done' ⟨⟩
        refine ⟨hall, fun e he => (by cases hresult.symm.trans he), fun handle' hhandle => ?_⟩
        obtain rfl := Except.ok.inj (hresult.symm.trans hhandle)
        exact ⟨(hwhole _ hresult).1, (hwhole _ hresult).2, rfl, hfound⟩
  · rw [Bool.eq_false_iff.mpr hpdu]
    refine ⟨_, rfl, fun _ => rfl, ?_⟩
    rintro rec' done' ⟨⟩
    exact ⟨List.nil_prefix, fun _ _ => rfl, fun _ h => by cases h⟩

end Android2Mouse.Guarantees.SdpRegistration
