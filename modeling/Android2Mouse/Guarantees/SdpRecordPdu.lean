import Android2Mouse.Guarantees.SdpEncoding
import Android2Mouse.Source.SdpRecord

/-!
# The encoding of a record and the memory it needs

Every attribute is encoded without a store outside its own memory. The memory for the
record as a whole is the sum of what the attributes ask for, in which the header of the
record is forgotten: it fits because every element nested in a sequence asks for three
bytes too many.
-/
namespace Android2Mouse.Guarantees.SdpRecordPdu
open Library Source.Sdp SdpEncoding

/-! ## What the bytes should be -/

/-- Identifier and value of one attribute. -/
def attrBytes (a : Attr) : List UInt8 :=
  NumDtd.uint16.code :: bigEndian 2 a.attrId.toNat ++ encode (widen (a.data.setNext .null))

/-- The descriptor of a record: the longer one as soon as the record would have more than
255 bytes with the shorter. -/
def recordDtd (n : ℕ) : SeqDtd := if 253 < n then .seq16 else .seq8

theorem recordDtd_cases (n : ℕ) : recordDtd n = .seq8 ∨ recordDtd n = .seq16 := by
  unfold recordDtd
  split
  · exact .inr rfl
  · exact .inl rfl

/-- A record of which the attributes have the bytes `body`. -/
def recordBytes (body : List UInt8) : List UInt8 :=
  if body = [] then []
  else (recordDtd body.length).code :: bigEndian (recordDtd body.length).width body.length ++ body

theorem length_recordBytes {body : List UInt8} (h : body ≠ []) :
    (recordBytes body).length = (recordDtd body.length).typeSize + body.length := by
  rw [recordBytes, if_neg h, List.length_append, List.length_cons, length_bigEndian,
    SeqDtd.typeSize, Nat.add_comm 1]

/-! ## One attribute -/

theorem sdpGenPdu_spec {d : SdpData} (hd : d ≠ .null) (buf : SdpBuf)
    (hroom : buf.dataSize + (encode (widen (d.setNext .null))).length ≤ buf.data.length) :
    ∃ buf', sdpGenPdu d buf = .ok ⟨widen (d.setNext .null), buf',
        (encode (widen (d.setNext .null))).length⟩ ∧
      Region.Extends (encode (widen (d.setNext .null))) buf buf' := by
  have hdepth : (d.setNext .null).depth ≤ d.depth := by
    cases d with
    | null => exact Nat.le_refl _
    | num => exact Nat.zero_le _
    | str => exact Nat.zero_le _
    | seq dtd dataseq next => exact max_le (le_max_left ..) (Nat.zero_le _)
  have heq : sdpGenPdu d buf = getDataSize (genSeq d.depth) (d.setNext .null) buf := by
    cases d with
    | null => exact absurd rfl hd
    | num => rfl
    | str => rfl
    | seq => rfl
  rw [heq]
  exact getDataSize_spec _ hdepth buf hroom

theorem sdpSetAttrid_spec (data : List UInt8) (attr : UInt16) (h : 3 ≤ data.length) :
    ∃ buf, sdpSetAttrid ⟨data, 0⟩ attr = .ok buf ∧
      Region.Extends (NumDtd.uint16.code :: bigEndian 2 attr.toNat) ⟨data, 0⟩ buf := by
  have hstore := Region.store_store (⟨data, 0⟩ : SdpBuf) 0 [NumDtd.uint16.code]
    (bigEndian 2 attr.toNat) (by rw [length_bigEndian]; exact h)
  obtain ⟨buf, hbuf, hext⟩ := Region.store_end (⟨data, 0⟩ : SdpBuf)
    (NumDtd.uint16.code :: bigEndian 2 attr.toNat) (by rw [List.length_cons, length_bigEndian]; omega)
  have hsize : buf.dataSize = 0 := by
    have := hext.dataSize_eq
    rw [Region.reserve_dataSize] at this
    exact Nat.add_right_cancel (this.trans (Nat.zero_add _).symm)
  refine ⟨buf.reserve 3, ?_, hext⟩
  rw [List.singleton_append, hbuf] at hstore
  rw [sdpSetAttrid]
  change ((⟨data, 0⟩ : SdpBuf).store 0 [NumDtd.uint16.code] >>= fun buf =>
    buf.store (0 + 1) (bigEndian 2 attr.toNat) >>= fun buf => .ok { buf with dataSize := 3 }) = _
  rw [← bind_assoc]
  rw [show ((⟨data, 0⟩ : SdpBuf).store 0 [NumDtd.uint16.code] >>= fun buf =>
    buf.store (0 + 1) (bigEndian 2 attr.toNat)) = .ok buf from hstore, ok_bind, Region.reserve, hsize]

section

variable (reread : Bool) (mallocs : UInt16 → Malloc UInt8)

/-- The memory for one attribute is always enough, so that what is appended to the record is
exactly the bytes of the attribute. -/
theorem sdpAppendToPdu_eq (pdu : SdpBuf) {a : Attr} (ha : a.data ≠ .null)
    (hok : (mallocs a.attrId).ok = true) :
    sdpAppendToPdu reread mallocs pdu a = sdpAppendToBuf pdu (attrBytes a) := by
  have hcount : 1 ≤ count (a.data.setNext .null) := by
    cases hd : a.data with
    | null => exact absurd hd ha
    | num => exact Nat.le_add_right ..
    | str => exact Nat.le_add_right ..
    | seq => rw [SdpData.setNext, count]; omega
  have hsize := le_bufferSizes reread (a.data.setNext .null) 0
  have hfst := bufferSizes_fst reread (a.data.setNext .null) 0
  have hlen : ((List.range (a.data.genBuffer reread 0)).map (mallocs a.attrId).junk).length =
      a.data.genBuffer reread 0 := by rw [List.length_map, List.length_range]
  have hgen : a.data.genBuffer reread 0 = (bufferSizes reread (a.data.setNext .null) 0).1 := rfl
  obtain ⟨b, hb, hext⟩ := sdpSetAttrid_spec
    ((List.range (a.data.genBuffer reread 0)).map (mallocs a.attrId).junk) a.attrId (by omega)
  have hbsize : b.dataSize = 3 := hext.dataSize_eq.trans (by rw [List.length_cons, length_bigEndian])
  obtain ⟨b', hb', hext'⟩ := sdpGenPdu_spec ha b (by rw [hbsize, hext.data_length]; dsimp only; omega)
  have hfilled : b'.filled = attrBytes a := (hext.trans hext').filled_eq
  rw [sdpAppendToPdu, hok, if_neg (by decide)]
  dsimp only
  rw [hb, ok_bind, hb', ok_bind, hfilled]

/-- Without memory for it an attribute is left out of the record. -/
theorem sdpAppendToPdu_dropped (pdu : SdpBuf) {a : Attr} (hok : (mallocs a.attrId).ok = false) :
    sdpAppendToPdu reread mallocs pdu a = .ok pdu := by
  rw [sdpAppendToPdu, hok]
  rfl

end

/-! ## Appending to the record -/

/-- The record so far: the attributes with the bytes `body`, or zeroed memory. -/
structure Holds (body : List UInt8) (dst : SdpBuf) : Prop where
  dataSize_eq : dst.dataSize = (recordBytes body).length
  filled_eq : dst.filled = recordBytes body
  fits : dst.dataSize ≤ dst.data.length
  zeroed : body = [] → ∀ b ∈ dst.data, b = 0

/-- A sequence with the bytes `body`, of which the size is yet to be put in. -/
structure Headed (dtd : SeqDtd) (body : List UInt8) (dst : SdpBuf) : Prop where
  dataSize_eq : dst.dataSize = dtd.typeSize + body.length
  filled_eq : ∃ size, size.length = dtd.width ∧ dst.filled = dtd.code :: size ++ body
  fits : dst.dataSize ≤ dst.data.length

theorem firstByte_of_filled {dst : SdpBuf} {b : UInt8} {rest : List UInt8}
    (h : dst.filled = b :: rest) : firstByte dst = .ok b := by
  cases hdata : dst.data with
  | nil =>
    rw [Region.filled, hdata, List.take_nil] at h
    cases h
  | cons c cs =>
    rw [Region.filled, hdata] at h
    cases hsize : dst.dataSize with
    | zero => rw [hsize] at h; cases h
    | succ n =>
      rw [hsize] at h
      rw [firstByte, hdata]
      exact congrArg Except.ok (List.cons.inj h).1

theorem Headed.firstByte_eq {dtd : SeqDtd} {body : List UInt8} {dst : SdpBuf}
    (h : Headed dtd body dst) : firstByte dst = .ok dtd.code := by
  obtain ⟨size, _, hfilled⟩ := h.filled_eq
  exact firstByte_of_filled hfilled

theorem putSize_eq (dst : SdpBuf) {dtd : SeqDtd} (h : dtd = .seq8 ∨ dtd = .seq16) :
    putSize dst dtd.code = dst.store 1 (bigEndian dtd.width (dst.dataSize - dtd.typeSize)) := by
  rcases h with rfl | rfl <;> rfl

/-- Putting in the size ends the record. -/
theorem putSize_spec {body : List UInt8} {dst : SdpBuf} (hbody : body ≠ [])
    (h : Headed (recordDtd body.length) body dst) :
    ∃ dst', putSize dst (recordDtd body.length).code = .ok dst' ∧ Holds body dst' ∧
      dst'.data.length = dst.data.length := by
  obtain ⟨size, hsize, hfilled⟩ := h.filled_eq
  have hput : putSize dst (recordDtd body.length).code =
      dst.store 1 (bigEndian (recordDtd body.length).width body.length) := by
    rw [putSize_eq dst (recordDtd_cases _), h.dataSize_eq, Nat.add_sub_cancel_left]
  obtain ⟨dst', hstore, hlen, hsize', hfilled'⟩ := Region.store_filled dst 1
    (bigEndian (recordDtd body.length).width body.length)
    (by rw [length_bigEndian, h.dataSize_eq, SeqDtd.typeSize]; omega) h.fits
  refine ⟨dst', hput.trans hstore, ⟨?_, ?_, ?_, fun hnil => absurd hnil hbody⟩, hlen⟩
  · rw [hsize', h.dataSize_eq, length_recordBytes hbody]
  · rw [hfilled', hfilled, recordBytes, if_neg hbody, splice, length_bigEndian, ← hsize,
      Nat.add_comm 1, List.cons_append, List.drop_succ_cons, List.drop_left]
    rfl
  · rw [hsize', hlen]
    exact h.fits

/-- A record that outgrows the shorter descriptor is moved by one byte. -/
theorem outgrow_spec {n : ℕ} {body : List UInt8} {dst : SdpBuf} (hn : n ≤ body.length)
    (h : Headed (recordDtd n) body dst)
    (hroom : (recordDtd body.length).typeSize + body.length ≤ dst.data.length) :
    ∃ dst', outgrow dst (recordDtd n).code = .ok dst' ∧
      Headed (recordDtd body.length) body dst' ∧ dst'.data.length = dst.data.length := by
  by_cases hlong : 253 < body.length ∧ ¬ 253 < n
  · have hbefore : recordDtd n = .seq8 := if_neg hlong.2
    have hafter : recordDtd body.length = .seq16 := if_pos hlong.1
    rw [hbefore] at h ⊢
    rw [hafter] at hroom ⊢
    have hsize : dst.dataSize = 2 + body.length := h.dataSize_eq
    have hroom : 3 + body.length ≤ dst.data.length := hroom
    obtain ⟨size, hwidth, hfilled⟩ := h.filled_eq
    have hbody : dst.filled.drop 2 = body := by
      rw [hfilled, List.drop_left' (by rw [List.length_cons, hwidth]; rfl)]
    have hmoved : (splice dst.data 3 body).take (3 + body.length) = dst.data.take 3 ++ body := by
      rw [Region.take_splice _ _ (Nat.le_refl _) hroom,
        List.drop_of_length_le (List.length_take_le ..), List.append_nil]
    have hlen := splice_length dst.data 3 body hroom
    refine ⟨Region.reserve ⟨splice (splice dst.data 3 body) 0 [SeqDtd.seq16.code], dst.dataSize⟩ 1,
      ?_, ⟨?_, ⟨(dst.data.take 3).drop 1, ?_, ?_⟩, ?_⟩, ?_⟩
    · rw [outgrow, if_pos ⟨by omega, rfl⟩, hbody, Region.store_ok dst hroom, ok_bind,
        Region.store_ok _ (by rw [hlen, List.length_singleton]; omega)]
      rfl
    · rw [Region.reserve_dataSize, hsize, Nat.add_right_comm]
      rfl
    · rw [List.length_drop, List.length_take_of_le (by omega)]
      rfl
    · rw [Region.filled, Region.reserve_data, Region.reserve_dataSize, hsize, Nat.add_right_comm,
        Region.take_splice _ _ (by rw [List.length_singleton]; omega) (by rw [hlen]; omega), hmoved,
        List.drop_append_of_le_length (by rw [List.length_take_of_le (by omega)]; decide)]
      rfl
    · rw [Region.reserve_dataSize, Region.reserve_data, splice_length _ _ _ (by
        rw [hlen, List.length_singleton]; omega), hlen]
      change dst.dataSize + 1 ≤ dst.data.length
      omega
    · rw [Region.reserve_data, splice_length _ _ _ (by rw [hlen, List.length_singleton]; omega), hlen]
  · have hsame : recordDtd n = recordDtd body.length := by
      unfold recordDtd
      by_cases hn' : 253 < n
      · rw [if_pos hn', if_pos (by omega)]
      · rw [if_neg hn', if_neg (fun h => hlong ⟨h, hn'⟩)]
    refine ⟨dst, ?_, hsame ▸ h, rfl⟩
    rw [outgrow, if_neg]
    · rfl
    rintro ⟨hsize, hcode⟩
    have hshort : ¬ 253 < n := by
      intro hn'
      rw [recordDtd, if_pos hn'] at hcode
      exact absurd hcode (by decide)
    have hseq8 : recordDtd n = .seq8 := if_neg hshort
    rw [h.dataSize_eq, hseq8] at hsize
    exact hlong ⟨by change 255 < 2 + body.length at hsize; omega, hshort⟩

/-- The record that is begun, or the one that is there. -/
theorem createSequence_spec {body : List UInt8} {dst : SdpBuf} (h : Holds body dst)
    (hroom : 2 + body.length ≤ dst.data.length) :
    ∃ dtd dst', firstByte dst = .ok dtd ∧ createSequence dst dtd = .ok dst' ∧
      Headed (recordDtd body.length) body dst' ∧ dst'.data.length = dst.data.length := by
  by_cases hbody : body = []
  · subst hbody
    have hsize : dst.dataSize = 0 := h.dataSize_eq
    have hroom : 2 ≤ dst.data.length := hroom
    refine ⟨0, ⟨splice dst.data 0 [SeqDtd.seq8.code], 2⟩, ?_, ?_, ⟨rfl, ?_, ?_⟩, ?_⟩
    · cases hdata : dst.data with
      | nil => rw [hdata] at hroom; cases hroom
      | cons b bs =>
        rw [firstByte, hdata, h.zeroed rfl b (by rw [hdata]; exact List.mem_cons_self)]
    · rw [createSequence, if_pos ⟨hsize, rfl⟩, Region.store_ok dst (by
        rw [List.length_singleton]; omega)]
      rfl
    · refine ⟨(dst.data.take 2).drop 1, ?_, ?_⟩
      · rw [List.length_drop, List.length_take_of_le hroom]
        rfl
      · rw [Region.filled, Region.take_splice _ _ (by decide) hroom, List.append_nil]
        rfl
    · rw [splice_length _ _ _ (by rw [List.length_singleton]; omega)]
      exact hroom
    · exact splice_length _ _ _ (by rw [List.length_singleton]; omega)
  · have hfilled := h.filled_eq
    rw [recordBytes, if_neg hbody] at hfilled
    refine ⟨_, dst, firstByte_of_filled hfilled, ?_, ⟨?_, ⟨_, length_bigEndian .., hfilled⟩, h.fits⟩,
      rfl⟩
    · rw [createSequence, if_neg]
      · rfl
      rintro ⟨-, hcode⟩
      rcases recordDtd_cases body.length with hdtd | hdtd <;> rw [hdtd] at hcode <;>
        exact absurd hcode (by decide)
    · rw [h.dataSize_eq, length_recordBytes hbody]

/-- Appending an attribute to a record that has the room leaves the longer record. -/
theorem sdpAppendToBuf_spec {body new : List UInt8} {dst : SdpBuf} (h : Holds body dst)
    (hnew : new ≠ []) (hroom : (recordBytes (body ++ new)).length ≤ dst.data.length) :
    ∃ dst', sdpAppendToBuf dst new = .ok dst' ∧ Holds (body ++ new) dst' ∧
      dst'.data.length = dst.data.length := by
  have hne : body ++ new ≠ [] := List.append_ne_nil_of_right_ne_nil body hnew
  rw [length_recordBytes hne] at hroom
  have hle : (recordDtd body.length).typeSize ≤ (recordDtd (body ++ new).length).typeSize := by
    rw [List.length_append]
    unfold recordDtd
    split <;> split <;> first | decide | omega
  have htwo : 2 ≤ (recordDtd body.length).typeSize := by
    rcases recordDtd_cases body.length with hdtd | hdtd <;> rw [hdtd] <;> decide
  have hlen : (body ++ new).length = body.length + new.length := List.length_append
  obtain ⟨dtd, d, hfirst, hcreate, hd, hdlen⟩ := createSequence_spec h (by omega)
  have hdsize := hd.dataSize_eq
  obtain ⟨size, hsize, hfilled⟩ := hd.filled_eq
  obtain ⟨e, hstore, hext⟩ := Region.store_end d new (by omega)
  have hesize := hext.dataSize_eq
  have helen := hext.data_length
  have hheaded : Headed (recordDtd body.length) (body ++ new) (e.reserve new.length) := by
    refine ⟨by omega, ⟨size, hsize, ?_⟩, by omega⟩
    rw [hext.filled_eq, hfilled, List.append_assoc]
  obtain ⟨f, houtgrow, hf, hflen⟩ := outgrow_spec (by omega) hheaded (by omega)
  obtain ⟨g, hput, hg, hglen⟩ := putSize_spec hne hf
  refine ⟨g, ?_, hg, by omega⟩
  rw [sdpAppendToBuf, hfirst, ok_bind, hcreate, ok_bind, hstore, ok_bind]
  dsimp only
  rw [hheaded.firstByte_eq, ok_bind, houtgrow, ok_bind, hf.firstByte_eq, ok_bind, hput]

/-- Without two bytes there is no room for the header. -/
theorem sdpAppendToBuf_fault_begin {new : List UInt8} {dst : SdpBuf} (h : Holds [] dst)
    (hnew : new ≠ []) (hroom : dst.data.length < 2) : sdpAppendToBuf dst new = .error .range := by
  have hpos : 0 < new.length := List.length_pos_iff.mpr hnew
  have hsize : dst.dataSize = 0 := h.dataSize_eq
  rw [sdpAppendToBuf]
  cases hdata : dst.data with
  | nil => rw [firstByte, hdata]; rfl
  | cons b bs =>
    have hone : 0 + [SeqDtd.seq8.code].length ≤ dst.data.length := by
      rw [hdata]
      exact Nat.le_add_left ..
    have hb : b = 0 := h.zeroed rfl b (by rw [hdata]; exact .head _)
    have hfirst : firstByte dst = .ok b := by rw [firstByte, hdata]
    have hcreate : createSequence dst b = .ok ⟨splice dst.data 0 [SeqDtd.seq8.code], 2⟩ := by
      rw [createSequence, if_pos ⟨hsize, hb⟩, Region.store_ok dst hone]
      rfl
    rw [hfirst, ok_bind, hcreate, ok_bind, Region.store_fault]
    · rfl
    · rw [splice_length _ _ _ hone]
      change _ < 2 + new.length
      omega

/-- Without one more byte the longer header has no room. -/
theorem outgrow_fault {body : List UInt8} {dst : SdpBuf} (h : Headed .seq8 body dst)
    (hlong : 253 < body.length) (hroom : dst.data.length < 3 + body.length) :
    outgrow dst SeqDtd.seq8.code = .error .range := by
  have hsize : dst.dataSize = 2 + body.length := h.dataSize_eq
  obtain ⟨size, hwidth, hfilled⟩ := h.filled_eq
  have hbody : dst.filled.drop 2 = body := by
    rw [hfilled, List.drop_left' (by rw [List.length_cons, hwidth]; rfl)]
  rw [outgrow, if_pos ⟨by omega, rfl⟩, hbody, Region.store_fault dst (by omega)]
  rfl

/-- Without the room some store leaves the memory. -/
theorem sdpAppendToBuf_fault {body new : List UInt8} {dst : SdpBuf} (h : Holds body dst)
    (hnew : new ≠ []) (hroom : dst.data.length < (recordBytes (body ++ new)).length) :
    sdpAppendToBuf dst new = .error .range := by
  have hne : body ++ new ≠ [] := List.append_ne_nil_of_right_ne_nil body hnew
  rw [length_recordBytes hne] at hroom
  have hlen : (body ++ new).length = body.length + new.length := List.length_append
  by_cases hbegin : 2 + body.length ≤ dst.data.length
  · obtain ⟨dtd, d, hfirst, hcreate, hd, hdlen⟩ := createSequence_spec h hbegin
    have hdsize := hd.dataSize_eq
    obtain ⟨size, hsize, hfilled⟩ := hd.filled_eq
    rw [sdpAppendToBuf, hfirst, ok_bind, hcreate, ok_bind]
    by_cases hstore : d.dataSize + new.length ≤ d.data.length
    · obtain ⟨e, he, hext⟩ := Region.store_end d new hstore
      have hesize := hext.dataSize_eq
      have helen := hext.data_length
      have hheaded : Headed (recordDtd body.length) (body ++ new) (e.reserve new.length) := by
        refine ⟨by omega, ⟨size, hsize, ?_⟩, by omega⟩
        rw [hext.filled_eq, hfilled, List.append_assoc]
      -- there was room for the shorter header, so that the record has outgrown it
      have hgrown : 253 < (body ++ new).length ∧ ¬ 253 < body.length := by
        by_contra hsame
        have : recordDtd (body ++ new).length = recordDtd body.length := by
          unfold recordDtd
          split <;> split <;> first | rfl | omega
        rw [this] at hroom
        omega
      rw [recordDtd, if_pos hgrown.1] at hroom
      have hdtd : recordDtd body.length = .seq8 := if_neg hgrown.2
      rw [hdtd] at hheaded
      rw [he, ok_bind]
      dsimp only
      rw [hheaded.firstByte_eq, ok_bind, outgrow_fault hheaded hgrown.1 (by
        change _ < 3 + _ at hroom; omega)]
      rfl
    · rw [Region.store_fault d (by omega)]
      rfl
  · have hbody : body = [] := by
      by_contra hbody
      have hfits := h.fits
      rw [h.dataSize_eq, length_recordBytes hbody] at hfits
      have : 2 ≤ (recordDtd body.length).typeSize := by
        rcases recordDtd_cases body.length with hdtd | hdtd <;> rw [hdtd] <;> decide
      omega
    subst hbody
    exact sdpAppendToBuf_fault_begin h hnew (by rw [List.length_nil] at hbegin; omega)

/-! ## The whole record -/

theorem length_recordBytes_mono {xs ys : List UInt8} (h : xs.length ≤ ys.length) :
    (recordBytes xs).length ≤ (recordBytes ys).length := by
  by_cases hxs : xs = []
  · rw [hxs]
    exact Nat.zero_le _
  · have hys : ys ≠ [] := by
      rintro rfl
      exact hxs (List.length_eq_zero_iff.mp (Nat.le_zero.mp h))
    rw [length_recordBytes hxs, length_recordBytes hys]
    have : (recordDtd xs.length).typeSize ≤ (recordDtd ys.length).typeSize := by
      unfold recordDtd
      split <;> split <;> first | decide | omega
    omega

section

variable (reread : Bool) (mallocs : UInt16 → Malloc UInt8)

/-- The bytes of the attributes that get memory. -/
def body (attrlist : List Attr) : List UInt8 :=
  (attrlist.filter fun a => (mallocs a.attrId).ok).flatMap attrBytes

theorem attrBytes_ne_nil (a : Attr) : attrBytes a ≠ [] := by simp [attrBytes]

theorem body_cons (a : Attr) (attrlist : List Attr) :
    body mallocs (a :: attrlist) =
      (if (mallocs a.attrId).ok then attrBytes a else []) ++ body mallocs attrlist := by
  by_cases hok : (mallocs a.attrId).ok <;> simp [body, hok]

/-- The record grows attribute by attribute, as long as there is room. -/
theorem foldlM_appendToPdu {attrlist : List Attr} (hdata : ∀ a ∈ attrlist, a.data ≠ .null)
    {done : List UInt8} {dst : SdpBuf} (h : Holds done dst) :
    if (recordBytes (done ++ body mallocs attrlist)).length ≤ dst.data.length then
      ∃ buf, attrlist.foldlM (sdpAppendToPdu reread mallocs) dst = .ok buf ∧
        Holds (done ++ body mallocs attrlist) buf
    else attrlist.foldlM (sdpAppendToPdu reread mallocs) dst = .error .range := by
  induction attrlist generalizing done dst with
  | nil =>
    rw [body, List.filter_nil, List.flatMap_nil, List.append_nil, if_pos (h.dataSize_eq ▸ h.fits)]
    exact ⟨dst, rfl, h⟩
  | cons a attrlist ih =>
    have hrest := fun b hb => hdata b (List.mem_cons_of_mem a hb)
    rw [List.foldlM_cons]
    by_cases hok : (mallocs a.attrId).ok
    · rw [body_cons, if_pos hok, ← List.append_assoc,
        sdpAppendToPdu_eq reread mallocs dst (hdata a (.head _)) hok]
      by_cases hroom : (recordBytes (done ++ attrBytes a)).length ≤ dst.data.length
      · obtain ⟨d, hd, hholds, hlen⟩ := sdpAppendToBuf_spec h (attrBytes_ne_nil a) hroom
        rw [hd, ok_bind, ← hlen]
        exact ih hrest hholds
      · have hmono : (recordBytes (done ++ attrBytes a)).length ≤
            (recordBytes (done ++ attrBytes a ++ body mallocs attrlist)).length :=
          length_recordBytes_mono (by simp)
        rw [sdpAppendToBuf_fault h (attrBytes_ne_nil a) (by omega), if_neg (by omega)]
        rfl
    · rw [body_cons, if_neg hok, List.nil_append,
        sdpAppendToPdu_dropped reread mallocs dst (Bool.eq_false_iff.mpr hok), ok_bind]
      exact ih hrest h

/-- No more than the bytes of all attributes. -/
theorem length_body_le (attrlist : List Attr) :
    (body mallocs attrlist).length ≤ (attrlist.flatMap attrBytes).length := by
  induction attrlist with
  | nil => exact Nat.le_refl _
  | cons a attrlist ih =>
    rw [body_cons, List.flatMap_cons, List.length_append, List.length_append]
    split
    · omega
    · rw [List.length_nil]
      omega

theorem body_eq_of_ok {attrlist : List Attr} (hok : ∀ a ∈ attrlist, (mallocs a.attrId).ok = true) :
    body mallocs attrlist = attrlist.flatMap attrBytes := by
  rw [body, List.filter_eq_self.mpr hok]

/-! ## What is asked for the record -/

/-- A sequence with an element in it. -/
def Nested : SdpData → Prop
  | .seq _ dataseq _ => dataseq ≠ .null
  | _ => False

/-- An integer, a uuid or a string. -/
def Plain : SdpData → Prop
  | .num dtd _ _ => dtd ≠ .dataNil
  | .str _ _ _ => True
  | _ => False

instance (d : SdpData) : Decidable (Nested d) := by
  cases d <;> unfold Nested <;> infer_instance

theorem length_attrBytes (a : Attr) :
    (attrBytes a).length = 3 + (encode (widen (a.data.setNext .null))).length := by
  rw [attrBytes, List.length_append, List.length_cons, length_bigEndian]

theorem count_pos {d : SdpData} (hd : d ≠ .null) : 1 ≤ count d := by
  cases d with
  | null => exact absurd rfl hd
  | num => exact Nat.le_add_right ..
  | str => exact Nat.le_add_right ..
  | seq => rw [count]; omega

theorem count_alone {d : SdpData} (hd : d ≠ .null) :
    (if Nested d then 2 else 1) ≤ count (d.setNext .null) := by
  cases d with
  | null => exact absurd rfl hd
  | num => exact Nat.le_refl _
  | str => exact Nat.le_refl _
  | seq dtd dataseq next =>
    rw [SdpData.setNext, count]
    split
    next h => have := count_pos h; omega
    next => omega

/-- What an attribute asks for: its bytes at least, and three more if it is nested. -/
theorem le_genBuffer {a : Attr} (ha : a.data ≠ .null) (s : ℕ) :
    s + (attrBytes a).length + (if Nested a.data then 3 else 0) ≤ a.data.genBuffer reread s := by
  have hcount := count_alone ha
  have hsizes := le_bufferSizes reread (a.data.setNext .null) s
  rw [SdpData.genBuffer, bufferSizes_fst, length_attrBytes]
  split at hcount
  next h => rw [if_pos h]; omega
  next h => rw [if_neg h]; omega

theorem sdpGenBuffer_plain {code : UInt8} (h0 : code ≠ 0) (h8 : code ≠ SeqDtd.seq8.code)
    (typeSize n s : ℕ) :
    sdpGenBuffer reread code typeSize (fun s => (s, n)) s = s + (3 + typeSize + n) := by
  rw [sdpGenBuffer]
  dsimp only
  rw [ite_self, if_neg (fun h => h8 h.2), if_neg (fun h => h0 h.2)]
  omega

/-- A plain attribute asks for its bytes and no more. -/
theorem genBuffer_plain {a : Attr} (ha : Plain a.data) (s : ℕ) :
    a.data.genBuffer reread s = s + (attrBytes a).length := by
  have hnil : (encode (widen SdpData.null)).length = 0 := rfl
  rw [SdpData.genBuffer, length_attrBytes]
  cases hd : a.data with
  | null => rw [hd] at ha; exact ha.elim
  | num dtd val next =>
    rw [hd] at ha
    have h0 : dtd.code ≠ 0 := by cases dtd <;> first | exact absurd rfl ha | decide
    have h8 : dtd.code ≠ SeqDtd.seq8.code := by cases dtd <;> decide
    change sdpGenBuffer reread dtd.code 1 (fun s => (s, dtd.size)) s = _
    rw [sdpGenBuffer_plain reread h0 h8, SdpData.setNext, widen, length_encode_num, hnil]
    omega
  | str dtd val next =>
    have h0 : dtd.code ≠ 0 := by cases dtd <;> decide
    have h8 : dtd.code ≠ SeqDtd.seq8.code := by cases dtd <;> decide
    change sdpGenBuffer reread dtd.code dtd.typeSize (fun s => (s, val.length)) s = _
    rw [sdpGenBuffer_plain reread h0 h8, SdpData.setNext, widen, length_encode_str, hnil]
    omega
  | seq => rw [hd] at ha; exact ha.elim

theorem le_recordBufSize {attrlist : List Attr} (hdata : ∀ a ∈ attrlist, a.data ≠ .null) (s : ℕ) :
    s + (attrlist.flatMap attrBytes).length + (if ∃ a ∈ attrlist, Nested a.data then 3 else 0) ≤
      attrlist.foldl (fun bufSize d => d.data.genBuffer reread bufSize) s := by
  induction attrlist generalizing s with
  | nil => simp
  | cons a attrlist ih =>
    have hfirst := le_genBuffer reread (hdata a (.head _)) s
    have hrest := ih (fun b hb => hdata b (.tail _ hb)) (a.data.genBuffer reread s)
    rw [List.foldl_cons, List.flatMap_cons, List.length_append]
    by_cases hnested : Nested a.data
    · rw [if_pos hnested] at hfirst
      rw [if_pos ⟨a, .head _, hnested⟩]
      omega
    · by_cases hex : ∃ b ∈ attrlist, Nested b.data
      · obtain ⟨b, hb, hbn⟩ := hex
        rw [if_pos ⟨b, hb, hbn⟩] at hrest
        rw [if_pos ⟨b, .tail _ hb, hbn⟩]
        omega
      · rw [if_neg]
        · omega
        rintro ⟨b, hb, hbn⟩
        rcases List.mem_cons.mp hb with rfl | hb
        · exact hnested hbn
        · exact hex ⟨b, hb, hbn⟩

theorem recordBufSize_plain {attrlist : List Attr} (hplain : ∀ a ∈ attrlist, Plain a.data) (s : ℕ) :
    attrlist.foldl (fun bufSize d => d.data.genBuffer reread bufSize) s =
      s + (attrlist.flatMap attrBytes).length := by
  induction attrlist generalizing s with
  | nil => rfl
  | cons a attrlist ih =>
    rw [List.foldl_cons, genBuffer_plain reread (hplain a (.head _)),
      ih (fun b hb => hplain b (.tail _ hb)), List.flatMap_cons, List.length_append, Nat.add_assoc]

/-! ## Where the memory is enough -/

theorem holds_zeroed (n : ℕ) : Holds [] ⟨List.replicate n 0, 0⟩ where
  dataSize_eq := rfl
  filled_eq := List.take_zero
  fits := Nat.zero_le _
  zeroed _ _ hb := (List.mem_replicate.mp hb).2

/-- A record with an element nested in one of its attributes is encoded without a store
outside the memory it has, whichever side of the assignments comes first and whatever the
memory holds. An attribute that gets no memory is left out, and the rest is a record. -/
theorem sdpGenRecordPdu_encodes {attrlist : List Attr} (hdata : ∀ a ∈ attrlist, a.data ≠ .null)
    (hnested : ∃ a ∈ attrlist, Nested a.data) :
    ∃ buf, sdpGenRecordPdu reread mallocs attrlist = .ok buf ∧
      buf.filled = recordBytes (body mallocs attrlist) := by
  have hrun := foldlM_appendToPdu reread mallocs hdata
    (holds_zeroed (recordBufSize reread attrlist))
  have hsize := le_recordBufSize reread hdata 0
  have hbody := length_body_le mallocs attrlist
  rw [if_pos hnested] at hsize
  have hroom : (recordBytes (body mallocs attrlist)).length ≤ recordBufSize reread attrlist := by
    by_cases hnil : body mallocs attrlist = []
    · rw [hnil]
      exact Nat.zero_le _
    · have htype : (recordDtd (body mallocs attrlist).length).typeSize ≤ 3 := by
        rcases recordDtd_cases (body mallocs attrlist).length with h | h <;> rw [h] <;> decide
      rw [length_recordBytes hnil, recordBufSize]
      omega
  rw [List.nil_append, List.length_replicate, if_pos hroom] at hrun
  obtain ⟨buf, hbuf, hholds⟩ := hrun
  exact ⟨buf, hbuf, hholds.filled_eq⟩

/-- While the buffers of the attributes are allocated, the memory for the record is enough exactly
when it has no attribute or one of them is a sequence: the size pass forgets the header of the
record, and only the three bytes too many for each nested element make up for it. Where it is
enough, what is generated is the record of the attributes. -/
theorem record_memory_iff {attrlist : List Attr}
    (hshape : ∀ a ∈ attrlist, Plain a.data ∨ Nested a.data)
    (hok : ∀ a ∈ attrlist, (mallocs a.attrId).ok = true) :
    ((∃ buf, sdpGenRecordPdu reread mallocs attrlist = .ok buf) ↔
      attrlist = [] ∨ ∃ a ∈ attrlist, Nested a.data) ∧
    ∀ buf, sdpGenRecordPdu reread mallocs attrlist = .ok buf →
      buf.filled = recordBytes (attrlist.flatMap attrBytes) := by
  have hdata : ∀ a ∈ attrlist, a.data ≠ .null := by
    intro a ha hnull
    rcases hshape a ha with h | h <;> rw [hnull] at h <;> exact h
  have hwrites : attrlist = [] ∨ (∃ a ∈ attrlist, Nested a.data) →
      ∃ buf, sdpGenRecordPdu reread mallocs attrlist = .ok buf ∧
        buf.filled = recordBytes (attrlist.flatMap attrBytes) := by
    rintro (rfl | hnested)
    · exact ⟨_, rfl, rfl⟩
    · obtain ⟨buf, hbuf, hfilled⟩ := sdpGenRecordPdu_encodes reread mallocs hdata hnested
      exact ⟨buf, hbuf, by rw [hfilled, body_eq_of_ok mallocs hok]⟩
  have hiff : (∃ buf, sdpGenRecordPdu reread mallocs attrlist = .ok buf) ↔
      attrlist = [] ∨ ∃ a ∈ attrlist, Nested a.data := by
    refine ⟨?_, fun h => (hwrites h).imp fun _ hbuf => hbuf.1⟩
    rintro ⟨buf, hbuf⟩
    by_contra hnone
    have hplain : ∀ a ∈ attrlist, Plain a.data := fun a ha =>
      (hshape a ha).resolve_right fun h => hnone (.inr ⟨a, ha, h⟩)
    have hrun := foldlM_appendToPdu reread mallocs hdata
      (holds_zeroed (recordBufSize reread attrlist))
    have hne : attrlist.flatMap attrBytes ≠ [] := by
      cases attrlist with
      | nil => exact absurd (.inl rfl) hnone
      | cons a as => exact List.append_ne_nil_of_left_ne_nil (attrBytes_ne_nil a) _
    rw [List.nil_append, body_eq_of_ok mallocs hok, List.length_replicate, recordBufSize,
      recordBufSize_plain reread hplain, Nat.zero_add, if_neg] at hrun
    · rw [sdpGenRecordPdu, recordBufSize, recordBufSize_plain reread hplain, Nat.zero_add, hrun] at hbuf
      cases hbuf
    · have : 2 ≤ (recordDtd (attrlist.flatMap attrBytes).length).typeSize := by
        rcases recordDtd_cases (attrlist.flatMap attrBytes).length with h | h <;> rw [h] <;> decide
      rw [length_recordBytes hne]
      omega
  refine ⟨hiff, fun buf hbuf => ?_⟩
  obtain ⟨buf', hbuf', hfilled⟩ := hwrites (hiff.mp ⟨buf, hbuf⟩)
  obtain rfl := Except.ok.inj (hbuf.symm.trans hbuf')
  exact hfilled

theorem service_name_alone_memory :
    let attrlist : List Attr := [⟨0x0100, .str .textStr8 serviceName .null⟩]
    ((∃ buf, sdpGenRecordPdu true (fun _ => ⟨true, fun _ => 0⟩) attrlist = .ok buf) ↔
      attrlist = [] ∨ ∃ a ∈ attrlist, Nested a.data) ∧
    ∀ buf, sdpGenRecordPdu true (fun _ => ⟨true, fun _ => 0⟩) attrlist = .ok buf →
      buf.filled = recordBytes (attrlist.flatMap attrBytes) := by
  refine record_memory_iff true _ (fun a ha => ?_) fun _ _ => rfl
  rw [List.mem_singleton.mp ha]
  exact .inl trivial

end

end Android2Mouse.Guarantees.SdpRecordPdu
