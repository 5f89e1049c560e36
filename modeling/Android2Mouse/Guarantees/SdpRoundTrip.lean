import Android2Mouse.Guarantees.SdpRecordPdu
import Android2Mouse.Source.SdpExtract

/-!
# What is written is read back

Reading an encoded record gives the attributes that were written, with the descriptors
that the encoder has widened, and nothing of what follows it, if there is memory for all that
is read. A sequence that ends inside the header of a sequence nested in it is read for as long
as there is memory, and no longer.
-/
namespace Android2Mouse.Guarantees.SdpRoundTrip
open Library Source.Sdp SdpEncoding SdpRecordPdu
open Outcomes (allSucceed)

/-- Every length fits the bytes that it is given, and none is of the longest strings. -/
def Fits : SdpData → Prop
  | .null => True
  | .num _ _ next => Fits next
  | .str dtd val next =>
    dtd ≠ .textStr32 ∧ dtd ≠ .urlStr32 ∧ val.length < 256 ^ dtd.width ∧ Fits next
  | .seq dtd dataseq next =>
    (encode dataseq).length < min (256 ^ dtd.width) (2 ^ 31) ∧ Fits dataseq ∧ Fits next

def decFits : (d : SdpData) → Decidable (Fits d)
  | .null => .isTrue trivial
  | .num _ _ next => decFits next
  | .str _ _ next => have := decFits next; inferInstanceAs (Decidable (_ ∧ _ ∧ _ ∧ _))
  | .seq _ dataseq next =>
    have := decFits dataseq; have := decFits next; inferInstanceAs (Decidable (_ ∧ _ ∧ _))

instance (d : SdpData) : Decidable (Fits d) := decFits d

theorem length_seq8_le (dataseq next : SdpData) :
    (encode (widen (.seq .seq8 dataseq next))).length ≤
      3 + (encode (widen dataseq)).length + (encode (widen next)).length := by
  have hsize : (widened .seq8 (encode (widen dataseq)).length).typeSize ≤ 3 := by
    unfold widened
    split <;> decide
  rw [widen, length_encode_seq]
  omega

/-- A sequence with the shortest descriptor may have up to 65535 bytes. -/
theorem fits_seq8 {dataseq next : SdpData} (hlen : (encode (widen dataseq)).length < 2 ^ 16)
    (hd : Fits (widen dataseq)) (hn : Fits (widen next)) :
    Fits (widen (.seq .seq8 dataseq next)) := by
  refine ⟨lt_min ?_ (by omega), hd, hn⟩
  unfold widened
  split
  · exact hlen
  next h =>
    change _ < 256
    exact Nat.lt_of_not_le fun hle => h ⟨by omega, rfl⟩

@[simp] theorem ofCode_code (dtd : Dtd) : Dtd.ofCode dtd.code = some dtd := by
  cases dtd with
  | num dtd => cases dtd <;> rfl
  | str dtd => cases dtd <;> rfl
  | seq dtd => cases dtd <;> rfl

theorem toInt_of_lt {n : ℕ} (h : n < 2 ^ 31) : toInt n = n := if_pos h

/-! ## One element -/

/-- The allocations for the elements of a chain. -/
def allocs : SdpData → ℕ
  | .null => 0
  | .num _ _ next => 1 + allocs next
  | .str _ _ next => 2 + allocs next
  | .seq _ dataseq next => 1 + allocs dataseq + allocs next

theorem extractNum_spec (dtd : NumDtd) (val : BitVec (8 * dtd.size)) (rest : List UInt8) :
    (extractNum dtd (bigEndian dtd.size val.toNat ++ rest)).Yields allSucceed 1
      (some (.num dtd val .null, 1 + dtd.size)) := by
  have hval : val.toNat < 256 ^ dtd.size := by
    have := val.isLt
    rwa [pow_mul] at this
  rw [extractNum]
  refine Attempt.Yields.attempt (n := 0) ?_
  rw [if_neg (not_or.mpr ⟨Bool.noConfusion, by rw [List.length_append, length_bigEndian]; omega⟩),
    List.take_left' (length_bigEndian ..), ofBigEndian_bigEndian_of_lt hval, BitVec.ofNat_toNat,
    BitVec.setWidth_eq]
  exact Attempt.yields_done ..

theorem extractStr_spec {dtd : StrDtd} (h32 : dtd ≠ .textStr32 ∧ dtd ≠ .urlStr32) (val : List UInt8)
    (hval : val.length < 256 ^ dtd.width) (rest : List UInt8) :
    (extractStr dtd (bigEndian dtd.width val.length ++ (val ++ rest))).Yields allSucceed 2
      (some (.str dtd val .null, dtd.typeSize + val.length)) := by
  have htake : (bigEndian dtd.width val.length ++ (val ++ rest)).take dtd.width =
      bigEndian dtd.width val.length := List.take_left' (length_bigEndian ..)
  have hdrop : (bigEndian dtd.width val.length ++ (val ++ rest)).drop dtd.width = val ++ rest :=
    List.drop_left' (length_bigEndian ..)
  have hroom : dtd.width ≤ (bigEndian dtd.width val.length ++ (val ++ rest)).length := by
    rw [List.length_append, length_bigEndian]
    omega
  rw [extractStr]
  refine Attempt.Yields.attempt (n := 1) ?_
  rw [if_neg (fun h => h.elim Bool.noConfusion fun h => h.elim h32.1 fun h => h.elim h32.2
      (Nat.not_lt.mpr hroom)), htake, hdrop, ofBigEndian_bigEndian_of_lt hval]
  dsimp only
  rw [if_neg (by rw [List.length_append]; omega)]
  refine Attempt.Yields.attempt (n := 0) ?_
  rw [if_neg Bool.noConfusion, List.take_left]
  exact Attempt.yields_done ..

/-- The elements of a chain are read back, whatever follows them. -/
def ReadsElements (d : SdpData) : Prop :=
  ∀ (calls n : ℕ) (seqlen : ℤ) (rest : List UInt8), 2 * count d ≤ calls →
    ((n + (encode d).length : ℕ) : ℤ) = seqlen →
      (extractElements calls (encode d ++ rest) seqlen n).Yields allSucceed (allocs d)
        (some (d, n + (encode d).length))

theorem extractElements_end (calls n : ℕ) (p : List UInt8) :
    extractElements calls p n n = .done (some (.null, n)) := by
  cases calls <;> rw [extractElements, if_neg (lt_irrefl _)] <;> rfl

/-- One step of the loop over the elements: an element is read, and the loop goes on behind it. -/
theorem extractElements_step {calls n attrlen m m' : ℕ} {p : List UInt8} {seqlen : ℤ} {o : Outcomes}
    {curr : SdpData} {r : SdpData × ℕ} (hmore : (n : ℤ) < seqlen)
    (hattr : (sdpExtractAttr calls p).Yields o m (some (some (curr, attrlen))))
    (hrest : (extractElements calls (p.drop attrlen) seqlen (n + attrlen)).Yields (o.after m) m'
      (some r)) :
    (extractElements (calls + 1) p seqlen n).Yields o (m + m') (some (curr.setNext r.1, r.2)) := by
  rw [extractElements, if_pos hmore]
  refine hattr.bind ?_
  dsimp only
  exact hrest.map _

theorem sdpExtractAttr_num (calls : ℕ) (dtd : NumDtd) (val : BitVec (8 * dtd.size))
    (next : SdpData) (rest : List UInt8) :
    (sdpExtractAttr (calls + 1) (encode (.num dtd val next) ++ rest)).Yields allSucceed 1
      (some (some (.num dtd val .null, 1 + dtd.size))) := by
  rw [encode, List.cons_append, List.cons_append, sdpExtractAttr, show Dtd.ofCode dtd.code =
    some (.num dtd) from ofCode_code (.num dtd)]
  dsimp only
  rw [List.append_assoc]
  exact (extractNum_spec dtd val _).map some

theorem sdpExtractAttr_str (calls : ℕ) {dtd : StrDtd} {val : List UInt8} {next : SdpData}
    (hfits : Fits (.str dtd val next)) (rest : List UInt8) :
    (sdpExtractAttr (calls + 1) (encode (.str dtd val next) ++ rest)).Yields allSucceed 2
      (some (some (.str dtd val .null, dtd.typeSize + val.length))) := by
  rw [encode, List.cons_append, List.cons_append, List.cons_append, sdpExtractAttr,
    show Dtd.ofCode dtd.code = some (.str dtd) from ofCode_code (.str dtd)]
  dsimp only
  rw [List.append_assoc, List.append_assoc]
  exact (extractStr_spec ⟨hfits.1, hfits.2.1⟩ val hfits.2.2.1 _).map some

/-- The element of a sequence, when the loop over its elements has come to its end. -/
theorem sdpExtractAttr_loop {calls n m : ℕ} {dtd : SeqDtd} {seqlen : ℕ} {p : List UInt8}
    {o : Outcomes} {dataseq : SdpData} (ho : o 0 = true) (hlen : seqlen < 256 ^ dtd.width ∧ seqlen < 2 ^ 31)
    (hread : (extractElements calls p seqlen 0).Yields (o.after 1) m (some (dataseq, n))) :
    (sdpExtractAttr (calls + 1) (dtd.code :: (bigEndian dtd.width seqlen ++ p))).Yields o (1 + m)
      (some (some (.seq dtd dataseq .null, dtd.typeSize + n))) := by
  rw [sdpExtractAttr, show Dtd.ofCode dtd.code = some (.seq dtd) from ofCode_code (.seq dtd)]
  dsimp only
  refine Attempt.Yields.attempt ?_
  rw [if_neg (by rw [ho]; exact Bool.noConfusion),
    if_neg (by rw [List.length_append, length_bigEndian]; omega),
    List.take_left' (length_bigEndian ..), List.drop_left' (length_bigEndian ..),
    ofBigEndian_bigEndian_of_lt hlen.1, toInt_of_lt hlen.2]
  exact hread.map _

theorem sdpExtractAttr_seq {calls : ℕ} {dtd : SeqDtd} {dataseq next : SdpData}
    (hfits : Fits (.seq dtd dataseq next)) (hread : ReadsElements dataseq)
    (hcalls : 2 * count dataseq ≤ calls) (rest : List UInt8) :
    (sdpExtractAttr (calls + 1) (encode (.seq dtd dataseq next) ++ rest)).Yields allSucceed
      (1 + allocs dataseq)
      (some (some (.seq dtd dataseq .null, dtd.typeSize + (encode dataseq).length))) := by
  rw [encode, List.cons_append, List.cons_append, List.cons_append, List.append_assoc,
    List.append_assoc]
  refine sdpExtractAttr_loop rfl (lt_min_iff.mp hfits.1) ?_
  have h := hread calls 0 _ (encode next ++ rest) hcalls (by rw [Nat.zero_add])
  rwa [Nat.zero_add] at h

/-- `head` is read, and then the elements behind it. -/
theorem extractElements_cons (d curr : SdpData) {next : SdpData} {head : List UInt8}
    (henc : encode d = head ++ encode next) (hhead : head ≠ []) (hset : curr.setNext next = d)
    (hnext : ReadsElements next) {calls n m : ℕ} {seqlen : ℤ} {rest : List UInt8}
    (hattr : (sdpExtractAttr calls (encode d ++ rest)).Yields allSucceed m
      (some (some (curr, head.length))))
    (hcalls : 2 * count next ≤ calls) (hlen : ((n + (encode d).length : ℕ) : ℤ) = seqlen) :
    (extractElements (calls + 1) (encode d ++ rest) seqlen n).Yields allSucceed (m + allocs next)
      (some (d, n + (encode d).length)) := by
  have hpos : 0 < head.length := List.length_pos_iff.mpr hhead
  have hsize : (encode d).length = head.length + (encode next).length := by
    rw [henc, List.length_append]
  have hdrop : (encode d ++ rest).drop head.length = encode next ++ rest := by
    rw [henc, List.append_assoc, List.drop_left]
  have hrest := hnext calls (n + head.length) seqlen rest hcalls (by omega)
  rw [← hdrop] at hrest
  have hstep := extractElements_step (by omega) hattr hrest
  rwa [hset, Nat.add_assoc, ← hsize] at hstep

/-- By induction on the chain. -/
theorem readsElements (d : SdpData) (hfits : Fits d) : ReadsElements d := by
  induction d with
  | null =>
    rintro calls n seqlen rest - rfl
    change (extractElements calls rest n n).Yields allSucceed 0 _
    rw [extractElements_end]
    exact Attempt.yields_done ..
  | num dtd val next ih =>
    intro calls n seqlen rest hcalls hlen
    have hcount : 2 + 2 * count next ≤ calls := by rw [count] at hcalls; omega
    obtain ⟨calls, rfl⟩ : ∃ c, calls = c + 2 := ⟨calls - 2, by omega⟩
    have hnext : 2 * count next ≤ calls + 1 := by omega
    refine extractElements_cons (.num dtd val next) (.num dtd val .null) rfl (List.cons_ne_nil _ _)
      rfl (ih hfits) ?_ hnext hlen
    rw [List.length_cons, length_bigEndian, Nat.add_comm dtd.size]
    exact sdpExtractAttr_num calls dtd val next rest
  | str dtd val next ih =>
    intro calls n seqlen rest hcalls hlen
    have hcount : 2 + 2 * count next ≤ calls := by rw [count] at hcalls; omega
    obtain ⟨calls, rfl⟩ : ∃ c, calls = c + 2 := ⟨calls - 2, by omega⟩
    have hnext : 2 * count next ≤ calls + 1 := by omega
    refine extractElements_cons (.str dtd val next) (.str dtd val .null) rfl (List.cons_ne_nil _ _)
      rfl (ih hfits.2.2.2) ?_ hnext hlen
    rw [List.length_append, List.length_cons, length_bigEndian, Nat.add_comm dtd.width]
    exact sdpExtractAttr_str calls hfits rest
  | seq dtd dataseq next ihd ihn =>
    intro calls n seqlen rest hcalls hlen
    have hcount : 2 + 2 * count dataseq + 2 * count next ≤ calls := by rw [count] at hcalls; omega
    obtain ⟨calls, rfl⟩ : ∃ c, calls = c + 2 := ⟨calls - 2, by omega⟩
    have hnext : 2 * count next ≤ calls + 1 := by omega
    refine extractElements_cons (.seq dtd dataseq next) (.seq dtd dataseq .null) rfl
      (List.cons_ne_nil _ _) rfl (ihn hfits.2.2) ?_ hnext hlen
    rw [List.length_append, List.length_cons, length_bigEndian, Nat.add_comm dtd.width]
    exact sdpExtractAttr_seq hfits (ihd hfits.2.1) (by omega) rest

/-- An element without a chain behind it. -/
inductive Single : SdpData → Prop
  | num (dtd : NumDtd) (val : BitVec (8 * dtd.size)) : Single (.num dtd val .null)
  | str (dtd : StrDtd) (val : List UInt8) : Single (.str dtd val .null)
  | seq (dtd : SeqDtd) (dataseq : SdpData) : Single (.seq dtd dataseq .null)

theorem Single.ne_null {e : SdpData} (h : Single e) : e ≠ .null := by
  cases h <;> exact SdpData.noConfusion

/-- `sdp_extract_attr` reads one element back and leaves what follows it. -/
theorem sdpExtractAttr_spec {e : SdpData} (he : Single e) (hfits : Fits e) {calls : ℕ}
    (hcalls : 2 * count e ≤ calls) (rest : List UInt8) :
    (sdpExtractAttr calls (encode e ++ rest)).Yields allSucceed (allocs e)
      (some (some (e, (encode e).length))) := by
  have hpos := count_pos he.ne_null
  obtain ⟨calls, rfl⟩ : ∃ c, calls = c + 1 := ⟨calls - 1, by omega⟩
  cases he with
  | num dtd val =>
    rw [length_encode_num]
    exact sdpExtractAttr_num calls dtd val .null rest
  | str dtd val =>
    rw [length_encode_str]
    exact sdpExtractAttr_str calls hfits rest
  | seq dtd dataseq =>
    rw [count] at hcalls
    rw [length_encode_seq]
    exact sdpExtractAttr_seq hfits (readsElements dataseq hfits.2.1) (by omega) rest

/-! ## A record -/

/-- An attribute as it is written, with the descriptors that its sequences need. -/
def written (a : Attr) : Attr := ⟨a.attrId, widen (a.data.setNext .null)⟩

theorem single_widen {d : SdpData} (hd : d ≠ .null) : Single (widen (d.setNext .null)) := by
  cases d with
  | null => exact absurd rfl hd
  | num dtd val next => exact .num dtd val
  | str dtd val next => exact .str dtd val
  | seq dtd dataseq next => exact .seq _ (widen dataseq)

theorem count_le_length (d : SdpData) : count d ≤ (encode d).length := by
  induction d with
  | null => exact Nat.le_refl _
  | num dtd val next ih => rw [count, length_encode_num]; omega
  | str dtd val next ih => rw [count, length_encode_str, StrDtd.typeSize]; omega
  | seq dtd dataseq next ihd ihn => rw [count, length_encode_seq, SeqDtd.typeSize]; omega

/-- An attribute that comes after all others is put last. -/
theorem insertSorted_last {attrlist : List Attr} {d : Attr}
    (h : ∀ a ∈ attrlist, a.attrId < d.attrId) : insertSorted attrlist d = attrlist ++ [d] := by
  rw [insertSorted]
  induction attrlist with
  | nil => rfl
  | cons a attrlist ih =>
    rw [List.orderedInsert_cons, if_neg (UInt16.not_le.mpr (h a (.head _))),
      ih fun b hb => h b (.tail _ hb)]
    rfl

theorem sdpAttrReplace_last {attrlist : List Attr} {attr : UInt16}
    (h : ∀ a ∈ attrlist, a.attrId < attr) {d : SdpData} (hd : d ≠ .null) :
    sdpAttrReplace attrlist true attr d = .ok (attrlist ++ [⟨attr, d⟩]) := by
  have herase : attrlist.eraseP (·.attrId = attr) = attrlist :=
    List.eraseP_of_forall_not fun a ha hattr =>
      absurd (h a ha) (by rw [of_decide_eq_true hattr]; exact UInt16.lt_irrefl _)
  rw [sdpAttrReplace, if_neg hd, herase, sdpListInsertSorted, if_pos rfl, insertSorted_last h]

theorem extractAttrs_end (calls n : ℕ) (p : List UInt8) (attrlist : List Attr) :
    extractAttrs calls p n n attrlist = .done (.ok (some attrlist)) := by
  cases calls <;> rw [extractAttrs, if_neg (fun h => lt_irrefl _ h.1)] <;> rfl

/-- One step of the loop over the attributes. -/
theorem extractAttrs_cons {a : Attr} (ha : a.data ≠ .null)
    (hfits : Fits (widen (a.data.setNext .null))) {done : List Attr}
    (hlast : ∀ b ∈ done, b.attrId < a.attrId) {calls n : ℕ} {seqlen : ℤ} {rest : List UInt8}
    (hmore : (n : ℤ) < seqlen) (hcalls : 2 * (attrBytes a).length ≤ calls + 1) :
    (extractAttrs (calls + 1) (attrBytes a ++ rest) seqlen n done).result allSucceed =
      (extractAttrs calls rest seqlen (n + (attrBytes a).length) (done ++ [written a])).result
        allSucceed := by
  have hsize := length_attrBytes a
  have hcount := count_le_length (widen (a.data.setNext .null))
  have hhead : (NumDtd.uint16.code :: bigEndian 2 a.attrId.toNat).length = 3 := by
    rw [List.length_cons, length_bigEndian]
  have hdrop : (attrBytes a ++ rest).drop 3 = encode (widen (a.data.setNext .null)) ++ rest := by
    rw [attrBytes, List.append_assoc, List.drop_left' hhead]
  have hattr : ((attrBytes a ++ rest).drop 1).take 2 = bigEndian 2 a.attrId.toNat := by
    rw [attrBytes, List.append_assoc, List.cons_append, List.drop_succ_cons, List.drop_zero,
      List.take_left' (length_bigEndian ..)]
  have hid : UInt16.ofNat (ofBigEndian (bigEndian 2 a.attrId.toNat)) = a.attrId := by
    rw [ofBigEndian_bigEndian_of_lt a.attrId.toNat_lt, UInt16.ofNat_toNat]
  have henough : 2 * count (widen (a.data.setNext .null)) ≤ calls := by omega
  have hread := sdpExtractAttr_spec (single_widen ha) hfits henough rest
  have hrest : (attrBytes a ++ rest).drop (3 + (encode (widen (a.data.setNext .null))).length) =
      rest := by rw [← hsize, List.drop_left]
  have hnode : (Attempt.attempt Alloc.node).result allSucceed = true := rfl
  rw [extractAttrs, if_pos ⟨hmore, List.append_ne_nil_of_left_ne_nil (attrBytes_ne_nil a) _⟩,
    if_neg (by rw [List.length_append]; omega), hattr, hid, hdrop]
  dsimp only
  rw [Attempt.result_bind, hread.2, Outcomes.after_allSucceed]
  dsimp only
  rw [Attempt.result_bind, Outcomes.after_allSucceed, hnode,
    sdpAttrReplace_last hlast (single_widen ha).ne_null]
  dsimp only
  rw [hrest, ← hsize]
  rfl

/-- By induction on the attributes; those that have been read come before all others. -/
theorem extractAttrs_spec {attrlist : List Attr} (hdata : ∀ a ∈ attrlist, a.data ≠ .null)
    (hfits : ∀ a ∈ attrlist, Fits (widen (a.data.setNext .null))) {done : List Attr}
    (hsorted : (done ++ attrlist).Pairwise fun a b => a.attrId < b.attrId) {calls n : ℕ}
    {seqlen : ℤ} (rest : List UInt8) (hcalls : 2 * (attrlist.flatMap attrBytes).length ≤ calls)
    (hlen : ((n + (attrlist.flatMap attrBytes).length : ℕ) : ℤ) = seqlen) :
    (extractAttrs calls (attrlist.flatMap attrBytes ++ rest) seqlen n done).result allSucceed =
      .ok (some (done ++ attrlist.map written)) := by
  induction attrlist generalizing calls n done with
  | nil =>
    subst hlen
    rw [List.flatMap_nil, List.nil_append, List.map_nil, List.append_nil]
    exact congrArg (·.result allSucceed) (extractAttrs_end ..)
  | cons a attrlist ih =>
    have hsize := length_attrBytes a
    rw [List.flatMap_cons, List.length_append] at hcalls hlen
    obtain ⟨calls, rfl⟩ : ∃ c, calls = c + 1 := ⟨calls - 1, by omega⟩
    have hlast : ∀ b ∈ done, b.attrId < a.attrId := fun b hb =>
      (List.pairwise_append.mp hsorted).2.2 b hb a (.head _)
    have hsorted' : ((done ++ [written a]) ++ attrlist).Pairwise fun a b => a.attrId < b.attrId := by
      have : (done ++ [a] ++ attrlist).Pairwise fun a b => a.attrId < b.attrId := by
        rwa [List.append_assoc, List.singleton_append]
      rw [← List.pairwise_map (f := Attr.attrId) (R := (· < ·))] at this ⊢
      simpa [written] using this
    rw [List.flatMap_cons, List.append_assoc, extractAttrs_cons (hdata a (.head _))
        (hfits a (.head _)) hlast (by omega) (by omega),
      ih (fun b hb => hdata b (.tail _ hb)) (fun b hb => hfits b (.tail _ hb)) hsorted' (by omega)
        (by rw [← hlen, Nat.add_assoc]),
      List.map_cons, List.append_assoc, List.singleton_append]

theorem sdpExtractSeqtype_spec {body : List UInt8} (hbody : body ≠ [])
    (hlen : body.length < 2 ^ 16) (rest : List UInt8) :
    sdpExtractSeqtype (recordBytes body ++ rest) =
      some ((body.length : ℤ), (recordDtd body.length).typeSize) := by
  have hwidth : body.length < 256 ^ (recordDtd body.length).width := by
    unfold recordDtd
    split
    · exact hlen
    · change _ < 256
      omega
  rw [recordBytes, if_neg hbody, List.cons_append, List.cons_append, sdpExtractSeqtype,
    show Dtd.ofCode (recordDtd body.length).code = some (.seq (recordDtd body.length)) from
      ofCode_code (.seq _)]
  dsimp only
  rw [List.append_assoc, if_neg (by rw [List.length_append, length_bigEndian]; omega),
    List.take_left' (length_bigEndian ..), ofBigEndian_bigEndian_of_lt hwidth,
    toInt_of_lt (by omega)]

/-- The bytes of a record give back its attributes, whatever comes behind them. -/
theorem sdpExtractPdu_recordBytes {attrlist : List Attr} (hdata : ∀ a ∈ attrlist, a.data ≠ .null)
    (hne : attrlist ≠ []) (hsorted : attrlist.Pairwise fun a b => a.attrId < b.attrId)
    (hfits : ∀ a ∈ attrlist, Fits (widen (a.data.setNext .null)))
    (hlen : (attrlist.flatMap attrBytes).length < 2 ^ 16) (calls : ℕ) (rest : List UInt8)
    (hcalls : 2 * (recordBytes (attrlist.flatMap attrBytes)).length ≤ calls) :
    (sdpExtractPdu calls (recordBytes (attrlist.flatMap attrBytes) ++ rest)).result allSucceed =
      .ok (some (attrlist.map written, ((recordBytes (attrlist.flatMap attrBytes)).length : ℤ))) := by
  have hbody : attrlist.flatMap attrBytes ≠ [] := by
    obtain ⟨a, as, rfl⟩ := List.exists_cons_of_ne_nil hne
    exact fun h => attrBytes_ne_nil a (List.flatMap_eq_nil_iff.mp h a (.head _))
  have hsize := length_recordBytes hbody
  have hdrop : (recordBytes (attrlist.flatMap attrBytes) ++ rest).drop
      (recordDtd (attrlist.flatMap attrBytes).length).typeSize =
        attrlist.flatMap attrBytes ++ rest := by
    rw [recordBytes, if_neg hbody, List.append_assoc, List.drop_left' (by
      rw [List.length_cons, length_bigEndian, SeqDtd.typeSize, Nat.add_comm])]
  have hsorted' : ([] ++ attrlist).Pairwise fun a b : Attr => a.attrId < b.attrId := hsorted
  have henough : 2 * (attrlist.flatMap attrBytes).length ≤ calls := by omega
  have hattrs := extractAttrs_spec hdata hfits hsorted' rest henough
    (congrArg Nat.cast (Nat.zero_add _))
  rw [sdpExtractPdu, Attempt.result_bind, Outcomes.after_allSucceed,
    sdpExtractSeqtype_spec hbody hlen]
  change Attempt.result (extractAttrs calls (List.drop _ _) _ 0 [] >>= _) allSucceed = _
  rw [Attempt.result_bind, hdrop, hattrs, hsize, Nat.cast_add]
  rfl

/-- `sdp_gen_record_pdu` writes a record with its attributes in order, if there is memory, and
`sdp_extract_pdu` of it returns these attributes and the number of bytes that were written,
whatever comes behind them. -/
theorem record_read_back (reread : Bool) {mallocs : UInt16 → Malloc UInt8} {attrlist : List Attr}
    (hdata : ∀ a ∈ attrlist, a.data ≠ .null) (hnested : ∃ a ∈ attrlist, Nested a.data)
    (hok : ∀ a ∈ attrlist, (mallocs a.attrId).ok = true)
    (hsorted : attrlist.Pairwise fun a b => a.attrId < b.attrId)
    (hfits : ∀ a ∈ attrlist, Fits (widen (a.data.setNext .null)))
    (hlen : (attrlist.flatMap attrBytes).length < 2 ^ 16) :
    ∃ buf, sdpGenRecordPdu reread mallocs attrlist = .ok buf ∧
      ∀ (calls : ℕ) (rest : List UInt8), 2 * buf.filled.length ≤ calls →
        (sdpExtractPdu calls (buf.filled ++ rest)).result allSucceed =
          .ok (some (attrlist.map written, (buf.filled.length : ℤ))) := by
  obtain ⟨buf, hbuf, hfilled⟩ := sdpGenRecordPdu_encodes reread mallocs hdata hnested
  have hne : attrlist ≠ [] := by
    obtain ⟨a, ha, -⟩ := hnested
    exact List.ne_nil_of_mem ha
  rw [body_eq_of_ok mallocs hok] at hfilled
  refine ⟨buf, hbuf, ?_⟩
  rw [hfilled]
  exact sdpExtractPdu_recordBytes hdata hne hsorted hfits hlen

/-- A record of a name and of a sequence. -/
theorem record_read_back_two :
    let attrs : List Attr :=
      [⟨0x0100, .str .textStr8 [0x48, 0x49] .null⟩, ⟨0x0200, .seq .seq8 (.num .uint8 7 .null) .null⟩]
    ∃ buf, sdpGenRecordPdu true (fun _ => ⟨true, fun _ => 0⟩) attrs = .ok buf ∧
      ∀ (calls : ℕ) (rest : List UInt8), 2 * buf.filled.length ≤ calls →
        (sdpExtractPdu calls (buf.filled ++ rest)).result allSucceed =
          .ok (some (attrs.map written, (buf.filled.length : ℤ))) :=
  record_read_back true (by decide) (by decide) (fun _ _ => rfl) (by decide) (by decide) (by decide)

/-! ## A header that is cut off -/

/-- More calls go on where fewer did not suffice. By induction on the calls, for the element and
the loop together. -/
theorem extract_succ (calls : ℕ) :
    (∀ p, (sdpExtractAttr calls p).Extends (sdpExtractAttr (calls + 1) p)) ∧
      ∀ p seqlen n,
        (extractElements calls p seqlen n).Extends (extractElements (calls + 1) p seqlen n) := by
  induction calls with
  | zero =>
    refine ⟨fun p => ?_, fun p seqlen n => ?_⟩
    · cases p with
      | nil => exact .done _
      | cons b rest =>
        rw [sdpExtractAttr]
        exact .none _
    · rw [extractElements, extractElements]
      split
      · exact .none _
      · exact .done _
  | succ calls ih =>
    refine ⟨fun p => ?_, fun p seqlen n => ?_⟩
    · cases p with
      | nil => exact .done _
      | cons b rest =>
        rw [sdpExtractAttr, sdpExtractAttr]
        split
        · exact .done _
        · exact .refl _
        · exact .refl _
        next dtd hcode =>
          refine .send Alloc.data fun d => ?_
          change Attempt.Extends (ite _ _ (ite _ _ _)) (ite _ _ (ite _ _ _))
          split
          · exact .done _
          split
          · exact .done _
          · exact (ih.2 ..).bind rfl fun r => .refl _
    · rw [extractElements, extractElements]
      split
      · refine (ih.1 p).bind rfl fun r => ?_
        rcases r with _ | _ | ⟨curr, attrlen⟩
        · exact .done _
        · exact .done _
        · exact (ih.2 ..).bind rfl fun r => .refl _
      · exact .done _

theorem sdpExtractAttr_of_le {calls calls' m : ℕ} (hle : calls ≤ calls') {p : List UInt8}
    {o : Outcomes} {r : Option (SdpData × ℕ)} (h : (sdpExtractAttr calls p).Yields o m (some r)) :
    (sdpExtractAttr calls' p).Yields o m (some r) := by
  induction calls', hle using Nat.le_induction with
  | base => exact h
  | succ calls' _ ih => exact ((extract_succ calls').1 p).yields ih

def emptySeqs (dtd : SeqDtd) : ℕ → SdpData
  | 0 => .null
  | k + 1 => .seq dtd .null (emptySeqs dtd k)

/-- The chain with `k` empty sequences at its end. -/
def withEmpty (dtd : SeqDtd) (k : ℕ) : SdpData → SdpData
  | .null => emptySeqs dtd k
  | .num d val next => .num d val (withEmpty dtd k next)
  | .str d val next => .str d val (withEmpty dtd k next)
  | .seq d dataseq next => .seq d dataseq (withEmpty dtd k next)

section

variable {dtd : SeqDtd} {short : List UInt8} (hshort : short.length < dtd.width)
include hshort

/-- The header of a sequence that is cut off is an element of length 0, if there is memory. -/
theorem sdpExtractAttr_cut (calls : ℕ) (o : Outcomes) :
    (sdpExtractAttr (calls + 1) (dtd.code :: short)).Yields o 1
      (some (if o 0 then some (.seq dtd .null .null, 0) else none)) := by
  rw [sdpExtractAttr, show Dtd.ofCode dtd.code = some (.seq dtd) from ofCode_code (.seq dtd)]
  dsimp only
  refine Attempt.Yields.attempt (n := 0) ?_
  cases o 0 with
  | false => exact Attempt.yields_done ..
  | true =>
    rw [if_neg Bool.noConfusion, if_pos hshort]
    exact Attempt.yields_done ..

/-- The loop at the header makes an element for each allocation that succeeds. By induction on
their number. -/
theorem extractElements_at_cut {seqlen : ℤ} {n : ℕ} (hn : (n : ℤ) < seqlen) (k : ℕ) {o : Outcomes}
    (hok : ∀ i < k, o i = true) (hfail : o k = false) {calls : ℕ} (hcalls : k + 2 ≤ calls) :
    (extractElements calls (dtd.code :: short) seqlen n).Yields o (k + 1)
      (some (emptySeqs dtd k, n)) := by
  induction k generalizing o calls with
  | zero =>
    obtain ⟨calls, rfl⟩ : ∃ c, calls = c + 2 := ⟨calls - 2, by omega⟩
    have hcut := sdpExtractAttr_cut hshort calls o
    rw [hfail, if_neg Bool.noConfusion] at hcut
    rw [extractElements, if_pos hn]
    refine Attempt.Yields.bind (n := 0) hcut ?_
    exact Attempt.yields_done ..
  | succ k ih =>
    obtain ⟨calls, rfl⟩ : ∃ c, calls = c + 2 := ⟨calls - 2, by omega⟩
    have hcut := sdpExtractAttr_cut hshort calls o
    rw [hok 0 (Nat.succ_pos k), if_pos rfl] at hcut
    have henough : k + 2 ≤ calls + 1 := by omega
    have hrest := ih (o := o.after 1) (fun i hi => hok (1 + i) (by omega))
      (by rw [Outcomes.after_apply, Nat.add_comm, hfail]) henough
    rw [Nat.add_comm (k + 1)]
    exact extractElements_step hn hcut hrest

end

/-- Chains are made of single elements. -/
theorem chain_induction {P : SdpData → Prop} (null : P .null)
    (cons : ∀ e next, Single e → P next → P (e.setNext next)) (d : SdpData) : P d := by
  induction d with
  | null => exact null
  | num dtd val next ih => exact cons _ next (.num dtd val) ih
  | str dtd val next ih => exact cons _ next (.str dtd val) ih
  | seq dtd dataseq next _ ih => exact cons _ next (.seq dtd dataseq) ih

section

variable {e : SdpData} (h : Single e) (next : SdpData)
include h

theorem Single.encode : encode (e.setNext next) = encode e ++ encode next := by
  cases h <;> simp [SdpData.setNext, SdpEncoding.encode]

theorem Single.allocs : allocs (e.setNext next) = allocs e + allocs next := by
  cases h <;> simp [SdpData.setNext, SdpRoundTrip.allocs]

theorem Single.count : count (e.setNext next) = count e + count next := by
  cases h <;> simp [SdpData.setNext, SdpEncoding.count]

theorem Single.fits : Fits (e.setNext next) ↔ Fits e ∧ Fits next := by
  cases h <;> simp [SdpData.setNext, Fits, and_assoc]

theorem Single.withEmpty (dtd : SeqDtd) (k : ℕ) :
    withEmpty dtd k (e.setNext next) = e.setNext (withEmpty dtd k next) := by
  cases h <;> simp [SdpData.setNext, SdpRoundTrip.withEmpty]

end

/-- The loop goes on behind an element. -/
theorem extractElements_before {e : SdpData} (he : Single e) (hfits : Fits e) {tail : List UInt8}
    {seqlen : ℤ} {n : ℕ} (hn : (n : ℤ) < seqlen) {o : Outcomes} (hok : ∀ i < allocs e, o i = true)
    {calls m : ℕ} (hcalls : 2 * count e ≤ calls) {r : SdpData × ℕ}
    (hrest : (extractElements calls tail seqlen (n + (encode e).length)).Yields (o.after (allocs e)) m
      (some r)) :
    (extractElements (calls + 1) (encode e ++ tail) seqlen n).Yields o (allocs e + m)
      (some (e.setNext r.1, r.2)) := by
  have hattr := sdpExtractAttr_spec he hfits hcalls tail
  refine extractElements_step hn (hattr.congr fun i hi => (hok i hi).symm) ?_
  rwa [List.drop_left]

/-- By induction on the chain before the header. -/
theorem extractElements_cut {dtd : SeqDtd} {short : List UInt8} (hshort : short.length < dtd.width)
    {seqlen : ℤ} (k : ℕ) (d : SdpData) (hfits : Fits d) {n : ℕ}
    (hn : ((n + (encode d).length : ℕ) : ℤ) < seqlen) {o : Outcomes}
    (hok : ∀ i < allocs d + k, o i = true) (hfail : o (allocs d + k) = false) {calls : ℕ}
    (hcalls : 2 * count d + k + 2 ≤ calls) :
    (extractElements calls (encode d ++ dtd.code :: short) seqlen n).Yields o (allocs d + k + 1)
      (some (withEmpty dtd k d, n + (encode d).length)) := by
  induction d using chain_induction generalizing n o calls with
  | null =>
    rw [allocs, Nat.zero_add] at hok hfail ⊢
    exact extractElements_at_cut hshort hn k hok hfail (by omega)
  | cons e next he ih =>
    rw [he.encode, List.length_append, ← Nat.add_assoc] at hn
    rw [he.count] at hcalls
    rw [he.allocs] at hok hfail
    obtain ⟨hfits, hnext⟩ := (he.fits next).mp hfits
    obtain ⟨calls, rfl⟩ : ∃ c, calls = c + 1 := ⟨calls - 1, by omega⟩
    have hpos := count_pos he.ne_null
    have henough : 2 * count next + k + 2 ≤ calls := by omega
    have hrest := ih hnext hn (o := o.after (allocs e)) (fun i hi => hok (allocs e + i) (by omega))
      (by rw [Outcomes.after_apply, ← Nat.add_assoc, hfail]) henough
    have hstep := extractElements_before he hfits (by omega) (fun i hi => hok i (by omega))
      (by omega) hrest
    rw [← Nat.add_assoc, ← Nat.add_assoc] at hstep
    rw [he.encode, List.append_assoc, List.length_append, he.allocs, he.withEmpty, ← Nat.add_assoc n]
    exact hstep

/-- A sequence whose bytes end inside the header of a sequence nested in it, while its size
says that there are more, is read for as long as there is memory. While all allocations
succeed, no number of calls suffices. When one fails behind the elements that come before the
header, the sequence is returned, and every allocation before has gone into it. -/
theorem cut_header_takes_memory {outer dtd : SeqDtd} {d : SdpData} (hfits : Fits d)
    {short : List UInt8} (hshort : short.length < dtd.width) {seqlen : ℕ}
    (hmore : (encode d).length < seqlen) (hmax : seqlen < min (256 ^ outer.width) (2 ^ 31)) :
    let p := outer.code :: (bigEndian outer.width seqlen ++ (encode d ++ dtd.code :: short))
    (∀ calls, (sdpExtractAttr calls p).result allSucceed = none) ∧
      ∀ (k : ℕ) (o : Outcomes), (∀ i < 1 + allocs d + k, o i = true) → o (1 + allocs d + k) = false →
        ∀ calls, 2 * count d + k + 3 ≤ calls →
          (sdpExtractAttr calls p).Yields o (1 + allocs d + k + 1)
            (some (some (.seq outer (withEmpty dtd k d) .null,
              outer.typeSize + (encode d).length))) := by
  intro p
  have hlen : seqlen < 256 ^ outer.width ∧ seqlen < 2 ^ 31 := lt_min_iff.mp hmax
  have hfails : ∀ (k : ℕ) (o : Outcomes), (∀ i < 1 + allocs d + k, o i = true) →
      o (1 + allocs d + k) = false → ∀ calls, 2 * count d + k + 3 ≤ calls →
        (sdpExtractAttr calls p).Yields o (1 + allocs d + k + 1)
          (some (some (.seq outer (withEmpty dtd k d) .null,
            outer.typeSize + (encode d).length))) := by
    intro k o hok hfail calls hcalls
    obtain ⟨calls, rfl⟩ : ∃ c, calls = c + 1 := ⟨calls - 1, by omega⟩
    have henough : 2 * count d + k + 2 ≤ calls := by omega
    have hinside : ((0 + (encode d).length : ℕ) : ℤ) < (seqlen : ℤ) := by omega
    have hread := extractElements_cut hshort k d hfits hinside (o := o.after 1)
      (fun i hi => hok (1 + i) (by omega)) (by rw [Outcomes.after_apply, ← Nat.add_assoc, hfail])
      henough
    have h := sdpExtractAttr_loop (hok 0 (by omega)) hlen hread
    rwa [Nat.zero_add, ← Nat.add_assoc, ← Nat.add_assoc] at h
  refine ⟨fun calls => ?_, hfails⟩
  -- A run that ended would have made fewer allocations than the memory that it may run out of.
  cases hresult : (sdpExtractAttr calls p).result allSucceed with
  | none => rfl
  | some r =>
    let k := ((sdpExtractAttr calls p).attempts allSucceed).length
    let o : Outcomes := fun i => decide (i < 1 + allocs d + k)
    have hends : (sdpExtractAttr calls p).Yields allSucceed k (some r) := ⟨rfl, hresult⟩
    have hsame : ∀ i < k, allSucceed i = o i := fun i hi => (decide_eq_true (by omega)).symm
    have hmore := sdpExtractAttr_of_le (Nat.le_add_right calls (2 * count d + k + 3))
      (hends.congr hsame)
    have hcut := hfails k o (fun i hi => decide_eq_true hi) (decide_eq_false (lt_irrefl _))
      (calls + (2 * count d + k + 3)) (Nat.le_add_left ..)
    have := hmore.1.symm.trans hcut.1
    omega

/-- A sequence of 3 bytes with a `uint8` and the first byte of another sequence, and memory for
three more elements. -/
theorem cut_header_takes_memory_seq8 :
    let p := SeqDtd.seq8.code :: (bigEndian SeqDtd.seq8.width 3 ++
      (encode (.num .uint8 7 .null) ++ SeqDtd.seq8.code :: []))
    (∀ calls, (sdpExtractAttr calls p).result allSucceed = none) ∧
      (sdpExtractAttr 8 p).Yields (fun i => decide (i < 5)) 6
        (some (some (.seq .seq8 (.num .uint8 7 (emptySeqs .seq8 3)) .null, 4))) := by
  intro p
  obtain ⟨hnever, hfails⟩ := @cut_header_takes_memory .seq8 .seq8 (.num .uint8 7 .null) trivial []
    (by decide) 3 (by decide) (by decide)
  exact ⟨hnever, hfails 3 _ (fun i hi => decide_eq_true hi) rfl 8 (by decide)⟩

end Android2Mouse.Guarantees.SdpRoundTrip
