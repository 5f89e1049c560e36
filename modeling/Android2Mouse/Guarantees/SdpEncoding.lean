import Android2Mouse.Source.SdpData

/-!
# The two passes of the encoder

`encode` says what the encoding of a chain of elements is, and `widen` which sequences
need the longer descriptor. `sdp_gen_pdu` appends exactly the encoding of the widened
element, whatever was in the memory before, and never stores outside it when the room
is there; `sdp_gen_buffer` always asks for that room, in either order in which its
compound assignment may be evaluated.
-/
namespace Android2Mouse.Guarantees.SdpEncoding
open Library Source.Sdp

/-! ## What the bytes should be -/

/-- Descriptor, length, elements; the length is cut off at the width that it has. -/
def encode : SdpData → List UInt8
  | .null => []
  | .num dtd val next => dtd.code :: bigEndian dtd.size val.toNat ++ encode next
  | .str dtd val next => (dtd.code :: bigEndian dtd.width val.length) ++ val ++ encode next
  | .seq dtd dataseq next =>
    (dtd.code :: bigEndian dtd.width (encode dataseq).length) ++ encode dataseq ++ encode next

theorem length_encode_num (dtd : NumDtd) (val : BitVec (8 * dtd.size)) (next : SdpData) :
    (encode (.num dtd val next)).length = 1 + dtd.size + (encode next).length := by
  rw [encode, List.length_append, List.length_cons, length_bigEndian, Nat.add_comm 1]

theorem length_encode_str (dtd : StrDtd) (val : List UInt8) (next : SdpData) :
    (encode (.str dtd val next)).length = dtd.typeSize + val.length + (encode next).length := by
  rw [encode, List.length_append, List.length_append, List.length_cons, length_bigEndian,
    StrDtd.typeSize, Nat.add_comm 1]

theorem length_encode_seq (dtd : SeqDtd) (dataseq next : SdpData) :
    (encode (.seq dtd dataseq next)).length =
      dtd.typeSize + (encode dataseq).length + (encode next).length := by
  rw [encode, List.length_append, List.length_append, List.length_cons, length_bigEndian,
    SeqDtd.typeSize, Nat.add_comm 1]

/-- The descriptor of a sequence of `n` bytes: only the shortest sequence is ever changed. -/
def widened (dtd : SeqDtd) (n : ℕ) : SeqDtd := if 255 < n ∧ dtd = .seq8 then .seq16 else dtd

def widen : SdpData → SdpData
  | .null => .null
  | .num dtd val next => .num dtd val (widen next)
  | .str dtd val next => .str dtd val (widen next)
  | .seq dtd dataseq next =>
    .seq (widened dtd (encode (widen dataseq)).length) (widen dataseq) (widen next)

theorem widened_widened (dtd : SeqDtd) (n : ℕ) : widened (widened dtd n) n = widened dtd n := by
  unfold widened
  split
  · rw [if_neg (fun h => SeqDtd.noConfusion h.2)]
  · rfl

theorem typeSize_le_widened (dtd : SeqDtd) (n : ℕ) : dtd.typeSize ≤ (widened dtd n).typeSize := by
  unfold widened
  split
  next h => rw [h.2]; decide
  next => exact Nat.le_refl _

/-- Widening twice changes nothing more. -/
theorem widen_widen (d : SdpData) : widen (widen d) = widen d := by
  induction d with
  | null => rfl
  | num dtd val next ih => rw [widen, widen, ih]
  | str dtd val next ih => rw [widen, widen, ih]
  | seq dtd dataseq next ihd ihn => rw [widen, widen, ihd, ihn, widened_widened]

@[simp] theorem depth_widen (d : SdpData) : (widen d).depth = d.depth := by
  induction d with
  | null => rfl
  | num dtd val next ih => exact ih
  | str dtd val next ih => exact ih
  | seq dtd dataseq next ihd ihn => rw [widen, SdpData.depth, ihd, ihn, SdpData.depth]

/-! ## Writing one element -/

section

variable (buf : SdpBuf)

theorem putHeader_eq (seqp : ℕ) (code : UInt8) (len : List UInt8)
    (h : seqp + 1 + len.length ≤ buf.data.length) :
    putHeader buf seqp code len = buf.store seqp (code :: len) :=
  Region.store_store buf seqp [code] len h

/-- An element that is no sequence is appended. -/
theorem genScalar_spec (code : UInt8) (len src : List UInt8)
    (hroom : buf.dataSize + (1 + len.length + src.length) ≤ buf.data.length) :
    ∃ buf', genScalar buf code len src = .ok buf' ∧
      Region.Extends (code :: len ++ src) buf buf' := by
  have hhd : (code :: len).length = 1 + len.length := Nat.add_comm ..
  obtain ⟨b, hput, hb⟩ := Region.Extends.header (code :: len) (Region.Extends.refl (buf.reserve _))
    (by rw [Region.reserve_data, Region.reserve_dataSize]; omega)
  rw [List.append_nil] at hb
  have hsize : b.dataSize = buf.dataSize + (code :: len).length := hb.dataSize_eq
  have hlen := hb.data_length
  obtain ⟨b', hstore, hb'⟩ := Region.store_end b src (by omega)
  refine ⟨b'.reserve src.length, ?_, hb.trans hb'⟩
  have hput' : putHeader (buf.reserve (1 + len.length)) buf.dataSize code len = .ok b := by
    rw [putHeader_eq _ _ code len (by change _ ≤ buf.data.length; omega), ← hhd]
    exact hput
  rw [genScalar, hput', ok_bind, if_pos (by omega), hstore]
  rfl

variable {buf} in
/-- The header of a sequence goes before the elements that are there. -/
theorem putSeq_spec {elements : SdpData} {made : SdpBuf} (dtd : SeqDtd)
    (h : Region.Extends (encode elements) (buf.reserve dtd.typeSize) made)
    (hroom : made.dataSize ≤ made.data.length) :
    ∃ buf', putSeq buf.dataSize dtd ⟨elements, made, (encode elements).length⟩ =
        .ok (dtd, ⟨elements, buf', dtd.typeSize + (encode elements).length⟩) ∧
      Region.Extends ((dtd.code :: bigEndian dtd.width (encode elements).length) ++
        encode elements) buf buf' := by
  have hhd : (dtd.code :: bigEndian dtd.width (encode elements).length).length = dtd.typeSize := by
    rw [List.length_cons, length_bigEndian, Nat.add_comm, SeqDtd.typeSize]
  have hsize : made.dataSize = buf.dataSize + dtd.typeSize + (encode elements).length := h.dataSize_eq
  rw [← hhd] at h
  obtain ⟨buf', hstore, hbuf'⟩ := h.header _ hroom
  refine ⟨buf', ?_, hbuf'⟩
  have hput := putHeader_eq made buf.dataSize dtd.code
    (bigEndian dtd.width (encode elements).length) (by rw [List.length_cons] at hhd; omega)
  rw [putSeq, hput, hstore]
  rfl

end

/-! ## Writing a chain -/

/-- What `sdp_gen_pdu` does with the sequences that are nested `depth` deep at most. -/
def GenSeqSpec (depth : ℕ) : Prop :=
  ∀ (dtd : SeqDtd) (dataseq : SdpData) (buf : SdpBuf),
    let bytes := encode (widen dataseq)
    let dtd' := widened dtd bytes.length
    dataseq.depth < depth → buf.dataSize + (dtd'.typeSize + bytes.length) ≤ buf.data.length →
      ∃ buf', genSeq depth dtd dataseq buf =
          .ok (dtd', ⟨widen dataseq, buf', dtd'.typeSize + bytes.length⟩) ∧
        Region.Extends ((dtd'.code :: bigEndian dtd'.width bytes.length) ++ bytes) buf buf'

theorem getDataSize_of_genSeq {depth : ℕ} (hseq : GenSeqSpec depth) (d : SdpData)
    (hd : d.depth ≤ depth) (buf : SdpBuf)
    (hroom : buf.dataSize + (encode (widen d)).length ≤ buf.data.length) :
    ∃ buf', getDataSize (genSeq depth) d buf = .ok ⟨widen d, buf', (encode (widen d)).length⟩ ∧
      Region.Extends (encode (widen d)) buf buf' := by
  induction d generalizing buf with
  | null => exact ⟨buf, rfl, Region.Extends.refl buf⟩
  | num dtd val next ih =>
    have hlen : (encode (widen (.num dtd val next))).length =
        1 + dtd.size + (encode (widen next)).length := length_encode_num ..
    obtain ⟨b, hb, hext⟩ := genScalar_spec buf dtd.code [] (bigEndian dtd.size val.toNat)
      (by rw [length_bigEndian, List.length_nil]; omega)
    have hsize : b.dataSize = buf.dataSize + (1 + dtd.size) := by
      rw [hext.dataSize_eq]
      simp [Nat.add_comm]
    obtain ⟨b', hb', hext'⟩ := ih hd b (by rw [hext.data_length]; omega)
    refine ⟨b', ?_, hext.trans hext'⟩
    rw [getDataSize, hb, ok_bind, hb', ok_bind, hlen]
    rfl
  | str dtd val next ih =>
    have hlen : (encode (widen (.str dtd val next))).length =
        dtd.typeSize + val.length + (encode (widen next)).length := length_encode_str ..
    obtain ⟨b, hb, hext⟩ := genScalar_spec buf dtd.code (bigEndian dtd.width val.length) val
      (by rw [length_bigEndian]; rw [hlen, StrDtd.typeSize] at hroom; omega)
    have hsize : b.dataSize = buf.dataSize + (dtd.typeSize + val.length) := by
      rw [hext.dataSize_eq]
      simp [StrDtd.typeSize]
      omega
    obtain ⟨b', hb', hext'⟩ := ih hd b (by rw [hext.data_length]; omega)
    refine ⟨b', ?_, hext.trans hext'⟩
    rw [getDataSize, hb, ok_bind, hb', ok_bind, hlen]
    rfl
  | seq dtd dataseq next _ ih =>
    have hdepth : dataseq.depth + 1 ≤ depth ∧ next.depth ≤ depth := max_le_iff.mp hd
    have hlen : (encode (widen (.seq dtd dataseq next))).length =
        (widened dtd (encode (widen dataseq)).length).typeSize + (encode (widen dataseq)).length +
          (encode (widen next)).length := length_encode_seq ..
    obtain ⟨b, hb, hext⟩ := hseq dtd dataseq buf hdepth.1 (by omega)
    have hsize := hext.dataSize_eq
    rw [List.length_append, List.length_cons, length_bigEndian] at hsize
    obtain ⟨b', hb', hext'⟩ := ih hdepth.2 b
      (by rw [hext.data_length, hsize]; rw [hlen, SeqDtd.typeSize] at hroom; omega)
    refine ⟨b', ?_, hext.trans hext'⟩
    rw [getDataSize, hb, ok_bind, hb', ok_bind, hlen]
    rfl

/-- The nesting that the first argument allows is all that is needed; the second pass over
a widened sequence writes over everything that the first has left. -/
theorem genSeq_spec (depth : ℕ) : GenSeqSpec depth := by
  induction depth with
  | zero => exact fun _ _ _ h => absurd h (Nat.not_lt_zero _)
  | succ depth ih =>
    intro dtd dataseq buf bytes dtd' hdepth hroom
    have hwider : dtd.typeSize ≤ dtd'.typeSize := typeSize_le_widened ..
    obtain ⟨b, hb, hext⟩ := getDataSize_of_genSeq ih dataseq (Nat.le_of_lt_succ hdepth)
      (buf.reserve dtd.typeSize)
      (by change buf.dataSize + dtd.typeSize + bytes.length ≤ buf.data.length; omega)
    have hsize : b.dataSize = buf.dataSize + dtd.typeSize + bytes.length := hext.dataSize_eq
    have hlen : b.data.length = buf.data.length := hext.data_length
    rw [genSeq, hb, ok_bind]
    by_cases hwide : 255 < bytes.length ∧ dtd = .seq8
    · have hdtd : dtd' = .seq16 := if_pos hwide
      rw [hdtd] at hroom hwider ⊢
      have hback := hext.rewind (by omega)
      obtain ⟨b', hb', hext'⟩ := getDataSize_of_genSeq ih (widen dataseq)
        (by rw [depth_widen]; exact Nat.le_of_lt_succ hdepth)
        (Region.reserve ({ b with dataSize := buf.dataSize } : SdpBuf) SeqDtd.seq16.typeSize)
        (by rw [widen_widen]; change buf.dataSize + _ + bytes.length ≤ b.data.length; omega)
      rw [widen_widen] at hb' hext'
      have hsize' : b'.dataSize = buf.dataSize + SeqDtd.seq16.typeSize + bytes.length :=
        hext'.dataSize_eq
      have hlen' : b'.data.length = b.data.length := hext'.data_length
      obtain ⟨b'', hb'', hext''⟩ := putSeq_spec .seq16 hext' (by omega)
      rw [if_pos hwide]
      dsimp only
      rw [hb', ok_bind]
      exact ⟨b'', hb'', hback.trans hext''⟩
    · have hdtd : dtd' = dtd := if_neg hwide
      rw [hdtd] at hroom ⊢
      obtain ⟨b', hb', hext'⟩ := putSeq_spec dtd hext (by omega)
      rw [if_neg hwide]
      exact ⟨b', hb', hext'⟩

/-- `get_data_size` appends the encoding of the widened elements and returns its length. -/
theorem getDataSize_spec {depth : ℕ} (d : SdpData) (hd : d.depth ≤ depth) (buf : SdpBuf)
    (hroom : buf.dataSize + (encode (widen d)).length ≤ buf.data.length) :
    ∃ buf', getDataSize (genSeq depth) d buf = .ok ⟨widen d, buf', (encode (widen d)).length⟩ ∧
      Region.Extends (encode (widen d)) buf buf' :=
  getDataSize_of_genSeq (genSeq_spec depth) d hd buf hroom

/-! ## The room that is asked for -/

/-- The elements of a chain, with those nested in them. -/
def count : SdpData → ℕ
  | .null => 0
  | .num _ _ next => 1 + count next
  | .str _ _ next => 1 + count next
  | .seq _ dataseq next => 1 + count dataseq + count next

section

variable (reread : Bool) {f : ℕ → ℕ × ℕ} (hf : ∀ s, s ≤ (f s).1) {n : ℕ} (hn : ∀ s, n ≤ (f s).2)
include hf hn

/-- Whichever side of the assignment comes first. -/
theorem le_compound (s : ℕ) : s + n ≤ (if reread then (f s).1 else s) + (f s).2 := by
  have := hf s
  have := hn s
  split <;> omega

/-- One element asks for its attribute identifier, its descriptor and its bytes. -/
theorem le_sdpGenBuffer (code : UInt8) (typeSize s : ℕ) :
    s + (3 + typeSize + n) ≤ sdpGenBuffer reread code typeSize f s := by
  have hbase : s ≤ (if s = 0 ∧ code = 0 then s + 1 + 1 else s) := by split <;> omega
  have := le_compound reread hf hn
    ((if s = 0 ∧ code = 0 then s + 1 + 1 else s) + (1 + 2) + typeSize)
  have hlong : ∀ x, x ≤ if 255 < x ∧ code = SeqDtd.seq8.code then x + 1 else x := by
    intro x
    split <;> omega
  exact Nat.le_trans (by omega) (hlong _)

/-- A short sequence of more than 255 bytes asks for the longer descriptor too. -/
theorem lt_sdpGenBuffer (hlong : 255 < n) (typeSize s : ℕ) :
    s + (3 + typeSize + n) < sdpGenBuffer reread SeqDtd.seq8.code typeSize f s := by
  have hbase : s ≤ (if s = 0 ∧ SeqDtd.seq8.code = 0 then s + 1 + 1 else s) := by split <;> omega
  have := le_compound reread hf hn
    ((if s = 0 ∧ SeqDtd.seq8.code = 0 then s + 1 + 1 else s) + (1 + 2) + typeSize)
  rw [sdpGenBuffer]
  rw [if_pos ⟨by omega, rfl⟩]
  omega

end

section

variable (reread : Bool)

theorem le_sdpGenBuffer_self (code : UInt8) (typeSize s : ℕ) {f : ℕ → ℕ × ℕ}
    (hf : ∀ s, s ≤ (f s).1) : s ≤ sdpGenBuffer reread code typeSize f s :=
  Nat.le_trans (Nat.le_add_right _ _)
    (le_sdpGenBuffer reread hf (fun _ => Nat.zero_le _) code typeSize s)

/-- What `get_data_size` returns is by how much it has changed `buf_size`. -/
theorem bufferSizes_fst (d : SdpData) (s : ℕ) :
    (bufferSizes reread d s).1 = s + (bufferSizes reread d s).2 := by
  induction d generalizing s with
  | null => rfl
  | num dtd val next ih =>
    have := le_sdpGenBuffer_self reread dtd.code 1 s (f := fun s => (s, dtd.size)) Nat.le_refl
    have := ih (sdpGenBuffer reread dtd.code 1 (fun s => (s, dtd.size)) s)
    rw [bufferSizes]
    dsimp only
    omega
  | str dtd val next ih =>
    have := le_sdpGenBuffer_self reread dtd.code dtd.typeSize s (f := fun s => (s, val.length))
      Nat.le_refl
    have := ih (sdpGenBuffer reread dtd.code dtd.typeSize (fun s => (s, val.length)) s)
    rw [bufferSizes]
    dsimp only
    omega
  | seq dtd dataseq next ihd ihn =>
    have := le_sdpGenBuffer_self reread dtd.code dtd.typeSize s (f := bufferSizes reread dataseq)
      (fun s => (ihd s).symm ▸ Nat.le_add_right _ _)
    have := ihn (sdpGenBuffer reread dtd.code dtd.typeSize (bufferSizes reread dataseq) s)
    rw [bufferSizes]
    dsimp only
    omega

theorem le_bufferSizes_fst (d : SdpData) (s : ℕ) : s ≤ (bufferSizes reread d s).1 :=
  (bufferSizes_fst reread d s).symm ▸ Nat.le_add_right _ _

/-- Every element, nested or not, asks for its bytes and for an attribute identifier. -/
theorem le_bufferSizes (d : SdpData) (s : ℕ) :
    (encode (widen d)).length + 3 * count d ≤ (bufferSizes reread d s).2 := by
  induction d generalizing s with
  | null => exact Nat.le_refl _
  | num dtd val next ih =>
    have := le_sdpGenBuffer reread (f := fun s => (s, dtd.size)) Nat.le_refl (n := dtd.size)
      (fun _ => Nat.le_refl _) dtd.code 1 s
    have := ih (sdpGenBuffer reread dtd.code 1 (fun s => (s, dtd.size)) s)
    rw [bufferSizes, widen, length_encode_num, count]
    dsimp only
    omega
  | str dtd val next ih =>
    have := le_sdpGenBuffer reread (f := fun s => (s, val.length)) Nat.le_refl (n := val.length)
      (fun _ => Nat.le_refl _) dtd.code dtd.typeSize s
    have := ih (sdpGenBuffer reread dtd.code dtd.typeSize (fun s => (s, val.length)) s)
    rw [bufferSizes, widen, length_encode_str, count]
    dsimp only
    omega
  | seq dtd dataseq next ihd ihn =>
    have hrest := ihn (sdpGenBuffer reread dtd.code dtd.typeSize (bufferSizes reread dataseq) s)
    have hhead : s + (3 + (widened dtd (encode (widen dataseq)).length).typeSize +
        ((encode (widen dataseq)).length + 3 * count dataseq)) ≤
          sdpGenBuffer reread dtd.code dtd.typeSize (bufferSizes reread dataseq) s := by
      by_cases hwide : 255 < (encode (widen dataseq)).length ∧ dtd = .seq8
      · rw [widened, if_pos hwide, hwide.2]
        have := lt_sdpGenBuffer reread (le_bufferSizes_fst reread dataseq) ihd (by omega)
          SeqDtd.seq8.typeSize s
        have hsizes : SeqDtd.seq16.typeSize = SeqDtd.seq8.typeSize + 1 := rfl
        omega
      · rw [widened, if_neg hwide]
        exact le_sdpGenBuffer reread (le_bufferSizes_fst reread dataseq) ihd ..
    rw [bufferSizes, widen, length_encode_seq, count]
    dsimp only
    omega

end

end Android2Mouse.Guarantees.SdpEncoding
