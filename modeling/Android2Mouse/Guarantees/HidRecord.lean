import Android2Mouse.Guarantees.SdpRoundTrip
import Android2Mouse.Source.SelfRepr

/-!
# The record of the HID device

The attributes of a record are a finite map that is kept in order, whatever is added,
replaced and removed; an allocation that fails empties it. The record that `build_hid_mouse`
and `build_hid_multidev` build around their `hid_spec` is encoded within its memory, and a
host reads back the report descriptor and the two channels that the daemon connects to.
-/
namespace Android2Mouse.Guarantees.HidRecord
open Library Source Source.Sdp SdpEncoding SdpRecordPdu SdpRoundTrip
open Outcomes (allSucceed)

/-! ## Attributes as a map -/

/-- A call, with an element of its own, and whether there is memory for a node in the list. -/
inductive AttrOp where
  | add (node : Bool) (attr : UInt16) (d : SdpData)
  | replace (node : Bool) (attr : UInt16) (d : SdpData)
  | remove (attr : UInt16)

/-- `sdp_attr_add`, `sdp_attr_replace`, `sdp_attr_remove` -/
def AttrOp.run (attrlist : List Attr) : AttrOp → Except Fault (List Attr)
  | add node attr d => do return (← sdpAttrAdd attrlist node attr d).1
  | replace node attr d => sdpAttrReplace attrlist node attr d
  | remove attr => return sdpAttrRemove attrlist attr

/-- A value for an identifier; without memory nothing is left of the map. -/
def put (attrs : UInt16 → Option SdpData) (node : Bool) (attr : UInt16) (d : SdpData) :
    Except Fault (UInt16 → Option SdpData) :=
  if d = .null then .error .null
  else .ok (if node then Function.update attrs attr (some d) else fun _ => none)

/-- What the calls do to the map from identifiers to values. -/
def AttrOp.effect (attrs : UInt16 → Option SdpData) : AttrOp → Except Fault (UInt16 → Option SdpData)
  | add node attr d => if (attrs attr).isSome then .ok attrs else put attrs node attr d
  | replace node attr d => put attrs node attr d
  | remove attr => .ok (Function.update attrs attr none)

/-- In the order of the identifiers, each at most once. -/
def Ordered (attrlist : List Attr) : Prop := attrlist.Pairwise fun a b => a.attrId < b.attrId

theorem Ordered.remove {attrlist : List Attr} (h : Ordered attrlist) (attr : UInt16) :
    Ordered (sdpAttrRemove attrlist attr) := h.sublist List.eraseP_sublist

theorem sdpAttrRemove_cons (a : Attr) (attrlist : List Attr) (attr : UInt16) :
    sdpAttrRemove (a :: attrlist) attr =
      if a.attrId = attr then attrlist else a :: sdpAttrRemove attrlist attr := by
  by_cases h : a.attrId = attr <;> simp [sdpAttrRemove, h]

theorem sdpDataGet_cons (a : Attr) (attrlist : List Attr) (attr : UInt16) :
    sdpDataGet (a :: attrlist) attr =
      if a.attrId = attr then some a.data else sdpDataGet attrlist attr := by
  by_cases h : a.attrId = attr <;> simp [sdpDataGet, h]

/-- Past all identifiers there is nothing. -/
theorem sdpDataGet_of_lt {attrlist : List Attr} {attr : UInt16}
    (h : ∀ a ∈ attrlist, attr < a.attrId) : sdpDataGet attrlist attr = none := by
  have hnone : attrlist.find? (·.attrId = attr) = none := by
    refine List.find?_eq_none.mpr fun a ha heq => ?_
    have := h a ha
    rw [of_decide_eq_true heq] at this
    exact UInt16.lt_irrefl _ this
  rw [sdpDataGet, hnone, Option.map_none]

/-- Removing the first attribute with an identifier removes the identifier. -/
theorem sdpDataGet_remove {attrlist : List Attr} (h : Ordered attrlist) (attr : UInt16) :
    sdpDataGet (sdpAttrRemove attrlist attr) =
      Function.update (sdpDataGet attrlist) attr none := by
  funext id
  induction attrlist with
  | nil => simp [sdpAttrRemove, sdpDataGet, Function.update_apply]
  | cons a attrlist ih =>
    have htail := List.pairwise_cons.mp h
    rw [Function.update_apply] at ih ⊢
    rw [sdpAttrRemove_cons, sdpDataGet_cons]
    by_cases ha : a.attrId = attr
    · rw [if_pos ha]
      by_cases hid : id = attr
      · rw [if_pos hid, hid, sdpDataGet_of_lt (ha ▸ htail.1)]
      · rw [if_neg hid, if_neg (fun h => hid (h.symm.trans ha))]
    · rw [if_neg ha, sdpDataGet_cons, ih htail.2]
      by_cases hid : id = attr
      · rw [if_pos hid, if_pos hid, if_neg (fun h => ha (h.trans hid))]
      · rw [if_neg hid, if_neg hid]

theorem attrId_ne_of_mem_remove {attrlist : List Attr} (h : Ordered attrlist) (attr : UInt16) :
    ∀ a ∈ sdpAttrRemove attrlist attr, a.attrId ≠ attr := by
  induction attrlist with
  | nil => exact fun a ha => absurd ha List.not_mem_nil
  | cons b attrlist ih =>
    have htail := List.pairwise_cons.mp h
    intro a ha
    rw [sdpAttrRemove_cons] at ha
    by_cases hb : b.attrId = attr
    · rw [if_pos hb] at ha
      have := htail.1 a ha
      rintro rfl
      rw [hb] at this
      exact UInt16.lt_irrefl _ this
    · rw [if_neg hb] at ha
      rcases List.mem_cons.mp ha with rfl | ha
      · exact hb
      · exact ih htail.2 a ha

/-- Inserting a new identifier keeps the order. -/
theorem Ordered.insertSorted {attrlist : List Attr} (h : Ordered attrlist) {d : Attr}
    (hnew : ∀ a ∈ attrlist, a.attrId ≠ d.attrId) : Ordered (insertSorted attrlist d) := by
  unfold Sdp.insertSorted
  induction attrlist with
  | nil => exact List.pairwise_singleton ..
  | cons a attrlist ih =>
    have htail := List.pairwise_cons.mp h
    have hne := hnew a (.head _)
    rw [List.orderedInsert_cons]
    split
    next hle =>
      have hlt : d.attrId < a.attrId := UInt16.lt_of_le_of_ne hle hne.symm
      refine List.pairwise_cons.mpr ⟨fun b hb => ?_, h⟩
      rcases List.mem_cons.mp hb with rfl | hb
      · exact hlt
      · exact UInt16.lt_trans hlt (htail.1 b hb)
    next hle =>
      refine List.pairwise_cons.mpr ⟨fun b hb => ?_, ih htail.2 fun b hb => hnew b (.tail _ hb)⟩
      rcases (List.mem_orderedInsert _).mp hb with rfl | hb
      · exact UInt16.not_le.mp hle
      · exact htail.1 b hb

theorem sdpDataGet_insertSorted {attrlist : List Attr} {d : Attr}
    (hnew : ∀ a ∈ attrlist, a.attrId ≠ d.attrId) :
    sdpDataGet (Sdp.insertSorted attrlist d) =
      Function.update (sdpDataGet attrlist) d.attrId (some d.data) := by
  funext id
  unfold Sdp.insertSorted
  induction attrlist with
  | nil =>
    rw [Function.update_apply, List.orderedInsert_nil, sdpDataGet_cons]
    by_cases hid : id = d.attrId
    · rw [if_pos hid, if_pos hid.symm]
    · rw [if_neg hid, if_neg (Ne.symm hid)]
  | cons a attrlist ih =>
    have hrest := ih fun b hb => hnew b (.tail _ hb)
    rw [Function.update_apply] at hrest ⊢
    rw [List.orderedInsert_cons]
    split
    next hle =>
      rw [sdpDataGet_cons]
      by_cases hid : id = d.attrId
      · rw [if_pos hid, if_pos hid.symm]
      · rw [if_neg hid, if_neg (Ne.symm hid)]
    next hle =>
      rw [sdpDataGet_cons, hrest, sdpDataGet_cons]
      by_cases hid : id = d.attrId
      · rw [if_pos hid, if_pos hid, if_neg (fun h => hnew a (.head _) (h.trans hid))]
      · rw [if_neg hid, if_neg hid]

/-- Inserting a new identifier, when there is memory, is `put`. -/
theorem insert_put {attrlist : List Attr} (h : Ordered attrlist) {attr : UInt16}
    (hnew : ∀ a ∈ attrlist, a.attrId ≠ attr) (node : Bool) (d : SdpData) :
    Ordered (sdpListInsertSorted attrlist node ⟨attr, d⟩) ∧
      sdpDataGet (sdpListInsertSorted attrlist node ⟨attr, d⟩) =
        if node then Function.update (sdpDataGet attrlist) attr (some d) else fun _ => none := by
  cases node with
  | true => exact ⟨h.insertSorted hnew, sdpDataGet_insertSorted hnew⟩
  | false => exact ⟨List.Pairwise.nil, rfl⟩

/-- A step keeps the order and does to the list what it does to the map; it faults where the
element is null. -/
theorem attrOp_step {attrlist : List Attr} (h : Ordered attrlist) (op : AttrOp) :
    (∃ e, op.run attrlist = .error e ∧ op.effect (sdpDataGet attrlist) = .error e) ∨
      ∃ attrlist', op.run attrlist = .ok attrlist' ∧ Ordered attrlist' ∧
        op.effect (sdpDataGet attrlist) = .ok (sdpDataGet attrlist') := by
  cases op with
  | add node attr d =>
    by_cases hfound : (sdpDataGet attrlist attr).isSome
    · refine Or.inr ⟨attrlist, ?_, h, ?_⟩
      · rw [AttrOp.run, sdpAttrAdd, if_pos hfound, ok_bind]
        rfl
      · rw [AttrOp.effect, if_pos hfound]
    · have hnew : ∀ a ∈ attrlist, a.attrId ≠ attr := by
        intro a ha heq
        refine hfound ?_
        rw [sdpDataGet, Option.isSome_map, List.find?_isSome]
        exact ⟨a, ha, decide_eq_true heq⟩
      obtain ⟨hordered, hget⟩ := insert_put h hnew node d
      rw [AttrOp.run, sdpAttrAdd, if_neg hfound, AttrOp.effect, if_neg hfound, put]
      by_cases hd : d = .null
      · rw [if_pos hd, if_pos hd]
        exact Or.inl ⟨.null, rfl, rfl⟩
      · rw [if_neg hd, if_neg hd, ← hget]
        exact Or.inr ⟨_, rfl, hordered, rfl⟩
  | replace node attr d =>
    have hnew := attrId_ne_of_mem_remove h attr
    obtain ⟨hordered, hget⟩ := insert_put (h.remove attr) hnew node d
    rw [sdpDataGet_remove h, Function.update_idem] at hget
    rw [AttrOp.run, sdpAttrReplace, AttrOp.effect, put]
    by_cases hd : d = .null
    · rw [if_pos hd, if_pos hd]
      exact Or.inl ⟨.null, rfl, rfl⟩
    · rw [if_neg hd, if_neg hd, ← hget]
      exact Or.inr ⟨_, rfl, hordered, rfl⟩
  | remove attr =>
    exact Or.inr ⟨_, rfl, h.remove attr, congrArg Except.ok (sdpDataGet_remove h attr).symm⟩

/-- Over every run of additions, replacements and removals the attributes of a record stay
in order, and finding one returns what a map would hold for its identifier; the run faults
exactly when an element that is to be put in is null. -/
theorem attrlist_is_map (ops : List AttrOp) :
    (ops.foldlM AttrOp.run []).map sdpDataGet = ops.foldlM AttrOp.effect (fun _ => none) ∧
      ∀ attrlist, ops.foldlM AttrOp.run [] = .ok attrlist → Ordered attrlist := by
  have hrun : ∀ attrlist, Ordered attrlist →
      (ops.foldlM AttrOp.run attrlist).map sdpDataGet =
          ops.foldlM AttrOp.effect (sdpDataGet attrlist) ∧
        ∀ attrlist', ops.foldlM AttrOp.run attrlist = .ok attrlist' → Ordered attrlist' := by
    induction ops with
    | nil =>
      intro attrlist h
      refine ⟨rfl, fun attrlist' hends => ?_⟩
      obtain rfl := Except.ok.inj hends
      exact h
    | cons op ops ih =>
      intro attrlist h
      rw [List.foldlM_cons, List.foldlM_cons]
      obtain ⟨e, hop, heffect⟩ | ⟨attrlist', hop, hordered, heffect⟩ := attrOp_step h op
      · rw [hop, heffect]
        exact ⟨rfl, fun _ hends => (by cases hends)⟩
      · rw [hop, heffect]
        exact ih attrlist' hordered
  exact hrun [] List.Pairwise.nil

/-! ## The record of the program -/

/-- The attribute that carries the report descriptor. -/
def descriptorAttr (hidSpec : List UInt8) : Attr :=
  ⟨0x0206, .seq .seq8 (.seq .seq8 (.num .uint8 0x22 (.str .textStr8 hidSpec .null)) .null) .null⟩

/-- The sequence of a channel of the protocol L2CAP, under HIDP. -/
def channel (psm : BitVec 16) : SdpData :=
  .seq .seq8 (.seq .seq8 (.num .uuid16 0x0100 (.num .uint16 psm .null))
    (.seq .seq8 (.num .uuid16 0x0011 .null) .null)) .null

/-- Attributes of 16 bit integers. -/
def numbers (attrs : List (UInt16 × BitVec 16)) : List Attr :=
  attrs.map fun a => ⟨a.1, .num .uint16 a.2 .null⟩

/-- What comes before it. -/
def before : List Attr :=
  [⟨0x0001, .seq .seq8 (.num .uuid16 0x1124 .null) .null⟩,
    ⟨0x0004, channel ctrl⟩,
    ⟨0x0005, .seq .seq8 (.num .uuid16 0x1002 .null) .null⟩,
    ⟨0x0006, .seq .seq8 (.num .uint16 0x656e (.num .uint16 106 (.num .uint16 0x0100 .null))) .null⟩,
    ⟨0x0009, .seq .seq8 (.seq .seq8 (.num .uuid16 0x1124 (.num .uint16 0x0100 .null)) .null) .null⟩,
    ⟨0x000d, .seq .seq8 (channel intr) .null⟩,
    ⟨0x0100, .str .textStr8 serviceName .null⟩] ++
  numbers [(0x0200, 0x100), (0x0201, 0x111), (0x0202, 0x80), (0x0203, 0x00), (0x0204, 0x01),
    (0x0205, 0x01)]

/-- What comes after it. -/
def after : List Attr :=
  ⟨0x0207, .seq .seq8 (.seq .seq8 (.num .uint16 0x409 (.num .uint16 0x100 .null)) .null) .null⟩ ::
  numbers [(0x0208, 0x00), (0x020a, 0x01), (0x020b, 0x100), (0x020c, 0x1f40), (0x020d, 0x01),
    (0x020e, 0x01)]

/-- The attributes of the record around a report descriptor. -/
def hidAttrs (hidSpec : List UInt8) : List Attr := before ++ descriptorAttr hidSpec :: after

/-- The steps up to the report descriptor. -/
theorem before_built :
    (do
      let nodes : UInt16 → Bool := fun _ => true
      let attrs ← sdpSetBrowseGroups nodes [] [0x1002]
      let attrs ← sdpAddLangAttr nodes attrs
      let attrs ← sdpSetServiceClasses nodes attrs [0x1124]
      let attrs ← sdpSetProfileDescs nodes attrs [(0x1124, 0x0100)]
      let attrs ← sdpSetAccessProtos nodes attrs (hidProtos ctrl)
      let attrs ← sdpSetAddAccessProtos nodes attrs (hidProtos intr)
      let attrs ← sdpSetInfoAttr nodes attrs serviceName
      addUint16s nodes attrs 0x0200 [0x100, 0x111, 0x80, 0x00, 0x01, 0x01]) = Except.ok before := by
  decide +kernel

/-- With memory for their nodes, these are the attributes that are built. -/
theorem buildHid_eq {nodes : UInt16 → Bool} (hnodes : ∀ attr, nodes attr = true)
    {hidSpec : List UInt8} (h : hidSpec.length ≤ 65535) :
    buildHid nodes hidSpec = .ok (hidAttrs hidSpec) := by
  obtain rfl : nodes = fun _ => true := funext hnodes
  have hseq : sdpSeqAlloc [.num .uint8 0x22, .str .textStr8 hidSpec] =
      .seq .seq8 (.num .uint8 0x22 (.str .textStr8 hidSpec .null)) .null := by
    simp [sdpSeqAlloc, Value.alloc, sdpDataAllocStr, h, link, SdpData.setNext]
  have hdescriptor : addAttr (fun _ => true) before 0x0206 (descriptorAttr hidSpec).data =
      .ok (before ++ [descriptorAttr hidSpec]) := by
    rw [addAttr, sdpAttrAdd, if_neg (by decide), if_neg SdpData.noConfusion]
    rfl
  have hbefore := before_built
  simp only [← bind_assoc] at hbefore
  simp only [buildHid, hseq, ← bind_assoc]
  rw [hbefore, ok_bind]
  change addAttr (fun _ => true) before 0x0206 (descriptorAttr hidSpec).data >>= _ >>= _ >>= _ = _
  rw [hdescriptor]
  rfl

theorem hidAttrs_ordered (hidSpec : List UInt8) : Ordered (hidAttrs hidSpec) := by
  have hids : (hidAttrs hidSpec).map Attr.attrId = (before ++ descriptorAttr [] :: after).map
      Attr.attrId := by
    rw [hidAttrs, List.map_append, List.map_append, List.map_cons, List.map_cons]
    rfl
  rw [Ordered, ← List.pairwise_map (f := Attr.attrId) (R := (· < ·)), hids]
  decide +kernel

/-- The type of the descriptor and its bytes. -/
theorem length_descriptor_elements (hidSpec : List UInt8) :
    (encode (widen (.num .uint8 0x22 (.str .textStr8 hidSpec .null)))).length =
      hidSpec.length + 4 := by
  rw [widen, length_encode_num, widen, length_encode_str]
  change 1 + 1 + (1 + 1 + hidSpec.length + 0) = _
  omega

theorem length_descriptor (hidSpec : List UInt8) :
    (attrBytes (descriptorAttr hidSpec)).length ≤ hidSpec.length + 13 := by
  have hspec := length_descriptor_elements hidSpec
  have hinner := length_seq8_le (.num .uint8 0x22 (.str .textStr8 hidSpec .null)) .null
  have houter := length_seq8_le
    (.seq .seq8 (.num .uint8 0x22 (.str .textStr8 hidSpec .null)) .null) .null
  have hnull : (encode (widen SdpData.null)).length = 0 := rfl
  rw [length_attrBytes, descriptorAttr]
  dsimp only [SdpData.setNext]
  omega

theorem fits_descriptor {hidSpec : List UInt8} (h : hidSpec.length ≤ 255) :
    Fits (widen (descriptorAttr hidSpec).data) := by
  have hspec := length_descriptor_elements hidSpec
  have hinner := length_seq8_le (.num .uint8 0x22 (.str .textStr8 hidSpec .null)) .null
  have hnull : (encode (widen SdpData.null)).length = 0 := rfl
  refine fits_seq8 (by omega) (fits_seq8 (by omega) ?_ trivial) trivial
  exact ⟨by decide, by decide, by change _ < 256; omega, trivial⟩

/-- The rest of the record has elements, and lengths that fit. -/
theorem rest_encodable : ∀ a ∈ before ++ after,
    a.data ≠ .null ∧ Fits (widen (a.data.setNext .null)) := by
  have h : (before ++ after).all (fun a => decide (a.data ≠ .null) &&
      decide (Fits (widen (a.data.setNext .null)))) = true := by decide +kernel
  intro a ha
  have := List.all_eq_true.mp h a ha
  rwa [Bool.and_eq_true, decide_eq_true_eq, decide_eq_true_eq] at this

/-- What is found in a record that has been read back. -/
theorem sdpDataGet_written (attrlist : List Attr) (attr : UInt16) :
    sdpDataGet (attrlist.map written) attr =
      (sdpDataGet attrlist attr).map fun d => widen (d.setNext .null) := by
  induction attrlist with
  | nil => rfl
  | cons a attrlist ih =>
    rw [List.map_cons, sdpDataGet_cons, sdpDataGet_cons, ih, written]
    split <;> rfl

/-- What the record around a report descriptor is made of. -/
theorem hidAttrs_encodable {hidSpec : List UInt8} (h : hidSpec.length ≤ 255) :
    (∀ a ∈ hidAttrs hidSpec, a.data ≠ .null) ∧ (∃ a ∈ hidAttrs hidSpec, Nested a.data) ∧
      (∀ a ∈ hidAttrs hidSpec, Fits (widen (a.data.setNext .null))) ∧
      ((hidAttrs hidSpec).flatMap attrBytes).length ≤ hidSpec.length + 193 := by
  have hmem : ∀ a ∈ hidAttrs hidSpec, a = descriptorAttr hidSpec ∨ a ∈ before ++ after := by
    intro a ha
    rcases List.mem_append.mp ha with ha | ha
    · exact Or.inr (List.mem_append_left _ ha)
    · rcases List.mem_cons.mp ha with ha | ha
      · exact Or.inl ha
      · exact Or.inr (List.mem_append_right _ ha)
  refine ⟨fun a ha => ?_, ⟨descriptorAttr hidSpec, ?_, SdpData.noConfusion⟩, fun a ha => ?_, ?_⟩
  · rcases hmem a ha with rfl | ha
    · exact SdpData.noConfusion
    · exact (rest_encodable a ha).1
  · exact List.mem_append_right _ (.head _)
  · rcases hmem a ha with rfl | ha
    · exact fits_descriptor h
    · exact (rest_encodable a ha).2
  · have hb : (before.flatMap attrBytes).length = 131 := by decide +kernel
    have ha : (after.flatMap attrBytes).length = 49 := by decide +kernel
    have hd := length_descriptor hidSpec
    rw [hidAttrs, List.flatMap_append, List.flatMap_cons, List.length_append, List.length_append]
    omega

/-- The record is generated, and is short enough for a request. -/
theorem hidAttrs_generated (reread : Bool) {mallocs : UInt16 → Malloc UInt8}
    (hok : ∀ attr, (mallocs attr).ok = true) {hidSpec : List UInt8} (h : hidSpec.length ≤ 255) :
    ∃ buf, sdpGenRecordPdu reread mallocs (hidAttrs hidSpec) = .ok buf ∧
      buf.filled = recordBytes ((hidAttrs hidSpec).flatMap attrBytes) ∧
      buf.filled.length ≤ hidSpec.length + 196 := by
  obtain ⟨hdata, hnested, -, hlen⟩ := hidAttrs_encodable h
  obtain ⟨buf, hbuf, hfilled⟩ := sdpGenRecordPdu_encodes reread mallocs hdata hnested
  rw [body_eq_of_ok mallocs (fun a _ => hok a.attrId)] at hfilled
  refine ⟨buf, hbuf, hfilled, ?_⟩
  have hne : (hidAttrs hidSpec).flatMap attrBytes ≠ [] := by
    simp [hidAttrs, attrBytes]
  have htype : (recordDtd ((hidAttrs hidSpec).flatMap attrBytes).length).typeSize ≤ 3 := by
    rcases recordDtd_cases ((hidAttrs hidSpec).flatMap attrBytes).length with hd | hd <;>
      rw [hd] <;> decide
  rw [hfilled, length_recordBytes hne]
  omega

/-- Reading `pdu`, with memory for all that is read and enough calls, gives all attributes of the
record around `hidSpec`, among them the report descriptor and the two channels. -/
def ReadsBack (hidSpec pdu : List UInt8) : Prop :=
  ∀ (calls : ℕ) (rest : List UInt8), 2 * pdu.length ≤ calls →
    ∃ attrs, (sdpExtractPdu calls (pdu ++ rest)).result allSucceed =
        .ok (some (attrs, (pdu.length : ℤ))) ∧
      attrs.map Attr.attrId = (hidAttrs hidSpec).map Attr.attrId ∧
      sdpDataGet attrs 0x0206 = some (widen (descriptorAttr hidSpec).data) ∧
      sdpDataGet attrs 0x0004 = some (channel ctrl) ∧
      sdpDataGet attrs 0x000d = some (.seq .seq8 (channel intr) .null)

theorem hidAttrs_extracted {hidSpec : List UInt8} (h : hidSpec.length ≤ 255) :
    ReadsBack hidSpec (recordBytes ((hidAttrs hidSpec).flatMap attrBytes)) := by
  obtain ⟨hdata, hnested, hfits, hlen⟩ := hidAttrs_encodable h
  have hne : hidAttrs hidSpec ≠ [] := by
    obtain ⟨a, ha, -⟩ := hnested
    exact List.ne_nil_of_mem ha
  intro calls rest hcalls
  refine ⟨_, sdpExtractPdu_recordBytes hdata hne (hidAttrs_ordered hidSpec) hfits (by omega) calls
    rest hcalls, ?_, ?_, ?_, ?_⟩
  · rw [List.map_map]
    rfl
  · rw [sdpDataGet_written]
    rfl
  · rw [sdpDataGet_written]
    rfl
  · rw [sdpDataGet_written]
    rfl

end Android2Mouse.Guarantees.HidRecord
