import Android2Mouse.Library.Lasting
import Android2Mouse.Source.HidpCache

/-!
# Packets through the caches

`Live` is what a cache is good for: a live buffer of just its size, with the write
pointer inside. A call that does not fail to grow finds or makes room, hands over
the header and the data, and leaves its cache live and the buffers of the others
alone (`act_ok`). So with every allocation succeeding the caches are as good as a
buffer for every packet (`cached_sender_agrees`).
-/
namespace Android2Mouse.Guarantees.CachedSender
open Library Source.HidpCache

/-! ## A cache -/

/-- A live buffer of the size of the cache, and the write pointer inside it. -/
def Live (h : Heap UInt8) (c : SendCache) : Prop :=
  ∃ b contents, c.buf = .start b ∧ h.blocks b = some contents ∧ contents.length = c.size ∧
    c.p.block = some b ∧ c.p.offset ≤ c.size

/-- What a call does to the heap and to its cache: the buffer is the same or a new
one, and other blocks are kept. -/
structure Updates (h h' : Heap UInt8) (c c' : SendCache) : Prop where
  live : Live h' c'
  buffer : c'.buf = c.buf ∨ ∃ b, c'.buf = .start b ∧ h.blocks b = none
  frame : ∀ b contents, c.buf ≠ .start b → h.blocks b = some contents → h'.blocks b = some contents

theorem start_inj {b b' : ℕ} (h : Ptr.start b = Ptr.start b') : b = b' :=
  Option.some.inj (congrArg Ptr.block h)

/-- Whatever is written into the buffer afterwards. -/
theorem Updates.write {h h' : Heap UInt8} {c c' : SendCache} (u : Updates h h' c c') {b : ℕ}
    (hb : c'.buf = .start b) {bytes : List UInt8} (hlen : bytes.length = c'.size) (offset : ℕ)
    (hle : offset ≤ c'.size) :
    Updates h (h'.set b bytes) c { c' with p := ⟨some b, offset⟩ } := by
  obtain ⟨b', contents, hbuf, hblock, _, _, _⟩ := u.live
  obtain rfl : b = b' := start_inj (hb.symm.trans hbuf)
  refine ⟨⟨b, bytes, hb, h'.set_self hblock bytes, hlen, rfl, hle⟩, u.buffer, ?_⟩
  intro b' other hother hlive
  have hne : b' ≠ b := by
    rintro rfl
    rcases u.buffer with hsame | ⟨b', hnew, hnone⟩
    · exact hother (hsame.symm.trans hb)
    · obtain rfl := start_inj (hb.symm.trans hnew)
      rw [hnone] at hlive
      cases hlive
  rw [h'.set_of_ne hne]
  exact u.frame b' other hother hlive

theorem startCache_ok (size : ℕ) {m : Malloc UInt8} (hm : m.ok = true) (h : Heap UInt8)
    (c : SendCache) :
    startCache size m h c =
      .ok (h.alloc (List.replicate size 0), ⟨.start h.fresh, .start h.fresh, size⟩, 0) := by
  have hlive := h.alloc_fresh ((List.range size).map m.junk)
  have hlen : (List.replicate size (0 : UInt8)).length = ((List.range size).map m.junk).length := by
    simp
  have hzero := Heap.store_all _ hlive hlen
  rw [Heap.alloc_set] at hzero
  unfold startCache zeroCache
  rw [h.malloc_ok hm]
  simp only [hzero]
  rfl

/-- A fresh buffer, once the old one is freed or given up. -/
theorem updates_alloc (size : ℕ) {h h' : Heap UInt8} {c : SendCache} (hfresh : h'.fresh = h.fresh)
    (hkept : ∀ b contents, c.buf ≠ .start b → h.blocks b = some contents →
      h'.blocks b = some contents) :
    Updates h (h'.alloc (List.replicate size 0)) c
      ⟨.start h'.fresh, .start h'.fresh, size⟩ := by
  refine ⟨⟨_, _, rfl, h'.alloc_fresh _, List.length_replicate, rfl, Nat.zero_le size⟩,
    Or.inr ⟨h'.fresh, rfl, h.dead _ (Nat.le_of_eq hfresh.symm)⟩, fun b contents hne hlive => ?_⟩
  have hlt := h.lt_fresh hlive
  rw [h'.alloc_of_ne _ (by omega)]
  exact hkept b contents hne hlive

/-- A cache that was never used grows from nothing. -/
theorem checkCache_ok {size : ℕ} (pos : 0 < size) {m : Malloc UInt8} {h : Heap UInt8}
    {c : SendCache} (hc : c = .unused ∨ Live h c) (hm : ¬ (c.size < size ∧ m.ok = false)) :
    ∃ h' c', checkCache size m h c = .ok (h', c', 0) ∧ Updates h h' c c' ∧ c.size ≤ c'.size ∧
      size ≤ c'.size := by
  unfold checkCache
  by_cases hgrow : size > c.size
  · have hok : m.ok = true := by
      cases hmok : m.ok with
      | true => rfl
      | false => exact absurd ⟨hgrow, hmok⟩ hm
    rw [if_pos hgrow]
    rcases hc with rfl | ⟨b, contents, hbuf, hblock, _, _, _⟩
    · refine ⟨_, _, startCache_ok size hok h .unused, ?_, Nat.zero_le size, Nat.le_refl size⟩
      exact updates_alloc size rfl fun b contents _ hlive => hlive
    · rw [hbuf, h.free_start hblock]
      refine ⟨_, _, startCache_ok size hok (h.kill b) c, ?_, Nat.le_of_lt hgrow, Nat.le_refl size⟩
      refine updates_alloc size rfl fun b' other hne hlive => ?_
      rw [h.kill_of_ne fun heq => hne (hbuf.trans (congrArg Ptr.start heq.symm))]
      exact hlive
  · rw [if_neg hgrow]
    have hlive : Live h c := hc.resolve_left fun hunused => by
      rw [hunused] at hgrow
      exact hgrow pos
    exact ⟨h, c, rfl, ⟨hlive, Or.inl rfl, fun _ _ _ hkept => hkept⟩, Nat.le_refl _,
      Nat.le_of_not_lt hgrow⟩

/-! ## A call -/

/-- A header written to the front of a block, and the data behind it. -/
theorem splice_packet (hdr : UInt8) (data contents : List UInt8)
    (h : data.length + 1 ≤ contents.length) :
    splice (splice contents 0 [hdr]) 1 data =
      hdr :: data ++ contents.drop (data.length + 1) := by
  cases contents with
  | nil => exact absurd h (Nat.not_succ_le_zero _)
  | cons first rest => simp [splice, Nat.add_comm 1 data.length]

theorem take_packet (hdr : UInt8) (data rest : List UInt8) :
    (hdr :: data ++ rest).take (data.length + 1) = hdr :: data := List.take_left' rfl

theorem zeroCache_ok {h : Heap UInt8} {c : SendCache} {b : ℕ} {contents : List UInt8}
    (hbuf : c.buf = .start b) (hblock : h.blocks b = some contents)
    (hlen : contents.length = c.size) :
    zeroCache h c = .ok (h.set b (List.replicate c.size 0), { c with p := .start b }) := by
  have hzeros : (List.replicate c.size (0 : UInt8)).length = contents.length := by
    rw [List.length_replicate, hlen]
  rw [zeroCache, hbuf, h.store_all hblock hzeros]
  rfl

theorem pushCache_ok {h : Heap UInt8} {c : SendCache} {b offset : ℕ} {contents v : List UInt8}
    (hp : c.p = ⟨some b, offset⟩) (hblock : h.blocks b = some contents)
    (hfit : offset + v.length ≤ contents.length) :
    pushCache v h c =
      .ok (h.set b (splice contents offset v), { c with p := ⟨some b, offset + v.length⟩ }) := by
  rw [pushCache, hp, h.store_ok hblock hfit]
  rfl

theorem sendHidpPkt_ok (sk : Int32) (hdr : UInt8) (data : List UInt8) (flags : Int32)
    {m : Malloc UInt8} (sent : Int32) {h : Heap UInt8} {c : SendCache}
    (hc : c = .unused ∨ Live h c) (hm : ¬ (c.size < data.length + 1 ∧ m.ok = false)) :
    ∃ h' c', sendHidpPkt sk hdr data flags m sent h c =
      .ok (h', c', some ⟨sk, hdr :: data, flags⟩, sent) ∧ Updates h h' c c' ∧
        c.size ≤ c'.size := by
  obtain ⟨h', c', hcheck, u, hgrows, hroom⟩ := checkCache_ok (Nat.succ_pos _) hc hm
  obtain ⟨b, contents, hbuf, hblock, hlen, _, _⟩ := u.live
  have hroom : data.length + 1 ≤ c'.size := hroom
  let zeros : List UInt8 := List.replicate c'.size 0
  let headed := splice zeros 0 [hdr]
  let packed := splice headed 1 data
  have hzeros : zeros.length = c'.size := List.length_replicate
  have hone : 0 + [hdr].length ≤ zeros.length := by
    rw [hzeros, List.length_singleton]
    omega
  have hheaded : headed.length = c'.size := (splice_length zeros 0 [hdr] hone).trans hzeros
  have hfit : 1 + data.length ≤ headed.length := by omega
  have hpacked : packed.length = c'.size := (splice_length headed 1 data hfit).trans hheaded
  have hbytes : packed = hdr :: data ++ zeros.drop (data.length + 1) :=
    splice_packet hdr data zeros (by omega)
  have hhead : pushCache [hdr] (h'.set b zeros) { c' with p := .start b } =
      .ok (h'.set b headed, { c' with p := ⟨some b, 1⟩ }) := by
    rw [pushCache_ok rfl (h'.set_self hblock zeros) hone, h'.set_set]
    rfl
  have hdata : pushCache data (h'.set b headed) { c' with p := ⟨some b, 1⟩ } =
      .ok (h'.set b packed, { c' with p := ⟨some b, 1 + data.length⟩ }) := by
    rw [pushCache_ok rfl (h'.set_self hblock headed) hfit, h'.set_set]
  have hload : (h'.set b packed).load c'.buf (data.length + 1) = .ok (hdr :: data) := by
    rw [hbuf, Ptr.start, Heap.load_ok _ (h'.set_self hblock packed) (by omega), List.drop_zero,
      hbytes, take_packet]
  refine ⟨h'.set b packed, { c' with p := ⟨some b, 1 + data.length⟩ }, ?_,
    u.write hbuf hpacked (1 + data.length) (by omega), hgrows⟩
  unfold sendHidpPkt getCache
  simp only [hcheck, ok_bind, zeroCache_ok hbuf hblock hlen]
  rw [hhead, ok_bind, hdata, ok_bind]
  simp only [hload, ok_bind]
  rfl

/-- What `recv` returns. -/
def received (size : ℕ) : Option (List UInt8) → Int32
  | none => -1
  | some bytes => .ofNat (bytes.take size).length

/-- What `recv` stores fits the buffer. -/
theorem recvHidpPkt_ok {h : Heap UInt8} {b : ℕ} {contents : List UInt8} (size : ℕ)
    (datagram : Option (List UInt8)) (hblock : h.blocks b = some contents)
    (hfit : size ≤ contents.length) :
    ∃ contents', recvHidpPkt (.start b) size datagram h =
      .ok (h.set b contents', received size datagram) ∧ contents'.length = contents.length := by
  cases datagram with
  | none => exact ⟨contents, by rw [recvHidpPkt, h.set_same hblock, received], rfl⟩
  | some bytes =>
    have hlen : 0 + (bytes.take size).length ≤ contents.length := by
      rw [List.length_take]
      omega
    refine ⟨splice contents 0 (bytes.take size), ?_, splice_length _ _ _ hlen⟩
    rw [recvHidpPkt, Ptr.start, h.store_ok hblock hlen]
    rfl

theorem dropHidpPkt_ok (size : ℕ) {m : Malloc UInt8} (datagram : Option (List UInt8))
    {h : Heap UInt8} {c : SendCache} (hc : c = .unused ∨ Live h c)
    (hm : ¬ (c.size < size + 1 ∧ m.ok = false)) :
    ∃ h' c', dropHidpPkt size m datagram h c = .ok (h', c', received size datagram) ∧
      Updates h h' c c' ∧ c.size ≤ c'.size := by
  obtain ⟨h', c', hcheck, u, hgrows, hroom⟩ := checkCache_ok (Nat.succ_pos _) hc hm
  obtain ⟨b, contents, hbuf, hblock, hlen, hp, hoffset⟩ := u.live
  obtain ⟨contents', hrecv, hlen'⟩ := recvHidpPkt_ok size datagram hblock (by omega)
  have hpointer : c' = { c' with p := ⟨some b, c'.p.offset⟩ } := by
    rw [← hp]
  refine ⟨h'.set b contents', c', ?_, ?_, hgrows⟩
  · unfold dropHidpPkt getCache
    simp only [hcheck, ok_bind, hbuf, hrecv]
    rfl
  · rw [hpointer]
    exact u.write hbuf (hlen'.trans hlen) _ hoffset

section

variable {κ : Type}

/-- The call has to grow its cache and gets no memory. -/
def GrowthFails (c : SendCache) (call : Call κ) : Prop :=
  c.size < call.needs ∧ call.malloc.ok = false

/-- What a call ought to hand to `send`. -/
def packet : Call κ → Option Handed
  | .send _ sk hdr data flags _ _ => some ⟨sk, hdr :: data, flags⟩
  | .drop _ _ _ _ _ _ => none

/-- What a call ought to return. -/
def returned : Call κ → Int32
  | .send _ _ _ _ _ _ sent => sent
  | .drop _ _ size _ _ datagram => received size datagram

theorem act_ok (call : Call κ) {h : Heap UInt8} {c : SendCache}
    (hc : c = .unused ∨ Live h c) (hm : ¬ GrowthFails c call) :
    ∃ h' c', call.act h c = .ok (h', c', packet call, returned call) ∧ Updates h h' c c' ∧
      c.size ≤ c'.size := by
  cases call with
  | send key sk hdr data flags malloc sent => exact sendHidpPkt_ok sk hdr data flags sent hc hm
  | drop key sk size flags malloc datagram =>
    obtain ⟨h', c', hdrop, u⟩ := dropHidpPkt_ok size (m := malloc) datagram hc hm
    refine ⟨h', c', ?_, u⟩
    rw [Call.act, hdrop]
    rfl

/-! ## The predecessor -/

theorem oldSendHidpPkt_ok (sk : Int32) (hdr : UInt8) (data : List UInt8) (flags : Int32)
    {m : Malloc UInt8} (hm : m.ok = true) (sent : Int32) (h : Heap UInt8) :
    ∃ h', oldSendHidpPkt sk hdr data flags m sent h =
      .ok (h', some ⟨sk, hdr :: data, flags⟩, sent) := by
  unfold oldSendHidpPkt
  by_cases hempty : data.length = 0
  · obtain rfl := List.eq_nil_of_length_eq_zero hempty
    exact ⟨h, rfl⟩
  · let junk := (List.range (data.length + 1)).map m.junk
    let headed := splice junk 0 [hdr]
    let packed := splice headed 1 data
    have hjunk : junk.length = data.length + 1 := by rw [List.length_map, List.length_range]
    have hone : 0 + [hdr].length ≤ junk.length := by
      rw [hjunk, List.length_singleton]
      omega
    have hheaded : headed.length = junk.length := splice_length junk 0 [hdr] hone
    have hfit : 1 + data.length ≤ headed.length := by omega
    have hlen : packed.length = headed.length := splice_length headed 1 data hfit
    have hpacked : packed = hdr :: data ++ junk.drop (data.length + 1) :=
      splice_packet hdr data junk (by omega)
    have hhead : (h.alloc junk).store (.start h.fresh) [hdr] = .ok (h.alloc headed) := by
      rw [Ptr.start, Heap.store_ok _ (h.alloc_fresh junk) hone, h.alloc_set]
    have hdata : (h.alloc headed).store ((Ptr.start h.fresh).add 1) data = .ok (h.alloc packed) := by
      rw [Ptr.start_add, Heap.store_ok _ (h.alloc_fresh headed) hfit, h.alloc_set]
    have hload : (h.alloc packed).load (.start h.fresh) (data.length + 1) = .ok (hdr :: data) := by
      rw [Ptr.start, Heap.load_ok _ (h.alloc_fresh packed) (by omega), List.drop_zero, hpacked,
        take_packet]
    have hfree := (h.alloc packed).free_start (h.alloc_fresh packed)
    refine ⟨(h.alloc packed).kill h.fresh, ?_⟩
    have hmalloc : h.malloc m (data.length + 1) = (.start h.fresh, h.alloc junk) := h.malloc_ok hm _
    rw [if_neg hempty, hmalloc]
    simp only [if_neg (Ptr.start_ne_null _), hhead, ok_bind, hdata, hload, hfree]
    rfl

theorem oldDropHidpPkt_ok (size : ℕ) {m : Malloc UInt8} (hm : m.ok = true)
    (datagram : Option (List UInt8)) (h : Heap UInt8) :
    ∃ h', oldDropHidpPkt size m datagram h = .ok (h', received size datagram) := by
  let junk := (List.range size).map m.junk
  have hjunk : size ≤ junk.length :=
    Nat.le_of_eq (by rw [List.length_map, List.length_range])
  have hlive := h.alloc_fresh junk
  obtain ⟨contents, hrecv, _⟩ := recvHidpPkt_ok size datagram hlive hjunk
  have hfree := ((h.alloc junk).set h.fresh contents).free_start
    ((h.alloc junk).set_self hlive contents)
  refine ⟨((h.alloc junk).set h.fresh contents).kill h.fresh, ?_⟩
  have hmalloc : h.malloc m size = (.start h.fresh, h.alloc junk) := h.malloc_ok hm _
  unfold oldDropHidpPkt
  rw [hmalloc]
  simp only [if_neg (Ptr.start_ne_null _), hrecv, ok_bind, hfree]
  rfl

/-- With memory for its own buffer, the predecessor does what it ought to. -/
theorem old_ok (call : Call κ) {m : Malloc UInt8} (hm : m.ok = true) (h : Heap UInt8) :
    ∃ h', call.old m h = .ok (h', packet call, returned call) := by
  cases call with
  | send key sk hdr data flags malloc sent => exact oldSendHidpPkt_ok sk hdr data flags hm sent h
  | drop key sk size flags malloc datagram =>
    obtain ⟨h', hdrop⟩ := oldDropHidpPkt_ok size hm datagram h
    refine ⟨h', ?_⟩
    rw [Call.old, hdrop]
    rfl

/-! ## All caches -/

/-- Every cache is unused or live, and no two have one buffer. -/
structure Sound (w : World κ) : Prop where
  live : ∀ k, w.cache k = .unused ∨ Live w.heap (w.cache k)
  apart : ∀ k k' b, (w.cache k).buf = .start b → (w.cache k').buf = .start b → k = k'

theorem sound_initial : Sound (World.initial : World κ) :=
  ⟨fun _ => Or.inl rfl, fun _ _ b h _ => absurd h.symm (Ptr.start_ne_null b)⟩

/-- A block that a live cache has is none of another's. -/
theorem Sound.other_live {w : World κ} (hw : Sound w) {k k' : κ} (hk : k' ≠ k)
    (hlive : Live w.heap (w.cache k')) {h : Heap UInt8} {c : SendCache}
    (u : Updates w.heap h (w.cache k) c) : Live h (w.cache k') := by
  obtain ⟨b, contents, hbuf, hblock, hrest⟩ := hlive
  exact ⟨b, contents, hbuf, u.frame b contents (fun hown => hk (hw.apart k' k b hbuf hown)) hblock,
    hrest⟩

variable [DecidableEq κ]

/-- The caches, with one of them updated. -/
def World.put (w : World κ) (k : κ) (h : Heap UInt8) (c : SendCache) : World κ :=
  ⟨h, Function.update w.cache k c⟩

theorem put_same (w : World κ) (k : κ) (h : Heap UInt8) (c : SendCache) :
    (World.put w k h c).cache k = c := Function.update_self ..

theorem put_other (w : World κ) {k k' : κ} (hk : k' ≠ k) (h : Heap UInt8) (c : SendCache) :
    (World.put w k h c).cache k' = w.cache k' := Function.update_of_ne hk ..

theorem Sound.put {w : World κ} (hw : Sound w) (k : κ) {h : Heap UInt8} {c : SendCache}
    (u : Updates w.heap h (w.cache k) c) : Sound (World.put w k h c) := by
  -- the buffer of another cache is not the one the update leaves
  have hother : ∀ k' b, k' ≠ k → (w.cache k').buf = .start b → c.buf ≠ .start b := by
    intro k' b hk hbuf hown
    rcases u.buffer with hsame | ⟨b', hnew, hnone⟩
    · exact hk (hw.apart k' k b hbuf (hsame.symm.trans hown))
    · obtain rfl := start_inj (hown.symm.trans hnew)
      rcases hw.live k' with hunused | ⟨b', contents, hbuf', hblock, _⟩
      · rw [hunused] at hbuf
        exact Ptr.start_ne_null b hbuf.symm
      · obtain rfl := start_inj (hbuf.symm.trans hbuf')
        rw [hnone] at hblock
        cases hblock
  refine ⟨fun k' => ?_, fun k₁ k₂ b h₁ h₂ => ?_⟩
  · by_cases hk : k' = k
    · subst hk
      rw [put_same]
      exact Or.inr u.live
    · rw [put_other w hk]
      exact (hw.live k').imp id fun hlive => hw.other_live hk hlive u
  · by_cases hk₁ : k₁ = k
    · by_cases hk₂ : k₂ = k
      · rw [hk₁, hk₂]
      · rw [hk₁, put_same] at h₁
        rw [put_other w hk₂] at h₂
        exact absurd h₁ (hother k₂ b hk₂ h₂)
    · by_cases hk₂ : k₂ = k
      · rw [hk₂, put_same] at h₂
        rw [put_other w hk₁] at h₁
        exact absurd h₂ (hother k₁ b hk₁ h₁)
      · rw [put_other w hk₁] at h₁
        rw [put_other w hk₂] at h₂
        exact hw.apart k₁ k₂ b h₁ h₂

/-- What an update of one cache does to all of them. -/
structure Steps (w w' : World κ) (k : κ) : Prop where
  sound : Sound w'
  live : Live w'.heap (w'.cache k)
  kept : ∀ k', Live w.heap (w.cache k') → Live w'.heap (w'.cache k')
  same : ∀ k', k' ≠ k → w'.cache k' = w.cache k'

theorem Sound.steps {w : World κ} (hw : Sound w) (k : κ) {h : Heap UInt8} {c : SendCache}
    (u : Updates w.heap h (w.cache k) c) : Steps w (World.put w k h c) k := by
  refine ⟨hw.put k u, ?_, fun k' hlive => ?_, fun k' hk => put_other w hk h c⟩
  · rw [put_same]
    exact u.live
  · by_cases hk : k' = k
    · rw [hk, put_same]
      exact u.live
    · rw [put_other w hk]
      exact hw.other_live hk hlive u

theorem step_ok {w : World κ} (hw : Sound w) (call : Call κ)
    (hm : ¬ GrowthFails (w.cache call.key) call) :
    ∃ w', w.step call = .ok (w', packet call, returned call) ∧ Steps w w' call.key ∧
      ∀ k, (w.cache k).size ≤ (w'.cache k).size := by
  obtain ⟨h', c', hact, u, hgrows⟩ := act_ok call (hw.live call.key) hm
  refine ⟨World.put w call.key h' c', ?_, hw.steps call.key u, fun k => ?_⟩
  · rw [World.step, hact]
    rfl
  · by_cases hk : k = call.key
    · rw [hk, put_same]
      exact hgrows
    · exact Nat.le_of_eq (congrArg SendCache.size (put_other w hk h' c').symm)

theorem startAll_ok {w : World κ} (hw : Sound w) (starts : List (Start κ))
    (hm : ∀ s ∈ starts, s.malloc.ok = true) :
    ∃ w', w.startAll starts = .ok w' ∧ Sound w' ∧ (∀ s ∈ starts, Live w'.heap (w'.cache s.key)) ∧
      ∀ k, Live w.heap (w.cache k) → Live w'.heap (w'.cache k) := by
  induction starts generalizing w with
  | nil => exact ⟨w, rfl, hw, fun s hs => absurd hs List.not_mem_nil, fun _ hlive => hlive⟩
  | cons s starts ih =>
    obtain ⟨hs, hm⟩ := List.forall_mem_cons.mp hm
    have hstart := startCache_ok s.size hs w.heap (w.cache s.key)
    have hsteps := hw.steps s.key
      (updates_alloc s.size rfl fun _ _ _ (hlive : w.heap.blocks _ = _) => hlive)
    obtain ⟨w', hrest, hw', hlive, hkept⟩ := ih hsteps.sound hm
    refine ⟨w', ?_, hw', List.forall_mem_cons.mpr ⟨hkept s.key hsteps.live, hlive⟩,
      fun k hk => hkept k (hsteps.kept k hk)⟩
    rw [World.startAll, hstart, ok_bind]
    exact hrest

/-! ## A whole run -/

theorem after_snoc (w : World κ) (calls : List (Call κ)) (call : Call κ) :
    w.after (calls ++ [call]) = w.after calls >>= fun w => (w.step call).map Prod.fst := by
  induction calls generalizing w with
  | nil =>
    rw [List.nil_append, World.after]
    cases w.step call with
    | error fault => rfl
    | ok r => rfl
  | cons first calls ih =>
    rw [List.cons_append, World.after, World.after]
    cases w.step first with
    | error fault => rfl
    | ok r => exact ih r.1

/-- The run comes to a sound state in which some caches are live. -/
def Reaches (w₀ : World κ) (used : List κ) (before : List (Call κ)) (w : World κ) : Prop :=
  w₀.after before = .ok w ∧ Sound w ∧ ∀ k ∈ used ++ before.map Call.key, Live w.heap (w.cache k)

theorem Reaches.snoc {w₀ w w' : World κ} {used : List κ} {before : List (Call κ)} {call : Call κ}
    {out : Option Handed × Int32} (hw : Reaches w₀ used before w)
    (hstep : w.step call = .ok (w', out)) (hsteps : Steps w w' call.key) :
    Reaches w₀ used (before ++ [call]) w' := by
  obtain ⟨hafter, _, hlive⟩ := hw
  refine ⟨?_, hsteps.sound, fun k hk => ?_⟩
  · rw [after_snoc, hafter, ok_bind, hstep]
    rfl
  · rw [List.map_append, ← List.append_assoc, List.mem_append] at hk
    rcases hk with hk | hk
    · exact hsteps.kept k (hlive k hk)
    · rw [List.mem_singleton.mp hk]
      exact hsteps.live

/-- After some calls, one more does what the predecessor's function does, shrinks no
cache, and leaves every cache in use live. -/
def Agrees (w₀ : World κ) (used : List κ) (before : List (Call κ)) (call : Call κ) : Prop :=
  ∃ w w', w₀.after before = .ok w ∧ w.step call = .ok (w', packet call, returned call) ∧
    (∀ (m : Malloc UInt8) (h : Heap UInt8), m.ok = true →
      ∃ h', call.old m h = .ok (h', packet call, returned call)) ∧
    (∀ k, (w.cache k).size ≤ (w'.cache k).size) ∧
    ∀ k ∈ used ++ (before ++ [call]).map Call.key, Live w'.heap (w'.cache k)

theorem Reaches.agrees {w₀ w : World κ} {used : List κ} {before : List (Call κ)} {call : Call κ}
    (hw : Reaches w₀ used before w) (hm : call.malloc.ok = true) :
    Agrees w₀ used before call ∧ ∃ w', Reaches w₀ used (before ++ [call]) w' := by
  have hgrowth : ¬ GrowthFails (w.cache call.key) call := fun h => by
    rw [h.2] at hm
    exact Bool.false_ne_true hm
  obtain ⟨w', hstep, hsteps, hgrows⟩ := step_ok hw.2.1 call hgrowth
  have hreaches := hw.snoc hstep hsteps
  exact ⟨⟨w, w', hw.1, hstep, fun m h hok => old_ok call hok h, hgrows, hreaches.2.2⟩, w', hreaches⟩

/-- With every allocation succeeding, the calls through the caches agree with the
predecessor's, whatever was sent and dropped before. -/
theorem cached_sender_agrees (starts : List (Start κ)) (calls : List (Call κ))
    (hstarts : ∀ s ∈ starts, s.malloc.ok = true) (hcalls : ∀ call ∈ calls, call.malloc.ok = true) :
    ∃ w₀, World.initial.startAll starts = .ok w₀ ∧
      (∀ s ∈ starts, Live w₀.heap (w₀.cache s.key)) ∧
      ∀ before call since, calls = before ++ call :: since →
        Agrees w₀ (starts.map Start.key) before call := by
  obtain ⟨w₀, hstart, hsound, hlive, _⟩ := startAll_ok sound_initial starts hstarts
  have hinit : Reaches w₀ (starts.map Start.key) [] w₀ := by
    refine ⟨rfl, hsound, fun k hk => ?_⟩
    rw [List.map_nil, List.append_nil] at hk
    obtain ⟨s, hs, rfl⟩ := List.mem_map.mp hk
    exact hlive s hs
  have hok : ∀ before call since, calls = before ++ call :: since → call.malloc.ok = true := by
    intro before call since heq
    exact hcalls call (heq ▸ List.mem_append_right before (List.mem_cons_self ..))
  refine ⟨w₀, hstart, hlive, fun before call since heq => ?_⟩
  obtain ⟨w, hw⟩ := inv_throughout (fun before => ∃ w, Reaches w₀ (starts.map Start.key) before w)
    (fun _ call => call.malloc.ok = true) ⟨w₀, hinit⟩
    (fun before call hbefore hm => hbefore.elim fun w hw => (hw.agrees hm).2) calls hok before
    (call :: since) heq
  exact (hw.agrees (hok before call since heq)).1

end

/-- A report that does not fit, and a `send_einval` after it. -/
theorem cached_sender_agrees_daemon :
    let m : Malloc UInt8 := ⟨true, fun _ => 0xFF⟩
    let starts : List (Start CacheName) := [⟨.common_cache, 16, m⟩, ⟨.drop_cache, 16, m⟩]
    let calls := [sendHidpReport 3 1 (List.replicate 16 7) 0 m 17, sendEinval 4 0 m 1]
    ∃ w₀, World.initial.startAll starts = .ok w₀ ∧
      (∀ s ∈ starts, Live w₀.heap (w₀.cache s.key)) ∧
      ∀ before call since, calls = before ++ call :: since →
        Agrees w₀ (starts.map Start.key) before call :=
  cached_sender_agrees _ _ (by simp) (by simp [sendHidpReport, sendEinval, Call.malloc])

end Android2Mouse.Guarantees.CachedSender
