import Android2Mouse.Guarantees.CachedSender

/-!
# A cache that cannot grow

`check_cache` frees the buffer and records the new size before it knows that there is
a new buffer, and its two callers do not look at its result. So the call in which
`malloc` fails writes through NULL or leaves a NULL buffer that passes later checks.
`growth_survived_iff`: a run comes through if and only if that never happens.
-/
namespace Android2Mouse.Guarantees.CacheGrowth
open Library Source.HidpCache CachedSender

/-- The buffer is live and has the recorded size, or every later check will find it
too small. -/
def Usable (h : Heap UInt8) (c : SendCache) : Prop :=
  (∃ b contents, c.buf = .start b ∧ h.blocks b = some contents ∧ contents.length = c.size) ∨
    c.size = 0

section

variable {κ : Type} [DecidableEq κ]

/-- After some calls, one more makes no access outside a live buffer, reports a
growth that fails and writes nothing in that case, and leaves every cache usable. -/
def Survives (w₀ : World κ) (before : List (Call κ)) (call : Call κ) : Prop :=
  ∃ w w' handed result, w₀.after before = .ok w ∧ w.step call = .ok (w', handed, result) ∧
    (GrowthFails (w.cache call.key) call → result = -1 ∧ handed = none ∧
      ∀ b contents, w'.heap.blocks b = some contents → w.heap.blocks b = some contents) ∧
    ∀ k, Usable w'.heap (w'.cache k)

/-- In the state that the earlier calls leave, the call does not fail to grow. -/
def GrowthWorks (w₀ : World κ) (before : List (Call κ)) (call : Call κ) : Prop :=
  ∀ w, w₀.after before = .ok w → ¬ GrowthFails (w.cache call.key) call

omit [DecidableEq κ] in
theorem Sound.usable {w : World κ} (hw : Sound w) (k : κ) : Usable w.heap (w.cache k) := by
  rcases hw.live k with hunused | ⟨b, contents, hbuf, hblock, hlen, _, _⟩
  · rw [hunused]
    exact Or.inr rfl
  · exact Or.inl ⟨b, contents, hbuf, hblock, hlen⟩

/-! ## A growth that fails -/

/-- The check leaves a NULL buffer with the size that was asked for. -/
theorem checkCache_fails {size : ℕ} {m : Malloc UInt8} {h : Heap UInt8} {c : SendCache}
    (hsize : c.size < size) (hm : m.ok = false) :
    (∃ fault, checkCache size m h c = .error fault) ∨
      ∃ h', checkCache size m h c = .ok (h', ⟨.null, c.p, size⟩, -1) := by
  unfold checkCache
  rw [if_pos hsize]
  cases h.free c.buf with
  | error fault => exact Or.inl ⟨fault, rfl⟩
  | ok h' =>
    refine Or.inr ⟨h', ?_⟩
    rw [ok_bind, startCache, h'.malloc_fails hm]
    rfl

/-- The zeros of a send go through the NULL buffer. -/
theorem sendHidpPkt_fails (sk : Int32) (hdr : UInt8) (data : List UInt8) (flags : Int32)
    {m : Malloc UInt8} (sent : Int32) (h : Heap UInt8) {c : SendCache}
    (hsize : c.size < data.length + 1) (hm : m.ok = false) :
    ∃ fault, sendHidpPkt sk hdr data flags m sent h c = .error fault := by
  unfold sendHidpPkt
  rcases checkCache_fails hsize hm with ⟨fault, hcheck⟩ | ⟨h', hcheck⟩
  · rw [hcheck]
    exact ⟨fault, rfl⟩
  · have hzeros : List.replicate (data.length + 1) (0 : UInt8) ≠ [] :=
      List.cons_ne_nil _ _
    have hzero : zeroCache h' ⟨.null, c.p, data.length + 1⟩ = .error .null := by
      rw [zeroCache, Ptr.null, h'.store_null 0 hzeros]
      rfl
    rw [hcheck, ok_bind]
    simp only [hzero]
    exact ⟨.null, rfl⟩

/-- A drop that gets by leaves the NULL buffer. -/
theorem dropHidpPkt_fails (size : ℕ) {m : Malloc UInt8} (datagram : Option (List UInt8))
    {h h' : Heap UInt8} {c c' : SendCache} {r : Int32} (hsize : c.size < size + 1)
    (hm : m.ok = false) (hdrop : dropHidpPkt size m datagram h c = .ok (h', c', r)) :
    c'.buf = .null ∧ c'.size = size + 1 := by
  unfold dropHidpPkt getCache at hdrop
  rcases checkCache_fails hsize hm with ⟨fault, hcheck⟩ | ⟨h₁, hcheck⟩
  · rw [hcheck] at hdrop
    cases hdrop
  · rw [hcheck, ok_bind] at hdrop
    simp only at hdrop
    cases hrecv : recvHidpPkt .null size datagram h₁ with
    | error fault =>
      rw [hrecv] at hdrop
      cases hdrop
    | ok received =>
      rw [hrecv, ok_bind] at hdrop
      obtain rfl : (⟨.null, c.p, size + 1⟩ : SendCache) = c' :=
        congrArg (fun out => out.2.1) (Except.ok.inj hdrop)
      exact ⟨rfl, rfl⟩

theorem step_fails {w w' : World κ} {call : Call κ} {out : Option Handed × Int32}
    (hfails : GrowthFails (w.cache call.key) call) (hstep : w.step call = .ok (w', out)) :
    ¬ Usable w'.heap (w'.cache call.key) := by
  obtain ⟨hsize, hm⟩ := hfails
  have hnull : ∀ c : SendCache, c.buf = .null → c.size ≠ 0 → ∀ h, ¬ Usable h c := by
    rintro c hbuf hpos h (⟨b, _, hstart, _⟩ | hzero)
    · exact Ptr.start_ne_null b (hstart.symm.trans hbuf)
    · exact hpos hzero
  cases call with
  | send key sk hdr data flags malloc sent =>
    have hneeds : (w.cache key).size < data.length + 1 := hsize
    have hfails : malloc.ok = false := hm
    obtain ⟨fault, hsend⟩ := sendHidpPkt_fails sk hdr data flags sent w.heap hneeds hfails
    rw [World.step, Call.act, Call.key, hsend] at hstep
    cases hstep
  | drop key sk size flags malloc datagram =>
    have hneeds : (w.cache key).size < size + 1 := hsize
    have hfails : malloc.ok = false := hm
    rw [World.step, Call.act, Call.key] at hstep
    cases hdrop : dropHidpPkt size malloc datagram w.heap (w.cache key) with
    | error fault =>
      rw [hdrop] at hstep
      cases hstep
    | ok dropped =>
      obtain ⟨h', c', r⟩ := dropped
      obtain ⟨hbuf, hpos⟩ := dropHidpPkt_fails size datagram hneeds hfails hdrop
      rw [hdrop] at hstep
      obtain rfl : World.put w key h' c' = w' := congrArg Prod.fst (Except.ok.inj hstep)
      rw [Call.key, put_same]
      exact hnull c' hbuf (hpos ▸ Nat.succ_ne_zero size) h'

/-! ## A whole run -/

theorem survives_iff {w₀ w : World κ} {used : List κ} {before : List (Call κ)} (call : Call κ)
    (hw : Reaches w₀ used before w) : Survives w₀ before call ↔ GrowthWorks w₀ before call := by
  constructor
  · rintro ⟨w₁, w', handed, result, hafter, hstep, _, husable⟩ w₂ hafter' hfails
    obtain rfl := Except.ok.inj (hafter.symm.trans hafter')
    exact step_fails hfails hstep (husable call.key)
  · intro hworks
    have hgrowth := hworks w hw.1
    obtain ⟨w', hstep, hsteps, _⟩ := step_ok hw.2.1 call hgrowth
    exact ⟨w, w', _, _, hw.1, hstep, fun hfails => absurd hfails hgrowth,
      fun k => Sound.usable hsteps.sound k⟩

/-- Once every cache is started, a run survives if and only if no call that needs
more than its cache holds finds `malloc` failing. -/
theorem growth_survived_iff (starts : List (Start κ))
    (hstarts : ∀ s ∈ starts, s.malloc.ok = true) (calls : List (Call κ)) :
    ∃ w₀, World.initial.startAll starts = .ok w₀ ∧
      ((∀ before call since, calls = before ++ call :: since → Survives w₀ before call) ↔
        ∀ before call since, calls = before ++ call :: since → GrowthWorks w₀ before call) := by
  obtain ⟨w₀, hstart, hsound, _, _⟩ := startAll_ok sound_initial starts hstarts
  refine ⟨w₀, hstart, ?_⟩
  refine throughout_iff (fun before => ∃ w, Reaches w₀ [] before w) (Survives w₀) (GrowthWorks w₀)
    ⟨w₀, rfl, hsound, fun k hk => absurd hk List.not_mem_nil⟩ ?_ ?_ calls
  · rintro before call ⟨w, hw⟩
    exact survives_iff call hw
  · rintro before call ⟨w, hw⟩ hsurvives
    have hgrowth := (survives_iff call hw).mp hsurvives w hw.1
    obtain ⟨w', hstep, hsteps, _⟩ := step_ok hw.2.1 call hgrowth
    exact ⟨w', hw.snoc hstep hsteps⟩

end

/-- No memory left after the start, and a packet that fits. -/
theorem growth_survived_fits :
    let starts : List (Start CacheName) := [⟨.common_cache, 16, ⟨true, fun _ => 0⟩⟩]
    let calls := [sendHidpReport 3 1 [1, 2, 3, 4] 0 ⟨false, fun _ => 0⟩ 5]
    ∃ w₀, World.initial.startAll starts = .ok w₀ ∧
      ((∀ before call since, calls = before ++ call :: since → Survives w₀ before call) ↔
        ∀ before call since, calls = before ++ call :: since → GrowthWorks w₀ before call) :=
  growth_survived_iff _ (by simp) _

/-- No memory left after the start, and a packet that does not fit. -/
theorem growth_not_survived :
    ¬ ∀ (starts : List (Start CacheName)), (∀ s ∈ starts, s.malloc.ok = true) →
      ∀ calls : List (Call CacheName), ∃ w₀, World.initial.startAll starts = .ok w₀ ∧
        ∀ before call since, calls = before ++ call :: since → Survives w₀ before call := by
  intro h
  let call := sendHidpReport 3 1 (List.replicate 16 7) 0 ⟨false, fun _ => 0⟩ 17
  obtain ⟨w₀, hstart, hall⟩ :=
    h [⟨.common_cache, 16, ⟨true, fun _ => 0⟩⟩] (by simp) [call]
  obtain ⟨w, w', handed, result, hafter, hstep, _, husable⟩ := hall [] call [] rfl
  obtain rfl := Except.ok.inj hafter
  have hsize : (w₀.cache .common_cache).size = 16 := by
    obtain rfl := Except.ok.inj hstart
    rfl
  have hfails : GrowthFails (w₀.cache call.key) call := by
    refine ⟨?_, rfl⟩
    have hneeds : call.needs = 17 := rfl
    rw [hneeds]
    exact hsize.trans_lt (by decide)
  exact step_fails hfails hstep (husable call.key)

end Android2Mouse.Guarantees.CacheGrowth
