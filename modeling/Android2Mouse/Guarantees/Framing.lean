import Mathlib.Data.List.TakeWhile
import Android2Mouse.Guarantees.PacketIndependence
import Android2Mouse.Library.Blocks

/-!
# Packets and reads

The writer puts packets of twenty bytes into the FIFO; `process_multi_bin` acts
on whatever one `read` returned, whatever its length. `FramesRight` compares a
run over a chunked stream with the complete packets of that stream.

The two agree when every read up to the first shutdown packet takes a whole packet.
When one of them is short, they may agree by accident, but not for any contents of this
read and the later ones: if these bytes are all twos, each of the reads makes the daemon
send a mouse report.
-/
namespace Android2Mouse.Guarantees.Framing
open Library Source.ComboConn Source.Hidp PacketReports PacketIndependence
open Attempt (inOrder)

/-- A number of bytes that `read(fd, &packet, sizeof(packet))` can return. -/
abbrev ChunkSize := {n : ℕ // 0 < n ∧ n ≤ binPacketSize}

/-- The bytes of one such read. -/
abbrev Chunk := {bs : List UInt8 // 0 < bs.length ∧ bs.length ≤ binPacketSize}

def Chunk.size (chunk : Chunk) : ChunkSize := ⟨chunk.1.length, chunk.2⟩

def Chunk.read (chunk : Chunk) : ReadResult := .data chunk.1 chunk.2.1 chunk.2.2

/-- The stream that the reads take in pieces. -/
def streamOf (chunks : List Chunk) : List UInt8 := (chunks.map Subtype.val).flatten

/-- The complete packets of a byte stream. -/
def completePackets (stream : List UInt8) : List BinPacket :=
  (fullBlocks binPacketSize stream).map BinPacket.ofBytes

/-- The daemon's run over the chunks, with a pass for each of them. -/
def chunkRun (stack : ℕ → BinPacket) (extra : ℕ) (chunks : List Chunk) :
    Attempt Payload Daemon :=
  mainLoop stack (chunks.length + extra) (chunks.map Chunk.read)

/-- The run attempts the reports of the stream's complete packets up to the
first shutdown packet among them, and exits exactly when there is one. -/
def FramesRight (stack : ℕ → BinPacket) (extra : ℕ) (chunks : List Chunk) (o : Outcomes) : Prop :=
  let packets := completePackets (streamOf chunks)
  (chunkRun stack extra chunks).attempts o = inOrder packetReports (beforeShutdown packets) o ∧
    ((∃ left, (chunkRun stack extra chunks).result o = .exited left) ↔ ∃ p ∈ packets, IsShutdown p)

/-! ## Whole packets -/

/-- The reads before the first short one. -/
def wholeFront (chunks : List Chunk) : List Chunk :=
  chunks.takeWhile fun chunk => chunk.1.length = binPacketSize

/-- No read is short, or the first shutdown packet is read before it. -/
def ReadsWhole (chunks : List Chunk) : Prop :=
  wholeFront chunks = chunks ∨ ∃ chunk ∈ wholeFront chunks, IsShutdown (.ofBytes chunk.1)

theorem wholeFront_cons {chunk : Chunk} (h : chunk.1.length = binPacketSize) (chunks : List Chunk) :
    wholeFront (chunk :: chunks) = chunk :: wholeFront chunks :=
  List.takeWhile_cons_of_pos (decide_eq_true h)

theorem wholeFront_short {chunk : Chunk} (h : chunk.1.length ≠ binPacketSize) (chunks : List Chunk) :
    wholeFront (chunk :: chunks) = [] :=
  List.takeWhile_cons_of_neg fun h' => h (of_decide_eq_true h')

theorem not_readsWhole_short {chunk : Chunk} (h : chunk.1.length ≠ binPacketSize)
    (chunks : List Chunk) : ¬ ReadsWhole (chunk :: chunks) := by
  rw [ReadsWhole, wholeFront_short h]
  rintro (hall | ⟨_, hmem, _⟩)
  · cases hall
  · exact List.not_mem_nil hmem

theorem readsWhole_cons {chunk : Chunk} (h : chunk.1.length = binPacketSize) (chunks : List Chunk) :
    ReadsWhole (chunk :: chunks) ↔ IsShutdown (.ofBytes chunk.1) ∨ ReadsWhole chunks := by
  rw [ReadsWhole, ReadsWhole, wholeFront_cons h, List.cons_inj_right, List.exists_mem_cons_iff]
  exact or_left_comm

theorem completePackets_cons {chunk : Chunk} (h : chunk.1.length = binPacketSize)
    (chunks : List Chunk) :
    completePackets (streamOf (chunk :: chunks)) =
      .ofBytes chunk.1 :: completePackets (streamOf chunks) := by
  rw [completePackets, streamOf, List.map_cons, List.flatten_cons,
    fullBlocks_append _ (by decide) _ _ h, List.map_cons]
  rfl

theorem read_whole {chunk : Chunk} (h : chunk.1.length = binPacketSize) :
    chunk.read = .packet (.ofBytes chunk.1) := by
  have hbytes := BinPacket.bytes_ofBytes chunk.1 h
  unfold Chunk.read ReadResult.packet
  simp only [hbytes]

/-- The run lemma: over whole reads up to the first shutdown packet, the passes attempt the
reports of the complete packets, and exit where one of them is a shutdown packet. -/
theorem serve_whole (stack : ℕ → BinPacket) (chunks : List Chunk) (h : ReadsWhole chunks)
    (passes : ℕ) (hpasses : chunks.length ≤ passes + 1) (q : BinPacket) (o : Outcomes) :
    let packets := completePackets (streamOf chunks)
    let run := serve stack passes (.entry q) (chunks.map Chunk.read)
    run.attempts o = inOrder packetReports (beforeShutdown packets) o ∧
      ((∃ left, run.result o = .exited left) ↔ ∃ p ∈ packets, IsShutdown p) := by
  induction chunks generalizing passes q o with
  | nil =>
    have hnil : serve stack passes (.entry q) [] = .done (.polling []) := mainLoop_nil stack passes
    have hnone : completePackets (streamOf []) = [] := rfl
    simp only [List.map_nil, hnil, hnone]
    refine ⟨rfl, ?_⟩
    exact ⟨fun ⟨_, hexit⟩ => (by cases hexit), fun ⟨_, hmem, _⟩ => absurd hmem List.not_mem_nil⟩
  | cons chunk chunks ih =>
    by_cases hwhole : chunk.1.length = binPacketSize
    · rw [readsWhole_cons hwhole] at h
      rw [List.length_cons] at hpasses
      simp only [completePackets_cons hwhole, List.map_cons, read_whole hwhole, serve_packet,
        Attempt.attempts_bind, Attempt.result_bind, List.exists_mem_cons_iff]
      rcases handlePacket_ends (.ofBytes chunk.1) o with ⟨hns, hend⟩ | ⟨hs, hnone, hend⟩
      · have hrest := h.resolve_left hns
        rw [beforeShutdown_cons _ _ hns, or_iff_right hns]
        rcases hend with ⟨p', hend⟩ | ⟨s, hend⟩
        · rw [hend]
          obtain ⟨hattempts, hexit⟩ := ih hrest passes (by omega) p'
            (o.after (packetReports (.ofBytes chunk.1) o).length)
          exact ⟨congrArg (packetReports _ o ++ ·) hattempts, hexit⟩
        · rw [hend]
          cases passes with
          | zero =>
            obtain rfl : chunks = [] := List.eq_nil_of_length_eq_zero (by omega)
            exact ⟨rfl, fun ⟨_, hexit⟩ => (by cases hexit),
              fun ⟨_, hmem, _⟩ => absurd hmem List.not_mem_nil⟩
          | succ passes =>
            rw [mainLoop_succ]
            obtain ⟨hattempts, hexit⟩ := ih hrest passes (by omega) (stack passes)
              (o.after (packetReports (.ofBytes chunk.1) o).length)
            exact ⟨congrArg (packetReports _ o ++ ·) hattempts, hexit⟩
      · have hsilent : (handlePacket (.entry (.ofBytes chunk.1))).attempts o = [] := hnone
        rw [hend, hsilent, beforeShutdown_cons_shutdown _ _ hs]
        exact ⟨rfl, iff_of_true ⟨_, rfl⟩ (.inl hs)⟩
    · exact absurd h (not_readsWhole_short hwhole chunks)

theorem framesRight_whole (stack : ℕ → BinPacket) (extra : ℕ) (chunks : List Chunk)
    (h : ReadsWhole chunks) (o : Outcomes) : FramesRight stack extra chunks o := by
  unfold FramesRight chunkRun
  cases hn : chunks.length + extra with
  | zero =>
    obtain rfl : chunks = [] := List.eq_nil_of_length_eq_zero (by omega)
    exact ⟨rfl, fun ⟨_, hexit⟩ => (by cases hexit),
      fun ⟨_, hmem, _⟩ => absurd hmem List.not_mem_nil⟩
  | succ passes =>
    rw [mainLoop_succ]
    exact serve_whole stack chunks h passes (by omega) (stack passes) o

/-! ## The stream of twos -/

/-- A chunk of bytes that all read as the mouse report id. -/
def twos (n : ChunkSize) : Chunk := ⟨List.replicate n.1 mouseRepId, by simpa using n.2⟩

theorem twos_size (n : ChunkSize) : (twos n).size = n := by
  simp [Chunk.size, twos]

theorem mousePacket_answered (p : BinPacket) (h : p.reportId = mouseRepId) :
    ((handlePacket (.entry p)).attempts .allSucceed).length = 1 ∧
      (handlePacket (.entry p)).result .allSucceed = (.entry p, none) := by
  rw [handlePacket_mouse p h, handleMouse_entry]
  exact ⟨rfl, rfl⟩

theorem overlay_twos (q : BinPacket) (n : ChunkSize) :
    (q.overlay (twos n).1).reportId = mouseRepId := by
  obtain ⟨n, pos, le⟩ := n
  obtain ⟨m, rfl⟩ : ∃ m, n = m + 1 := ⟨n - 1, by omega⟩
  rfl

/-- Every chunk of twos is answered by one report. -/
theorem serve_twos (stack : ℕ → BinPacket) (passes : ℕ) (sizes : List ChunkSize) (q : BinPacket) :
    ((serve stack passes (.entry q) ((sizes.map twos).map Chunk.read)).attempts
      .allSucceed).length = sizes.length := by
  induction sizes generalizing q with
  | nil =>
    have hnil : serve stack passes (.entry q) [] = .done (.polling []) := mainLoop_nil stack passes
    simp only [List.map_nil, hnil]
    rfl
  | cons n sizes ih =>
    let p := q.overlay (twos n).1
    obtain ⟨hattempts, hresult⟩ := mousePacket_answered p (overlay_twos q n)
    have hentry : ({ Locals.entry q with packet := (Locals.entry q).packet.overlay (twos n).1 } :
        Locals) = .entry p := rfl
    rw [List.map_cons, List.map_cons, Chunk.read, serve_data, hentry, Attempt.attempts_bind,
      hresult, List.length_append, hattempts, Outcomes.after_allSucceed, List.length_cons]
    simp only [ih p]
    exact Nat.add_comm _ _

theorem streamOf_twos (sizes : List ChunkSize) :
    streamOf (sizes.map twos) = List.replicate (sizes.map Subtype.val).sum mouseRepId := by
  induction sizes with
  | nil => rfl
  | cons n sizes ih =>
    rw [streamOf, List.map_cons, List.map_cons, List.flatten_cons, ← streamOf, ih, List.map_cons,
      List.sum_cons, List.replicate_add]
    rfl

/-- The complete packets of that stream are mouse packets, one report each. -/
theorem complete_twos (m : ℕ) :
    (inOrder packetReports (beforeShutdown
      (completePackets (List.replicate m mouseRepId))) .allSucceed).length = m / binPacketSize := by
  let p := BinPacket.ofBytes (List.replicate binPacketSize mouseRepId)
  have hpackets : completePackets (List.replicate m mouseRepId) =
      List.replicate (m / binPacketSize) p := by
    rw [completePackets, fullBlocks_replicate _ (by decide), List.map_replicate]
  have hbefore : beforeShutdown (List.replicate (m / binPacketSize) p) =
      List.replicate (m / binPacketSize) p := by
    refine List.takeWhile_eq_self_iff.mpr fun q hq => ?_
    rw [List.eq_of_mem_replicate hq]
    rfl
  have hone : (packetReports p .allSucceed).length = 1 := (mousePacket_answered p rfl).1
  rw [hpackets, hbefore, Attempt.inOrder_allSucceed, List.length_flatMap, List.map_replicate, hone,
    List.sum_replicate_nat, Nat.mul_one]

theorem sizes_sum_le (sizes : List ChunkSize) :
    (sizes.map Subtype.val).sum ≤ binPacketSize * sizes.length := by
  induction sizes with
  | nil => exact Nat.le_refl 0
  | cons n sizes ih =>
    have hn := n.2.2
    rw [List.map_cons, List.sum_cons, List.length_cons, Nat.mul_succ]
    omega

/-- With a short chunk at the front there are fewer packets than chunks. -/
theorem complete_twos_lt (n : ChunkSize) (hn : n.1 ≠ binPacketSize) (sizes : List ChunkSize) :
    (inOrder packetReports (beforeShutdown (completePackets
      (streamOf ((n :: sizes).map twos)))) .allSucceed).length < (n :: sizes).length := by
  have hn' := n.2.2
  have hsum := sizes_sum_le sizes
  rw [streamOf_twos, complete_twos, List.map_cons, List.sum_cons, List.length_cons,
    Nat.div_lt_iff_lt_mul (by decide), Nat.succ_mul, Nat.mul_comm]
  omega

/-! ## A short read -/

/-- The chunks with nothing but twos from the first short one on. -/
def spoiled : List Chunk → List Chunk
  | [] => []
  | chunk :: chunks =>
    if chunk.1.length = binPacketSize then chunk :: spoiled chunks
    else (chunk :: chunks).map fun chunk => twos chunk.size

theorem spoiled_cons {chunk : Chunk} (h : chunk.1.length = binPacketSize) (chunks : List Chunk) :
    spoiled (chunk :: chunks) = chunk :: spoiled chunks := if_pos h

theorem spoiled_short {chunk : Chunk} (h : chunk.1.length ≠ binPacketSize) (chunks : List Chunk) :
    spoiled (chunk :: chunks) = ((chunk :: chunks).map Chunk.size).map twos := by
  rw [spoiled, if_neg h, List.map_map]
  rfl

theorem spoiled_size (chunks : List Chunk) :
    (spoiled chunks).map Chunk.size = chunks.map Chunk.size := by
  induction chunks with
  | nil => rfl
  | cons chunk chunks ih =>
    by_cases h : chunk.1.length = binPacketSize
    · rw [spoiled_cons h, List.map_cons, List.map_cons, ih]
    · rw [spoiled_short h, List.map_map]
      exact List.map_id'' twos_size _

theorem spoiled_wholeFront (chunks : List Chunk) :
    wholeFront (spoiled chunks) = wholeFront chunks := by
  induction chunks with
  | nil => rfl
  | cons chunk chunks ih =>
    by_cases h : chunk.1.length = binPacketSize
    · rw [spoiled_cons h, wholeFront_cons h, wholeFront_cons h, ih]
    · have htwos : (twos chunk.size).1.length ≠ binPacketSize := by
        rwa [twos, List.length_replicate]
      rw [spoiled_short h, wholeFront_short h, List.map_cons, List.map_cons, wholeFront_short htwos]

/-- When a read is short, the twos make the daemon send more than the complete packets. -/
theorem serve_spoiled (stack : ℕ → BinPacket) (chunks : List Chunk) (h : ¬ ReadsWhole chunks)
    (passes : ℕ) (hpasses : chunks.length ≤ passes + 1) (q : BinPacket) :
    (inOrder packetReports (beforeShutdown (completePackets (streamOf (spoiled chunks))))
        .allSucceed).length <
      ((serve stack passes (.entry q) ((spoiled chunks).map Chunk.read)).attempts
        .allSucceed).length := by
  induction chunks generalizing passes q with
  | nil => exact absurd (.inl rfl) h
  | cons chunk chunks ih =>
    by_cases hwhole : chunk.1.length = binPacketSize
    · rw [readsWhole_cons hwhole, not_or] at h
      obtain ⟨hns, hrest⟩ := h
      have hne : chunks ≠ [] := fun hnil => hrest (hnil ▸ .inl rfl)
      have hpos := List.length_pos_of_ne_nil hne
      rw [List.length_cons] at hpasses
      rw [spoiled_cons hwhole, completePackets_cons hwhole, beforeShutdown_cons _ _ hns,
        List.map_cons, read_whole hwhole, serve_packet, Attempt.attempts_bind, List.length_append,
        inOrder, List.length_append, Outcomes.after_allSucceed, Outcomes.after_allSucceed]
      refine Nat.add_lt_add_left ?_ _
      rcases handlePacket_ends (.ofBytes chunk.1) .allSucceed with
        ⟨_, ⟨p', hend⟩ | ⟨s, hend⟩⟩ | ⟨hs, _⟩
      · rw [hend]
        exact ih hrest passes (by omega) p'
      · obtain ⟨m, rfl⟩ : ∃ m, passes = m + 1 := ⟨passes - 1, by omega⟩
        rw [hend]
        exact ih hrest m (by omega) (stack m)
      · exact absurd hs hns
    · rw [spoiled_short hwhole, serve_twos, List.map_cons]
      exact complete_twos_lt chunk.size hwhole (chunks.map Chunk.size)

theorem not_framesRight_spoiled (stack : ℕ → BinPacket) (extra : ℕ) (chunks : List Chunk)
    (h : ¬ ReadsWhole chunks) : ¬ FramesRight stack extra (spoiled chunks) .allSucceed := by
  have hlen : (spoiled chunks).length = chunks.length := by
    have := congrArg List.length (spoiled_size chunks)
    rwa [List.length_map, List.length_map] at this
  have hne : chunks ≠ [] := fun hnil => h (hnil ▸ .inl rfl)
  have hpos := List.length_pos_of_ne_nil hne
  obtain ⟨passes, hn⟩ : ∃ passes, (spoiled chunks).length + extra = passes + 1 :=
    ⟨chunks.length + extra - 1, by omega⟩
  intro hright
  have hcount := congrArg List.length hright.1
  have hmore := serve_spoiled stack chunks h passes (by omega) (stack passes)
  rw [chunkRun, hn, mainLoop_succ] at hcount
  omega

/-- A stream whose reads are whole up to the first shutdown packet is framed right. When one
of them is short, the daemon goes wrong for some contents of this read and the later ones,
with all that was read before. -/
theorem framing_right (chunks : List Chunk) :
    (ReadsWhole chunks → ∀ (stack : ℕ → BinPacket) (extra : ℕ) (o : Outcomes),
      FramesRight stack extra chunks o) ∧
    (¬ ReadsWhole chunks → ∃ chunks' : List Chunk,
      chunks'.map Chunk.size = chunks.map Chunk.size ∧ wholeFront chunks' = wholeFront chunks ∧
        ∀ (stack : ℕ → BinPacket) (extra : ℕ), ∃ o : Outcomes,
          ¬ FramesRight stack extra chunks' o) := by
  refine ⟨fun h stack extra o => framesRight_whole stack extra chunks h o, fun h => ?_⟩
  exact ⟨spoiled chunks, spoiled_size chunks, spoiled_wholeFront chunks,
    fun stack extra => ⟨.allSucceed, not_framesRight_spoiled stack extra chunks h⟩⟩

/-- A mouse packet and then a single byte: the stale packet is sent again. -/
theorem stray_byte_replays_packet :
    ¬ ∀ (chunks : List Chunk) (stack : ℕ → BinPacket) (extra : ℕ) (o : Outcomes),
      FramesRight stack extra chunks o := by
  intro h
  have hright := (h [⟨2 :: List.replicate 19 0, by decide⟩, ⟨[mouseRepId], by decide⟩]
    (fun _ => .zero) 0 .allSucceed).1
  revert hright
  decide

end Android2Mouse.Guarantees.Framing
