import Android2Mouse.Guarantees.Typing

/-!
# Fragments of a string

What `send_str_report` leaves in the FIFO for a reader that looks at one field
at a time: `Fragmented` lists it. The packets are the blocks of the string
(`sendStrReport_calls`); the rest is about one block in its zeroed packet.
-/
namespace Android2Mouse.Guarantees.Fragments
open Library Source.ComboConn Source.HidpClientdlib Typing

/-- The packets carry the string in fields of sixteen bytes. -/
structure Fragmented (s : List UInt8) (packets : List BinPacket) : Prop where
  count : packets.length = s.length ⌈/⌉ 16
  headers : ∀ p ∈ packets, p.reportId = kbdRepId ∧ p.flags = brptString ∧ p.flags2 = 0
  full : ∀ p ∈ packets.dropLast, 0 ∉ p.string.toList
  last : ∀ p ∈ packets.getLast?, ∃ rest : List UInt8, 1 ≤ rest.length ∧ rest.length ≤ 16 ∧
    0 ∉ rest ∧ p.string.toList = rest ++ List.replicate (16 - rest.length) 0
  lossless : packets.flatMap (fun p => cstring p.string.toList) = s
  empty : s = [] → packets = []

/-! ## One fragment -/

theorem fragPacket_string (frag : List UInt8) (h : frag.length ≤ 16) :
    (fragPacket frag).string.toList = frag ++ List.replicate (16 - frag.length) 0 :=
  toList_padded _ frag h fun _ hi => Vector.getElem_ofFn hi

/-- A full field has no NUL of its own, a shorter one is cut at its padding. -/
theorem cstring_fragPacket (frag : List UInt8) (h : frag.length ≤ 16) (hnul : 0 ∉ frag) :
    cstring (fragPacket frag).string.toList = frag := by
  rw [fragPacket_string frag h, cstring_padded frag _ hnul]

/-! ## All of them -/

theorem fragmented_blocks (s : List UInt8) (h : 0 ∉ s) :
    Fragmented s ((blocks maxString s).map fragPacket) := by
  obtain ⟨hfull, hsize⟩ := blocks_shape maxString (by decide) s
  have hfree : ∀ frag ∈ blocks maxString s, 0 ∉ frag := fun frag hmem h0 =>
    h ((sublist_of_mem_blocks maxString s frag hmem).subset h0)
  refine ⟨?_, ?_, ?_, ?_, ?_, ?_⟩
  · rw [List.length_map, length_blocks maxString (by decide)]
    rfl
  · intro p hp
    obtain ⟨frag, _, rfl⟩ := List.mem_map.mp hp
    exact ⟨rfl, rfl, rfl⟩
  · intro p hp
    rw [← List.map_dropLast] at hp
    obtain ⟨frag, hmem, rfl⟩ := List.mem_map.mp hp
    have hlen : frag.length = 16 := hfull frag hmem
    rw [fragPacket_string frag hlen.le, hlen, Nat.sub_self, List.replicate_zero, List.append_nil]
    exact hfree frag (List.dropLast_subset _ hmem)
  · intro p hp
    rw [List.getLast?_map, Option.mem_def, Option.map_eq_some_iff] at hp
    obtain ⟨frag, hlast, rfl⟩ := hp
    have hmem := List.mem_of_getLast? hlast
    obtain ⟨hpos, hle⟩ := hsize frag hmem
    exact ⟨frag, hpos, hle, hfree frag hmem, fragPacket_string frag hle⟩
  · rw [List.flatMap_map]
    have hcut : ∀ frag ∈ blocks maxString s, cstring (fragPacket frag).string.toList = id frag :=
      fun frag hmem => cstring_fragPacket frag (hsize frag hmem).2 (hfree frag hmem)
    rw [List.flatMap_congr hcut, List.flatMap_id, flatten_blocks maxString (by decide)]
  · rintro rfl
    rw [blocks_nil, List.map_nil]

/-- `send_str_report` writes the fragments of its string and nothing else. -/
theorem send_str_report_fragments (s : List UInt8) (h : 0 ∉ s) (c : ClientLib) :
    ∃ packets, (sendStrReport s c).calls = c.calls ++ packets.map (.write c.fd) ∧
      Fragmented s packets := by
  refine ⟨_, ?_, fragmented_blocks s h⟩
  rw [sendStrReport_calls, cstring_of_nulFree s h, List.map_map]
  rfl

/-- Seventeen letters, one more than a field holds. -/
theorem send_str_report_fragments_seventeen :
    ∃ packets, (sendStrReport (List.replicate 17 97) .initial).calls =
        [] ++ packets.map (.write 0) ∧
      Fragmented (List.replicate 17 97) packets :=
  send_str_report_fragments (List.replicate 17 97) (by decide) .initial

end Android2Mouse.Guarantees.Fragments
