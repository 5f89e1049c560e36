import Android2Mouse.Source.Logging
import Mathlib.Data.List.Induction

/-!
# The rotating log file

A record is laid over the file at the position of the stream, or at its start once the
position has reached the size of the file. Records differ in length, so a record may end
past the size; what bounds the file is where a record starts and how long it can be
(`Kept`, which every call keeps). `log_bounded` is a run of any number of calls.
-/
namespace Android2Mouse.Guarantees.LogFile
open Library Library.Strtol Library.Printf Source.Logging

/-! ## One record -/

/-- A record as a line of the file: its number, its level and at most 58 bytes. -/
def line (n : ℕ) (level : Int32) (s : List UInt8) : List UInt8 :=
  91 :: (decimalNat n ++ 93 :: 58 :: (getLv level ++ 58 :: 32 :: (s.take 58 ++ [10])))

theorem getLv_length (level : Int32) : (getLv level).length = 3 := by
  rw [getLv, literal, List.length_map]
  split
  · rfl
  · split
    · rfl
    · split <;> rfl

theorem length_line (n : ℕ) (level : Int32) (s : List UInt8) :
    (line n level s).length ≤ 67 + (decimalNat n).length := by
  have hcut : (s.take 58).length ≤ 58 := List.length_take_le 58 s
  simp only [line, List.length_cons, List.length_append, getLv_length, List.length_nil]
  omega

theorem recordFormat_eq : recordFormat = [.byte 91, .convert (.unsigned 10), .byte 93, .byte 58,
    .convert .string, .byte 58, .byte 32, .convert .stringUpTo, .byte 10] := by
  decide

theorem record_eq {l : Log} (h : Started l) (level : Int32) (s : List UInt8) :
    l.record level s = line l.counter.toNat level s := by
  have hline : l.lineSize.toNat = 58 := by rw [h.lineSize]; rfl
  rw [Log.record, recordFormat_eq, hline, line, decimalNat_eq]
  rfl

/-! ## Runs -/

/-- One call of `push_string` after another. -/
def pushes (l : Log) (calls : List (Int32 × List UInt8)) : Log :=
  calls.foldl (fun l call => pushString l call.1 call.2) l

theorem pushes_snoc (l : Log) (calls : List (Int32 × List UInt8)) (level : Int32)
    (s : List UInt8) : pushes l (calls ++ [(level, s)]) = pushString (pushes l calls) level s :=
  List.foldl_concat ..

/-- A log file after `n` calls. The last record has the number `n - 1`. -/
structure Kept (l : Log) (n : ℕ) : Prop where
  started : Started l
  file : l.notFile = false
  counter : l.counter.toNat = n
  position : l.stream.position ≤ l.stream.contents.length
  bounded : l.stream.contents.length ≤ 65536 - 1 + 67 + (decimalNat (n - 1)).length

/-- Where the next record starts. -/
def start (l : Log) : ℕ := if 65536 ≤ l.stream.position then 0 else l.stream.position

theorem start_lt (l : Log) : start l < 65536 := by
  unfold start
  split <;> omega

theorem start_le {l : Log} {n : ℕ} (h : Kept l n) : start l ≤ l.stream.contents.length := by
  have hposition := h.position
  unfold start
  split <;> omega

theorem placed_eq {l : Log} {n : ℕ} (h : Kept l n) : l.placed = ⟨l.stream.contents, start l⟩ := by
  have hfile : l.fileSize.toNat = 65536 := by rw [h.started.fileSize]; rfl
  by_cases hfull : 65536 ≤ l.stream.position
  · rw [Log.placed, hfile, if_pos ⟨h.file, hfull⟩, start, if_pos hfull]
    rfl
  · rw [Log.placed, hfile, if_neg fun hboth => hfull hboth.2, start, if_neg hfull]

theorem pushString_stream {l : Log} {n : ℕ} (h : Kept l n) (level : Int32) (s : List UInt8) :
    (pushString l level s).stream =
      ⟨splice l.stream.contents (start l) (line n level s),
        start l + (line n level s).length⟩ := by
  rw [pushString, placed_eq h, record_eq h.started, h.counter]
  rfl

theorem length_after {l : Log} {n : ℕ} (h : Kept l n) (level : Int32) (s : List UInt8) :
    (pushString l level s).stream.contents.length ≤ 65536 - 1 + 67 + (decimalNat n).length := by
  have hstart := start_lt l
  have hline := length_line n level s
  have hbounded := h.bounded
  have hdigits : (decimalNat (n - 1)).length ≤ (decimalNat n).length := by
    rw [decimalNat_eq, decimalNat_eq]
    exact length_numeral_mono (by decide) (Nat.sub_le n 1)
  rw [pushString_stream h, length_splice _ _ (start_le h)]
  omega

theorem pushString_kept {l : Log} {n : ℕ} (h : Kept l n) (hn : n + 1 < 2 ^ 32) (level : Int32)
    (s : List UInt8) : Kept (pushString l level s) (n + 1) where
  started := pushString_started h.started level s
  file := h.file
  counter := by
    have hcounter : (pushString l level s).counter = l.counter + 1 := rfl
    rw [hcounter, UInt32.toNat_add, h.counter]
    exact Nat.mod_eq_of_lt hn
  position := by
    rw [pushString_stream h, length_splice _ _ (start_le h)]
    exact Nat.le_max_right ..
  bounded := length_after h level s

theorem pushes_kept {path : List UInt8} {fopen malloc : Bool} {l : Log}
    (hopen : startLog path fopen malloc = some l) (hfile : l.notFile = false)
    (calls : List (Int32 × List UInt8)) (hcount : calls.length < 2 ^ 32) :
    Kept (pushes l calls) calls.length := by
  induction calls using List.reverseRecOn with
  | nil =>
    obtain ⟨hstarted, hstream, hcounter⟩ := startLog_started hopen
    refine ⟨hstarted, hfile, ?_, ?_, ?_⟩
    · exact congrArg UInt32.toNat hcounter
    · exact Nat.le_of_eq ((congrArg Stream.position hstream).trans
        (congrArg (fun f => f.contents.length) hstream).symm)
    · have hempty : (pushes l []).stream.contents = [] := congrArg Stream.contents hstream
      rw [hempty]
      exact Nat.zero_le _
  | append_singleton calls call ih =>
    have hlen : (calls ++ [call]).length = calls.length + 1 := List.length_append
    rw [hlen] at hcount ⊢
    rw [pushes_snoc]
    exact pushString_kept (ih (by omega)) hcount call.1 call.2

/-- What one call does to the file: it lays the record with the number `n` over it, from
a position below the size of the file. -/
structure Appended (l l' : Log) (n : ℕ) (level : Int32) (s : List UInt8) : Prop where
  below : start l < 65536
  written : l'.stream.contents = splice l.stream.contents (start l) (line n level s)
  position : l'.stream.position = start l + (line n level s).length
  record : (line n level s).length ≤ 67 + (decimalNat n).length
  bounded : l'.stream.contents.length ≤ 65536 - 1 + 67 + (decimalNat n).length

/-- In every run of fewer than 2^32 calls on a regular file, each call appends the record
with the next number, and the file grows past its size by no more than that record. -/
theorem log_bounded (path : List UInt8) (fopen malloc : Bool) (l : Log)
    (hopen : startLog path fopen malloc = some l) (hfile : l.notFile = false)
    (calls : List (Int32 × List UInt8)) (hcount : calls.length < 2 ^ 32)
    (before since : List (Int32 × List UInt8)) (level : Int32) (s : List UInt8)
    (hcalls : calls = before ++ (level, s) :: since) :
    Appended (pushes l before) (pushes l (before ++ [(level, s)])) before.length level s := by
  have hbefore : before.length < 2 ^ 32 := by
    rw [hcalls, List.length_append] at hcount
    omega
  have hkept := pushes_kept hopen hfile before hbefore
  rw [pushes_snoc]
  exact ⟨start_lt _, congrArg Stream.contents (pushString_stream hkept level s),
    congrArg Stream.position (pushString_stream hkept level s), length_line _ level s,
    length_after hkept level s⟩

/-- The log of the daemon after 2,000 lines of 44 characters, which are more than the size of
the file: it has been rewound, and the next line is laid over it as well. -/
theorem log_bounded_daemon :
    let path := literal "hidp_clientd.log".toList
    let l : Log := ⟨58, 65536, ⟨[], 0⟩, path, 64, false, 0⟩
    let s := literal "process_multi_bin:processing keyboard (0, 0)".toList
    let before := List.replicate 2000 (lInfo, s)
    65536 < 2000 * s.length ∧
      Appended (pushes l before) (pushes l (before ++ [(lInfo, s)])) 2000 lInfo s := by
  intro path l s before
  have hbefore : before.length = 2000 := List.length_replicate
  have hcount : (before ++ [(lInfo, s)]).length < 2 ^ 32 := by
    rw [List.length_append, hbefore]
    decide
  have hrecord := log_bounded path true true l (by decide) rfl (before ++ [(lInfo, s)]) hcount
    before [] lInfo s rfl
  rw [hbefore] at hrecord
  exact ⟨by decide, hrecord⟩

end Android2Mouse.Guarantees.LogFile
