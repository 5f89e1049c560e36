import Android2Mouse.Library.Lasting
import Android2Mouse.Source.MouseConn

/-!
# Lines of text for the connection type `mouse`

However the bytes are written and read, the lines are handled once each and in order
(`lines_in_order`), so that the moves that are printed are the reports that are sent
(`moves_reported`). Where the end of the file lasts this is so until it is met; where the C
library reads on after it, over any number of writers that print whole lines.
-/
namespace Android2Mouse.Guarantees.MouseLines
open Library Library.Strtol Library.Scan Source.Hidp Source.ComboConn Source.HidpClientd
  Source.MouseConn

/-! ## One line -/

def lineReport (line : List UInt8) : Payload :=
  inputPayload [1, intToUInt8 (scanned line 2), intToUInt8 (scanned line 0),
    intToUInt8 (scanned line 1), 0]

/-- The line asks for a shutdown. -/
def IsShutdown (line : List UInt8) : Prop := scanned line 3 &&& 1 ≠ 0

instance (line : List UInt8) : Decidable (IsShutdown line) := inferInstanceAs (Decidable (_ ≠ _))

/-- What a line makes the daemon attempt to send. -/
def lineReports (line : List UInt8) : List Payload :=
  if IsShutdown line then [] else [lineReport line]

/-- How `process_mouse_nice` goes on after a line. -/
theorem handleLine_run (line : List UInt8) (o : Outcomes) :
    (handleLine line).attempts o = lineReports line ∧
      (handleLine line).result o =
        if IsShutdown line then some .shutdown else if o 0 then none else some .error := by
  rw [lineReports]
  by_cases h : IsShutdown line
  · have hprog : handleLine line = .done (some .shutdown) := if_pos h
    rw [hprog, if_pos h, if_pos h]
    exact ⟨rfl, rfl⟩
  · have hprog : handleLine line = sendInputRep _ >>= fun sent =>
        if sent = -1 then .done (some .error) else .done none := if_neg h
    rw [hprog, if_neg h, if_neg h, sendInputRep_bind]
    simp only [sent_eq_neg_one_iff, Attempt.attempts_send, Attempt.result_send]
    cases o 0 with
    | false => exact ⟨rfl, rfl⟩
    | true => exact ⟨rfl, rfl⟩

/-! ## Histories -/

/-- What happens to the FIFO, a call of `process_mouse_nice` from `poll`, and a step of it. -/
inductive Event where
  | write (bs : List UInt8)
  | hangUp
  | openWriter
  | pass
  | advance (o : Outcomes)

def Event.written : Event → List UInt8
  | .write bs => bs
  | .hangUp => []
  | .openWriter => []
  | .pass => []
  | .advance _ => []

def written (events : List Event) : List UInt8 := events.flatMap Event.written

/-- The daemon, and the reports that it has attempted to send. -/
structure Sent where
  reader : Reader
  sent : List Payload

def Sent.start : Sent := ⟨⟨⟨[], false⟩, ⟨[], false⟩, .polling⟩, []⟩

section

variable (lasts : Bool) (bufsiz : ℕ)

def step (s : Sent) : Event → Sent
  | .write bs => { s with reader.fifo.pending := s.reader.fifo.pending ++ bs }
  | .hangUp => { s with reader.fifo.hungUp := true }
  | .openWriter => { s with reader.fifo.hungUp := false }
  | .pass =>
    if s.reader.control = .polling ∧ s.reader.fifo.pending ≠ [] then
      { s with reader.control := .reading }
    else s
  | .advance o =>
    if s.reader.control = .reading then
      ⟨(advance lasts bufsiz s.reader).result o, s.sent ++ (advance lasts bufsiz s.reader).attempts o⟩
    else s

def run (events : List Event) : Sent := events.foldl (step lasts bufsiz) .start

end

/-! ## Lines -/

def IsLine (line : List UInt8) : Prop := ∃ body, newline ∉ body ∧ line = body ++ [newline]

theorem takeWhile_line {body : List UInt8} (h : newline ∉ body) (rest : List UInt8) :
    (body ++ newline :: rest).takeWhile (· ≠ newline) = body := by
  have hall : ∀ b ∈ body, (decide (b ≠ newline)) = true := fun b hb =>
    decide_eq_true fun heq => h (heq ▸ hb)
  rw [List.takeWhile_append_of_pos hall, List.takeWhile_cons_of_neg (by simp), List.append_nil]

/-- A text is cut into lines in one way. -/
theorem lines_unique {lines lines' : List (List UInt8)} {rest rest' : List UInt8}
    (hlines : ∀ l ∈ lines, IsLine l) (hlines' : ∀ l ∈ lines', IsLine l) (hrest : newline ∉ rest)
    (hrest' : newline ∉ rest') (h : lines.flatten ++ rest = lines'.flatten ++ rest') :
    lines = lines' ∧ rest = rest' := by
  have hmem {lines : List (List UInt8)} {l : List UInt8} (hl : IsLine l) (r : List UInt8) :
      newline ∈ (l :: lines).flatten ++ r := by
    obtain ⟨body, -, rfl⟩ := hl
    simp
  induction lines generalizing lines' with
  | nil =>
    cases lines' with
    | nil => exact ⟨rfl, h⟩
    | cons l' lines' =>
      rw [List.flatten_nil, List.nil_append] at h
      exact absurd (h ▸ hmem (hlines' l' List.mem_cons_self) rest') hrest
  | cons l lines ih =>
    cases lines' with
    | nil =>
      rw [List.flatten_nil, List.nil_append] at h
      exact absurd (h ▸ hmem (hlines l List.mem_cons_self) rest) hrest'
    | cons l' lines' =>
      obtain ⟨body, hbody, rfl⟩ := hlines l List.mem_cons_self
      obtain ⟨body', hbody', rfl⟩ := hlines' l' List.mem_cons_self
      have hcut (body : List UInt8) (lines : List (List UInt8)) (rest : List UInt8) :
          ((body ++ [newline]) :: lines).flatten ++ rest =
            body ++ newline :: (lines.flatten ++ rest) := by
        rw [List.flatten_cons, List.append_assoc, List.append_assoc, List.singleton_append]
      rw [hcut, hcut] at h
      have hbodies : body = body' := by
        rw [← takeWhile_line hbody (lines.flatten ++ rest), h, takeWhile_line hbody']
      subst hbodies
      obtain ⟨-, h⟩ := List.cons.inj (List.append_cancel_left h)
      obtain ⟨rfl, rfl⟩ := ih (fun l hl => hlines l (List.mem_cons_of_mem _ hl))
        (fun l hl => hlines' l (List.mem_cons_of_mem _ hl)) h
      exact ⟨rfl, rfl⟩

/-- The stream is at the end of the file, with a line that is cut off there. -/
def File.CutOff (f : File) : Prop := f.eof = true ∧ f.buffer ≠ []

instance (f : File) : Decidable (File.CutOff f) := inferInstanceAs (Decidable (_ ∧ _))

/-- What is handed out is taken from the front of the buffer. It is a line, with the end of the
file as before, or the line that is cut off. -/
theorem line_some {lasts : Bool} {f file : File} {line : List UInt8}
    (h : f.line lasts = some (line, file)) :
    f.buffer = line ++ file.buffer ∧
      (IsLine line ∧ file.eof = f.eof ∨ File.CutOff f ∧ file = ⟨[], lasts⟩) := by
  rw [File.line] at h
  by_cases hnewline : newline ∈ f.buffer
  · rw [if_pos hnewline] at h
    obtain ⟨rfl, rfl⟩ := Prod.mk.inj (Option.some.inj h)
    obtain ⟨body, rest, hbuffer, hbody⟩ := List.eq_append_cons_of_mem hnewline
    have htake : f.buffer.takeWhile (· ≠ newline) = body := by
      rw [hbuffer, takeWhile_line hbody]
    have hdrop : f.buffer.drop (body ++ [newline]).length = rest := by
      rw [hbuffer, List.append_cons body newline rest]
      exact List.drop_left
    rw [htake]
    refine ⟨?_, .inl ⟨⟨body, hbody, rfl⟩, rfl⟩⟩
    change f.buffer = body ++ [newline] ++ f.buffer.drop (body ++ [newline]).length
    rw [hdrop, hbuffer, List.append_cons body newline rest]
  · rw [if_neg hnewline] at h
    by_cases hlast : f.eof = true ∧ f.buffer ≠ []
    · rw [if_pos hlast] at h
      obtain ⟨rfl, rfl⟩ := Prod.mk.inj (Option.some.inj h)
      exact ⟨(List.append_nil _).symm, .inr ⟨hlast, rfl⟩⟩
    · rw [if_neg hlast] at h
      cases h

theorem line_none {lasts : Bool} {f : File} (h : f.line lasts = none) :
    newline ∉ f.buffer ∧ ¬ File.CutOff f := by
  rw [File.line] at h
  by_cases hnewline : newline ∈ f.buffer
  · rw [if_pos hnewline] at h
    cases h
  · rw [if_neg hnewline] at h
    refine ⟨hnewline, fun hcut => ?_⟩
    rw [if_pos (show f.eof = true ∧ f.buffer ≠ [] from hcut)] at h
    cases h

/-! ## One step -/

section

variable (lasts : Bool) (bufsiz : ℕ)

/-- What a step of `process_mouse_nice` does: a line is handled, the end of the file is met or
left, or bytes are read. -/
theorem advance_cases (m : Reader) (o : Outcomes) :
    (∃ line file control, m.file.line lasts = some (line, file) ∧
      (advance lasts bufsiz m).attempts o = lineReports line ∧
      (advance lasts bufsiz m).result o = { m with file, control }) ∨
    (m.file.line lasts = none ∧ (advance lasts bufsiz m).attempts o = [] ∧
      ((∃ eof control,
          (eof = true → m.file.eof = true ∨ m.fifo.pending = [] ∧ m.fifo.hungUp = true) ∧
          (lasts = true → m.file.eof = true → eof = true) ∧
          (advance lasts bufsiz m).result o = { m with file.eof := eof, control := control }) ∨
        m.file.eof = false ∧ (advance lasts bufsiz m).result o = { m with
          fifo.pending := m.fifo.pending.drop bufsiz
          file.buffer := m.file.buffer ++ m.fifo.pending.take bufsiz })) := by
  rw [advance]
  cases hline : m.file.line lasts with
  | some taken =>
    obtain ⟨line, file⟩ := taken
    obtain ⟨hattempts, hresult⟩ := handleLine_run line o
    left
    change ∃ line' file' control, some (line, file) = some (line', file') ∧
      (handleLine line >>= _).attempts o = lineReports line' ∧
        (handleLine line >>= _).result o = { m with file := file', control := control }
    rw [Attempt.attempts_bind, Attempt.result_bind, hattempts]
    cases (handleLine line).result o with
    | none => exact ⟨line, file, m.control, rfl, List.append_nil _, rfl⟩
    | some code => exact ⟨line, file, .returned code, rfl, List.append_nil _, rfl⟩
  | none =>
    right
    dsimp only
    cases heof : m.file.eof with
    | true =>
      rw [if_pos rfl]
      exact ⟨rfl, rfl, .inl ⟨lasts, .returned .success, fun _ => .inl rfl, fun h _ => h, rfl⟩⟩
    | false =>
      rw [if_neg (by decide)]
      by_cases hpending : m.fifo.pending = []
      · rw [if_pos hpending]
        refine ⟨rfl, rfl, .inl ⟨m.fifo.hungUp, m.control, fun h => .inr ⟨hpending, h⟩,
          fun _ h => Bool.noConfusion h, ?_⟩⟩
        cases hhung : m.fifo.hungUp with
        | true => rfl
        | false =>
          have heta : ({ m with file.eof := false } : Reader) = m := by rw [← heof]
          exact heta.symm
      · rw [if_neg hpending]
        exact ⟨rfl, rfl, .inr ⟨rfl, rfl⟩⟩

/-! ## Runs -/

/-- The lines that have been handled, what the stream keeps and what is in the FIFO are what
has been written; and the reports are those of the lines. -/
structure Kept (text : List UInt8) (s : Sent) (handled : List (List UInt8)) : Prop where
  bytes : text = handled.flatten ++ s.reader.file.buffer ++ s.reader.fifo.pending
  sent : s.sent = handled.flatMap lineReports

theorem step_kept {text : List UInt8} {s : Sent} {handled : List (List UInt8)}
    (h : Kept text s handled) (e : Event) :
    ∃ more, Kept (text ++ e.written) (step lasts bufsiz s e) (handled ++ more) ∧
      ∀ l ∈ more, IsLine l ∨ File.CutOff s.reader.file := by
  have hsame : text ++ [] = text := List.append_nil text
  have hkeep : Kept text s (handled ++ []) := by rwa [List.append_nil]
  have hnil : ∀ l ∈ ([] : List (List UInt8)), IsLine l ∨ File.CutOff s.reader.file :=
    fun l hl => absurd hl List.not_mem_nil
  cases e with
  | write bs =>
    refine ⟨[], ⟨?_, ?_⟩, hnil⟩
    · rw [h.bytes, List.append_nil, List.append_assoc]
      rfl
    · rw [List.append_nil]
      exact h.sent
  | hangUp =>
    rw [Event.written, hsame]
    exact ⟨[], ⟨hkeep.bytes, hkeep.sent⟩, hnil⟩
  | openWriter =>
    rw [Event.written, hsame]
    exact ⟨[], ⟨hkeep.bytes, hkeep.sent⟩, hnil⟩
  | pass =>
    rw [Event.written, hsame, step]
    split
    · exact ⟨[], ⟨hkeep.bytes, hkeep.sent⟩, hnil⟩
    · exact ⟨[], hkeep, hnil⟩
  | advance o =>
    rw [Event.written, hsame, step]
    split
    · rcases advance_cases lasts bufsiz s.reader o with
        ⟨line, file, control, hline, hattempts, hresult⟩ |
          ⟨hline, hattempts, ⟨eof, control, -, -, hresult⟩ | ⟨-, hresult⟩⟩
      · obtain ⟨hbuffer, hkind⟩ := line_some hline
        refine ⟨[line], ⟨?_, ?_⟩, fun l hl => ?_⟩
        · rw [hresult, h.bytes, hbuffer, List.flatten_append, List.flatten_singleton]
          simp only [List.append_assoc]
        · rw [hattempts, h.sent, List.flatMap_append, List.flatMap_singleton]
        · rw [List.mem_singleton.mp hl]
          exact hkind.imp And.left And.left
      · refine ⟨[], ⟨?_, ?_⟩, hnil⟩
        · rw [hresult]
          exact hkeep.bytes
        · rw [hattempts, List.append_nil]
          exact hkeep.sent
      · refine ⟨[], ⟨?_, ?_⟩, hnil⟩
        · rw [hresult, h.bytes, List.append_nil]
          simp only [List.append_assoc, List.take_append_drop]
        · rw [hattempts, List.append_nil]
          exact hkeep.sent
    · exact ⟨[], hkeep, hnil⟩

/-- A line is cut off where one was before, or where the FIFO is at its end. -/
theorem step_cutOff {s : Sent} {e : Event} (h : File.CutOff (step lasts bufsiz s e).reader.file) :
    File.CutOff s.reader.file ∨ newline ∉ s.reader.file.buffer ∧ s.reader.file.buffer ≠ [] ∧
      s.reader.fifo.pending = [] ∧ s.reader.fifo.hungUp = true := by
  cases e with
  | write bs => exact .inl h
  | hangUp => exact .inl h
  | openWriter => exact .inl h
  | pass =>
    rw [step] at h
    split at h <;> exact .inl h
  | advance o =>
    rw [step] at h
    split at h
    · rcases advance_cases lasts bufsiz s.reader o with
        ⟨line, file, control, hline, -, hresult⟩ |
          ⟨hline, -, ⟨eof, control, heof, -, hresult⟩ | ⟨heof, hresult⟩⟩
      · rw [hresult] at h
        obtain ⟨hbuffer, ⟨-, hsame⟩ | ⟨-, rfl⟩⟩ := line_some hline
        · refine .inl ⟨hsame ▸ h.1, ?_⟩
          rw [hbuffer]
          exact List.append_ne_nil_of_right_ne_nil _ h.2
        · exact absurd rfl h.2
      · rw [hresult] at h
        obtain hbefore | hend := heof h.1
        · exact .inl ⟨hbefore, h.2⟩
        · exact .inr ⟨(line_none hline).1, h.2, hend⟩
      · rw [hresult] at h
        exact absurd (h.1.symm.trans heof) (by decide)
    · exact .inl h

/-- Where the end of the file lasts, it is met for good. -/
theorem step_eof {s : Sent} (h : s.reader.file.eof = true) (e : Event) :
    (step true bufsiz s e).reader.file.eof = true := by
  cases e with
  | write bs => exact h
  | hangUp => exact h
  | openWriter => exact h
  | pass =>
    rw [step]
    split <;> exact h
  | advance o =>
    rw [step]
    split
    · rcases advance_cases true bufsiz s.reader o with
        ⟨line, file, control, hline, -, hresult⟩ |
          ⟨-, -, ⟨eof, control, -, hlasts, hresult⟩ | ⟨heof, -⟩⟩
      · rw [hresult]
        obtain ⟨-, ⟨-, hsame⟩ | ⟨-, rfl⟩⟩ := line_some hline
        · exact hsame.trans h
        · rfl
      · rw [hresult]
        exact hlasts rfl h
      · exact absurd (h.symm.trans heof) (by decide)
    · exact h

theorem run_append (events : List Event) (e : Event) :
    run lasts bufsiz (events ++ [e]) = step lasts bufsiz (run lasts bufsiz events) e := by
  rw [run, List.foldl_append]
  rfl

/-- Whatever is written to the FIFO in whatever pieces, however much a read takes, whatever the
sends meet and whenever writers come and go, the reports that have been attempted are those of
the lines at the front of what has been written, and the rest is kept by the stream or is in the
FIFO. These are lines of the text unless one has been cut off. -/
theorem lines_in_order (events : List Event) :
    ∃ handled, Kept (written events) (run lasts bufsiz events) handled ∧
      ((∀ before, before <+: events → ¬ File.CutOff (run lasts bufsiz before).reader.file) →
        ∀ l ∈ handled, IsLine l) := by
  induction events using List.reverseRecOn with
  | nil => exact ⟨[], ⟨rfl, rfl⟩, fun _ l hl => absurd hl List.not_mem_nil⟩
  | append_singleton events e ih =>
    obtain ⟨handled, h, hlines⟩ := ih
    obtain ⟨more, hmore, hkind⟩ := step_kept lasts bufsiz h e
    refine ⟨handled ++ more, ?_, fun hcut l hl => ?_⟩
    · rw [written, List.flatMap_append, List.flatMap_singleton, run_append]
      exact hmore
    · rcases List.mem_append.mp hl with hl | hl
      · exact hlines (fun before hbefore => hcut before (hbefore.trans (List.prefix_append ..))) l hl
      · exact (hkind l hl).resolve_right (hcut events (List.prefix_append ..))

/-- When no writer has the FIFO open, what has been written are whole lines. -/
def WholeLines (events : List Event) : Prop :=
  ∀ before, before <+: events → (run lasts bufsiz before).reader.fifo.hungUp = true →
    ∃ lines : List (List UInt8), (∀ l ∈ lines, IsLine l) ∧ written before = lines.flatten

theorem not_cutOff_of_whole {events : List Event} (h : WholeLines lasts bufsiz events) :
    ∀ before, before <+: events → ¬ File.CutOff (run lasts bufsiz before).reader.file := by
  induction events using List.reverseRecOn with
  | nil =>
    intro before hbefore
    rw [List.prefix_nil.mp hbefore]
    exact fun hcut => hcut.2 rfl
  | append_singleton events e ih =>
    have hbefore := ih fun before hbefore => h before (hbefore.trans (List.prefix_append ..))
    intro before hprefix
    obtain rfl | hprefix := List.prefix_concat_iff.mp hprefix
    · rw [run_append]
      intro hcut
      obtain hcut | ⟨hnewline, hbuffer, hpending, hhung⟩ := step_cutOff lasts bufsiz hcut
      · exact hbefore events (List.prefix_refl _) hcut
      · obtain ⟨handled, hkept, hlines⟩ := lines_in_order lasts bufsiz events
        obtain ⟨lines, hwhole, hwritten⟩ := h events (List.prefix_append ..) hhung
        have hbytes := hkept.bytes
        rw [hpending, List.append_nil, hwritten, ← List.append_nil lines.flatten] at hbytes
        exact hbuffer (lines_unique hwhole (hlines hbefore) List.not_mem_nil hnewline hbytes).2.symm
    · exact hbefore before hprefix

theorem not_cutOff_of_eof {events : List Event}
    (h : (run true bufsiz events).reader.file.eof = false) :
    ∀ before, before <+: events → ¬ File.CutOff (run true bufsiz before).reader.file := by
  induction events using List.reverseRecOn with
  | nil =>
    intro before hbefore
    rw [List.prefix_nil.mp hbefore]
    exact fun hcut => hcut.2 rfl
  | append_singleton events e ih =>
    intro before hprefix
    obtain rfl | hprefix := List.prefix_concat_iff.mp hprefix
    · exact fun hcut => absurd (hcut.1.symm.trans h) (by decide)
    · refine ih (Bool.eq_false_iff.mpr fun heof => ?_) before hprefix
      rw [run_append] at h
      exact absurd ((step_eof bufsiz heof e).symm.trans h) (by decide)

end

/-! ## Printed moves -/

structure Move where
  x : Int32
  y : Int32
  b : Int32
  flags : Int32
  deriving DecidableEq, Repr

/-- `"%d %d %d %d\n"` -/
def Move.text (m : Move) : List UInt8 :=
  decimals [(m.x.toInt, 32), (m.y.toInt, 32), (m.b.toInt, 32), (m.flags.toInt, newline)]

/-- The report of a move, as far as bytes hold it. -/
def Move.report (m : Move) : Payload :=
  inputPayload [1, intToUInt8 m.b, intToUInt8 m.x, intToUInt8 m.y, 0]

theorem not_mem_decimal (v : ℤ) {c : UInt8} (hc : ¬ digit c < 10) (hminus : c ≠ 45) :
    c ∉ decimal v := by
  have hdigits : c ∉ decimalNat v.natAbs := fun h => hc (digit_decimalNat _ c h)
  rw [decimal]
  split
  · exact fun h => (List.mem_cons.mp h).elim hminus hdigits
  · exact hdigits

theorem not_mem_text (m : Move) : (0 : UInt8) ∉ m.text := by
  have hnum (v : ℤ) : (0 : UInt8) ∉ decimal v := not_mem_decimal v (by decide) (by decide)
  simp only [Move.text, decimals, List.flatMap_cons, List.flatMap_nil, List.mem_append,
    List.mem_singleton, List.not_mem_nil, hnum, false_or, or_false]
  decide

theorem inRange_toInt (v : Int32) : InRange 32 v.toInt := ⟨v.le_toInt, v.toInt_lt⟩

theorem scanned_text (m : Move) (i : ℕ) :
    scanned m.text i = [m.x, m.y, m.b, m.flags].getD i 0 := by
  let vs : List (ℤ × UInt8) :=
    [(m.x.toInt, 32), (m.y.toInt, 32), (m.b.toInt, 32), (m.flags.toInt, newline)]
  have hrange : ∀ v ∈ vs, InRange 32 v.1 := by
    simp only [vs, List.forall_mem_cons, List.not_mem_nil, inRange_toInt, true_and, false_implies,
      implies_true]
  have hspace : ∀ v ∈ vs, isSpace v.2 = true := by
    simp only [vs, List.forall_mem_cons, List.not_mem_nil, false_implies, implies_true, and_true]
    decide
  have hscan := scanInts_decimals 32 hrange hspace []
  rw [List.append_nil] at hscan
  have hmap : vs.map Prod.fst = [m.x, m.y, m.b, m.flags].map Int32.toInt := rfl
  have hzero : (0 : ℤ) = (0 : Int32).toInt := rfl
  rw [scanned, cstring_of_nulFree _ (not_mem_text m)]
  change Int32.ofInt ((scanInts 32 vs.length (decimals vs)).getD i 0) = _
  rw [hscan, hmap, hzero, List.getD_eq_getElem?_getD, List.getElem?_map, Option.getD_map,
    Int32.ofInt_toInt, List.getD_eq_getElem?_getD]

theorem text_isLine (m : Move) : IsLine m.text := by
  have hnum (v : ℤ) : newline ∉ decimal v := not_mem_decimal v (by decide) (by decide)
  refine ⟨decimals [(m.x.toInt, 32), (m.y.toInt, 32), (m.b.toInt, 32)] ++ decimal m.flags.toInt,
    ?_, ?_⟩
  · simp only [decimals, List.flatMap_cons, List.flatMap_nil, List.mem_append, List.mem_singleton,
      List.not_mem_nil, hnum, false_or, or_false]
    decide
  · simp only [Move.text, decimals, List.flatMap_cons, List.flatMap_nil, List.append_assoc,
      List.append_nil]

theorem lineReports_text (m : Move) (h : m.flags &&& 1 = 0) : lineReports m.text = [m.report] := by
  have hflags : ¬ IsShutdown m.text := by
    rw [IsShutdown, scanned_text]
    exact not_not.mpr h
  rw [lineReports, if_neg hflags, lineReport, scanned_text, scanned_text, scanned_text]
  rfl

/-- When moves without a shutdown among them have been printed to the FIFO, in whatever pieces,
and no whole line is left to handle, the reports of the moves have been attempted, each once and
in order; provided that the end of the file lasts and has not been met, or that the writers that
have hung up had printed whole lines. -/
theorem moves_reported (lasts : Bool) (bufsiz : ℕ) (events : List Event) (moves : List Move)
    (htext : written events = moves.flatMap Move.text) (hflags : ∀ m ∈ moves, m.flags &&& 1 = 0)
    (hends : lasts = true ∧ (run lasts bufsiz events).reader.file.eof = false ∨
      WholeLines lasts bufsiz events)
    (hdone : (run lasts bufsiz events).reader.file.line lasts = none)
    (hempty : (run lasts bufsiz events).reader.fifo.pending = []) :
    (run lasts bufsiz events).sent = moves.map Move.report := by
  obtain ⟨handled, h, hlines⟩ := lines_in_order lasts bufsiz events
  have hcut : ∀ before, before <+: events →
      ¬ File.CutOff (run lasts bufsiz before).reader.file := by
    obtain ⟨rfl, heof⟩ | hwhole := hends
    · exact not_cutOff_of_eof bufsiz heof
    · exact not_cutOff_of_whole lasts bufsiz hwhole
  have hbytes := h.bytes
  rw [hempty, List.append_nil, htext, List.flatMap_def,
    ← List.append_nil (moves.map Move.text).flatten] at hbytes
  have hmoves : ∀ l ∈ moves.map Move.text, IsLine l := by
    intro l hl
    obtain ⟨m, -, rfl⟩ := List.mem_map.mp hl
    exact text_isLine m
  obtain ⟨hhandled, -⟩ := lines_unique hmoves (hlines hcut) List.not_mem_nil (line_none hdone).1
    hbytes
  rw [h.sent, ← hhandled, List.flatMap_map, List.map_eq_flatMap]
  exact List.flatMap_congr fun m hm => lineReports_text m (hflags m hm)

/-- Two moves, the first in two pieces and the second of another writer. -/
theorem moves_reported_two :
    let first : Move := ⟨3, -4, 1, 0⟩
    let second : Move := ⟨300, 1, 0, 0⟩
    let events : List Event := [.write (first.text.take 5), .pass, .advance .allSucceed,
      .write (first.text.drop 5), .advance .allSucceed, .advance .allSucceed, .hangUp,
      .advance .allSucceed, .advance .allSucceed, .openWriter, .write second.text, .pass,
      .advance .allSucceed, .advance .allSucceed]
    (run false 1024 events).sent = [first, second].map Move.report := by
  intro first second events
  have hprefixes : ∀ before ∈ events.inits,
      (run false 1024 before).reader.fifo.hungUp = true → written before = first.text := by
    decide +kernel
  have hwhole : WholeLines false 1024 events := by
    intro before hbefore hhung
    refine ⟨[first.text], fun l hl => List.mem_singleton.mp hl ▸ text_isLine first, ?_⟩
    rw [List.flatten_singleton]
    exact hprefixes before ((List.mem_inits ..).mpr hbefore) hhung
  exact moves_reported false 1024 events [first, second] (by decide +kernel) (by decide +kernel)
    (.inr hwhole) (by decide +kernel) (by decide +kernel)

end Android2Mouse.Guarantees.MouseLines
