import Android2Mouse.Library.Lasting
import Android2Mouse.Source.HidpClientd

/-!
# Handshakes

`process_sk` looks at the header of a packet with one `recv` and takes the packet
with another. It does not look at what the first one returned, and the second one
counts as a packet unless it returns -1. So a call answers the packet that it
received when the header was read from that packet, or when it received nothing; left
with whatever was in `hdr` before, it answers right exactly when that value happens to
be treated as what was received should be (`answered_iff`). Over a run of such calls
the handshakes on a socket are the unsupported packets received on it
(`handshakes_iff`).
-/
namespace Android2Mouse.Guarantees.Handshakes
open Library Source.Hidp Source.ComboConn Source.HidpClientd

/-! ## One call -/

/-- The table has no handler for the header. -/
def unsupported (hdr : UInt8) : Bool := (lookupHdr hdr).isNone

/-- The handshake on a socket. -/
def handshake (sk : Sock) : Output := (sk, [0x04])

/-- What a call receives: one packet or none. -/
def receivedBy (answers : Answers) (pending : List HidpPkt) : List HidpPkt :=
  if answers.recvFails then [] else pending.take 1

/-- The call takes just the packet that it received, and answers it with a handshake
when it is unsupported; without a packet it sends nothing. -/
def Answered (sk : Sock) (answers : Answers) (pending : List HidpPkt) : Prop :=
  ∀ o, ((processSk sk answers pending).result o).2 =
      pending.drop (receivedBy answers pending).length ∧
    (processSk sk answers pending).attempts o =
      ((receivedBy answers pending).filter fun pkt => unsupported pkt.hdr).map fun _ => handshake sk

/-- The first `recv` saw a packet, or the second one fails, or the value in `hdr` is
treated as what the second one gets: with a handler, or without when that is an
unsupported packet. -/
def HeaderRight (answers : Answers) (pending : List HidpPkt) : Prop :=
  (answers.peekFails = false ∧ pending ≠ []) ∨ answers.recvFails = true ∨
    (unsupported answers.garbage = true ↔ ∃ pkt ∈ pending.head?, unsupported pkt.hdr = true)

instance (answers : Answers) (pending : List HidpPkt) : Decidable (HeaderRight answers pending) :=
  inferInstanceAs (Decidable (_ ∨ _ ∨ _))

theorem mem_hdrLookupDropall {entry : Option HdrLookupFunc} (h : entry ∈ hdrLookupDropall) :
    entry = none ∨ entry = some pktDrop := by
  simp only [hdrLookupDropall, List.mem_cons, List.not_mem_nil, or_false] at h
  tauto

/-- Every handler drops the packet. -/
theorem lookupHdr_some {hdr : UInt8} {process : HdrLookupFunc} (h : lookupHdr hdr = some process) :
    process = pktDrop := by
  unfold lookupHdr at h
  split at h
  · rw [List.getD_eq_getElem?_getD] at h
    cases hentry : hdrLookupDropall[(getHidpType hdr).toNat]? with
    | none =>
      rw [hentry] at h
      cases h
    | some entry =>
      rw [hentry, Option.getD_some] at h
      rcases mem_hdrLookupDropall (List.mem_of_getElem? hentry) with hnone | hdrop
      · rw [hnone] at h
        cases h
      · rw [hdrop] at h
        exact (Option.some.inj h).symm
  · cases h

theorem recvHidpPkt_pending (answers : Answers) (pending : List HidpPkt) :
    (recvHidpPkt answers pending).2 = pending.drop (receivedBy answers pending).length := by
  unfold recvHidpPkt recv receivedBy
  cases answers.recvFails with
  | true => rfl
  | false =>
    cases pending with
    | nil => rfl
    | cons pkt pending => rfl

theorem recvHidpPkt_error (answers : Answers) (pending : List HidpPkt) :
    (recvHidpPkt answers pending).1 = .error ↔ answers.recvFails = true := by
  unfold recvHidpPkt recv
  cases answers.recvFails with
  | true => simp
  | false =>
    cases pending with
    | nil => simp
    | cons pkt pending => simp

theorem sendEinval_run (sk : Sock) (o : Outcomes) :
    (sendEinval sk).attempts o = [handshake sk] := by rfl

/-- The run of one call: what it takes does not depend on the header, what it sends
does. -/
theorem processSk_run (sk : Sock) (answers : Answers) (pending : List HidpPkt) (o : Outcomes) :
    ((processSk sk answers pending).result o).2 =
      pending.drop (receivedBy answers pending).length ∧
    (processSk sk answers pending).attempts o =
      if unsupported (peekHidpHdr answers pending) = true ∧ answers.recvFails = false
      then [handshake sk] else [] := by
  unfold processSk unsupported
  rw [← recvHidpPkt_pending]
  have herror := recvHidpPkt_error answers pending
  cases hlookup : lookupHdr (peekHidpHdr answers pending) with
  | some process =>
    obtain rfl := lookupHdr_some hlookup
    refine ⟨?_, ?_⟩
    · simp only [Attempt.result_done, pktDrop]
      split <;> rfl
    · simp only [Attempt.attempts_done, Option.isNone_some, Bool.false_eq_true, false_and, if_false]
  | none =>
    simp only [Option.isNone_none, true_and]
    by_cases hfails : answers.recvFails = true
    · rw [if_pos (herror.mpr hfails), if_neg (by simp [hfails])]
      exact ⟨rfl, rfl⟩
    · rw [if_neg (fun h => hfails (herror.mp h)), if_pos (by simpa using hfails)]
      refine ⟨?_, ?_⟩
      · rw [Attempt.result_bind]
        split <;> rfl
      · rw [Attempt.attempts_bind, sendEinval_run]
        split <;> rfl

/-- What a call should send: a handshake when it receives an unsupported packet. -/
theorem receivedBy_handshakes (sk : Sock) (answers : Answers) (pending : List HidpPkt) :
    ((receivedBy answers pending).filter fun pkt => unsupported pkt.hdr).map (fun _ => handshake sk) =
      if (∃ pkt ∈ pending.head?, unsupported pkt.hdr = true) ∧ answers.recvFails = false
      then [handshake sk] else [] := by
  unfold receivedBy
  cases answers.recvFails with
  | true => simp
  | false =>
    cases pending with
    | nil => simp
    | cons pkt pending =>
      cases hpkt : unsupported pkt.hdr with
      | true => simp [hpkt]
      | false => simp [hpkt]

theorem one_or_none_iff {α : Type} (a : α) (P Q : Prop) [Decidable P] [Decidable Q] :
    (if P then [a] else []) = (if Q then [a] else []) ↔ (P ↔ Q) := by
  by_cases hP : P <;> by_cases hQ : Q <;> simp [hP, hQ]

/-- The header is that of the packet, or what was in the variable. -/
theorem peekHidpHdr_eq (answers : Answers) (pending : List HidpPkt) :
    (∃ pkt ∈ pending.head?, answers.peekFails = false ∧ peekHidpHdr answers pending = pkt.hdr) ∨
      (¬ (answers.peekFails = false ∧ pending ≠ []) ∧
        peekHidpHdr answers pending = answers.garbage) := by
  unfold peekHidpHdr recv
  cases answers.peekFails with
  | true => exact Or.inr ⟨fun h => (Bool.false_ne_true h.1.symm).elim, rfl⟩
  | false =>
    cases pending with
    | nil => exact Or.inr ⟨fun h => h.2 rfl, rfl⟩
    | cons pkt pending => exact Or.inl ⟨pkt, rfl, rfl, rfl⟩

/-- A call answers as it should exactly when it looked at the right header. -/
theorem answered_iff (sk : Sock) (answers : Answers) (pending : List HidpPkt) :
    Answered sk answers pending ↔ HeaderRight answers pending := by
  have hrun := processSk_run sk answers pending
  have hsame : Answered sk answers pending ↔
      ((unsupported (peekHidpHdr answers pending) = true ∧ answers.recvFails = false) ↔
        ((∃ pkt ∈ pending.head?, unsupported pkt.hdr = true) ∧ answers.recvFails = false)) := by
    simp only [Answered, hrun, receivedBy_handshakes, one_or_none_iff, true_and, forall_const]
  rw [hsame, HeaderRight]
  cases answers.recvFails with
  | true => simp
  | false =>
    simp only [and_true, Bool.false_eq_true, false_or]
    rcases peekHidpHdr_eq answers pending with ⟨pkt, hpkt, hpeek, hhdr⟩ | ⟨hunseen, hhdr⟩
    · have hpending : pending ≠ [] := by
        rintro rfl
        cases hpkt
      rw [hhdr]
      refine iff_of_true ?_ (Or.inl ⟨hpeek, hpending⟩)
      rw [Option.mem_def] at hpkt
      simp [hpkt]
    · rw [hhdr]
      exact ⟨Or.inr, fun h => h.resolve_left hunseen⟩

/-! ## Runs -/

/-- A packet arrives on a socket, or the daemon processes the socket. -/
inductive SkEvent where
  | arrive (sk : Sock) (pkt : HidpPkt)
  | process (sk : Sock) (answers : Answers)
  deriving DecidableEq, Repr

/-- The packets waiting on each socket. -/
abbrev Queues := Sock → List HidpPkt

def SkEvent.run (queues : Queues) : SkEvent → Attempt Output Queues
  | .arrive sk pkt => .done (Function.update queues sk (queues sk ++ [pkt]))
  | .process sk answers => do
    let (_, pending) ← processSk sk answers (queues sk)
    return Function.update queues sk pending

/-- One event after another. -/
def runSk (queues : Queues) : List SkEvent → Attempt Output Queues
  | [] => .done queues
  | event :: events => do
    let queues ← event.run queues
    runSk queues events

/-- What an event leaves on the sockets. -/
def SkEvent.after (queues : Queues) : SkEvent → Queues
  | .arrive sk pkt => Function.update queues sk (queues sk ++ [pkt])
  | .process sk answers =>
    Function.update queues sk ((queues sk).drop (receivedBy answers (queues sk)).length)

/-- The packets that an event receives on a socket. -/
def SkEvent.received (sk : Sock) (queues : Queues) : SkEvent → List HidpPkt
  | .arrive _ _ => []
  | .process sk' answers => if sk' = sk then receivedBy answers (queues sk') else []

/-- The packets that a run receives on a socket, in order. -/
def receivedOn (sk : Sock) : Queues → List SkEvent → List HidpPkt
  | _, [] => []
  | queues, event :: events => event.received sk queues ++ receivedOn sk (event.after queues) events

/-- The packets that arrive on a socket. -/
def arrivedOn (sk : Sock) (events : List SkEvent) : List HidpPkt :=
  events.filterMap fun event => match event with
    | .arrive sk' pkt => if sk' = sk then some pkt else none
    | .process _ _ => none

/-- The step lemma: what an event leaves does not depend on the sends. -/
theorem SkEvent.run_result (event : SkEvent) (queues : Queues) (o : Outcomes) :
    (event.run queues).result o = event.after queues := by
  cases event with
  | arrive sk pkt => rfl
  | process sk answers =>
    rw [SkEvent.run, Attempt.result_bind, SkEvent.after]
    exact congrArg _ (processSk_run sk answers (queues sk) o).1

theorem runSk_result (queues : Queues) (events : List SkEvent) (o : Outcomes) :
    (runSk queues events).result o = events.foldl SkEvent.after queues := by
  induction events generalizing queues o with
  | nil => rfl
  | cons event events ih => rw [runSk, Attempt.result_bind, ih, event.run_result, List.foldl_cons]

/-- What arrives on a socket is received in order, and the rest is waiting. -/
theorem arrivedOn_eq (sk : Sock) (queues : Queues) (events : List SkEvent) :
    queues sk ++ arrivedOn sk events =
      receivedOn sk queues events ++ events.foldl SkEvent.after queues sk := by
  induction events generalizing queues with
  | nil => exact List.append_nil _
  | cons event events ih =>
    rw [receivedOn, List.foldl_cons, List.append_assoc, ← ih]
    cases event with
    | arrive sk' pkt =>
      by_cases hsk : sk' = sk
      · subst hsk
        simp [arrivedOn, SkEvent.after, SkEvent.received]
      · simp [arrivedOn, SkEvent.after, SkEvent.received, hsk, Ne.symm hsk]
    | process sk' answers =>
      by_cases hsk : sk' = sk
      · subst hsk
        have htake : receivedBy answers (queues sk') ++
            (queues sk').drop (receivedBy answers (queues sk')).length = queues sk' := by
          unfold receivedBy
          cases answers.recvFails with
          | true => rfl
          | false => cases queues sk' <;> rfl
        simp only [if_true, SkEvent.after, SkEvent.received, Function.update_self]
        rw [← List.append_assoc, htake]
        rfl
      · simp [arrivedOn, SkEvent.after, SkEvent.received, hsk, Ne.symm hsk]

/-- The handshakes of calls that answer what they received. -/
theorem count_handshakes (sk : Sock) (queues : Queues) (events : List SkEvent) (o : Outcomes)
    (h : ∀ before sk answers since, events = before ++ .process sk answers :: since →
      Answered sk answers (before.foldl SkEvent.after queues sk)) :
    ((runSk queues events).attempts o).count (handshake sk) =
      (receivedOn sk queues events).countP fun pkt => unsupported pkt.hdr := by
  induction events generalizing queues o with
  | nil => rfl
  | cons event events ih =>
    have hrest := ih (event.after queues) (o.after ((event.run queues).attempts o).length)
      fun before sk' answers since heq => h (event :: before) sk' answers since (by rw [heq]; rfl)
    rw [runSk, Attempt.attempts_bind, List.count_append, event.run_result, hrest, receivedOn,
      List.countP_append, Nat.add_right_cancel_iff]
    cases event with
    | arrive sk' pkt => rfl
    | process sk' answers =>
      have hanswered := (h [] sk' answers events rfl o).2
      rw [List.foldl_nil] at hanswered
      have hattempts : (SkEvent.run queues (.process sk' answers)).attempts o =
          (processSk sk' answers (queues sk')).attempts o := by
        rw [SkEvent.run, Attempt.attempts_bind]
        exact List.append_nil _
      rw [hattempts, hanswered, SkEvent.received, List.map_const', List.count_replicate]
      by_cases hsk : sk' = sk
      · subst hsk
        simp [List.countP_eq_length_filter]
      · have hother : ¬ (handshake sk' == handshake sk) = true := by
          simpa [handshake] using hsk
        rw [if_neg hother, if_neg hsk]
        rfl

/-- Over every interleaving of arrivals and calls: every call answers just the packet
that it received exactly when every call looked at the right header, and then the
handshakes on a socket are as many as the unsupported packets received on it. -/
theorem handshakes_iff (queues : Queues) (events : List SkEvent) (o : Outcomes) :
    ((∀ before sk answers since, events = before ++ .process sk answers :: since →
        Answered sk answers ((runSk queues before).result o sk)) ↔
      ∀ before sk answers since, events = before ++ .process sk answers :: since →
        HeaderRight answers ((runSk queues before).result o sk)) ∧
    ((∀ before sk answers since, events = before ++ .process sk answers :: since →
        HeaderRight answers ((runSk queues before).result o sk)) →
      ∀ sk, ((runSk queues events).attempts o).count (handshake sk) =
        (receivedOn sk queues events).countP fun pkt => unsupported pkt.hdr) := by
  simp only [runSk_result, answered_iff, true_and]
  intro h sk
  apply count_handshakes
  intro before sk' answers since heq
  exact (answered_iff sk' answers _).mpr (h before sk' answers since heq)

/-- One unsupported packet on the control socket, and one call. -/
theorem handshakes_one :
    ((runSk (fun _ => []) [.arrive .cnt ⟨0x20, [1]⟩, .process .cnt ⟨false, false, 0⟩]).attempts
      .allSucceed).count (handshake .cnt) = 1 := by
  rw [(handshakes_iff (fun _ => []) _ .allSucceed).2]
  · decide
  · intro before sk answers since heq
    rcases before with _ | ⟨event, _ | ⟨event', before⟩⟩
    · simp at heq
    · simp only [List.cons_append, List.nil_append, List.cons.injEq, SkEvent.process.injEq] at heq
      obtain ⟨rfl, ⟨rfl, rfl⟩, rfl⟩ := heq
      exact Or.inl ⟨rfl, by simp [runSk_result, SkEvent.after]⟩
    · simp at heq

/-- The control socket is closed by the host, and the variable holds an unsupported
header: a handshake is sent for no packet. -/
theorem handshake_for_nothing :
    ¬ ∀ (sk : Sock) (answers : Answers) (pending : List HidpPkt), Answered sk answers pending := by
  intro h
  have hsent := (h .cnt ⟨false, false, 0x20⟩ [] .allSucceed).2
  revert hsent
  decide

end Android2Mouse.Guarantees.Handshakes
