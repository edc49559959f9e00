import SmbClient.ReadWrite.Progress

/-! What the server has acknowledged when `smb2_smb_write` returns. -/

namespace SmbClient.ReadWrite
open SmbClient.Lib SmbClient.Mbuf

def Ack.Carries (call : Call) (ack : Ack) (q i : Nat) : Prop :=
  ack.offset + i = q ∧ ack.data[i]? = some (call.source (call.place q))

/-- The byte for offset `q` was sent there, and is one of those that the server says it has written. -/
def Acked (call : Call) (acks : List Ack) (q : Nat) : Prop := ∃ ack ∈ acks, ∃ i < ack.count, ack.Carries call q i

/-- The server never acknowledges more bytes than it was sent. -/
def NeverOveracks (call : Call) (s : State) (event : Event) : Prop :=
  match s.phase, event with
  | .one _ len32 _ true, .reply (.ok mdp) =>
    ∀ n, (smb2SmbParseWriteOne ⟨mdp, ()⟩).1 = .ok n → n ≤ (call.build s.uio len32).data.length
  | .wait w j _, .answer (.ok mdp) _ _ =>
    ∀ rq n, w.slots.lookup j = some rq → (smb2SmbParseWriteOne ⟨mdp, ()⟩).1 = .ok n → n ≤ rq.data.length
  | _, _ => True

def StartsUncounted (call : Call) (s : State) (event : Event) : Prop :=
  match s.phase, event with
  | .head, .start limits => UncountedStart call s limits
  | _, _ => True

section
variable {call : Call} {s : State}

variable {acks : List Ack} {uio : Uio} {w : Window}

theorem Acked.mono {more : List Ack} {q : Nat} (grows : ∀ ack ∈ acks, ack ∈ more) (acked : Acked call acks q) :
    Acked call more q := by
  obtain ⟨ack, member, rest⟩ := acked
  exact ⟨ack, grows ack member, rest⟩

def Carried (call : Call) (answered : List Ack) (q : Nat) : Prop :=
  ∃ ack ∈ answered, ∃ i < ack.data.length, ack.Carries call q i

structure Underway (call : Call) (acks : List Ack) (uio : Uio) (w : Window) (answered : List Ack) (sent : Nat) :
    Prop where
  known : ∀ ack ∈ answered, ack ∈ acks
  filling : Filling call (Carried call answered) uio w.slots w.master sent
  counted : w.rresid ≤ sent
  full : w.rresid = sent → ∀ ack ∈ answered, ack.data.length ≤ ack.count

/-- If all that was to be written has been counted, it has been acknowledged. -/
def Settled (call : Call) (acks : List Ack) (uio : Uio) (rresid : Nat) : Prop :=
  rresid ≤ uio.resid ∧
    (rresid = uio.resid → ∀ q, uio.offset ≤ q → q < uio.offset + uio.resid → Acked call acks q)

theorem Underway.settled {answered : List Ack} {sent : Nat}
    (underway : Underway call acks uio w answered sent) : Settled call acks uio w.rresid := by
  have inside := underway.filling.count_le
  have given := underway.filling.out.count_le
  have whole := underway.filling.whole
  refine ⟨underway.counted.trans inside, fun all q low high => ?_⟩
  have same : w.rresid = sent := Nat.le_antisymm underway.counted (inside.trans_eq all.symm)
  obtain ⟨ack, member, i, bound, carries⟩ := underway.filling.out.of_complete (by omega) q low (by omega)
  exact ⟨ack, underway.known ack member, i, bound.trans_le (underway.full same ack member), carries⟩

/-! ## One write -/

section
variable (write : call.doRead = false) {u : Uio} (aligned : call.Aligned u)
include write

theorem build_data (u : Uio) (len : Nat) : (call.build u len).data = bytesAt call.source u.pos len := by
  rw [Call.build, write]
  rfl

theorem build_write_auio (u : Uio) (len : Nat) : (call.build u len).auio = smbfsUioUpdate u len := by
  rw [Call.build, write]
  rfl

theorem not_shortRead (n len : Nat) : ¬shortRead call n len := by
  simp [shortRead, write]

include aligned in
theorem carries_build {len n q : Nat} (low : u.offset ≤ q) (high : q < u.offset + len) :
    ((call.build u len).acked n).Carries call q (q - u.offset) := by
  have bound := aligned.low
  have pos := aligned.pos
  have place : u.pos + (q - u.offset) = call.place q := by
    unfold Call.place at pos ⊢
    omega
  refine ⟨?_, ?_⟩
  · show (call.build u len).offset + (q - u.offset) = q
    rw [build_offset]
    exact Nat.add_sub_cancel' low
  · show (call.build u len).data[q - u.offset]? = _
    rw [build_data write, getElem?_bytesAt _ (by omega), place]

theorem parseOne_write (s : State) (rq : RwRq) (mdp : MdChain) :
    (∃ e, parseOne call s rq mdp = (.error e, rq.auio, s)) ∨
      ∃ n, (smb2SmbParseWriteOne ⟨mdp, ()⟩).1 = .ok n ∧
        parseOne call s rq mdp = (.ok n, rq.auio, { s with acks := s.acks ++ [rq.acked n] }) := by
  have unread : ¬call.doRead = true := by simp [write]
  unfold parseOne
  rw [if_neg unread]
  cases (smb2SmbParseWriteOne ⟨mdp, ()⟩).1 with
  | error e => exact .inl ⟨e, rfl⟩
  | ok n => exact .inr ⟨n, rfl, rfl⟩

end

/-! ## One step -/

structure Running (call : Call) (acks : List Ack) (uio : Uio) (totalSize : Int) : Prop where
  progress : Progress call (Acked call acks) uio
  total : totalSize = uio.resid

theorem Running.complete {totalSize : Int} (running : Running call acks uio totalSize)
    (finished : totalSize ≤ 0) (q : Nat) (low : call.auio.offset ≤ q) (high : q < call.auio.offset + call.auio.resid) :
    Acked call acks q := by
  have total := running.total
  have whole := running.progress.whole
  exact running.progress.front q low (by omega)

structure Window.Sending (w : Window) (call : Call) (acks : List Ack) (uio : Uio) : Prop where
  saved : w.savedRresid = 0
  len : w.len = uio.resid
  underway : ∃ answered sent, Underway call acks uio w answered sent

def WriteInv (call : Call) (s : State) : Prop :=
  match s.phase with
  | .head => Running call s.acks s.uio s.totalSize
  | .one len len32 short sent => Running call s.acks s.uio s.totalSize ∧ short = false ∧ len32 ≤ s.uio.resid ∧
      (sent = true → len = len32)
  | .fill w | .send w | .wait w _ _ => Running call s.acks s.uio s.totalSize ∧ w.Sending call s.acks s.uio
  | .clean w _ reconnect => Running call s.acks s.uio s.totalSize ∧ w.savedRresid = 0 ∧ w.len = s.uio.resid ∧
      (reconnect = false → Settled call s.acks s.uio w.rresid)
  | .returned none => ∀ q, call.auio.offset ≤ q → q < call.auio.offset + call.auio.resid → Acked call s.acks q
  | .returned (some _) => s.uio.resid = call.auio.resid ∧ s.uio.offset = call.auio.offset

theorem Window.Sending.start (aligned : call.Aligned uio)
    (saved : w.savedRresid = 0) (zero : w.rresid = 0) (len : w.len = uio.resid) (master : w.master = uio)
    (slots : w.slots = []) : w.Sending call acks uio := by
  refine ⟨saved, len, [], 0, List.forall_mem_nil _, ?_, zero.le, fun _ => List.forall_mem_nil _⟩
  rw [master, slots]
  exact .start aligned

theorem Window.Sending.cleaned (sending : w.Sending call s.acks s.uio) (running : Running call s.acks s.uio s.totalSize)
    (slots : Slots RwRq) (master : Uio) (error : Option Errno) (reconnect : Bool) :
    WriteInv call { s with phase := .clean { w with slots, master } error reconnect } := by
  obtain ⟨answered, sent, underway⟩ := sending.underway
  exact ⟨running, sending.saved, sending.len, fun _ => underway.settled⟩

theorem writeInv_begin (running : Running call s.acks s.uio s.totalSize) {limits : Limits}
    (uncounted : UncountedStart call s limits) : WriteInv call { s with phase := begin call s limits } := by
  have len : s.totalSize.toNat = s.uio.resid := by
    rw [running.total]
    rfl
  rcases begin_cases uncounted with single | window
  · rw [single]
    refine ⟨running, rfl, ?_, fun sent => by cases sent⟩
    exact (Nat.min_le_right _ _).trans_eq len
  · rw [window]
    exact ⟨running, .start running.progress.aligned rfl rfl len rfl rfl⟩

section
variable (write : call.doRead = false)
include write

theorem finish_write (error : Option Errno) (len : Nat) :
    s.finish call error len = s.finishWrite call error len := by
  rw [State.finish, if_neg (by simp [write])]

theorem writeInv_error (e : Errno) (len : Nat) : WriteInv call (s.finish call (some e) len) := by
  rw [finish_write write]
  exact ⟨rfl, rfl⟩

variable {len : Nat} {w : Window}

theorem writeInv_finish (counted : s.resid ≤ len)
    (whole : s.resid = len → Running call s.acks s.uio (s.totalSize - len)) :
    WriteInv call (s.finish call none len) := by
  rw [finish_write write]
  unfold State.finishWrite
  dsimp only
  split
  · exact ⟨rfl, rfl⟩
  · rename_i enough
    have all : s.resid = len := Nat.le_antisymm counted (Nat.le_of_not_lt enough)
    rw [all]
    exact whole all

theorem writeInv_allocOne (running : Running call s.acks s.uio s.totalSize) {len32 : Nat} (fits : len32 ≤ s.uio.resid)
    (allotment : Except Errno Allotment) : WriteInv call (allocOne call s len len32 false allotment) := by
  cases allotment with
  | error e => exact writeInv_error write e len
  | ok allotment =>
    refine ⟨running, rfl, ?_, fun _ => rfl⟩
    exact (creditedLen_le _ _ _).trans fits

theorem writeInv_replyOne (running : Running call s.acks s.uio s.totalSize) (fits : len ≤ s.uio.resid) {reply : Reply}
    (honest : ∀ mdp n, reply = .ok mdp → (smb2SmbParseWriteOne ⟨mdp, ()⟩).1 = .ok n →
      n ≤ (call.build s.uio len).data.length) :
    WriteInv call (replyOne call s len len false reply) := by
  match reply with
  | .error (e, true) => exact ⟨running, rfl, fits, fun sent => by cases sent⟩
  | .error (e, false) => exact writeInv_error write e len
  | .ok mdp =>
    unfold replyOne
    dsimp only
    rcases parseOne_write write s (call.build s.uio len) mdp with ⟨e, parsed⟩ | ⟨n, acked, parsed⟩
    · rw [parsed]
      exact writeInv_error write e len
    · have part := honest mdp n rfl acked
      rw [build_data write, length_bytesAt] at part
      rw [parsed]
      dsimp only
      rw [if_neg (not_shortRead write n len), build_write_auio write, if_neg (by simp [write])]
      refine writeInv_finish write part fun all => ?_
      replace all : n = len := all
      subst all
      refine ⟨?_, ?_⟩
      · refine (running.progress.mono fun q => Acked.mono (List.subset_append_left _ _)).update fun q low high => ?_
        rw [Nat.min_eq_left fits] at high
        refine ⟨_, List.mem_append_right _ List.mem_cons_self, q - s.uio.offset, ?_,
          carries_build write running.progress.aligned low high⟩
        exact Nat.sub_lt_left_of_lt_add low high
      · show s.totalSize - n = ((s.uio.resid - n : Nat) : Int)
        rw [running.total]
        omega

theorem underway_answer {acks answered : List Ack} {uio u master : Uio} {slots : Slots RwRq} {sent n : Nat}
    (underway : Underway call acks uio w answered sent) (part : n ≤ len)
    (filling : Filling call (Carried call (answered ++ [(call.build u len).acked n])) uio slots master (sent + len)) :
    ∃ answered sent, Underway call (acks ++ [(call.build u len).acked n]) uio
      { w with rresid := w.rresid + n, slots, master } answered sent := by
  have counted := underway.counted
  refine ⟨_, _, ?_, filling, ?_, ?_⟩
  · exact fun ack member => List.mem_append.mpr ((List.mem_append.mp member).imp_left (underway.known ack))
  · exact Nat.add_le_add counted part
  · intro same ack member
    replace same : w.rresid + n = sent + len := same
    rcases List.mem_append.mp member with old | new
    · exact underway.full (by omega) ack old
    · cases List.mem_singleton.mp new
      show (call.build u len).data.length ≤ n
      rw [build_data write, length_bytesAt]
      omega

theorem writeInv_refill (running : Running call s.acks s.uio s.totalSize) {auio u : Uio} {j n : Nat}
    {done : Bool} {refill : Except Errno Allotment} {enqueued : Option Errno} {phase : Phase}
    (sending : w.Sending call s.acks s.uio) (found : w.slots.lookup j = some (call.build u len))
    (aligned : call.Aligned u) (part : n ≤ len)
    (refilled : Refill call { w with rresid := w.rresid + n } j done (call.build u len) n auio refill enqueued phase) :
    WriteInv call { s with acks := s.acks ++ [(call.build u len).acked n], phase } := by
  obtain ⟨answered, sent, underway⟩ := sending.underway
  let ack := (call.build u len).acked n
  have running' : Running call (s.acks ++ [ack]) s.uio s.totalSize :=
    ⟨running.progress.mono fun q => Acked.mono (List.subset_append_left _ _), running.total⟩
  have keeps : ∀ q, Carried call answered q → Carried call (answered ++ [ack]) q := by
    rintro q ⟨old, member, carried⟩
    exact ⟨old, List.mem_append_left _ member, carried⟩
  have finished : ∀ q ∈ (call.build u len).extent.toSet, Carried call (answered ++ [ack]) q := by
    intro q inside
    rw [build_extent] at inside
    refine ⟨ack, List.mem_append_right _ List.mem_cons_self, q - u.offset, ?_,
      carries_build write aligned inside.1 inside.2⟩
    show q - u.offset < (call.build u len).data.length
    rw [build_data write, length_bytesAt]
    exact Nat.sub_lt_left_of_lt_add inside.1 inside.2
  have idle := underway.filling.free found keeps finished
  rw [build_ioLen] at idle
  have counted := underway_answer write underway part idle
  cases refilled with
  | unbuilt master e =>
    let w' : Window := { w with rresid := w.rresid + n, slots := w.slots.free j }
    have sending' : w'.Sending call (s.acks ++ [ack]) s.uio := ⟨sending.saved, sending.len, counted⟩
    exact sending'.cleaned (s := { s with acks := s.acks ++ [ack] }) running' _ master _ _
  | again _ _ _ wrong => exact absurd wrong (not_shortRead write _ _)
  | next allotment next moved _ built cut =>
    obtain ⟨len', fits, cut'⟩ := smb2SmbReadWriteFill_eq call w.master w.limits.quantumSize allotment
    cases cut'.symm.trans cut
    have refill := underway.filling.refill found keeps finished (fits.trans (Nat.min_le_right _ _))
    rw [build_ioLen] at refill
    exact ⟨running', sending.saved, sending.len, underway_answer write underway part refill⟩
  | idle => exact ⟨running', sending.saved, sending.len, counted⟩

theorem writeInv_answerSlot (running : Running call s.acks s.uio s.totalSize) {j : Nat} {done : Bool}
    {rq : RwRq} {reply : Reply} {refill : Except Errno Allotment} {enqueued : Option Errno} {next : State}
    (sending : w.Sending call s.acks s.uio) (found : w.slots.lookup j = some rq)
    (honest : ∀ mdp n, reply = .ok mdp → (smb2SmbParseWriteOne ⟨mdp, ()⟩).1 = .ok n → n ≤ rq.data.length)
    (answered : answerSlot call s w j done rq reply refill enqueued = some next) : WriteInv call next := by
  match reply with
  | .error (e, reconnected) =>
    cases answered
    exact sending.cleaned running _ _ _ _
  | .ok mdp =>
    unfold answerSlot at answered
    dsimp only at answered
    rcases parseOne_write write s rq mdp with ⟨e, parsed⟩ | ⟨n, acked, parsed⟩
    · rw [parsed] at answered
      cases answered
      exact sending.cleaned running _ _ _ _
    · obtain ⟨answered', sent, underway⟩ := sending.underway
      obtain ⟨u, len, aligned, fits, rfl⟩ := underway.filling.sound.lookup found
      have part := honest mdp n rfl acked
      rw [build_data write, length_bytesAt] at part
      rw [parsed] at answered
      obtain ⟨phase, refilled, rfl⟩ := Option.map_eq_some_iff.mp answered
      exact writeInv_refill write running sending found aligned part (refillSlot_refill refilled)

end

theorem writeInv_filled (running : Running call s.acks s.uio s.totalSize)
    (sending : w.Sending call s.acks s.uio) : WriteInv call { s with phase := filled w } := by
  unfold filled
  split
  · exact ⟨running, sending⟩
  · exact ⟨running, sending⟩

theorem writeInv_fillSlot (running : Running call s.acks s.uio s.totalSize)
    (sending : w.Sending call s.acks s.uio) (allotment : Except Errno Allotment) :
    WriteInv call { s with phase := fillSlot call w allotment } := by
  cases allotment with
  | error e => exact sending.cleaned running _ _ _ _
  | ok allotment =>
    obtain ⟨answered, sent, underway⟩ := sending.underway
    obtain ⟨len, fits, cut⟩ := smb2SmbReadWriteFill_eq call w.master w.limits.quantumSize allotment
    have filling := underway.filling.alloc (fits.trans (Nat.min_le_right _ _))
    let w' : Window :=
      { w with master := smbfsUioUpdate w.master len, slots := w.slots.alloc (call.build w.master len) }
    have sending' : w'.Sending call s.acks s.uio :=
      ⟨sending.saved, sending.len, answered, sent, underway.known, filling, underway.counted, underway.full⟩
    unfold fillSlot
    dsimp only
    rw [cut]
    split
    · exact writeInv_filled running sending'
    · exact ⟨running, sending'⟩

theorem writeInv_finishWindow (write : call.doRead = false) (running : Running call s.acks s.uio s.totalSize)
    {reconnect : Bool} (saved : w.savedRresid = 0) (len : w.len = s.uio.resid)
    (settled : reconnect = false → Settled call s.acks s.uio w.rresid) (error : Option Errno)
    (outcomes : List (Option Errno)) : WriteInv call (finishWindow call s w error reconnect outcomes) := by
  unfold finishWindow
  dsimp only
  split
  · exact ⟨running, .start running.progress.aligned saved saved len rfl rfl⟩
  · rename_i given
    obtain ⟨counted, acked⟩ := settled (Bool.eq_false_iff.mpr given)
    cases result : outcomes.getLast?.getD error with
    | some e => split <;> exact writeInv_error write e w.len
    | none =>
      rw [if_pos (.inl rfl)]
      refine writeInv_finish write (counted.trans_eq len.symm) fun all => ?_
      replace all : w.rresid = s.uio.resid := all.trans len
      refine ⟨running.progress.update fun q low high => acked all q low (high.trans_le ?_), ?_⟩
      · exact Nat.add_le_add_left (Nat.min_le_right _ _) _
      · show s.totalSize - w.len = ((s.uio.resid - w.rresid : Nat) : Int)
        rw [running.total, len, all]
        omega

theorem writeInv_step (write : call.doRead = false) {event : Event} {next : State} (inv : WriteInv call s)
    (meets : NeverOveracks call s event ∧ StartsUncounted call s event) (taken : step call s event = some next) :
    WriteInv call next := by
  obtain ⟨honest, uncounted⟩ := meets
  unfold WriteInv at inv
  unfold NeverOveracks at honest
  unfold StartsUncounted at uncounted
  unfold step at taken
  split at taken
  · rename_i phase
    rw [phase] at inv
    split at taken <;> cases taken
    rename_i finished
    exact inv.complete finished
  · rename_i phase
    rw [phase] at inv uncounted
    split at taken <;> cases taken
    exact writeInv_begin inv uncounted
  · rename_i phase
    rw [phase] at inv
    obtain ⟨running, rfl, fits, -⟩ := inv
    cases taken
    exact writeInv_allocOne write running fits _
  · rename_i reply phase
    rw [phase] at inv honest
    obtain ⟨running, rfl, fits, same⟩ := inv
    cases same rfl
    cases taken
    refine writeInv_replyOne write running fits fun mdp n ok acked => ?_
    subst ok
    exact honest n acked
  · rename_i phase
    rw [phase] at inv
    split at taken <;> cases taken
    exact writeInv_filled inv.1 inv.2
  · rename_i phase
    rw [phase] at inv
    split at taken <;> cases taken
    exact writeInv_fillSlot inv.1 inv.2 _
  · rename_i phase
    rw [phase] at inv
    cases taken
    exact inv
  · rename_i phase
    rw [phase] at inv
    split at taken <;> cases taken
    exact inv.2.cleaned inv.1 _ _ _ _
  · rename_i phase
    rw [phase] at inv
    split_ifs at taken <;> cases taken
    · exact inv
    · exact inv.2.cleaned inv.1 _ _ _ _
    · exact inv
  · rename_i reply refill enqueued phase
    rw [phase] at inv honest
    obtain ⟨rq, found, answered⟩ := Option.bind_eq_some_iff.mp taken
    refine writeInv_answerSlot write inv.1 inv.2 found (fun mdp n ok acked => ?_) answered
    subst ok
    exact honest rq n found acked
  · rename_i phase
    rw [phase] at inv
    split at taken <;> cases taken
    obtain ⟨running, saved, len, settled⟩ := inv
    exact writeInv_finishWindow write running saved len settled _ _
  · cases taken

end

/-! ## The whole call -/

/-- A write that succeeds has been acknowledged byte by byte, and one that fails leaves the caller's uio to be
used again. -/
theorem smb2SmbWrite_exact (call : Call) (write : call.doRead = false) (events : List Event) (last : State)
    (honest : AllSteps (step call) (NeverOveracks call) call.initial events)
    (uncounted : AllSteps (step call) (StartsUncounted call) call.initial events)
    (reached : run (step call) call.initial events = some last) :
    (last.phase = .returned none → ∀ k < call.auio.resid, Acked call last.acks (call.auio.offset + k)) ∧
      ∀ e, last.phase = .returned (some e) →
        last.uio.resid = call.auio.resid ∧ last.uio.offset = call.auio.offset := by
  have start : WriteInv call call.initial := ⟨.start call _, rfl⟩
  have inv : WriteInv call last :=
    run_invariant (step call) (fun _ _ _ inv meets taken => writeInv_step write inv meets taken) start
      (honest.and uncounted) reached
  unfold WriteInv at inv
  refine ⟨fun returned k inside => ?_, fun e returned => ?_⟩
  · rw [returned] at inv
    exact inv _ (Nat.le_add_right _ _) (Nat.add_lt_add_left inside _)
  · rw [returned] at inv
    exact inv

/-! ## A write of 192 KiB -/

def ackReply (n : Nat) : Reply :=
  .ok (mdInitm [toLe 2 17 ++ (toLe 2 0 ++ (toLe 4 n ++ (toLe 4 0 ++ (toLe 4 0 ++ []))))])

theorem parse_ackReply {n : Nat} (small : n < 2 ^ 32) {mdp : MdChain} (reply : ackReply n = .ok mdp) :
    (smb2SmbParseWriteOne ⟨mdp, ()⟩).1 = .ok n := by
  cases reply
  let s : Reading Unit := ⟨mdInitm [toLe 2 17 ++ (toLe 2 0 ++ (toLe 4 n ++ (toLe 4 0 ++ (toLe 4 0 ++ []))))], ()⟩
  have rest : s.mdp.rest = toLe 2 17 ++ (toLe 2 0 ++ (toLe 4 n ++ (toLe 4 0 ++ (toLe 4 0 ++ [])))) := by simp [s]
  obtain ⟨a, toA, rest, -⟩ := Reader.getUint_toLe rest (by decide) _
  obtain ⟨b, toB, rest, -⟩ := Reader.getUint_toLe rest (by decide) _
  obtain ⟨c, toC, rest, -⟩ := Reader.getUint_toLe rest small _
  obtain ⟨d, toD, rest, -⟩ := Reader.getUint_toLe rest (by decide) _
  obtain ⟨e, toE, -, -⟩ := Reader.getUint_toLe rest (by decide) _
  show (smb2SmbParseWriteOne s).1 = .ok n
  unfold smb2SmbParseWriteOne
  rw [toA, Reader.require_bind rfl, toB, toC, toD, toE]
  rfl

def threeBlocks : Call where
  doRead := false
  auio := ⟨0, 0, 3 * 65536⟩

def fewCredits : Except Errno Allotment := .ok ⟨1048576, { creditsGranted := 8 }⟩

def manyCredits : Except Errno Allotment := .ok ⟨65536, { creditsGranted := 512 }⟩

def threeAcked : List Event :=
  [.start ⟨65536, 65536, 16, true⟩, .alloc manyCredits, .alloc manyCredits, .alloc manyCredits, .send none,
   .answer (ackReply 65536) manyCredits none, .answer (ackReply 65536) manyCredits none,
   .answer (ackReply 65536) manyCredits none, .next, .clean [], .next]

theorem smb2SmbWrite_exact_threeBlocks :
    ∃ last, run (step threeBlocks) threeBlocks.initial threeAcked = some last ∧ last.phase = .returned none ∧
      ∀ k < 3 * 65536, Acked threeBlocks last.acks (0 + k) := by
  have final : (run (step threeBlocks) threeBlocks.initial threeAcked).map State.phase = some (.returned none) := by
    decide +kernel
  obtain ⟨last, reached, returned⟩ := Option.map_eq_some_iff.mp final
  refine ⟨last, reached, returned, (smb2SmbWrite_exact threeBlocks rfl threeAcked last ?_ ?_ reached).1 returned⟩
  · iterate 5 refine .cons trivial rfl ?_
    refine .cons (fun rq n found acked => ?_) rfl <| .cons (fun rq n found acked => ?_) rfl <|
      .cons (fun rq n found acked => ?_) rfl <| .cons trivial rfl <| .cons trivial rfl <| .cons trivial rfl trivial
    all_goals
      cases (parse_ackReply (n := 65536) (by decide) rfl).symm.trans acked
      cases found
      rw [build_data rfl, length_bytesAt]
      decide
  · refine .cons (.inr (.inr rfl)) rfl ?_
    iterate 10 refine .cons trivial rfl ?_
    trivial

def lastBlockShort : List Event :=
  [.start ⟨1048576, 262144, 16, true⟩, .alloc fewCredits, .reply (ackReply 65536),
   .start ⟨65536, 65536, 16, true⟩, .alloc manyCredits, .alloc manyCredits, .send none,
   .answer (ackReply 65536) manyCredits none, .answer (ackReply 1) manyCredits none, .next, .clean [], .next]

theorem short_write_unnoticed :
    AllSteps (step threeBlocks) (NeverOveracks threeBlocks) threeBlocks.initial lastBlockShort ∧
      ∃ last, run (step threeBlocks) threeBlocks.initial lastBlockShort = some last ∧ last.phase = .returned none ∧
        ¬Acked threeBlocks last.acks (2 * 65536 + 1) := by
  have final : (run (step threeBlocks) threeBlocks.initial lastBlockShort).map
      (fun last => (last.phase, last.acks.map fun ack => (ack.offset, ack.count))) =
      some (.returned none, [(0, 65536), (65536, 65536), (131072, 1)]) := by decide +kernel
  refine ⟨?_, ?_⟩
  · refine .cons trivial rfl <| .cons trivial rfl <| .cons (fun n acked => ?_) rfl <| .cons trivial rfl <|
      .cons trivial rfl <| .cons trivial rfl <| .cons trivial rfl <| .cons (fun rq n found acked => ?_) rfl <|
      .cons (fun rq n found acked => ?_) rfl <| .cons trivial rfl <| .cons trivial rfl <| .cons trivial rfl trivial
    · cases (parse_ackReply (n := 65536) (by decide) rfl).symm.trans acked
      rw [build_data rfl, length_bytesAt]
      decide
    all_goals
      cases (parse_ackReply (by decide) rfl).symm.trans acked
      cases found
      rw [build_data rfl, length_bytesAt]
      decide
  · obtain ⟨last, reached, same⟩ := Option.map_eq_some_iff.mp final
    simp only [Prod.mk.injEq] at same
    refine ⟨last, reached, same.1, ?_⟩
    rintro ⟨ack, member, i, bound, carries, -⟩
    have counts := List.mem_map_of_mem (f := fun ack : Ack => (ack.offset, ack.count)) member
    simp only [same.2, List.mem_cons, Prod.mk.injEq, List.not_mem_nil, or_false] at counts
    omega

end SmbClient.ReadWrite
