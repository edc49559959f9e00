import SmbClient.Receive.Authenticated

/-! What a packet with an SMB 1 header does to the requests that were built as SMB 2/3 requests. -/

namespace SmbClient.Receive
open SmbClient.Lib SmbClient.Mbuf SmbClient.Session

/-- The requests of SMB 2/3 are as they were: none has been given a reply, completed or changed. -/
def Untouched (before after : Receiver) : Prop :=
  ∀ id w, before.rqs.lookup id = some w → w.smb1 = none → after.rqs.lookup id = some w

/-- The packet is dropped, or the first request with its ids is one of SMB 1 or has a reply already. -/
def SmbOnlyMatch (s : Receiver) (payload : Chain) : Prop :=
  s.smb1Allowed = true → smbHdrLen ≤ (bytes payload).length →
    ∀ id w, s.smb1Match (.ofBytes (bytes payload)) = some (id, w) → w.smb1 = none → w.reply ≠ none

section
variable {env : Env} {s : Receiver}

theorem Untouched.refl (s : Receiver) : Untouched s s := fun _ _ found _ => found

theorem lookup_wake (s : Receiver) (id : Nat) (later : Bool) (j : Nat) :
    (s.wake ⟨id, [id], false, later⟩).rqs.lookup j =
      if id = j then (s.rqs.lookup j).map ({ · with rqp.state := .notified }) else s.rqs.lookup j := by
  unfold Receiver.wake
  simp only [Bool.and_false, Bool.false_and, Bool.false_eq_true, if_false, Receiver.notify]
  exact Slots.lookup_modify ..

theorem deliver_answers (env : Env) {id : Nat} {w : Waiting} (found : s.rqs.lookup id = some w) (unanswered : w.reply = none)
    (later : Bool) (m : Chain) (delivery : Delivery) :
    ∃ w', (s.deliver env ⟨id, [id], false, later⟩ w m delivery).rqs.lookup id = some w' ∧ w'.reply ≠ none := by
  unfold Receiver.deliver
  rw [unanswered]
  dsimp only
  rw [lookup_wake, if_pos rfl, Slots.lookup_store _ found, if_pos rfl]
  exact ⟨_, rfl, by simp⟩

theorem deliver_untouched {id : Nat} {w : Waiting} (found : s.rqs.lookup id = some w)
    (spared : w.smb1 = none → w.reply ≠ none) (later : Bool) (m : Chain) (delivery : Delivery) :
    Untouched s (s.deliver env ⟨id, [id], false, later⟩ w m delivery) := by
  intro j other lookup smb2
  unfold Receiver.deliver
  split
  · dsimp only
    rw [Slots.lookup_store _ found]
    split
    · rename_i same
      rw [← found, same, lookup]
    · exact lookup
  · rename_i unanswered
    have distinct : id ≠ j := by
      rintro rfl
      rw [found, Option.some.injEq] at lookup
      exact spared (lookup ▸ smb2) unanswered
    dsimp only
    rw [lookup_wake, if_neg distinct, Slots.lookup_store _ found, if_neg distinct, lookup]

theorem smb1Packet_untouched_iff (env : Env) (s : Receiver) (m : Chain) (delivery : Delivery) :
    Untouched s (s.smb1Packet env m delivery) ↔
      ∀ id w, s.smb1Match (.ofBytes (bytes m)) = some (id, w) → w.smb1 = none → w.reply ≠ none := by
  unfold Receiver.smb1Packet
  cases found : s.smb1Match (.ofBytes (bytes m)) with
  | none =>
    refine ⟨fun _ id w found => ?_, fun _ => Untouched.refl s⟩
    cases found
  | some first =>
    obtain ⟨id, w⟩ := first
    have lookup := (Receiver.smb1Match_lookup found).1
    constructor
    · rintro untouched _ _ ⟨rfl, rfl⟩ smb2 unanswered
      obtain ⟨w', answered, has⟩ :=
        deliver_answers env lookup unanswered s.sessionp.nonCompoundReplies m delivery
      rw [untouched id w lookup smb2, Option.some.injEq] at answered
      exact has (answered ▸ unanswered)
    · intro only
      exact deliver_untouched lookup (only id w rfl) _ m delivery

theorem openPacket_smb1 (env : Env) (sessionp : SmbSession) {payload : Chain} (allowed : Bool)
    (header : (bytes payload).take 4 = smbSignature) :
    (openPacket env sessionp allowed payload = (none, allowed) ∧
        ¬(allowed = true ∧ smbHdrLen ≤ (bytes payload).length)) ∨
      ∃ m, openPacket env sessionp allowed payload = (some (.smb1 m), allowed) ∧ bytes m = bytes payload ∧
        allowed = true ∧ smbHdrLen ≤ (bytes payload).length := by
  unfold openPacket
  cases pulled : env.kpi.pullup payload smbHdrLen with
  | none =>
    refine .inl ⟨rfl, fun reaches => ?_⟩
    exact env.kpi.pullup_succeeds payload smbHdrLen (by decide) reaches.2 pulled
  | some m =>
    obtain ⟨same, long⟩ := env.kpi.pullup_bytes _ _ _ pulled
    have first : (m.headD []).take 4 = smbSignature := by
      have head := congrArg (List.take 4) (env.kpi.pullup_head pulled)
      rw [List.take_take, List.take_take] at head
      exact head.trans header
    have notSmb2 : ¬((m.headD []).head? = some 0xfe ∨ (m.headD []).head? = some 0xfc) := by
      have head : (m.headD []).head? = some 0xff := by
        have := congrArg List.head? first
        rwa [List.head?_take, if_neg (by decide)] at this
      rw [head]
      decide
    have fits : smbHdrLen ≤ (bytes payload).length := by
      have taken := congrArg List.length (env.kpi.pullup_head pulled)
      rw [List.length_take, List.length_take, Nat.min_eq_left long] at taken
      omega
    dsimp only
    rw [if_neg notSmb2, if_neg (by rw [first]; exact fun differs => differs rfl)]
    cases allowed with
    | false => exact .inl ⟨rfl, fun reaches => Bool.false_ne_true reaches.1⟩
    | true => exact .inr ⟨m, rfl, same, rfl, fits⟩

end

/-- For every message that comes to an SMB 1 packet, in every state of the queue and of the loop. -/
theorem smb1_packet_untouched_iff (env : Env) (s : Receiver) (wire payload : Chain)
    (received : (smbNbstRecv env s.sessionp wire).1 = .ok payload) (header : (bytes payload).take 4 = smbSignature) :
    Untouched s (s.frame env wire) ↔ SmbOnlyMatch s payload := by
  have delivered := openPacket_smb1 env (smbNbstRecv env s.sessionp wire).2 s.smb1Allowed header
  unfold Receiver.frame
  dsimp only
  rw [received]
  dsimp only
  rcases delivered with ⟨opened, dropped⟩ | ⟨m, opened, same, allowed, fits⟩
  · rw [opened]
    exact ⟨fun _ allowed fits => absurd ⟨allowed, fits⟩ dropped, fun _ => Untouched.refl s⟩
  · rw [opened]
    dsimp only
    -- only the session may have changed before the queue is searched
    have searched := smb1Packet_untouched_iff env
      { s with sessionp := (smbNbstRecv env s.sessionp wire).2 } m ⟨s.sessionp, wire⟩
    rw [same] at searched
    exact searched.trans ⟨fun only _ _ => only, fun only => only allowed fits⟩

def zeroSmb1 : Bytes := smbSignature ++ List.replicate 28 0

def twoReads : Receiver :=
  ((Receiver.initial signingSession {} {}).enqueue [readRq 4]).enqueue [readRq 5]

/-- Once an SMB 2/3 packet has been received in the same call, the packet is dropped. -/
theorem smb1_packet_untouched_after_smb2 :
    let s := twoReads.frame sampleEnv [unsignedRsp 4]
    (smbNbstRecv sampleEnv s.sessionp [zeroSmb1]).1 = .ok [zeroSmb1] ∧ s.smb1Allowed = false ∧
      Untouched s (s.frame sampleEnv [zeroSmb1]) := by
  intro s
  have received : (smbNbstRecv sampleEnv s.sessionp [zeroSmb1]).1 = .ok [zeroSmb1] := by
    unfold smbNbstRecv
    rfl
  have dropped : s.smb1Allowed = false := by decide +kernel
  refine ⟨received, dropped, ?_⟩
  refine (smb1_packet_untouched_iff sampleEnv s [zeroSmb1] [zeroSmb1] received (by decide)).mpr ?_
  intro allowed
  exact absurd allowed (by rw [dropped]; exact Bool.false_ne_true)

/-- In the next call the packet goes to the first read in the queue, and completes it. -/
theorem smb1_packet_completes_read :
    let s := (twoReads.frame sampleEnv [unsignedRsp 5])
    (s.step sampleEnv .recvall).map (fun s => (s.frame sampleEnv [zeroSmb1]).rqs.lookup 0 |>.map
        fun w => (w.smb1, w.rqp.state, w.reply.map (·.mdp))) =
      some (some (none, .notified, some (mdInitm [zeroSmb1]))) ∧
      ¬∀ next, s.step sampleEnv .recvall = some next → Untouched next (next.frame sampleEnv [zeroSmb1]) := by
  refine ⟨by decide +kernel, fun untouched => ?_⟩
  have kept := untouched _ rfl 0 { rqp := readRq 4 } (by decide +kernel) rfl
  revert kept
  decide +kernel

end SmbClient.Receive
