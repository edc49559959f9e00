import SmbClient.Credits.Connection

namespace SmbClient.Credits
open SmbClient.Lib Connection

def CreditRq.reserve (rqp : CreditRq) : Int :=
  if !rqp.reqSent && rqp.charged then (rqp.creditcharge : Int) else 0

def CreditRq.unparsed (rqp : CreditRq) (unread : Option Nat) : Int :=
  if rqp.hdrPreparsed then 0 else (rqp.credited (unread.getD 0) : Int)

def Request.owed (r : Request) : Int := r.rqp.reserve + r.rqp.unparsed r.unread

theorem reserve_nonneg (rqp : CreditRq) : 0 ≤ rqp.reserve := by
  unfold CreditRq.reserve
  split <;> omega

theorem unparsed_nonneg (rqp : CreditRq) (unread : Option Nat) : 0 ≤ rqp.unparsed unread := by
  unfold CreditRq.unparsed
  split <;> omega

theorem owed_nonneg (r : Request) : 0 ≤ r.owed :=
  Int.add_nonneg (reserve_nonneg r.rqp) (unparsed_nonneg r.rqp r.unread)

@[simp] theorem unparsed_none (rqp : CreditRq) : rqp.unparsed none = 0 := by
  simp [CreditRq.unparsed, RqKind.credited]

theorem owed_fresh {rqp : CreditRq} (unsent : rqp.reqSent = false) :
    Request.owed { rqp } = if rqp.charged then (rqp.creditcharge : Int) else 0 := by
  simp [Request.owed, CreditRq.reserve, unsent]

def Priced (r : Request) : Prop := r.rqp.charged → 1 ≤ r.rqp.creditcharge

structure Backed (c : Connection) : Prop where
  priced : c.rqs.All Priced
  covered : c.iod.held c.started + c.rqs.total Request.owed ≤ c.server.outstanding + c.ledger.leeway

theorem backed_initial : Backed .initial where
  priced _ member := by cases member
  covered := by decide

theorem preprocessReply_spec (iod : CreditIod) (rqp : CreditRq) (credits : Nat) (started : Bool) :
    ∃ granted preparsed,
      (preprocessReply iod rqp credits).2 = { rqp with rspcreditsgranted := granted, hdrPreparsed := preparsed } ∧
      (preprocessReply iod rqp credits).1.held started + (if preparsed then 0 else (rqp.credited credits : Int)) ≤
        iod.held started + rqp.credited credits := by
  unfold preprocessReply
  split
  · refine ⟨credits, true, rfl, ?_⟩
    have counted := held_grant iod rqp credits started
    simpa using counted
  · refine ⟨rqp.rspcreditsgranted, rqp.hdrPreparsed, rfl, ?_⟩
    dsimp only
    split <;> omega

section
variable {c next : Connection} (backed : Backed c)
include backed

theorem Backed.withIod {iod : CreditIod} (held : iod.held c.started ≤ c.iod.held c.started) :
    Backed { c with iod } :=
  ⟨backed.priced, (Int.add_le_add_right held _).trans backed.covered⟩

theorem Backed.withRqlist (rqlist : List (List Nat)) : Backed { c with rqlist } :=
  ⟨backed.priced, backed.covered⟩

variable {id : Nat}

theorem Backed.store {r r' : Request} (found : c.rqs.lookup id = some r)
    {iod : CreditIod} {server : Server} {ledger : Ledger} (priced : Priced r')
    (moved : iod.held c.started + r'.owed + (c.server.outstanding + c.ledger.leeway) ≤
      c.iod.held c.started + r.owed + (server.outstanding + ledger.leeway)) :
    Backed { c with iod, rqs := c.rqs.store id r', server, ledger } := by
  refine ⟨backed.priced.store priced, ?_⟩
  have covered := backed.covered
  dsimp only
  rw [Slots.total_store _ _ found]
  omega

theorem Backed.unseenGrant (credits : Nat) (awaiting : List Nat) :
    Backed (dropGrant { c with server :=
      { outstanding := c.server.outstanding + credits, awaiting } } credits) := by
  refine ⟨backed.priced, ?_⟩
  have covered := backed.covered
  simp only [dropGrant, Ledger.leeway] at covered ⊢
  omega

theorem backed_smb2RqInitInternal (rq : Build) (fits : ∀ len ∈ rq.rqLen, len ≤ maxChargedLength) :
    Backed (c.smb2RqInitInternal rq) := by
  unfold smb2RqInitInternal
  dsimp only
  split
  · rename_i iod rqp _ taken
    have admitted := smb2RqCreditDecrement_done rfl fits taken
    have held := admitted.held c.started
    split
    · refine backed.withIod ?_
      split at held <;> omega
    · have priced : Priced { rqp } := fun charged => (admitted.paid (admitted.charged_eq ▸ charged)).1
      have unsent : rqp.reqSent = false := by
        obtain ⟨charge, requested, rfl⟩ := admitted.request
        rfl
      refine ⟨backed.priced.alloc priced, ?_⟩
      have covered := backed.covered
      dsimp only
      rw [Slots.total_alloc, owed_fresh unsent]
      omega
  · exact backed
  · rename_i iod slept
    rw [smb2RqCreditDecrement_sleeps slept]
    exact backed.withIod le_rfl

theorem backed_assignMessageId {m : Member} (taken : c.assignMessageId m = some next) : Backed next := by
  obtain ⟨r, found, rfl⟩ := Option.map_eq_some_iff.mp taken
  have priced := backed.priced.lookup found
  exact backed.store found priced le_rfl

theorem backed_transmit (taken : c.transmit id = some next) : Backed next := by
  obtain ⟨r, found, taken⟩ := Option.bind_eq_some_iff.mp taken
  have priced := backed.priced.lookup found
  split at taken
  · cases taken
  · rename_i unsent
    cases taken
    refine backed.store found priced ?_
    have unsent : r.rqp.reqSent = false := by simp_all
    change _ + (_ + r.rqp.unparsed r.unread) + _ ≤ _ + (r.rqp.reserve + r.rqp.unparsed r.unread) + _
    cases charged : r.rqp.charged with
    | true =>
      have least := priced charged
      simp [CreditRq.reserve, Ledger.leeway, unsent, charged]
      omega
    | false =>
      simp [CreditRq.reserve, Ledger.leeway, unsent, charged]
      omega

theorem backed_markSent {now : Nat} (taken : c.markSent id now = some next) : Backed next := by
  obtain ⟨r, found, rfl⟩ := Option.map_eq_some_iff.mp taken
  have priced := backed.priced.lookup found
  exact backed.store found priced le_rfl

theorem backed_interim {credits : Nat} (taken : c.interim id credits = some next) : Backed next := by
  unfold interim at taken
  split at taken
  · dsimp only at taken
    split at taken
    · cases taken
      exact backed.unseenGrant credits c.server.awaiting
    · rename_i r found
      have found := queued_eq_some found
      have priced := backed.priced.lookup found
      have counted := held_grant c.iod r.rqp credits c.started
      cases taken
      refine backed.store found priced ?_
      dsimp only [Request.owed, CreditRq.reserve, CreditRq.unparsed, Ledger.leeway]
      omega
  · cases taken

theorem backed_reply {credits : Nat} {wake : Bool} (taken : c.reply id credits wake = some next) :
    Backed next := by
  unfold reply at taken
  split at taken
  · dsimp only at taken
    split at taken
    · cases taken
      exact backed.unseenGrant credits _
    · rename_i r found
      have found := queued_eq_some found
      have priced := backed.priced.lookup found
      have unparsed := unparsed_nonneg r.rqp r.unread
      split at taken
      · -- a second answer to the same request is dropped
        cases taken
        refine backed.store found priced ?_
        change _ + r.owed + _ ≤ _ + r.owed + _
        dsimp only [Ledger.leeway]
        omega
      · obtain ⟨granted, preparsed, shape, counted⟩ :=
          preprocessReply_spec c.iod { r.rqp with response := true } credits c.started
        rw [shape] at taken
        cases taken
        refine backed.store found priced ?_
        dsimp only [Request.owed, CreditRq.reserve, CreditRq.unparsed, Ledger.leeway, Option.getD_some]
          at unparsed counted ⊢
        omega
  · cases taken

theorem backed_parse (taken : c.parse id = some next) : Backed next := by
  obtain ⟨r, found, taken⟩ := Option.bind_eq_some_iff.mp taken
  obtain ⟨credits, unread, rfl⟩ := Option.map_eq_some_iff.mp taken
  have priced := backed.priced.lookup found
  refine backed.store found priced ?_
  have counted := held_grant c.iod r.rqp credits c.started
  change _ + (r.rqp.reserve + CreditRq.unparsed _ none) + _ ≤ _ + (r.rqp.reserve + r.rqp.unparsed r.unread) + _
  rw [unparsed_none, unread]
  unfold CreditRq.unparsed
  dsimp only [Option.getD_some] at counted ⊢
  split <;> omega

theorem backed_pretendUnsent {r : Request} {state : RqState} (found : c.rqs.lookup id = some r)
    (sent : r.rqp.reqSent) : Backed (c.pretendUnsent id r state) := by
  have priced := backed.priced.lookup found
  refine backed.store found priced ?_
  change _ + ((if r.rqp.charged then (r.rqp.creditcharge : Int) else 0) + r.rqp.unparsed r.unread) + _ ≤
    _ + (r.rqp.reserve + r.rqp.unparsed r.unread) + _
  simp only [CreditRq.reserve, sent, Ledger.leeway]
  simp
  omega

theorem backed_done (taken : c.done id = some next)
    (earned : ∀ r ∈ c.rqs.lookup id, r.rqp.reqSent = false →
      r.rqp.command ≠ .sessionSetup ∧ r.rqp.command ≠ .treeConnect) : Backed next := by
  obtain ⟨r, found, rfl⟩ := Option.map_eq_some_iff.mp taken
  refine ⟨backed.priced.free, ?_⟩
  have covered := backed.covered
  have unparsed := unparsed_nonneg r.rqp r.unread
  have recovered := held_smbRqDone c.iod r.rqp c.started
  dsimp only
  rw [Slots.total_free _ found]
  simp only [Request.owed, CreditRq.reserve] at covered ⊢
  cases sent : r.rqp.reqSent with
  | true =>
    simp [sent] at recovered ⊢
    omega
  | false =>
    cases charged : r.rqp.charged with
    | true =>
      have all := credited_of_charged charged r.rqp.creditcharge
      simp [sent] at recovered ⊢
      omega
    | false =>
      have none' := credited_of_uncharged charged (earned r found sent) r.rqp.creditcharge
      simp [sent] at recovered ⊢
      omega

theorem backed_creditStart (taken : c.creditStart = some next) : Backed next := by
  unfold creditStart at taken
  split at taken
  · cases taken
  · rename_i login
    cases taken
    refine ⟨backed.priced, ?_⟩
    have covered := backed.covered
    have moved := held_smb2RqCreditStart c.iod
    simp only [login] at covered
    dsimp only
    omega

theorem backed_sendall : Backed c.sendall := by
  unfold sendall
  dsimp only
  split
  · refine backed.withIod ?_
    simp [CreditIod.held]
  · exact backed.withIod le_rfl

theorem backed_enqueue {chain : List Nat} {internal : Bool} (taken : c.enqueue chain internal = some next) :
    Backed next := by
  obtain ⟨numbered, assigned, rfl⟩ := Option.map_eq_some_iff.mp taken
  have kept : Backed numbered :=
    run_invariant assignMessageId (fun _ _ _ backed _ => backed_assignMessageId backed) backed
      (AllSteps.of_forall _ (fun _ _ => trivial) c) assigned
  exact kept.withRqlist _

theorem backed_send {chain : List Nat} {now : Nat} (taken : c.send chain now = some next) : Backed next := by
  unfold send at taken
  split at taken
  · obtain ⟨sent, transmitted, taken⟩ := Option.bind_eq_some_iff.mp taken
    obtain ⟨id, -, marked⟩ := Option.bind_eq_some_iff.mp taken
    have kept : Backed sent :=
      run_invariant transmit (fun _ _ _ backed _ => backed_transmit backed) backed
        (AllSteps.of_forall _ (fun _ _ => trivial) c) transmitted
    exact backed_markSent kept marked
  · cases taken

end

/-- Every requested length fits the 16-bit charge of the source, and a session setup or tree connect, which is not
charged, is not done unsent, when `smb_rq_done` would recover its charge. -/
def Connection.Regular (c : Connection) : Event → Prop
  | .build rq => ∀ len ∈ rq.rqLen, len ≤ maxChargedLength
  | .done id => ∀ r ∈ c.rqs.lookup id, r.rqp.reqSent = false →
      r.rqp.command ≠ .sessionSetup ∧ r.rqp.command ≠ .treeConnect
  | _ => True

instance (c : Connection) : ∀ e, Decidable (c.Regular e)
  | .build rq => inferInstanceAs (Decidable (∀ len ∈ rq.rqLen, _))
  | .done id => inferInstanceAs (Decidable (∀ r ∈ c.rqs.lookup id, _ → _ ∧ _))
  | .sleepTimedOut | .enqueue _ _ | .send _ _ | .interim _ _ | .reply _ _ _ | .parse _ | .timeout _ | .echoSent _
  | .sendall | .remove _ | .creditStart => inferInstanceAs (Decidable True)

theorem backed_step {c next : Connection} (e : Event) (backed : Backed c) (regular : c.Regular e)
    (taken : c.step e = some next) : Backed next := by
  cases e with
  | build rq =>
    cases taken
    exact backed_smb2RqInitInternal backed rq regular
  | sleepTimedOut =>
    cases taken
    exact backed.withIod (by simp [creditSleepTimedOut, CreditIod.held])
  | enqueue chain internal => exact backed_enqueue backed taken
  | send chain now => exact backed_send backed taken
  | interim id credits => exact backed_interim backed taken
  | reply id credits wake => exact backed_reply backed taken
  | parse id => exact backed_parse backed taken
  | timeout id =>
    obtain ⟨r, found, taken⟩ := Option.bind_eq_some_iff.mp taken
    split at taken
    · rename_i waiting
      cases taken
      simp only [Bool.and_eq_true] at waiting
      exact backed_pretendUnsent backed (queued_eq_some found) waiting.1.1
    · cases taken
  | echoSent id =>
    obtain ⟨r, found, taken⟩ := Option.bind_eq_some_iff.mp taken
    split at taken
    · rename_i echo
      cases taken
      simp only [Bool.and_eq_true] at echo
      exact backed_pretendUnsent backed found echo.1
    · cases taken
  | sendall =>
    cases taken
    exact backed_sendall backed
  | remove id =>
    cases taken
    exact backed.withRqlist _
  | done id => exact backed_done backed taken regular
  | creditStart => exact backed_creditStart backed taken

theorem Backed.creditsGranted_le {c : Connection} (backed : Backed c) :
    (c.iod.creditsGranted : Int) ≤ c.server.outstanding + c.ledger.leeway := by
  have covered := backed.covered
  have owed : 0 ≤ c.rqs.total Request.owed := Slots.total_nonneg fun r _ => owed_nonneg r
  unfold CreditIod.held at covered
  split at covered <;> omega

/-- After any sequence of events on a connection the client's count stays within the server's, up to
what the ledger records. -/
theorem creditsGranted_le_outstanding {events : List Event} {last : Connection}
    (regular : AllSteps Connection.step Connection.Regular .initial events)
    (reached : run Connection.step .initial events = some last) :
    (last.iod.creditsGranted : Int) ≤ last.server.outstanding + last.ledger.leeway := by
  have backed : Backed last :=
    run_invariant Connection.step (fun _ e _ backed regular => backed_step e backed regular) backed_initial regular
      reached
  exact backed.creditsGranted_le

def timedOutRun : List Event :=
  [.build { command := .negotiate }, .enqueue [0] true, .send [0] 0, .reply 0 1 true, .parse 0, .done 0,
   .build { command := .sessionSetup }, .enqueue [1] true, .send [1] 1, .reply 1 10 true, .parse 1, .done 1,
   .creditStart,
   .build { command := .create }, .enqueue [2] false, .send [2] 2, .timeout 2, .remove 2, .done 2]

theorem timedOutRun_regular : AllSteps Connection.step Regular .initial timedOutRun := by
  decide +kernel

theorem timedOutRun_ends : (run Connection.step .initial timedOutRun).map
    (fun c => (c.started, c.server.outstanding, c.iod.creditsGranted)) = some (true, 9, 10) := by
  decide +kernel

theorem creditsGranted_le_outstanding_timedOut :
    ∃ last, run Connection.step .initial timedOutRun = some last ∧
      (last.iod.creditsGranted : Int) ≤ last.server.outstanding + last.ledger.leeway := by
  obtain ⟨last, reached, -⟩ := Option.map_eq_some_iff.mp timedOutRun_ends
  exact ⟨last, reached, creditsGranted_le_outstanding timedOutRun_regular reached⟩

theorem creditsGranted_exceeds_outstanding :
    AllSteps Connection.step Connection.Regular .initial timedOutRun ∧
      ∃ last, run Connection.step .initial timedOutRun = some last ∧
        last.started ∧ last.server.outstanding < (last.iod.creditsGranted : Int) := by
  obtain ⟨last, reached, ends⟩ := Option.map_eq_some_iff.mp timedOutRun_ends
  simp only [Prod.mk.injEq] at ends
  refine ⟨timedOutRun_regular, last, reached, ends.1, ?_⟩
  rw [ends.2.1, ends.2.2]
  decide

end SmbClient.Credits
