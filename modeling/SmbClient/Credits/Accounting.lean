import SmbClient.Mbuf.Chain
import SmbClient.Session.State

/-! The credit bookkeeping of one channel: `smb2_rq_credit_check`, `smb2_rq_credit_decrement`,
`smb2_rq_credit_increment`, `smb2_rq_credit_start` and the credit part of `smb_rq_done`. The counters
are the 32-bit words of the source, which are added to modulo `2 ^ 32` and read back as signed. -/

namespace SmbClient.Credits
open SmbClient.Mbuf SmbClient.Session

def int32 (n : Nat) : Int := Int.bmod n (2 ^ 32)

def int16 (n : Nat) : Int := Int.bmod n (2 ^ 16)

def osAddAtomic (amount : Int) (word : Nat) : Nat := ((word + amount) % 2 ^ 32).toNat

def kCreditRequestAmt : Nat := 256
def kCreditLowWater : Nat := 10
def kCreditMinAmt : Nat := 1
def kCreditMaxAmt : Nat := 65535

inductive RqState
  | notSent | sent | notified | reconnect
  deriving DecidableEq, Repr

structure CreditIod where
  creditsGranted : Nat := 0
  creditsSsGranted : Nat := 0
  creditsMax : Nat := 0
  creditsWait : Nat := 0
  reqPending : Bool := false
  messageId : Nat := 0
  oldestMessageId : Nat := 0
  shutdown : Bool := false
  deriving DecidableEq, Repr

structure RqKind where
  command : Command
  iodContext : Bool := false
  deriving DecidableEq, Repr

structure CreditRq extends RqKind where
  creditcharge : Nat := 1
  creditsrequested : Nat := 1
  rspcreditsgranted : Nat := 0
  messageid : Nat := 0
  creditTimesent : Nat := 0
  state : RqState := .notSent
  async : Bool := false
  compound : Bool := false
  reconnected : Bool := false
  noBlock : Bool := false
  reqSent : Bool := false
  response : Bool := false
  hdrPreparsed : Bool := false
  deriving DecidableEq, Repr

variable (iod : CreditIod)

def smb2RqCreditCheck (rqp : CreditRq) (len : Nat) : Nat × CreditRq :=
  let currCredits := int32 iod.creditsGranted
  let creditCharge := ((len - 1) / (64 * 1024) + 1) % 2 ^ 16
  if len ≤ 64 * 1024 then (len, rqp)
  else if currCredits ≤ kCreditLowWater then (64 * 1024, rqp)
  else if int16 creditCharge + kCreditLowWater > currCredits then
    let affordable := (currCredits - kCreditLowWater).toNat
    (affordable * (64 * 1024) % 2 ^ 32, { rqp with creditcharge := affordable % 2 ^ 16 })
  else (len, { rqp with creditcharge := creditCharge })

def sendWindowOpen : Bool :=
  let currCredits := int32 iod.creditsGranted
  let messageIdDiff :=
    if iod.messageId > iod.oldestMessageId then iod.messageId - iod.oldestMessageId
    else 2 ^ 64 - 1 - iod.oldestMessageId + iod.messageId
  decide (kCreditMinAmt ≤ currCredits) &&
    (!iod.reqPending || decide ((messageIdDiff : Int) ≤ currCredits))

inductive Decrement
  | done (iod : CreditIod) (rqp : CreditRq) (rqLen : Option Nat)
  | failed (error : Errno)
  | sleeps (iod : CreditIod)
  deriving DecidableEq

def creditDecrementRegular (shareGoingAway : Bool) (iod : CreditIod) (rqp : CreditRq)
    (rqLen : Option Nat) : Decrement :=
  if sendWindowOpen iod then
    let checked := rqLen.map (smb2RqCreditCheck iod rqp)
    let charged := (checked.map (·.2)).getD rqp
    let granted := osAddAtomic (-int16 charged.creditcharge) iod.creditsGranted
    let requested := if int32 granted < kCreditMaxAmt then kCreditRequestAmt else charged.creditsrequested
    .done { iod with creditsGranted := granted } { charged with creditsrequested := requested }
      (checked.map (·.1))
  else if rqp.command = .echo || rqp.noBlock then .failed .enobufs
  else if shareGoingAway then .failed .enxio
  else if iod.shutdown then .failed .enxio
  else .sleeps { iod with creditsWait := iod.creditsWait + 1 }

def smb2RqCreditDecrement (smb2 shareGoingAway : Bool) (iod : CreditIod) (rqp : CreditRq)
    (rqLen : Option Nat) : Decrement :=
  match rqp.command with
  | .negotiate =>
    .done { iod with creditsGranted := 0, creditsSsGranted := 0, creditsMax := 0 }
      { rqp with creditcharge := 0, creditsrequested := 0 } rqLen
  | .sessionSetup | .treeConnect => .done iod { rqp with creditsrequested := kCreditRequestAmt } rqLen
  | .logoff => .done iod rqp rqLen
  | .oplockBreak => creditDecrementRegular shareGoingAway iod rqp rqLen
  | _ =>
    if !smb2 then .failed .erpcmismatch
    else if rqp.iodContext then .done iod rqp rqLen
    else creditDecrementRegular shareGoingAway iod rqp rqLen

inductive Destination
  | ignored | ssGranted | granted
  deriving DecidableEq, Repr

def RqKind.destination (kind : RqKind) : Destination :=
  match kind.command with
  | .negotiate | .logoff => .ignored
  | .sessionSetup => .ssGranted
  | .treeConnect => if kind.iodContext then .ssGranted else .granted
  | .oplockBreak => .granted
  | _ => if kind.iodContext then .ignored else .granted

def wakeWaiter : CreditIod :=
  if iod.creditsWait ≠ 0 then { iod with creditsWait := iod.creditsWait - 1 } else iod

def smb2RqCreditIncrement (rqp : CreditRq) : CreditIod :=
  if rqp.rspcreditsgranted = 0 then iod
  else
    match rqp.destination with
    | .ignored => iod
    | .ssGranted =>
      { iod with creditsSsGranted := osAddAtomic rqp.rspcreditsgranted iod.creditsSsGranted }
    | .granted =>
      let granted := osAddAtomic rqp.rspcreditsgranted iod.creditsGranted
      let max :=
        if iod.creditsMax < granted ∧ int32 granted < kCreditMaxAmt then granted else iod.creditsMax
      wakeWaiter { iod with creditsGranted := granted, creditsMax := max }

def smb2RqCreditStart (credits : Nat) : CreditIod :=
  let granted := osAddAtomic (if credits = 0 then iod.creditsSsGranted else credits) iod.creditsGranted
  wakeWaiter { iod with
    creditsGranted := granted
    creditsMax := granted
    reqPending := false
    oldestMessageId := 0 }

def smbRqDone (rqp : CreditRq) : CreditIod :=
  if !rqp.reqSent && !rqp.reconnected then
    smb2RqCreditIncrement iod { rqp with rspcreditsgranted := rqp.creditcharge }
  else iod

def smb2RqMessageIdIncrement (head : Bool) (iod : CreditIod) (rqp : CreditRq) : CreditIod × CreditRq :=
  let amount := if head && rqp.command = .negotiate then 1 else rqp.creditcharge
  ({ iod with messageId := (iod.messageId + amount) % 2 ^ 64 }, { rqp with messageid := iod.messageId })

def creditSleepTimedOut : CreditIod := wakeWaiter iod

def RqKind.charged (kind : RqKind) : Bool :=
  match kind.command with
  | .negotiate | .sessionSetup | .treeConnect | .logoff => false
  | .oplockBreak => true
  | _ => !kind.iodContext

def maxChargedLength : Nat := 32767 * (64 * 1024)

def CreditIod.held (started : Bool) : Int :=
  iod.creditsGranted + if started then 0 else (iod.creditsSsGranted : Int)

def RqKind.credited (kind : RqKind) (credits : Nat) : Nat :=
  if kind.destination = .ignored then 0 else credits

theorem osAddAtomic_le (amount word : Nat) : osAddAtomic amount word ≤ word + amount := by
  unfold osAddAtomic
  omega

theorem osAddAtomic_neg {amount word : Nat} (covered : amount ≤ word) :
    osAddAtomic (-amount) word + amount ≤ word := by
  unfold osAddAtomic
  omega

theorem int16_eq {n : Nat} (small : n < 2 ^ 15) : int16 n = n := by
  unfold int16 Int.bmod
  dsimp only
  split <;> omega

theorem int16_le (n : Nat) : int16 n ≤ n := by
  unfold int16 Int.bmod
  dsimp only
  split <;> omega

theorem int32_le (n : Nat) : int32 n ≤ n := by
  unfold int32 Int.bmod
  dsimp only
  split <;> omega

@[simp] theorem wakeWaiter_creditsGranted : (wakeWaiter iod).creditsGranted = iod.creditsGranted := by
  unfold wakeWaiter
  split <;> rfl

@[simp] theorem wakeWaiter_creditsSsGranted : (wakeWaiter iod).creditsSsGranted = iod.creditsSsGranted := by
  unfold wakeWaiter
  split <;> rfl

theorem charged_destination {kind : RqKind} (charged : kind.charged) : kind.destination = .granted := by
  rcases kind with ⟨command, iodContext⟩
  cases command <;> simp_all [RqKind.charged, RqKind.destination]

theorem credited_of_charged {kind : RqKind} (charged : kind.charged) (credits : Nat) :
    kind.credited credits = credits := by
  simp [RqKind.credited, charged_destination charged]

/-- What is not charged is not credited either, but for two commands. -/
theorem credited_of_uncharged {kind : RqKind} (uncharged : kind.charged = false)
    (other : kind.command ≠ .sessionSetup ∧ kind.command ≠ .treeConnect) (credits : Nat) :
    kind.credited credits = 0 := by
  obtain ⟨command, iodContext⟩ := kind
  cases command <;> simp_all [RqKind.charged, RqKind.credited, RqKind.destination]

theorem held_smb2RqCreditIncrement (rqp : CreditRq) (started : Bool) :
    (smb2RqCreditIncrement iod rqp).held started ≤
      iod.held started + rqp.credited rqp.rspcreditsgranted := by
  have granted := osAddAtomic_le rqp.rspcreditsgranted iod.creditsGranted
  have ssGranted := osAddAtomic_le rqp.rspcreditsgranted iod.creditsSsGranted
  unfold smb2RqCreditIncrement
  split
  · omega
  · cases counter : rqp.destination <;> cases started <;>
      simp [RqKind.credited, CreditIod.held, counter] <;> omega

theorem held_grant (rqp : CreditRq) (credits : Nat) (started : Bool) :
    (smb2RqCreditIncrement iod { rqp with rspcreditsgranted := credits }).held started ≤
      iod.held started + rqp.credited credits :=
  held_smb2RqCreditIncrement iod { rqp with rspcreditsgranted := credits } started

theorem held_smb2RqCreditStart : (smb2RqCreditStart iod 0).held true ≤ iod.held false := by
  have moved := osAddAtomic_le iod.creditsSsGranted iod.creditsGranted
  simp [smb2RqCreditStart, CreditIod.held]
  omega

theorem held_smbRqDone (rqp : CreditRq) (started : Bool) : (smbRqDone iod rqp).held started ≤
      iod.held started + if rqp.reqSent then 0 else (rqp.credited rqp.creditcharge : Int) := by
  unfold smbRqDone
  cases sent : rqp.reqSent with
  | true => simp
  | false =>
    cases rqp.reconnected with
    | true => simp
    | false => exact held_grant iod rqp rqp.creditcharge started

variable {iod iod' : CreditIod} {rqp rqp' : CreditRq} {goingAway : Bool} {rqLen : Option Nat}

theorem smb2RqCreditCheck_spec {len : Nat}
    (least : 1 ≤ int32 iod.creditsGranted) (single : rqp.creditcharge = 1) (fits : len ≤ maxChargedLength) :
    ∃ charge, (smb2RqCreditCheck iod rqp len).2 = { rqp with creditcharge := charge } ∧
      1 ≤ charge ∧ charge < 2 ^ 15 ∧ charge ≤ iod.creditsGranted := by
  have one : rqp = { rqp with creditcharge := 1 } := by rw [← single]
  have word := int32_le iod.creditsGranted
  unfold maxChargedLength at fits
  have needed : ((len - 1) / (64 * 1024) + 1) % 2 ^ 16 = (len - 1) / (64 * 1024) + 1 := by omega
  have small : (len - 1) / (64 * 1024) + 1 < 2 ^ 15 := by omega
  unfold smb2RqCreditCheck kCreditLowWater
  dsimp only
  rw [needed, int16_eq small]
  split_ifs with short low most
  · exact ⟨1, one, by omega⟩
  · exact ⟨1, one, by omega⟩
  · exact ⟨_, rfl, by omega⟩
  · exact ⟨_, rfl, by omega⟩

theorem smb2RqCreditCheck_le (iod : CreditIod) (rqp : CreditRq) (len : Nat) :
    (smb2RqCreditCheck iod rqp len).1 ≤ len := by
  have charge := int16_le (((len - 1) / (64 * 1024) + 1) % 2 ^ 16)
  unfold smb2RqCreditCheck
  dsimp only
  split_ifs with small low afford
  · exact Nat.le_refl len
  · exact Nat.le_of_not_le small
  · have few : (int32 iod.creditsGranted - kCreditLowWater).toNat ≤ (len - 1) / (64 * 1024) := by omega
    exact (Nat.mod_le _ _).trans (by omega)
  · exact Nat.le_refl len

theorem sendWindowOpen_credits (window : sendWindowOpen iod) :
    1 ≤ int32 iod.creditsGranted := by
  unfold sendWindowOpen kCreditMinAmt at window
  simp only [Bool.and_eq_true, decide_eq_true_eq] at window
  exact window.1

structure Admitted (iod : CreditIod) (rqp : CreditRq) (iod' : CreditIod) (rqp' : CreditRq) : Prop where
  request : ∃ charge requested, rqp' = { rqp with creditcharge := charge, creditsrequested := requested }
  paid : rqp.charged → 1 ≤ rqp'.creditcharge ∧
    iod'.creditsGranted + rqp'.creditcharge ≤ iod.creditsGranted ∧
    iod'.creditsSsGranted = iod.creditsSsGranted
  free : rqp.charged = false →
    iod'.creditsGranted ≤ iod.creditsGranted ∧ iod'.creditsSsGranted ≤ iod.creditsSsGranted

theorem Admitted.charged_eq (admitted : Admitted iod rqp iod' rqp') : rqp'.charged = rqp.charged := by
  obtain ⟨charge, requested, rfl⟩ := admitted.request
  rfl

theorem Admitted.held (admitted : Admitted iod rqp iod' rqp') (started : Bool) :
    iod'.held started + (if rqp'.charged then (rqp'.creditcharge : Int) else 0) ≤ iod.held started := by
  rw [admitted.charged_eq]
  unfold CreditIod.held
  cases charged : rqp.charged with
  | true =>
    have paid := admitted.paid charged
    cases started <;> simp <;> omega
  | false =>
    have free := admitted.free charged
    cases started <;> simp <;> omega

theorem creditDecrementRegular_done {rqLen' : Option Nat} (single : rqp.creditcharge = 1) (charged : rqp.charged)
    (fits : ∀ len ∈ rqLen, len ≤ maxChargedLength)
    (taken : creditDecrementRegular goingAway iod rqp rqLen = .done iod' rqp' rqLen') :
    Admitted iod rqp iod' rqp' := by
  unfold creditDecrementRegular at taken
  by_cases window : sendWindowOpen iod
  · have least := sendWindowOpen_credits window
    have word := int32_le iod.creditsGranted
    obtain ⟨charge, priced, atLeast, small, covered⟩ :
        ∃ charge, ((rqLen.map (smb2RqCreditCheck iod rqp)).map (·.2)).getD rqp =
            { rqp with creditcharge := charge } ∧
          1 ≤ charge ∧ charge < 2 ^ 15 ∧ charge ≤ iod.creditsGranted := by
      cases rqLen with
      | none => exact ⟨1, by rw [← single]; rfl, by omega⟩
      | some len => exact smb2RqCreditCheck_spec least single (fits len rfl)
    rw [if_pos window] at taken
    dsimp only at taken
    rw [priced, int16_eq small] at taken
    cases taken
    refine ⟨⟨charge, _, rfl⟩, fun _ => ⟨atLeast, osAddAtomic_neg covered, rfl⟩, fun uncharged => ?_⟩
    simp [charged] at uncharged
  · -- every other way out is an error or a sleep
    rw [if_neg window] at taken
    split_ifs at taken

theorem smb2RqCreditDecrement_done {smb2 : Bool} {rqLen' : Option Nat} (single : rqp.creditcharge = 1)
    (fits : ∀ len ∈ rqLen, len ≤ maxChargedLength)
    (taken : smb2RqCreditDecrement smb2 goingAway iod rqp rqLen = .done iod' rqp' rqLen') :
    Admitted iod rqp iod' rqp' := by
  have regular (charged : rqp.charged)
      (taken : creditDecrementRegular goingAway iod rqp rqLen = .done iod' rqp' rqLen') :
      Admitted iod rqp iod' rqp' := creditDecrementRegular_done single charged fits taken
  have waved {charge requested : Nat} {iodAfter : CreditIod} (uncharged : rqp.charged = false)
      (lower : iodAfter.creditsGranted ≤ iod.creditsGranted)
      (lowerSs : iodAfter.creditsSsGranted ≤ iod.creditsSsGranted) :
      Admitted iod rqp iodAfter { rqp with creditcharge := charge, creditsrequested := requested } :=
    ⟨⟨charge, requested, rfl⟩, by simp [uncharged], fun _ => ⟨lower, lowerSs⟩⟩
  unfold smb2RqCreditDecrement at taken
  split at taken
  case h_1 command =>
    cases taken
    exact waved (by simp [RqKind.charged, command]) (Nat.zero_le _) (Nat.zero_le _)
  case h_2 command =>
    cases taken
    exact waved (by simp [RqKind.charged, command]) le_rfl le_rfl
  case h_3 command =>
    cases taken
    exact waved (by simp [RqKind.charged, command]) le_rfl le_rfl
  case h_4 command =>
    cases taken
    exact waved (by simp [RqKind.charged, command]) le_rfl le_rfl
  case h_5 command => exact regular (by simp [RqKind.charged, command]) taken
  case h_6 =>
    split_ifs at taken with smb1 own
    · cases taken
      refine waved ?_ le_rfl le_rfl
      unfold RqKind.charged
      split <;> simp_all
    · refine regular ?_ taken
      unfold RqKind.charged
      split <;> simp_all

theorem smb2RqCreditDecrement_sleeps {smb2 : Bool} (slept : smb2RqCreditDecrement smb2 goingAway iod rqp rqLen = .sleeps iod') :
    iod' = { iod with creditsWait := iod.creditsWait + 1 } := by
  have regular (slept : creditDecrementRegular goingAway iod rqp rqLen = .sleeps iod') :
      iod' = { iod with creditsWait := iod.creditsWait + 1 } := by
    unfold creditDecrementRegular at slept
    split_ifs at slept
    cases slept
    rfl
  unfold smb2RqCreditDecrement at slept
  split at slept
  case h_5 => exact regular slept
  case h_6 =>
    split_ifs at slept
    exact regular slept
  all_goals cases slept

end SmbClient.Credits
