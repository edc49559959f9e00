import SmbClient.Lib.Runs
import SmbClient.Mbuf.Chain

/-! The pending server messages of a mount: `rcvd_svrmsg_notify` notes them and `smbfs_sysctl` hands them out. -/

namespace SmbClient.Notify
open SmbClient.Mbuf SmbClient.Lib

def svrmsgRcvdGoingDown : BitVec 64 := 0x1
def svrmsgRcvdShutdownCancel : BitVec 64 := 0x2

def svrmsgShutdownStart : Nat := 2
def svrmsgShutdownCancelled : Nat := 1

structure Smbmount where
  svrmsgPending : BitVec 64 := 0
  svrmsgShutdownDelay : Nat := 0
  deriving DecidableEq, Repr

structure Svrmsg where
  action : Nat
  delay : Nat
  deriving DecidableEq, Repr

variable (smp : Smbmount)

def Smbmount.note (msg : Svrmsg) : Smbmount :=
  if msg.action = svrmsgShutdownStart then
    { svrmsgPending := smp.svrmsgPending &&& svrmsgRcvdShutdownCancel ||| svrmsgRcvdGoingDown
      svrmsgShutdownDelay := msg.delay }
  else if msg.action = svrmsgShutdownCancelled then
    { smp with svrmsgPending := smp.svrmsgPending &&& ~~~svrmsgRcvdGoingDown ||| svrmsgRcvdShutdownCancel }
  else smp

def rcvdSvrmsgNotify : Option (Except Errno Svrmsg) → Option Errno × Smbmount
  -- the watch item has no request
  | none => (some .einval, smp)
  | some (.error error) => (some error, smp)
  | some (.ok msg) => (none, smp.note msg)

def vfsCtlServerinfo : Option Int × Smbmount :=
  if smp.svrmsgPending ≠ 0 then
    if smp.svrmsgPending &&& svrmsgRcvdGoingDown ≠ 0 then
      (some (smp.svrmsgShutdownDelay / 60 : Nat),
        { smp with svrmsgPending := smp.svrmsgPending &&& ~~~svrmsgRcvdGoingDown })
    else if smp.svrmsgPending &&& svrmsgRcvdShutdownCancel ≠ 0 then
      (some 0xfff, { smp with svrmsgPending := smp.svrmsgPending &&& ~~~svrmsgRcvdShutdownCancel })
    -- `vs_minutes` is left as it is
    else (none, smp)
  else (some (-1), smp)

inductive SvrmsgEvent
  | received (reply : Option (Except Errno Svrmsg))
  | serverinfo

def svrmsgStep : SvrmsgEvent → Option Smbmount
  | .received reply => some (rcvdSvrmsgNotify smp reply).2
  | .serverinfo => some (vfsCtlServerinfo smp).2

def Exclusive : Prop :=
  ¬(smp.svrmsgPending &&& svrmsgRcvdGoingDown ≠ 0 ∧ smp.svrmsgPending &&& svrmsgRcvdShutdownCancel ≠ 0)

instance (smp : Smbmount) : Decidable (Exclusive smp) := inferInstanceAs (Decidable (¬_))

/-- A shutdown-cancelled message clears the going-down flag and leaves the unrelated flags alone. -/
def CancelsCleanly (event : SvrmsgEvent) : Prop :=
  ∀ msg, event = .received (some (.ok msg)) → msg.action = svrmsgShutdownCancelled →
    ∀ next, svrmsgStep smp event = some next → next.svrmsgPending &&& svrmsgRcvdGoingDown = 0 ∧
      ∀ i, 2 ≤ i → next.svrmsgPending.getLsbD i = smp.svrmsgPending.getLsbD i

/-- No shutdown starts while a cancelled one has not been handed out. -/
def StartsAfresh : SvrmsgEvent → Prop
  | .received (some (.ok msg)) =>
    msg.action = svrmsgShutdownStart → smp.svrmsgPending &&& svrmsgRcvdShutdownCancel = 0
  | _ => True

theorem goingDown_eq : svrmsgRcvdGoingDown = BitVec.twoPow 64 0 := by decide

theorem shutdownCancel_eq : svrmsgRcvdShutdownCancel = BitVec.twoPow 64 1 := by decide

theorem and_twoPow_eq_zero_iff (x : BitVec 64) {i : Nat} (inside : i < 64) :
    x &&& BitVec.twoPow 64 i = 0 ↔ x.getLsbD i = false := by
  rw [BitVec.and_twoPow]
  have set : BitVec.twoPow 64 i ≠ 0#64 := by
    intro zero
    have bit := congrArg (·.getLsbD i) zero
    simp [inside] at bit
  cases x.getLsbD i <;> simp [set]

theorem goingDown_clear_iff (x : BitVec 64) : x &&& svrmsgRcvdGoingDown = 0 ↔ x.getLsbD 0 = false := by
  rw [goingDown_eq, and_twoPow_eq_zero_iff x (by decide)]

theorem shutdownCancel_clear_iff (x : BitVec 64) : x &&& svrmsgRcvdShutdownCancel = 0 ↔ x.getLsbD 1 = false := by
  rw [shutdownCancel_eq, and_twoPow_eq_zero_iff x (by decide)]

theorem exclusive_iff :
    Exclusive smp ↔ smp.svrmsgPending.getLsbD 0 = false ∨ smp.svrmsgPending.getLsbD 1 = false := by
  rw [Exclusive, not_and_or, not_not, not_not, goingDown_clear_iff, shutdownCancel_clear_iff]

theorem exclusive_serverinfo {smp : Smbmount} (exclusive : Exclusive smp) : Exclusive (vfsCtlServerinfo smp).2 := by
  rw [exclusive_iff] at exclusive ⊢
  unfold vfsCtlServerinfo
  simp only [goingDown_eq, shutdownCancel_eq]
  split_ifs
  · left
    simp
  · right
    simp
  · exact exclusive
  · exact exclusive

theorem exclusive_start_iff {smp : Smbmount} {msg : Svrmsg} (starts : msg.action = svrmsgShutdownStart) :
    Exclusive (smp.note msg) ↔ smp.svrmsgPending &&& svrmsgRcvdShutdownCancel = 0 := by
  rw [exclusive_iff, shutdownCancel_clear_iff, Smbmount.note, if_pos starts, goingDown_eq, shutdownCancel_eq]
  simp

theorem exclusive_note {smp : Smbmount} {msg : Svrmsg} (exclusive : Exclusive smp)
    (afresh : msg.action = svrmsgShutdownStart → smp.svrmsgPending &&& svrmsgRcvdShutdownCancel = 0) :
    Exclusive (smp.note msg) := by
  by_cases starts : msg.action = svrmsgShutdownStart
  · exact (exclusive_start_iff starts).mpr (afresh starts)
  · rw [exclusive_iff] at exclusive ⊢
    rw [Smbmount.note, if_neg starts]
    split_ifs
    · left
      simp [goingDown_eq, shutdownCancel_eq]
    · exact exclusive

theorem cancelsCleanly (event : SvrmsgEvent) : CancelsCleanly smp event := by
  rintro msg rfl cancels next taken
  have other : msg.action ≠ svrmsgShutdownStart := by
    rw [cancels]
    decide
  cases taken
  simp only [rcvdSvrmsgNotify, Smbmount.note, if_neg other, if_pos cancels, goingDown_clear_iff]
  rw [goingDown_eq, shutdownCancel_eq]
  refine ⟨by simp, fun i far => ?_⟩
  by_cases inside : i < 64
  · have apart : i ≠ 0 ∧ i ≠ 1 := by omega
    simp [inside, apart]
  · rw [BitVec.getLsbD_of_ge _ _ (by omega), BitVec.getLsbD_of_ge _ _ (by omega)]

theorem svrmsg_exclusive_iff {smp : Smbmount} (start : Exclusive smp) (events : List SvrmsgEvent) :
    Throughout svrmsgStep Exclusive smp events ∧ AllSteps svrmsgStep CancelsCleanly smp events ↔
      AllSteps svrmsgStep StartsAfresh smp events := by
  have cleanly : AllSteps svrmsgStep CancelsCleanly smp events := AllSteps.always _ cancelsCleanly smp events
  rw [and_iff_left cleanly]
  refine throughout_iff svrmsgStep (fun _ => id) ?_ ?_ ?_ start events
  · intro s event next exclusive afresh taken
    cases event with
    | serverinfo =>
      cases taken
      exact exclusive_serverinfo exclusive
    | received reply =>
      cases taken
      rcases reply with _ | _ | msg
      · exact exclusive
      · exact exclusive
      · exact exclusive_note exclusive afresh
  · intro s event next _ taken exclusive
    unfold StartsAfresh
    split
    · rename_i msg
      intro starts
      cases taken
      exact (exclusive_start_iff starts).mp exclusive
    · trivial
  · intro s event refused
    cases event <;> cases refused

theorem svrmsg_exclusive_of_restart :
    Throughout svrmsgStep Exclusive {} [.received (some (.ok ⟨1, 0⟩)), .serverinfo, .received (some (.ok ⟨2, 300⟩))] ∧
      AllSteps svrmsgStep CancelsCleanly {}
        [.received (some (.ok ⟨1, 0⟩)), .serverinfo, .received (some (.ok ⟨2, 300⟩))] := by
  apply (svrmsg_exclusive_iff (by decide) _).mpr
  refine AllSteps.cons (fun starts => by cases starts) rfl (AllSteps.cons trivial rfl (AllSteps.cons ?_ rfl trivial))
  intro _
  decide

/-- A shutdown is cancelled and started again before the first message has been handed out. -/
theorem svrmsg_both_flags :
    ¬Throughout svrmsgStep Exclusive {} [.received (some (.ok ⟨1, 0⟩)), .received (some (.ok ⟨2, 300⟩))] := by
  intro throughout
  have last : Exclusive ⟨0x3, 300⟩ := (throughout.2 _ rfl).2 _ rfl
  exact absurd last (by decide)

end SmbClient.Notify
