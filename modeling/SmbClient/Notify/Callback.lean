import SmbClient.Notify.WatchList

/-! The notify thread and the reply callback on one watch item, as two processes: every read and every
assignment of the item's state is a step of its own. -/

namespace SmbClient.Notify
open SmbClient.Lib

/-- Where the notify thread is in its visit of the item. -/
inductive Point
  | atSwitch
  | assigns (state : WatchState) (thenSends : Bool)
  | sends
  deriving DecidableEq, Repr

structure Shared where
  state : WatchState
  point : Point := .atSwitch
  -- the request is sent and its callback has not run
  requested : Bool := false
  -- replies that the callback marked and that the thread processed
  received : Nat := 0
  processed : Nat := 0
  deriving DecidableEq, Repr

structure Turn extends Outcome where
  movesToPoll : Bool := false
  movesFromPoll : Bool := false

def atSwitch (turn : Turn) (s : Shared) : Shared :=
  match s.state with
  | .cancelNotify => { s with requested := false, point := .assigns .waitingForRemoval false }
  | .receivedNotify =>
    { s with
      processed := s.processed + 1
      point :=
        if turn.rcvdError = some .enotsup then .assigns .usePollingToNotify false
        else .assigns .sendNotify (!turn.throttleBack) }
  | .sendNotify => { s with point := .sends }
  | .usePollingToNotify => if turn.movesFromPoll then { s with point := .assigns .sendNotify false } else s
  | .waitingOnNotify => s
  | .waitingForRemoval => s

def sendNotifyChange (turn : Turn) (s : Shared) : Shared :=
  match turn.sendError with
  | none => { s with requested := true, point := .assigns .waitingOnNotify false }
  | some .eagain => { s with point := .atSwitch }
  | some _ => { s with point := .assigns (if turn.movesToPoll then .usePollingToNotify else .sendNotify) false }

def threadStep (turn : Turn) (s : Shared) : Shared :=
  match s.point with
  | .atSwitch => atSwitch turn s
  | .assigns state thenSends => { s with state, point := if thenSends then .sends else .atSwitch }
  | .sends => sendNotifyChange turn s

def callbackStep (s : Shared) : Option Shared :=
  if s.requested then
    if s.state = .cancelNotify ∨ s.state = .waitingForRemoval then some { s with requested := false }
    else some { s with requested := false, state := .receivedNotify, received := s.received + 1 }
  else none

inductive Action
  | thread (turn : Turn)
  | callback

def Action.isThread : Action → Bool
  | .thread _ => true
  | .callback => false

def sharedStep (s : Shared) : Action → Option Shared
  | .thread turn => some (threadStep turn s)
  | .callback => callbackStep s

def enqueued (pollOnly : Bool) : Shared where
  state := if pollOnly then .usePollingToNotify else .sendNotify

/-- After enough turns of the thread, whatever happens in between, it has processed all that is marked now. -/
def Heard (s : Shared) : Prop :=
  ∃ turns, ∀ actions last, run sharedStep s actions = some last →
    turns ≤ actions.countP Action.isThread → s.received ≤ last.processed

/-- The callback does not run between the send and the thread's note that it waits. -/
def Noted (s : Shared) (action : Action) : Prop :=
  ¬(action.isThread = false ∧ s.requested = true ∧ s.point = .assigns .waitingOnNotify false)

/-- The thread's steps from one switch to the next. -/
def visit (turn : Turn) : (fuel : Nat) → Shared → Shared
  | 0, s => s
  | fuel + 1, s =>
    let s := threadStep turn s
    if s.point = .atSwitch then s else visit turn fuel s

/-- The thread is back at the switch, and the item is as a pass leaves it. -/
def Shared.Agrees (s : Shared) (item : WatchItem) : Prop :=
  s.state = item.state ∧ s.requested = item.requested ∧ s.point = .atSwitch

theorem visit_sends (turn : Turn) {s : Shared} {item : WatchItem} {pass : Pass} (state : s.state = item.state)
    (requested : s.requested = item.requested) (point : s.point = .sends)
    (toPoll : turn.movesToPoll = (!item.isRoot && pass.moveToPollCnt != 0)) (fuel : Nat) :
    (visit turn (fuel + 2) s).Agrees (sendNotifyItem turn.toOutcome pass item).2 := by
  obtain ⟨⟨_, _, sendError, _⟩, movesToPoll, _⟩ := turn
  simp only [sendNotifyItem, ← toPoll]
  cases sendError with
  | none => simp [visit, threadStep, sendNotifyChange, point, Shared.Agrees]
  | some error =>
    cases error <;> cases movesToPoll <;>
      simp [visit, threadStep, sendNotifyChange, point, state, requested, Shared.Agrees]

/-- Alone, the thread does to an item what a pass over the list does. -/
theorem visit_agrees (turn : Turn) (item : WatchItem) (pass : Pass)
    (toPoll : turn.movesToPoll = (!item.isRoot && pass.moveToPollCnt != 0))
    (fromPoll : turn.movesFromPoll = (!pass.pollOnly && pass.moveFromPollCnt != 0 && turn.isOpen)) :
    (visit turn 4 { state := item.state, requested := item.requested }).Agrees
      (processItem turn.toOutcome pass item).2 := by
  unfold processItem
  cases state : item.state with
  | cancelNotify => exact ⟨rfl, rfl, rfl⟩
  | waitingOnNotify => exact ⟨state.symm, rfl, rfl⟩
  | waitingForRemoval => exact ⟨state.symm, rfl, rfl⟩
  | sendNotify => exact visit_sends turn state.symm rfl rfl toPoll 1
  | usePollingToNotify =>
    simp only [pollingItem, ← fromPoll]
    cases moves : turn.movesFromPoll <;> cases pass.updatePollingNodes <;>
      simp [visit, threadStep, atSwitch, state, moves, Shared.Agrees]
  | receivedNotify =>
    unfold receivedItem
    dsimp only
    split
    · rename_i answer
      cases root : item.isRoot <;> simp [visit, threadStep, atSwitch, answer, Shared.Agrees]
    · rename_i answer
      have supported : ¬turn.rcvdError = some .enotsup := answer
      split
      · rename_i throttled
        cases root : item.isRoot <;> simp [visit, threadStep, atSwitch, supported, throttled, Shared.Agrees]
      · rename_i prompt
        have first : visit turn 4 { state := .receivedNotify, requested := item.requested } = visit turn 2
            { state := .sendNotify, requested := item.requested, processed := 1, point := .sends } := by
          rw [Bool.not_eq_true] at prompt
          simp [visit, threadStep, atSwitch, supported, prompt]
        rw [first]
        refine visit_sends turn rfl ?_ rfl ?_ 0
        · cases root : item.isRoot <;> simp
        · rw [toPoll]
          cases root : item.isRoot <;> simp [root]

inductive Calm (s : Shared) : Prop
  | quiet (idle : s.requested = false) (all : s.received = s.processed)
      (unmarked : s.point = .atSwitch → s.state ≠ .receivedNotify) (sends : s.point = .sends → s.state = .sendNotify)
      (assigned : ∀ state thenSends, s.point = .assigns state thenSends →
        state ≠ .receivedNotify ∧ (thenSends = true → state = .sendNotify))
  | sent (asked : s.requested = true) (all : s.received = s.processed) (point : s.point = .assigns .waitingOnNotify false)
      (state : s.state = .sendNotify)
  | waits (asked : s.requested = true) (all : s.received = s.processed) (point : s.point = .atSwitch)
      (state : s.state = .waitingOnNotify)
  | marked (idle : s.requested = false) (one : s.received = s.processed + 1) (point : s.point = .atSwitch)
      (state : s.state = .receivedNotify)

variable {s next : Shared}

theorem processed_le {actions : List Action} (reached : run sharedStep s actions = some next) :
    s.processed ≤ next.processed := by
  have keeps (t : Shared) (action : Action) (after : Shared) (le : s.processed ≤ t.processed)
      (taken : sharedStep t action = some after) : s.processed ≤ after.processed := by
    refine Nat.le_trans le ?_
    cases action with
    | thread turn =>
      cases taken
      unfold threadStep atSwitch sendNotifyChange
      split
      · split <;> first | exact Nat.le_refl _ | exact Nat.le_succ _ | (split <;> exact Nat.le_refl _)
      · exact Nat.le_refl _
      · split <;> exact Nat.le_refl _
    | callback =>
      unfold sharedStep callbackStep at taken
      split_ifs at taken <;> cases taken <;> exact Nat.le_refl _
  exact run_preserves sharedStep keeps (Nat.le_refl _) reached

theorem Calm.heard (calm : Calm s) : Heard s := by
  have done (all : s.received = s.processed) : Heard s :=
    ⟨0, fun actions last reached _ => all ▸ processed_le reached⟩
  cases calm with
  | quiet _ all _ _ _ => exact done all
  | sent _ all _ _ => exact done all
  | waits _ all _ _ => exact done all
  | marked idle one point state =>
    refine ⟨1, fun actions last reached turns => ?_⟩
    cases actions with
    | nil => simp at turns
    | cons action rest =>
      cases action with
      | callback => simp [run, sharedStep, callbackStep, idle] at reached
      | thread turn =>
        have taken : sharedStep s (.thread turn) = some (threadStep turn s) := rfl
        rw [run_cons taken] at reached
        have first : (threadStep turn s).processed = s.processed + 1 := by simp [threadStep, atSwitch, point, state]
        rw [one, ← first]
        exact processed_le reached

theorem quiet_assigns {state : WatchState} {thenSends : Bool} (point : s.point = .assigns state thenSends)
    (idle : s.requested = false) (all : s.received = s.processed) (unmarked : state ≠ .receivedNotify)
    (sends : thenSends = true → state = .sendNotify) : Calm s := by
  refine .quiet idle all ?_ ?_ ?_ <;> rw [point]
  · exact fun away => by cases away
  · exact fun away => by cases away
  · intro _ _ same
    cases same
    exact ⟨unmarked, sends⟩

theorem calm_step {action : Action} (calm : Calm s) (noted : Noted s action)
    (taken : sharedStep s action = some next) : Calm next := by
  cases action with
  | callback =>
    unfold sharedStep callbackStep at taken
    cases calm with
    | quiet idle _ _ _ _ => simp [idle] at taken
    | marked idle _ _ _ => simp [idle] at taken
    | sent asked _ point _ => exact absurd ⟨rfl, asked, point⟩ noted
    | waits asked all point state =>
      simp only [asked, state, if_true, reduceCtorEq, or_self, if_false, Option.some.injEq] at taken
      subst taken
      exact .marked rfl (congrArg (· + 1) all) point rfl
  | thread turn =>
    cases taken
    cases calm with
    | sent asked all point _ =>
      simp only [threadStep, point]
      exact .waits asked all rfl rfl
    | waits asked all point state =>
      simp only [threadStep, atSwitch, point, state]
      exact .waits asked all point state
    | marked idle one point state =>
      simp only [threadStep, atSwitch, point, state]
      split
      · exact quiet_assigns rfl idle one (by decide) fun _ => by contradiction
      · exact quiet_assigns rfl idle one (by decide) fun _ => rfl
    | quiet idle all unmarked sends assigned =>
      unfold threadStep
      split
      · rename_i point
        unfold atSwitch
        split
        · exact quiet_assigns rfl rfl all (by decide) fun _ => by contradiction
        · rename_i marked
          exact absurd marked (unmarked point)
        · rename_i state
          exact .quiet idle all (fun away => by cases away) (fun _ => state) fun _ _ same => by cases same
        · split
          · exact quiet_assigns rfl idle all (by decide) fun _ => rfl
          · exact .quiet idle all unmarked sends assigned
        · exact .quiet idle all unmarked sends assigned
        · exact .quiet idle all unmarked sends assigned
      · rename_i state thenSends point
        obtain ⟨unmarked, sends⟩ := assigned state thenSends point
        cases thenSends with
        | false => exact .quiet idle all (fun _ => unmarked) (fun away => by cases away) fun _ _ same => by cases same
        | true => exact .quiet idle all (fun _ => unmarked) (fun _ => sends rfl) fun _ _ same => by cases same
      · rename_i point
        unfold sendNotifyChange
        split
        · exact .sent rfl all rfl (sends point)
        · refine .quiet idle all (fun _ => ?_) (fun _ => sends point) fun _ _ same => by cases same
          rw [sends point]
          decide
        · refine quiet_assigns rfl idle all ?_ fun _ => by contradiction
          split <;> decide

/-- The reply is marked, but the thread is about to note that it waits for it. -/
theorem not_heard_of_overwritten (unread : s.processed < s.received)
    (point : s.point = .assigns .waitingOnNotify false) : ¬Heard s := by
  rintro ⟨turns, heard⟩
  let lost : Shared := { s with state := .waitingOnNotify, point := .atSwitch }
  have stays (n : Nat) : run sharedStep lost (List.replicate n (.thread {})) = some lost := by
    induction n with
    | zero => rfl
    | succ n ih => exact ih
  have reached : run sharedStep s (List.replicate (turns + 1) (.thread {})) = some lost := by
    have first : sharedStep s (.thread {}) = some lost := by simp [sharedStep, threadStep, point, lost]
    rw [List.replicate_succ, run_cons first]
    exact stays turns
  have le := heard _ _ reached (by simp [List.countP_replicate, Action.isThread])
  exact absurd unread (Nat.not_lt.mpr le)

theorem callback_heard_iff (pollOnly : Bool) (actions : List Action) :
    Throughout sharedStep Heard (enqueued pollOnly) actions ↔
      AllSteps sharedStep Noted (enqueued pollOnly) actions := by
  refine throughout_iff sharedStep (fun _ => Calm.heard) (fun _ _ _ => calm_step) ?_ ?_ ?_ actions
  · rintro s action next calm taken heard ⟨callback, asked, point⟩
    cases action with
    | thread turn => cases callback
    | callback =>
      cases calm with
      | quiet idle _ _ _ _ => exact absurd asked (by rw [idle]; decide)
      | marked idle _ _ _ => exact absurd asked (by rw [idle]; decide)
      | waits _ _ switch _ => exact absurd point (by rw [switch]; decide)
      | sent _ all _ state =>
        simp only [sharedStep, callbackStep, asked, state, if_true, reduceCtorEq, or_self, if_false,
          Option.some.injEq] at taken
        subst taken
        refine absurd heard (not_heard_of_overwritten ?_ point)
        exact Nat.lt_succ_of_le (Nat.le_of_eq all.symm)
  · rintro s action refused ⟨callback, asked, -⟩
    cases action with
    | thread turn => cases callback
    | callback =>
      unfold sharedStep callbackStep at refused
      rw [if_pos asked] at refused
      split_ifs at refused
  · refine .quiet rfl rfl (fun _ => ?_) (fun away => by cases away) fun _ _ assigned => by cases assigned
    cases pollOnly <;> decide

/-- The reply comes before the thread has noted that it waits: it is never processed. -/
theorem callback_overwritten : ∃ lost : Shared,
    run sharedStep (enqueued false) [.thread {}, .thread {}, .callback, .thread {}] = some lost ∧
      ∀ actions last, run sharedStep lost actions = some last → last.processed < last.received := by
  let lost : Shared := { state := .waitingOnNotify, received := 1 }
  refine ⟨lost, rfl, fun actions last reached => ?_⟩
  have stays (s : Shared) (action : Action) (next : Shared) (same : s = lost)
      (taken : sharedStep s action = some next) : next = lost := by
    subst same
    cases action <;> cases taken
    rfl
  rw [run_preserves sharedStep stays rfl reached]
  decide

end SmbClient.Notify
