import SmbClient.Mbuf.Chain
import SmbClient.Lib.Runs

namespace SmbClient.Notify
open SmbClient.Mbuf SmbClient.Lib

inductive WatchState
  | sendNotify
  | receivedNotify
  | usePollingToNotify
  | waitingOnNotify
  | cancelNotify
  | waitingForRemoval
  deriving DecidableEq, Repr

structure WatchItem where
  vp : Nat
  isRoot : Bool
  state : WatchState
  watchTree : Bool := false
  -- a change notify request that the server has not answered yet
  requested : Bool := false
  deriving DecidableEq, Repr

def WatchItem.polls (item : WatchItem) : Bool := item.state = .usePollingToNotify

structure NotifyChange where
  watchList : List WatchItem := []
  watchCnt : Int := 0
  watchPollCnt : Int := 0
  pollOnly : Bool := false
  haveMoreWork : Bool := false
  throttled : Bool := false
  deriving DecidableEq, Repr

structure Outcome where
  rcvdError : Option Errno := none
  throttleBack : Bool := false
  sendError : Option Errno := none
  isOpen : Bool := true

structure Pass where
  moveToPollCnt : Int
  moveFromPollCnt : Int
  updatePollingNodes : Bool := false
  watchPollCnt : Int
  pollOnly : Bool
  haveMoreWork : Bool
  throttled : Bool
  notified : List Nat := []

def sendNotifyItem (outcome : Outcome) (pass : Pass) (item : WatchItem) : Pass × WatchItem :=
  match outcome.sendError with
  | none => (pass, { item with state := .waitingOnNotify, requested := true })
  -- in reconnect, or the share is going away
  | some .eagain => (pass, item)
  | some _ =>
    if !item.isRoot && pass.moveToPollCnt != 0 then
      ({ pass with moveToPollCnt := pass.moveToPollCnt - 1, watchPollCnt := pass.watchPollCnt + 1 },
        { item with state := .usePollingToNotify })
    else (pass, { item with state := .sendNotify })

def receivedItem (outcome : Outcome) (pass : Pass) (item : WatchItem) : Pass × WatchItem :=
  let polling := pass.moveToPollCnt != 0 || decide (pass.watchPollCnt > pass.moveFromPollCnt)
  let pass := if item.isRoot then { pass with updatePollingNodes := true } else pass
  let item := if item.isRoot then { item with watchTree := polling } else item
  match outcome.rcvdError with
  | some .enotsup => ({ pass with pollOnly := true }, { item with state := .usePollingToNotify })
  | _ =>
    if outcome.throttleBack then ({ pass with throttled := true }, { item with state := .sendNotify })
    else sendNotifyItem outcome pass { item with state := .sendNotify }

def pollingItem (outcome : Outcome) (pass : Pass) (item : WatchItem) : Pass × WatchItem :=
  if !pass.pollOnly && pass.moveFromPollCnt != 0 && outcome.isOpen then
    ({ pass with
        moveFromPollCnt := pass.moveFromPollCnt - 1
        watchPollCnt := pass.watchPollCnt - 1
        haveMoreWork := true }, { item with state := .sendNotify })
  else if pass.updatePollingNodes then ({ pass with notified := pass.notified ++ [item.vp] }, item)
  else (pass, item)

def processItem (outcome : Outcome) (pass : Pass) (item : WatchItem) : Pass × WatchItem :=
  match item.state with
  | .cancelNotify => (pass, { item with state := .waitingForRemoval, requested := false })
  | .receivedNotify => receivedItem outcome pass item
  | .sendNotify => sendNotifyItem outcome pass item
  | .usePollingToNotify => pollingItem outcome pass item
  | .waitingOnNotify => (pass, item)
  | .waitingForRemoval => (pass, item)

def processItems (outcome : Nat → Outcome) (pass : Pass) : List WatchItem → Pass × List WatchItem
  | [] => (pass, [])
  | item :: rest =>
    let (pass, item') := processItem (outcome item.vp) pass item
    let (pass, rest') := processItems outcome pass rest
    (pass, item' :: rest')

def NotifyChange.startPass (notify : NotifyChange) (maxWorkingCnt : Int) : Pass :=
  let workingCnt := notify.watchCnt - notify.watchPollCnt
  { moveToPollCnt := if workingCnt > maxWorkingCnt then workingCnt - maxWorkingCnt else 0
    moveFromPollCnt :=
      if workingCnt > maxWorkingCnt then 0
      else if notify.watchPollCnt ≠ 0 then min notify.watchPollCnt (maxWorkingCnt - workingCnt)
      else 0
    watchPollCnt := notify.watchPollCnt
    pollOnly := notify.pollOnly
    -- the thread clears both before each pass
    haveMoreWork := false
    throttled := false }

def NotifyChange.processNotifyItems (notify : NotifyChange) (maxWorkingCnt : Int) (outcome : Nat → Outcome) :
    NotifyChange :=
  let (pass, watchList) := processItems outcome (notify.startPass maxWorkingCnt) notify.watchList
  { notify with
    watchList
    watchPollCnt := pass.watchPollCnt
    pollOnly := pass.pollOnly
    haveMoreWork := pass.haveMoreWork
    throttled := pass.throttled }

def NotifyChange.enqueueNotifyChangeRequest (notify : NotifyChange) (vp : Nat) (isRoot : Bool) : NotifyChange :=
  let watchItem : WatchItem :=
    { vp, isRoot, state := if notify.pollOnly then .usePollingToNotify else .sendNotify }
  { notify with
    watchCnt := notify.watchCnt + 1
    -- the root is always the first item
    watchList := if isRoot then watchItem :: notify.watchList else notify.watchList ++ [watchItem] }

def modifyFirst (p : WatchItem → Bool) (f : WatchItem → WatchItem) : List WatchItem → List WatchItem
  | [] => []
  | item :: rest => if p item then f item :: rest else item :: modifyFirst p f rest

def NotifyChange.dequeueNotifyChangeRequest (notify : NotifyChange) (vp : Nat) : NotifyChange :=
  match notify.watchList.find? (·.vp = vp) with
  | none => notify
  | some watchItem =>
    { notify with
      watchCnt := notify.watchCnt - 1
      watchPollCnt := if watchItem.polls then notify.watchPollCnt - 1 else notify.watchPollCnt
      watchList := modifyFirst (·.vp = vp) (fun item => { item with state := .cancelNotify }) notify.watchList }

def WatchItem.leaving (item : WatchItem) : Bool :=
  item.state = .cancelNotify || item.state = .waitingForRemoval

def NotifyChange.removeItem (notify : NotifyChange) (vp : Nat) : Option NotifyChange :=
  if notify.watchList.any fun item => item.vp = vp && item.leaving then
    some { notify with watchList := notify.watchList.eraseP fun item => item.vp = vp && item.leaving }
  else none

def notifyCallbackCompletion (item : WatchItem) : WatchItem :=
  if item.leaving then { item with requested := false }
  else { item with state := .receivedNotify, requested := false }

def NotifyChange.completeRequest (notify : NotifyChange) (vp : Nat) : Option NotifyChange :=
  if notify.watchList.any fun item => item.vp = vp && item.requested then
    some { notify with
      watchList := modifyFirst (fun item => item.vp = vp && item.requested) notifyCallbackCompletion notify.watchList }
  else none

inductive Event
  | enqueue (vp : Nat) (isRoot : Bool)
  | dequeue (vp : Nat)
  | remove (vp : Nat)
  | complete (vp : Nat)
  | process (maxWorkingCnt : Int) (outcome : Nat → Outcome)

def step (notify : NotifyChange) : Event → Option NotifyChange
  | .enqueue vp isRoot => some (notify.enqueueNotifyChangeRequest vp isRoot)
  | .dequeue vp => some (notify.dequeueNotifyChangeRequest vp)
  | .remove vp => notify.removeItem vp
  | .complete vp => notify.completeRequest vp
  | .process maxWorkingCnt outcome => some (notify.processNotifyItems maxWorkingCnt outcome)

def polling (watchList : List WatchItem) : Nat := watchList.countP WatchItem.polls

/-- The polling count is the number of items that poll. -/
def Counted (notify : NotifyChange) : Prop :=
  notify.watchPollCnt = polling notify.watchList ∧
    0 ≤ notify.watchPollCnt ∧ notify.watchPollCnt ≤ notify.watchList.length

instance (notify : NotifyChange) : Decidable (Counted notify) := inferInstanceAs (Decidable (_ ∧ _ ∧ _))

def rejected (outcome : Nat → Outcome) (item : WatchItem) : Bool :=
  item.state = .receivedNotify && (outcome item.vp).rcvdError = some .enotsup

/-- No item starts to poll because the server does not support notification. -/
def Supported (notify : NotifyChange) : Event → Prop
  | .enqueue _ _ => notify.pollOnly = false
  | .process _ outcome => ∀ item ∈ notify.watchList, rejected outcome item = false
  | _ => True

def Quiet (item : WatchItem) : Prop :=
  item.requested = true → item.state = .waitingOnNotify ∨ item.state = .cancelNotify

theorem counted_iff (notify : NotifyChange) : Counted notify ↔ notify.watchPollCnt = polling notify.watchList := by
  constructor
  · exact fun counted => counted.1
  · intro same
    have bound : polling notify.watchList ≤ notify.watchList.length := List.countP_le_length
    exact ⟨same, by omega, by omega⟩

section ModifyFirst
variable {p : WatchItem → Bool} {f : WatchItem → WatchItem} {watchList : List WatchItem} {watchItem : WatchItem}

theorem polling_modifyFirst (found : watchList.find? p = some watchItem) :
    polling (modifyFirst p f watchList) + watchItem.polls.toNat = polling watchList + (f watchItem).polls.toNat := by
  induction watchList with
  | nil => cases found
  | cons item rest ih =>
    rw [List.find?_cons] at found
    cases accepted : p item with
    | true =>
      simp only [accepted, Option.some.injEq] at found
      subst found
      simp only [modifyFirst, accepted, if_true, polling, List.countP_cons]
      cases item.polls <;> cases (f item).polls <;> simp
    | false =>
      simp only [accepted] at found
      have later := ih found
      simp only [modifyFirst, accepted, Bool.false_eq_true, if_false, polling, List.countP_cons] at later ⊢
      omega

theorem forall_modifyFirst {P : WatchItem → Prop} (all : ∀ item ∈ watchList, P item)
    (keeps : ∀ item, P item → P (f item)) : ∀ item ∈ modifyFirst p f watchList, P item := by
  induction watchList with
  | nil => exact all
  | cons item rest ih =>
    obtain ⟨first, later⟩ := List.forall_mem_cons.mp all
    unfold modifyFirst
    split
    · exact List.forall_mem_cons.mpr ⟨keeps item first, later⟩
    · exact List.forall_mem_cons.mpr ⟨first, ih later⟩

theorem polling_eraseP (silent : ∀ item, p item = true → item.polls = false) :
    polling (watchList.eraseP p) = polling watchList := by
  induction watchList with
  | nil => rfl
  | cons item rest ih =>
    rw [List.eraseP_cons]
    cases accepted : p item with
    | true => simp [polling, silent item accepted]
    | false =>
      simp only [polling, cond_false, List.countP_cons] at ih ⊢
      rw [ih]

end ModifyFirst

variable {item : WatchItem} {notify next : NotifyChange}

theorem sendNotifyItem_counts (outcome : Outcome) (pass : Pass) (sends : item.polls = false) :
    (sendNotifyItem outcome pass item).1.watchPollCnt =
      pass.watchPollCnt + (sendNotifyItem outcome pass item).2.polls.toNat := by
  unfold sendNotifyItem
  split
  · simp [WatchItem.polls]
  · simp [sends]
  · split <;> simp [WatchItem.polls]

theorem receivedItem_counts (outcome : Outcome) (pass : Pass) (item : WatchItem) :
    (receivedItem outcome pass item).1.watchPollCnt + (decide (outcome.rcvdError = some .enotsup)).toNat =
      pass.watchPollCnt + (receivedItem outcome pass item).2.polls.toNat := by
  have same : ∀ b : Bool, (if b then { pass with updatePollingNodes := true } else pass).watchPollCnt =
      pass.watchPollCnt := fun b => by cases b <;> rfl
  unfold receivedItem
  dsimp only
  split
  next answer => simp [answer, same, WatchItem.polls]
  next answer =>
    have supported : ¬outcome.rcvdError = some .enotsup := answer
    simp only [supported, decide_false, Bool.toNat_false, Nat.cast_zero, add_zero]
    split
    · simp [same, WatchItem.polls]
    · rw [sendNotifyItem_counts outcome _ (by simp [WatchItem.polls]), same]

theorem pollingItem_counts (outcome : Outcome) (pass : Pass) (polls : item.polls = true) :
    (pollingItem outcome pass item).1.watchPollCnt + 1 =
      pass.watchPollCnt + (pollingItem outcome pass item).2.polls.toNat := by
  unfold pollingItem
  split
  · simp [WatchItem.polls]
  · split <;> simp [polls]

theorem processItem_counts (outcome : Nat → Outcome) (pass : Pass) (item : WatchItem) :
    (processItem (outcome item.vp) pass item).1.watchPollCnt + item.polls.toNat + (rejected outcome item).toNat =
      pass.watchPollCnt + (processItem (outcome item.vp) pass item).2.polls.toNat := by
  unfold processItem rejected
  cases state : item.state with
  | receivedNotify => simpa [WatchItem.polls, state] using receivedItem_counts (outcome item.vp) pass item
  | sendNotify =>
    have sends : item.polls = false := by simp [WatchItem.polls, state]
    simpa [sends] using sendNotifyItem_counts (outcome item.vp) pass sends
  | usePollingToNotify =>
    have polls : item.polls = true := by simp [WatchItem.polls, state]
    simpa [polls] using pollingItem_counts (outcome item.vp) pass polls
  | cancelNotify | waitingOnNotify | waitingForRemoval => simp [WatchItem.polls, state]

theorem processItems_counts (outcome : Nat → Outcome) (pass : Pass) (watchList : List WatchItem) :
    (processItems outcome pass watchList).1.watchPollCnt + polling watchList + watchList.countP (rejected outcome) =
      pass.watchPollCnt + polling (processItems outcome pass watchList).2 := by
  induction watchList generalizing pass with
  | nil => simp [processItems, polling]
  | cons item rest ih =>
    have one := processItem_counts outcome pass item
    have others := ih (processItem (outcome item.vp) pass item).1
    simp only [processItems, polling, List.countP_cons] at others ⊢
    cases first : item.polls <;> cases last : (processItem (outcome item.vp) pass item).2.polls <;>
      cases answer : rejected outcome item <;>
      simp only [first, last, answer, Bool.toNat_true, Bool.toNat_false, Bool.false_eq_true, if_true, if_false,
        Nat.cast_add, Nat.cast_one, Nat.cast_zero] at one ⊢ <;> omega

theorem processItem_quiet (outcome : Outcome) (pass : Pass) (quiet : Quiet item) :
    Quiet (processItem outcome pass item).2 := by
  have idle : item.state = .receivedNotify ∨ item.state = .sendNotify ∨ item.state = .usePollingToNotify →
      item.requested = false := by
    intro state
    rw [← Bool.not_eq_true]
    intro requested
    rcases quiet requested with waits | cancelled
    · simp [waits] at state
    · simp [cancelled] at state
  have sends : ∀ (pass : Pass) (item : WatchItem), item.requested = false →
      Quiet (sendNotifyItem outcome pass item).2 := by
    intro pass item none
    unfold sendNotifyItem
    split
    · exact fun _ => .inl rfl
    · simp [Quiet, none]
    · split <;> simp [Quiet, none]
  unfold processItem
  cases state : item.state with
  | cancelNotify => simp [Quiet]
  | waitingOnNotify | waitingForRemoval => exact quiet
  | sendNotify => exact sends pass item (idle (.inr (.inl state)))
  | usePollingToNotify =>
    have none := idle (.inr (.inr state))
    dsimp only
    unfold pollingItem
    split
    · simp [Quiet, none]
    · split <;> exact quiet
  | receivedNotify =>
    have none := idle (.inl state)
    unfold receivedItem
    dsimp only
    split
    · cases item.isRoot <;> simp [Quiet, none]
    · split
      · cases item.isRoot <;> simp [Quiet, none]
      · apply sends
        cases item.isRoot <;> exact none

theorem processItems_quiet (outcome : Nat → Outcome) (pass : Pass) {watchList : List WatchItem}
    (quiet : ∀ item ∈ watchList, Quiet item) : ∀ item ∈ (processItems outcome pass watchList).2, Quiet item := by
  induction watchList generalizing pass with
  | nil => exact quiet
  | cons item rest ih =>
    obtain ⟨first, later⟩ := List.forall_mem_cons.mp quiet
    exact List.forall_mem_cons.mpr ⟨processItem_quiet _ _ first, ih _ later⟩

def NotifyChange.drift (notify : NotifyChange) : Int := polling notify.watchList - notify.watchPollCnt

theorem counted_iff_drift (notify : NotifyChange) : Counted notify ↔ notify.drift = 0 := by
  rw [counted_iff, NotifyChange.drift]
  omega

def uncounted (notify : NotifyChange) : Event → Nat
  | .enqueue _ _ => notify.pollOnly.toNat
  | .process _ outcome => notify.watchList.countP (rejected outcome)
  | _ => 0

theorem supported_iff (notify : NotifyChange) (event : Event) : Supported notify event ↔ uncounted notify event = 0 := by
  cases event with
  | enqueue vp isRoot => cases only : notify.pollOnly <;> simp [Supported, uncounted, only]
  | process maxWorkingCnt outcome => simp [Supported, uncounted, List.countP_eq_zero]
  | dequeue vp | remove vp | complete vp => simp [Supported, uncounted]

theorem drift_enqueue (notify : NotifyChange) (vp : Nat) (isRoot : Bool) :
    (notify.enqueueNotifyChangeRequest vp isRoot).drift = notify.drift + notify.pollOnly.toNat := by
  unfold NotifyChange.enqueueNotifyChangeRequest NotifyChange.drift polling
  cases isRoot <;> cases notify.pollOnly <;> simp [WatchItem.polls] <;> omega

theorem drift_dequeue (notify : NotifyChange) (vp : Nat) : (notify.dequeueNotifyChangeRequest vp).drift = notify.drift := by
  unfold NotifyChange.dequeueNotifyChangeRequest
  cases found : notify.watchList.find? (·.vp = vp) with
  | none => rfl
  | some watchItem =>
    have counts := polling_modifyFirst (f := fun item => { item with state := .cancelNotify }) found
    have cancelled : ({ watchItem with state := .cancelNotify } : WatchItem).polls = false := rfl
    simp only [cancelled, Bool.toNat_false] at counts
    simp only [NotifyChange.drift]
    cases polls : watchItem.polls <;> simp only [polls, Bool.toNat_true, Bool.toNat_false, Bool.false_eq_true,
      if_true, if_false] at counts ⊢ <;> omega

theorem WatchItem.polls_of_leaving (leaving : item.leaving = true) : item.polls = false := by
  unfold WatchItem.leaving at leaving
  unfold WatchItem.polls
  cases state : item.state <;> simp_all

theorem drift_remove {vp : Nat} (taken : notify.removeItem vp = some next) :
    next.drift = notify.drift := by
  unfold NotifyChange.removeItem at taken
  split at taken
  · cases taken
    rw [NotifyChange.drift, polling_eraseP]
    · rfl
    · intro item matched
      rw [Bool.and_eq_true] at matched
      exact WatchItem.polls_of_leaving matched.2
  · cases taken

theorem polls_notifyCallbackCompletion (item : WatchItem) : (notifyCallbackCompletion item).polls = false := by
  unfold notifyCallbackCompletion
  split
  next leaving => exact WatchItem.polls_of_leaving leaving
  next => rfl

theorem drift_complete {vp : Nat} (quiet : ∀ item ∈ notify.watchList, Quiet item)
    (taken : notify.completeRequest vp = some next) : next.drift = notify.drift := by
  unfold NotifyChange.completeRequest at taken
  split at taken
  next present =>
    cases taken
    obtain ⟨watchItem, found⟩ := Option.isSome_iff_exists.mp (List.find?_isSome.trans List.any_eq_true.symm |>.mpr present)
    have matched := List.find?_some found
    rw [Bool.and_eq_true] at matched
    have silent : watchItem.polls = false := by
      unfold WatchItem.polls
      rcases quiet watchItem (List.mem_of_find?_eq_some found) matched.2 with waits | cancelled
      · simp [waits]
      · simp [cancelled]
    have counts := polling_modifyFirst (f := notifyCallbackCompletion) found
    rw [silent, polls_notifyCallbackCompletion] at counts
    simp only [NotifyChange.drift]
    rw [Nat.add_right_cancel counts]
  next => cases taken

theorem drift_process (notify : NotifyChange) (maxWorkingCnt : Int) (outcome : Nat → Outcome) :
    (notify.processNotifyItems maxWorkingCnt outcome).drift =
      notify.drift + notify.watchList.countP (rejected outcome) := by
  have counts := processItems_counts outcome (notify.startPass maxWorkingCnt) notify.watchList
  have same : (notify.startPass maxWorkingCnt).watchPollCnt = notify.watchPollCnt := rfl
  simp only [NotifyChange.processNotifyItems, NotifyChange.drift]
  omega

theorem drift_step {event : Event} (quiet : ∀ item ∈ notify.watchList, Quiet item)
    (taken : step notify event = some next) : next.drift = notify.drift + uncounted notify event := by
  cases event with
  | enqueue vp isRoot =>
    cases taken
    exact drift_enqueue notify vp isRoot
  | dequeue vp =>
    cases taken
    exact (drift_dequeue notify vp).trans (add_zero _).symm
  | remove vp => exact (drift_remove taken).trans (add_zero _).symm
  | complete vp => exact (drift_complete quiet taken).trans (add_zero _).symm
  | process maxWorkingCnt outcome =>
    cases taken
    exact drift_process notify maxWorkingCnt outcome

theorem quiet_step {event : Event} (quiet : ∀ item ∈ notify.watchList, Quiet item)
    (taken : step notify event = some next) : ∀ item ∈ next.watchList, Quiet item := by
  cases event with
  | enqueue vp isRoot =>
    cases taken
    unfold NotifyChange.enqueueNotifyChangeRequest
    cases isRoot <;> cases notify.pollOnly <;> simpa [Quiet, or_imp, forall_and] using quiet
  | dequeue vp =>
    cases taken
    unfold NotifyChange.dequeueNotifyChangeRequest
    split
    · exact quiet
    · exact forall_modifyFirst quiet fun _ _ _ => .inr rfl
  | remove vp =>
    simp only [step, NotifyChange.removeItem] at taken
    split at taken
    · cases taken
      exact fun item member => quiet item (List.mem_of_mem_eraseP member)
    · cases taken
  | complete vp =>
    simp only [step, NotifyChange.completeRequest] at taken
    split at taken
    · cases taken
      apply forall_modifyFirst quiet
      intro item _
      unfold notifyCallbackCompletion
      split <;> simp [Quiet]
    · cases taken
  | process maxWorkingCnt outcome =>
    cases taken
    exact processItems_quiet outcome _ quiet

/-- The runs that keep the polling count right are those in which the server takes every request. -/
theorem watchPollCnt_counted_iff (events : List Event) :
    Throughout step Counted {} events ↔ AllSteps step Supported {} events := by
  let inv : NotifyChange → Prop := fun notify => notify.drift = 0 ∧ ∀ item ∈ notify.watchList, Quiet item
  have start : inv {} := ⟨rfl, by simp⟩
  refine throughout_iff step ?_ ?_ ?_ ?_ start events
  · exact fun notify holds => (counted_iff_drift notify).mpr holds.1
  · intro notify event next holds supported taken
    have drift := drift_step holds.2 taken
    rw [holds.1, (supported_iff notify event).mp supported] at drift
    exact ⟨drift, quiet_step holds.2 taken⟩
  · intro notify event next holds taken counted
    have drift := drift_step holds.2 taken
    rw [holds.1, (counted_iff_drift next).mp counted] at drift
    exact (supported_iff notify event).mpr (by omega)
  · intro notify event refused
    cases event with
    | enqueue vp isRoot => cases refused
    | process maxWorkingCnt outcome => cases refused
    | dequeue vp | remove vp | complete vp => trivial

/-- The server answers the first request with not supported, and the item is then removed. -/
theorem watchPollCnt_negative :
    let events : List Event := [.enqueue 1 false, .process 10 fun _ => {}, .complete 1,
      .process 10 fun _ => { rcvdError := some .enotsup }, .dequeue 1]
    ∃ last, run step {} events = some last ∧ last.watchPollCnt = -1 ∧ ¬Counted last :=
  ⟨_, rfl, rfl, by decide⟩

end SmbClient.Notify
