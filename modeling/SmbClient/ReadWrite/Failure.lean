import SmbClient.ReadWrite.Read

/-! Whether `smb2_smb_read_write_async` reports the failure of one of its requests. -/

namespace SmbClient.ReadWrite
open SmbClient.Lib SmbClient.Mbuf

def Call.fails (call : Call) (e : Errno) : Bool := !(call.doRead && decide (e = .enodata))

def answerError (call : Call) (s : State) (w : Window) (rq : RwRq) (reply : Reply) (refill : Except Errno Allotment)
    (enqueued : Option Errno) : Option Errno :=
  match reply with
  | .error (e, reconnected) => if reconnected then none else some e
  | .ok mdp =>
    match (parseOne call s rq mdp).1 with
    | .error e => some e
    | .ok n =>
      if shortRead call n rq.ioLen ∨ w.master.resid ≠ 0 then
        match refill with
        | .error e => some e
        | .ok _ => if w.limits.singleThread then enqueued else none
      else none

def requestErrors (call : Call) (s : State) (event : Event) : List Errno :=
  match s.phase, event with
  | .fill _, .alloc (.error e) => [e]
  | .send _, .send (some (_, e)) => [e]
  | .wait w j _, .answer reply refill enqueued =>
    ((w.slots.lookup j).bind fun rq => answerError call s w rq reply refill enqueued).toList
  | .clean _ _ false, .clean outcomes => outcomes.reduceOption
  | _, _ => []

def requestFails (call : Call) (s : State) (event : Event) : Bool := (requestErrors call s event).any call.fails

def asyncReturns (s : State) (event : Event) : Option (Option Errno) :=
  match s.phase, event with
  | .clean _ error false, .clean outcomes => some (outcomes.getLast?.getD error)
  | _, _ => none

structure Watched where
  state : State
  failed : Bool

def watch (call : Call) (x : Watched) (event : Event) : Option Watched :=
  (step call x.state event).map fun next =>
    match event with
    | .start _ | .clean _ => ⟨next, false⟩
    | _ => ⟨next, x.failed || requestFails call x.state event⟩

def Call.watched (call : Call) : Watched := ⟨call.initial, false⟩

/-- The last of the requests that the clean-up waits for, if there are any, ends with an error. -/
def LastWaitedFails : Event → Prop
  | .clean outcomes => outcomes.getLast? ≠ some none
  | _ => True

variable {call : Call}

variable {w : Window} {s next : State} {event : Event}

theorem clean_of_refillError {j n : Nat} {done : Bool} {rq : RwRq} {auio : Uio}
    {refill : Except Errno Allotment} {enqueued : Option Errno} {phase : Phase} {e : Errno}
    (failed : (if shortRead call n rq.ioLen ∨ w.master.resid ≠ 0 then
        match refill with
        | .error e => some e
        | .ok _ => if w.limits.singleThread then enqueued else none
      else none) = some e)
    (refilled : refillSlot call { w with rresid := w.rresid + n } j done rq n auio refill enqueued = some phase) :
    ∃ w, phase = .clean w (some e) false := by
  unfold refillSlot at refilled
  dsimp only at refilled
  split at failed
  · rename_i wanted
    rw [if_pos wanted] at refilled
    cases refill with
    | error e' =>
      cases failed
      dsimp only at refilled
      split at refilled <;> cases refilled
      exact ⟨_, rfl⟩
    | ok allotment =>
      dsimp only at failed refilled
      rw [failed] at refilled
      cases refilled
      exact ⟨_, rfl⟩
  · cases failed

theorem clean_of_answerError {j : Nat} {done : Bool} {rq : RwRq} {reply : Reply}
    {refill : Except Errno Allotment} {enqueued : Option Errno} {e : Errno}
    (failed : answerError call s w rq reply refill enqueued = some e)
    (answered : answerSlot call s w j done rq reply refill enqueued = some next) :
    ∃ w, next.phase = .clean w (some e) false := by
  match reply with
  | .error (e', reconnected) =>
    cases reconnected with
    | true => cases failed
    | false =>
      cases failed
      cases answered
      exact ⟨_, rfl⟩
  | .ok mdp =>
    unfold answerSlot at answered
    unfold answerError at failed
    dsimp only at answered failed
    cases parsed : parseOne call s rq mdp with
    | mk result rest =>
      rw [parsed] at answered failed
      cases result with
      | error e' =>
        cases failed
        cases answered
        exact ⟨_, rfl⟩
      | ok n =>
        obtain ⟨phase, refilled, rfl⟩ := Option.map_eq_some_iff.mp answered
        exact clean_of_refillError failed refilled

theorem clean_of_requestFails (waits : ∀ outcomes, event ≠ .clean outcomes)
    (failed : requestFails call s event) (taken : step call s event = some next) :
    ∃ w e, next.phase = .clean w (some e) false := by
  unfold requestFails requestErrors at failed
  unfold step at taken
  split at failed
  · rename_i w e phase
    rw [phase] at taken
    dsimp only at taken
    split at taken <;> cases taken
    exact ⟨_, e, rfl⟩
  · rename_i w j e phase
    rw [phase] at taken
    dsimp only at taken
    split at taken <;> cases taken
    exact ⟨_, e, rfl⟩
  · rename_i w j done reply refill enqueued phase
    rw [phase] at taken
    obtain ⟨rq, found, answered⟩ := Option.bind_eq_some_iff.mp taken
    rw [found, Option.bind_some] at failed
    cases ended : answerError call s w rq reply refill enqueued with
    | none =>
      rw [ended] at failed
      cases failed
    | some e =>
      obtain ⟨w, phase⟩ := clean_of_answerError ended answered
      exact ⟨w, e, phase⟩
  · exact absurd rfl (waits _)
  · cases failed

theorem event_of_clean {error : Option Errno} {reconnect : Bool}
    (phase : s.phase = .clean w error reconnect) (taken : step call s event = some next) :
    ∃ outcomes, event = .clean outcomes := by
  unfold step at taken
  rw [phase] at taken
  cases event with
  | clean outcomes => exact ⟨outcomes, rfl⟩
  | _ => cases taken

def Watched.Pending (x : Watched) : Prop := x.failed = true → ∃ w e, x.state.phase = .clean w (some e) false

theorem pending_watch {x next : Watched} (pending : x.Pending)
    (taken : watch call x event = some next) : next.Pending := by
  obtain ⟨after, stepped, rfl⟩ := Option.map_eq_some_iff.mp taken
  split
  · exact fun seen => by cases seen
  · exact fun seen => by cases seen
  · rename_i started cleaned
    intro seen
    rcases Bool.or_eq_true_iff.mp seen with before | now
    · obtain ⟨w, e, phase⟩ := pending before
      obtain ⟨outcomes, rfl⟩ := event_of_clean phase stepped
      exact absurd rfl (cleaned outcomes)
    · exact clean_of_requestFails cleaned now stepped

theorem finish_of_asyncReturns {result : Option Errno} (returns : asyncReturns s event = some result)
    (taken : step call s event = some next) : ∃ ended len, next = State.finish call ended result len := by
  unfold asyncReturns at returns
  split at returns
  · rename_i w error outcomes phase
    cases returns
    simp only [step, phase] at taken
    split at taken
    · cases taken
      unfold finishWindow
      dsimp only
      rw [if_neg Bool.false_ne_true]
      split <;> exact ⟨_, _, rfl⟩
    · cases taken
  · cases returns

theorem any_fails_reduceOption {outcomes : List (Option Errno)} (failed : outcomes.reduceOption.any call.fails) :
    outcomes ≠ [] := by
  rintro rfl
  cases failed

/-- In every run, a window in which a request has failed returns an error just when the last request that the
clean-up waits for, if there is one, ends with an error. -/
theorem failure_reported_iff (call : Call) (events : List Event) (x : Watched) (event : Event)
    (result : Option Errno) (reached : run (watch call) call.watched events = some x)
    (returns : asyncReturns x.state event = some result) :
    (x.failed ∨ requestFails call x.state event → result ≠ none) ↔
      (x.failed ∨ requestFails call x.state event → LastWaitedFails event) := by
  have start : call.watched.Pending := fun seen => by cases seen
  have pending := run_preserves (watch call) (fun _ _ _ pending taken => pending_watch pending taken) start reached
  unfold asyncReturns at returns
  split at returns
  · rename_i w error outcomes phase
    cases returns
    refine forall_congr' fun failed => ?_
    show outcomes.getLast?.getD error ≠ none ↔ outcomes.getLast? ≠ some none
    cases last : outcomes.getLast? with
    | some outcome => simp
    | none =>
      have empty : outcomes = [] := List.getLast?_eq_none_iff.mp last
      rcases failed with before | now
      · obtain ⟨w, e, phase'⟩ := pending before
        cases phase.symm.trans phase'
        simp
      · unfold requestFails requestErrors at now
        rw [phase] at now
        exact absurd empty (any_fails_reduceOption now)
  · cases returns

def firstFails : List Event :=
  [.start threeAtATime, .alloc plenty, .alloc plenty, .alloc plenty, .send none,
   .answer (.error (.eio, false)) plenty none]

theorem firstFails_seen : ∃ x, run (watch nineBytes) nineBytes.watched firstFails = some x ∧ x.failed = true ∧
    ∃ w, x.state.phase = .clean w (some .eio) false ∧ w.slots.inUse.length = 2 := by
  have final : (run (watch nineBytes) nineBytes.watched firstFails).map (fun x => (x.failed, x.state.phase)) =
      some (true, .clean
        { limits := threeAtATime, len := 9, savedRresid := 0, rresid := 0, master := ⟨9, 9, 0⟩,
          slots := [none, some ⟨⟨3, 3, 6⟩, 3, 3, []⟩, some ⟨⟨6, 6, 3⟩, 3, 6, []⟩] } (some .eio) false) := by
    decide +kernel
  obtain ⟨x, reached, same⟩ := Option.map_eq_some_iff.mp final
  obtain ⟨failed, phase⟩ := Prod.mk.inj same
  exact ⟨x, reached, failed, _, phase, rfl⟩

theorem failure_reported_lastFails :
    ∃ x, run (watch nineBytes) nineBytes.watched firstFails = some x ∧ x.failed = true ∧
      (x.failed ∨ requestFails nineBytes x.state (.clean [none, some .eio]) → some Errno.eio ≠ none) := by
  obtain ⟨x, reached, failed, w, phase, -⟩ := firstFails_seen
  refine ⟨x, reached, failed, ?_⟩
  have returns : asyncReturns x.state (.clean [none, some .eio]) = some (some .eio) := by
    unfold asyncReturns
    rw [phase]
    rfl
  refine (failure_reported_iff nineBytes firstFails x _ _ reached returns).mpr fun _ => ?_
  exact fun last => by cases last

/-- The other two requests succeed, and nothing is reported. -/
theorem failure_hidden :
    ∃ x next, run (watch nineBytes) nineBytes.watched firstFails = some x ∧ x.failed = true ∧
      step nineBytes x.state (.clean [none, none]) = some next ∧
      asyncReturns x.state (.clean [none, none]) = some none := by
  obtain ⟨x, reached, failed, w, phase, two⟩ := firstFails_seen
  refine ⟨x, finishWindow nineBytes x.state w (some .eio) false [none, none], reached, failed, ?_, ?_⟩
  · unfold step
    rw [phase]
    exact if_pos two.symm
  · unfold asyncReturns
    rw [phase]
    rfl

end SmbClient.ReadWrite
