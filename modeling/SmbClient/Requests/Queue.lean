import SmbClient.Channels.Iod
import SmbClient.Mbuf.Chain

/-! The requests of a connection: `smb_iod_rq_enqueue`, `smb_iod_removerq` and what a reconnect does to the list
and its counters. Each call is one step. -/

namespace SmbClient.Requests
open SmbClient.Lib SmbClient.Mbuf SmbClient.Channels

structure Rq where
  id : Nat
  smb2 : Bool := true
  async : Bool := false
  reconnected : Bool := false
  rqsessionid : Nat := 0
  deriving DecidableEq, Repr

structure Listed where
  rqp : Rq
  internal : Bool := false
  /-- The request has raised `iod_muxcnt`, and no reconnect has set that to zero since. -/
  counted : Bool := false
  deriving DecidableEq, Repr

structure Queue where
  rqlist : List Listed := []
  muxcnt : Int := 0
  asynccnt : Int := 0
  muxwant : Nat := 0
  deriving DecidableEq, Repr

structure Call where
  rqp : Rq
  /-- The other requests of a compound one. -/
  nextRqps : List Rq := []
  /-- `sr_context` is the iod's own. -/
  ownContext : Bool := false
  /-- The share of the request has a soft mount timer. -/
  softTimer : Bool := false
  timedOut : Bool := false
  state : IodState := .sessionActive
  reconnect : Bool := false
  shutdown : Bool := false
  smb2Session : Bool := true
  maxmux : Nat := 0
  sessionId : Nat := 0
  /-- The error of `smb_iod_rq_sign`. -/
  sign : Option Errno := none
  /-- `sr_lerror` after `smb_iod_sendrq`. -/
  lerror : Option Errno := none
  deriving DecidableEq, Repr

inductive Outcome
  | returned (error : Option Errno) (q : Queue) (rqps : List Rq)
  /-- The call waits for another request to end. -/
  | sleeps (q : Queue)
  deriving DecidableEq, Repr

namespace Call

def softMount (c : Call) : Except Errno Rq :=
  if c.reconnect && c.softTimer then
    if c.timedOut then .error .etimedout
    else if c.rqp.smb2 then .ok { c.rqp with reconnected := true }
    else .ok c.rqp
  else .ok c.rqp

def stale (c : Call) (rqp : Rq) : Bool := rqp.rqsessionid != c.sessionId

end Call

namespace Queue

variable (q : Queue)

def checks (c : Call) : Except Outcome Rq :=
  if c.state = .dead ∨ c.state = .notConn then .error (.returned (some .enotconn) q (c.rqp :: c.nextRqps))
  else
    match c.softMount with
    | .error e => .error (.returned (some e) q (c.rqp :: c.nextRqps))
    | .ok rqp =>
      let rqps := rqp :: c.nextRqps
      if rqp.smb2 then
        if rqps.any c.stale then
          .error (.returned (some .eagain) q
            (rqps.map fun rqp => { rqp with reconnected := rqp.reconnected || c.stale rqp }))
        else .ok rqp
      else if c.smb2Session then .error (.returned (some .erpcmismatch) q rqps)
      else if (c.maxmux : Int) ≤ q.muxcnt then .error (.sleeps { q with muxwant := q.muxwant + 1 })
      else if rqp.async ∧ (c.maxmux / 3 * 2 : Nat) ≤ q.asynccnt then .error (.returned (some .ewouldblock) q rqps)
      else .ok rqp

def raised (rqp : Rq) : Queue :=
  { q with asynccnt := if rqp.async then q.asynccnt + 1 else q.asynccnt, muxcnt := q.muxcnt + 1 }

def smbIodRemoverq (id : Nat) : Option Queue :=
  (q.rqlist.find? (·.rqp.id == id)).map fun e =>
    let q := { q with rqlist := q.rqlist.eraseP (·.rqp.id == id) }
    if e.internal then q
    else
      { q with
        asynccnt := if e.rqp.async then q.asynccnt - 1 else q.asynccnt
        muxcnt := if e.rqp.reconnected then q.muxcnt else q.muxcnt - 1
        muxwant := if e.rqp.smb2 then q.muxwant else q.muxwant - 1 }

def signed (c : Call) : Option Errno := if c.rqp.smb2 then c.sign else none

def enqueueInternal (c : Call) : Outcome :=
  let rqps := c.rqp :: c.nextRqps
  match signed c with
  | some e => .returned (some e) q rqps
  | none =>
    let listed := { q with rqlist := { rqp := c.rqp, internal := true } :: q.rqlist }
    match c.lerror with
    | some e => .returned (some e) ((listed.smbIodRemoverq c.rqp.id).getD listed) rqps
    | none => .returned none listed rqps

def smbIodRqEnqueue (c : Call) : Outcome :=
  if c.ownContext then q.enqueueInternal c
  else
    match q.checks c with
    | .error outcome => outcome
    | .ok rqp =>
      let q := q.raised rqp
      let rqps := rqp :: c.nextRqps
      if c.shutdown then .returned (some .eagain) q rqps
      else
        match signed c with
        | some e => .returned (some e) q rqps
        | none => .returned none { q with rqlist := q.rqlist ++ [{ rqp, counted := true }] } rqps

/-! ## Steps -/

inductive Event
  | enqueue (c : Call)
  | removerq (id : Nat)
  /-- The request goes to the end of the list, for its next reply. -/
  | reinsert (id : Nat)
  /-- A reconnect marks requests that wait for it. -/
  | mark (ids : List Nat)
  /-- The reconnect has a connection, and starts to count anew. -/
  | reset
  deriving DecidableEq, Repr

def markRq (ids : List Nat) (e : Listed) : Listed :=
  if e.rqp.id ∈ ids ∧ e.internal = false ∧ e.rqp.async = false then { e with rqp := { e.rqp with reconnected := true } }
  else e

def step : Event → Option Queue
  | .enqueue c =>
    match q.smbIodRqEnqueue c with
    | .returned _ q _ => some q
    | .sleeps q => some q
  | .removerq id => q.smbIodRemoverq id
  | .reinsert id =>
    (q.rqlist.find? (·.rqp.id == id)).map fun e => { q with rqlist := q.rqlist.eraseP (·.rqp.id == id) ++ [e] }
  | .mark ids => some { q with rqlist := q.rqlist.map (markRq ids) }
  | .reset => some { q with muxcnt := 0, rqlist := q.rqlist.map fun e => { e with counted := false } }

/-- A call that fails leaves the list and the counters as they are. -/
def Undisturbed (c : Call) : Prop :=
  ∀ e after rqps, q.smbIodRqEnqueue c = .returned (some e) after rqps → after = q

/-- Nothing fails any more once the counters are raised. -/
def Settled (c : Call) : Prop :=
  c.ownContext = true ∨ (q.checks c).isOk = false ∨ c.shutdown = false ∧ signed c = none

/-- The counters are the numbers of requests on the list that were counted. -/
structure Counts (q : Queue) : Prop where
  mux : q.muxcnt = q.rqlist.countP (·.counted)
  async : q.asynccnt = q.rqlist.countP fun e => e.rqp.async && !e.internal

/-- A request is taken off with `SMBR_RECONNECTED` set just if the counter was set to zero since it was raised
for it. -/
def Meets : Event → Prop
  | .enqueue c => q.Settled c
  | .removerq id => ∀ e, q.rqlist.find? (·.rqp.id == id) = some e → e.internal = false →
      (e.rqp.reconnected = true ↔ e.counted = false)
  | _ => True

instance (q : Queue) (event : Event) : Decidable (q.Meets event) := by
  cases event <;> unfold Meets
  case enqueue => unfold Settled; infer_instance
  all_goals infer_instance

end Queue

section
variable {q : Queue}

/-! ## One call -/

variable {c : Call} {after : Queue}

theorem checks_error {outcome : Outcome} (refused : q.checks c = .error outcome) :
    (∃ e rqps, outcome = .returned (some e) q rqps) ∨ outcome = .sleeps { q with muxwant := q.muxwant + 1 } := by
  unfold Queue.checks at refused
  split at refused
  · cases refused
    exact .inl ⟨_, _, rfl⟩
  · cases soft : c.softMount with
    | error e =>
      rw [soft] at refused
      cases refused
      exact .inl ⟨_, _, rfl⟩
    | ok rqp =>
      rw [soft] at refused
      dsimp only at refused
      split at refused
      · split at refused
        · cases refused
          exact .inl ⟨_, _, rfl⟩
        · cases refused
      · split at refused
        · cases refused
          exact .inl ⟨_, _, rfl⟩
        · split at refused
          · cases refused
            exact .inr rfl
          · split at refused
            · cases refused
              exact .inl ⟨_, _, rfl⟩
            · cases refused

theorem smbIodRqEnqueue_refused {outcome : Outcome} (regular : c.ownContext = false)
    (refused : q.checks c = .error outcome) : q.smbIodRqEnqueue c = outcome := by
  unfold Queue.smbIodRqEnqueue
  rw [refused, regular]
  rfl

theorem enqueueInternal_failed {e : Errno} {rqps : List Rq}
    (failed : q.enqueueInternal c = .returned (some e) after rqps) : after = q := by
  unfold Queue.enqueueInternal at failed
  dsimp only at failed
  split at failed
  · cases failed
    rfl
  · split at failed
    · cases failed
      simp [Queue.smbIodRemoverq]
    · cases failed

theorem smbIodRqEnqueue_admitted {rqp : Rq} (regular : c.ownContext = false)
    (admitted : q.checks c = .ok rqp) : q.smbIodRqEnqueue c =
      if c.shutdown then .returned (some .eagain) (q.raised rqp) (rqp :: c.nextRqps)
      else match Queue.signed c with
        | some e => .returned (some e) (q.raised rqp) (rqp :: c.nextRqps)
        | none => .returned none { q.raised rqp with rqlist := q.rqlist ++ [{ rqp, counted := true }] }
            (rqp :: c.nextRqps) := by
  unfold Queue.smbIodRqEnqueue
  rw [admitted, regular]
  rfl

theorem raised_ne (rqp : Rq) : q.raised rqp ≠ q := by
  intro same
  have mux : q.muxcnt + 1 = q.muxcnt := congrArg Queue.muxcnt same
  omega

theorem undisturbed_iff_settled (q : Queue) (c : Call) : q.Undisturbed c ↔ q.Settled c := by
  cases own : c.ownContext with
  | true =>
    have internal : q.smbIodRqEnqueue c = q.enqueueInternal c := if_pos own
    have undisturbed : q.Undisturbed c := by
      intro e after rqps failed
      rw [internal] at failed
      exact enqueueInternal_failed failed
    simp [undisturbed, Queue.Settled, own]
  | false =>
    cases checked : q.checks c with
    | error outcome =>
      have undisturbed : q.Undisturbed c := by
        intro e after rqps failed
        rw [smbIodRqEnqueue_refused own checked] at failed
        rcases checks_error checked with ⟨_, _, rfl⟩ | rfl
        · cases failed
          rfl
        · cases failed
      simp [undisturbed, Queue.Settled, checked, Except.isOk, Except.toBool]
    | ok rqp =>
      unfold Queue.Undisturbed Queue.Settled
      rw [smbIodRqEnqueue_admitted own checked, checked]
      cases c.shutdown with
      | true => simp [own, Except.isOk, Except.toBool, raised_ne]
      | false => cases Queue.signed c <;> simp [own, Except.isOk, Except.toBool, raised_ne]

theorem smbIodRqEnqueue_sleeps (waits : q.smbIodRqEnqueue c = .sleeps after) :
    after = { q with muxwant := q.muxwant + 1 } := by
  cases own : c.ownContext with
  | true =>
    unfold Queue.smbIodRqEnqueue Queue.enqueueInternal at waits
    rw [if_pos own] at waits
    dsimp only at waits
    split at waits
    · cases waits
    · split at waits <;> cases waits
  | false =>
    cases checked : q.checks c with
    | error outcome =>
      rw [smbIodRqEnqueue_refused own checked] at waits
      rcases checks_error checked with ⟨_, _, rfl⟩ | rfl <;> cases waits
      rfl
    | ok rqp =>
      rw [smbIodRqEnqueue_admitted own checked] at waits
      split at waits
      · cases waits
      · split at waits <;> cases waits

/-! ## Histories -/

theorem rqlist_split {id : Nat} {e : Listed} (found : q.rqlist.find? (·.rqp.id == id) = some e) :
    ∃ front back, q.rqlist = front ++ e :: back ∧ q.rqlist.eraseP (·.rqp.id == id) = front ++ back := by
  obtain ⟨holds, front, back, split, before⟩ := List.find?_eq_some_iff_append.mp found
  refine ⟨front, back, split, ?_⟩
  have this : (e :: back).eraseP (·.rqp.id == id) = back := by simp [holds]
  rw [split, List.eraseP_append_right, this]
  intro x member
  simpa using before x member

structure Queue.Sound (q : Queue) : Prop extends q.Counts where
  internal : ∀ e ∈ q.rqlist, e.internal = true → e.counted = false

theorem Queue.Sound.enqueue (sound : q.Sound) {rqps : List Rq}
    (done : q.smbIodRqEnqueue c = .returned none after rqps) : after.Sound := by
  cases own : c.ownContext with
  | true =>
    unfold Queue.smbIodRqEnqueue Queue.enqueueInternal at done
    rw [if_pos own] at done
    dsimp only at done
    split at done
    · cases done
    · split at done
      · cases done
      · cases done
        exact ⟨⟨by simp [sound.mux], by simp [sound.async]⟩, by simpa using sound.internal⟩
  | false =>
    cases checked : q.checks c with
    | error outcome =>
      rw [smbIodRqEnqueue_refused own checked] at done
      rcases checks_error checked with ⟨_, _, rfl⟩ | rfl <;> cases done
    | ok rqp =>
      rw [smbIodRqEnqueue_admitted own checked] at done
      split at done
      · cases done
      · split at done
        · cases done
        · cases done
          refine ⟨⟨?_, ?_⟩, ?_⟩
          · simp [Queue.raised, sound.mux]
          · unfold Queue.raised
            cases async : rqp.async <;> simp [sound.async, async]
          · intro e member internal
            simp only [List.mem_append, List.mem_singleton] at member
            rcases member with old | new
            · exact sound.internal e old internal
            · rw [new] at internal
              cases internal

theorem Queue.Sound.removerq (sound : q.Sound) {id : Nat} (meets : q.Meets (.removerq id))
    (taken : q.smbIodRemoverq id = some after) : after.Sound := by
  unfold Queue.smbIodRemoverq at taken
  obtain ⟨e, found, rfl⟩ := Option.map_eq_some_iff.mp taken
  obtain ⟨front, back, split, erased⟩ := rqlist_split found
  have mux := sound.mux
  have async := sound.async
  have others := sound.internal
  rw [split] at mux async others
  simp only [List.countP_append, List.countP_cons] at mux async
  dsimp only
  rw [erased]
  split
  · rename_i internal
    have uncounted := others e (by simp) internal
    refine ⟨⟨?_, ?_⟩, fun x member => others x (by simp at member ⊢; tauto)⟩
    · simp [mux, uncounted]
    · simp [async, internal]
  · rename_i regular
    rw [Bool.not_eq_true] at regular
    have marked := meets e found regular
    refine ⟨⟨?_, ?_⟩, fun x member => others x (by simp at member ⊢; tauto)⟩
    · cases reconnected : e.rqp.reconnected with
      | true => simp [mux, marked.mp reconnected]
      | false =>
        have counted : e.counted = true := by simpa [reconnected] using marked
        simp [mux, counted]
        omega
    · cases isAsync : e.rqp.async with
      | true =>
        simp [async, isAsync, regular]
        omega
      | false => simp [async, isAsync]

theorem countP_markRq (p : Listed → Bool) (ids : List Nat) (l : List Listed)
    (unmarked : ∀ e, p (Queue.markRq ids e) = p e) : (l.map (Queue.markRq ids)).countP p = l.countP p := by
  rw [List.countP_map]
  congr 1
  funext e
  exact unmarked e

theorem sound_step {event : Queue.Event} (sound : q.Sound) (meets : q.Meets event)
    (taken : q.step event = some after) : after.Sound := by
  cases event with
  | enqueue c =>
    have undisturbed := (undisturbed_iff_settled q c).mpr meets
    unfold Queue.step at taken
    dsimp only at taken
    split at taken
    · rename_i error next rqps done
      cases taken
      cases error with
      | none => exact sound.enqueue done
      | some e => exact undisturbed e _ _ done ▸ sound
    · rename_i next waits
      cases taken
      rw [smbIodRqEnqueue_sleeps waits]
      exact ⟨⟨sound.mux, sound.async⟩, sound.internal⟩
  | removerq id => exact sound.removerq meets taken
  | reinsert id =>
    obtain ⟨e, found, rfl⟩ := Option.map_eq_some_iff.mp taken
    obtain ⟨front, back, split, erased⟩ := rqlist_split found
    rw [erased]
    have mux := sound.mux
    have async := sound.async
    have internal := sound.internal
    rw [split] at mux async internal
    simp only [List.countP_append, List.countP_cons] at mux async
    refine ⟨⟨?_, ?_⟩, fun x member => internal x (by simp at member ⊢; tauto)⟩
    · simp only [mux, List.countP_append, List.countP_cons, List.countP_nil]
      omega
    · simp only [async, List.countP_append, List.countP_cons, List.countP_nil]
      omega
  | mark ids =>
    cases taken
    have counted (e : Listed) : (Queue.markRq ids e).counted = e.counted := by
      unfold Queue.markRq
      split <;> rfl
    have internal (e : Listed) : (Queue.markRq ids e).internal = e.internal := by
      unfold Queue.markRq
      split <;> rfl
    have async (e : Listed) : (Queue.markRq ids e).rqp.async = e.rqp.async := by
      unfold Queue.markRq
      split <;> rfl
    refine ⟨⟨?_, ?_⟩, ?_⟩
    · rw [countP_markRq _ _ _ counted]
      exact sound.mux
    · rw [countP_markRq _ _ _ fun e => by rw [async, internal]]
      exact sound.async
    · intro e member isInternal
      obtain ⟨old, there, rfl⟩ := List.mem_map.mp member
      rw [internal] at isInternal
      rw [counted]
      exact sound.internal old there isInternal
  | reset =>
    cases taken
    refine ⟨⟨?_, ?_⟩, ?_⟩
    · simp [List.countP_map, Function.comp_def]
    · simp [List.countP_map, Function.comp_def, sound.async]
    · intro e member _
      obtain ⟨old, _, rfl⟩ := List.mem_map.mp member
      rfl

/-- A call that fails leaves list and counters alone just if nothing fails after the counters are raised. In a
history of such calls, in which `SMBR_RECONNECTED` tells the requests that are not counted any more, the counters
are right throughout. -/
theorem smbIodRqEnqueue_counted (q : Queue) (c : Call) : (q.Undisturbed c ↔ q.Settled c) ∧
    ∀ events last, AllSteps Queue.step Queue.Meets {} events → run Queue.step {} events = some last → last.Counts := by
  refine ⟨undisturbed_iff_settled q c, fun events last meets reached => ?_⟩
  have start : Queue.Sound {} := ⟨⟨rfl, rfl⟩, fun e member => by cases member⟩
  exact (run_invariant Queue.step (fun _ _ _ sound meets taken => sound_step sound meets taken) start meets
    reached).toCounts

def reconnected : List Queue.Event :=
  [.enqueue { rqp := { id := 0 } }, .mark [0], .reset, .enqueue { rqp := { id := 1, async := true } }, .removerq 0]

theorem smbIodRqEnqueue_counted_reconnected : ∃ last, run Queue.step {} reconnected = some last ∧
    last.Counts ∧ last.muxcnt = 1 ∧ last.asynccnt = 1 := by
  have result : (run Queue.step {} reconnected).map (fun last => (last.muxcnt, last.asynccnt)) = some (1, 1) := by
    decide +kernel
  obtain ⟨last, reached, same⟩ := Option.map_eq_some_iff.mp result
  have counts := (smbIodRqEnqueue_counted {} { rqp := { id := 0 } }).2 reconnected last (by decide +kernel) reached
  exact ⟨last, reached, counts, congrArg Prod.fst same, congrArg Prod.snd same⟩

/-- The iod is shutting down, and the request is counted though it is never on the list. -/
theorem smbIodRqEnqueue_shutdown : ∃ q,
    Queue.smbIodRqEnqueue {} { rqp := { id := 0, async := true }, shutdown := true } =
      .returned (some .eagain) q [{ id := 0, async := true }] ∧
    q.rqlist = [] ∧ q.muxcnt = 1 ∧ q.asynccnt = 1 :=
  ⟨_, rfl, rfl, rfl, rfl⟩

end

end SmbClient.Requests
