import SmbClient.Lib.Ranges
import SmbClient.Credits.Connection

namespace SmbClient.Credits
open SmbClient.Lib Connection

variable (c : Connection)

def Connection.idRange (m : Member) : List Extent :=
  match c.rqs.lookup m.id with
  | none => []
  | some r =>
    let (_, rqp) := smb2RqMessageIdIncrement m.head c.iod r.rqp
    [⟨rqp.messageid, max rqp.creditcharge 1⟩]

def Connection.idRanges : Event → List Extent
  | .enqueue chain _ => emitted assignMessageId idRange c (c.members chain)
  | _ => []

def Connection.resetMessageId (value : Nat) : Connection :=
  { c with iod := { c.iod with messageId := value } }

inductive LifeEvent
  | event (e : Event)
  | reset (value : Nat)
  deriving DecidableEq, Repr

def Connection.lifeStep : LifeEvent → Option Connection
  | .event e => c.step e
  | .reset value => some (c.resetMessageId value)

def maxNumberedLength : Nat := 65535 * (64 * 1024)

def Connection.Numberable (m : Member) : Prop :=
  ∀ r ∈ c.rqs.lookup m.id,
    c.iod.messageId + max r.rqp.creditcharge 1 < 2 ^ 64 ∧ (m.head ∨ r.rqp.command ≠ .negotiate)

instance (c : Connection) (m : Member) : Decidable (c.Numberable m) := by
  unfold Numberable
  infer_instance

def Connection.InRange : Event → Prop
  | .build rq => ∀ len ∈ rq.rqLen, len ≤ maxNumberedLength
  | .enqueue chain _ => AllSteps assignMessageId Numberable c (c.members chain)
  | _ => True

instance (c : Connection) (e : Event) : Decidable (c.InRange e) := by
  cases e <;> unfold InRange <;> infer_instance

def Connection.LifeInRange : LifeEvent → Prop
  | .event e => c.InRange e
  | .reset _ => True

instance (c : Connection) (e : LifeEvent) : Decidable (c.LifeInRange e) := by
  cases e <;> unfold LifeInRange <;> infer_instance

def Numbered (r : Request) : Prop :=
  if r.rqp.command = .negotiate then r.rqp.creditcharge = 0 else 1 ≤ r.rqp.creditcharge

def Connection.AllNumbered : Prop := c.rqs.All Numbered

variable {iod : CreditIod} {rqp : CreditRq}

theorem smb2RqCreditCheck_pos {len : Nat} (single : rqp.creditcharge = 1) (fits : len ≤ maxNumberedLength) :
    ∃ charge, (smb2RqCreditCheck iod rqp len).2 = { rqp with creditcharge := charge } ∧ 1 ≤ charge := by
  have one : rqp = { rqp with creditcharge := 1 } := by rw [← single]
  unfold maxNumberedLength at fits
  have charge : ((len - 1) / (64 * 1024) + 1) % 2 ^ 16 = (len - 1) / (64 * 1024) + 1 := by omega
  have word : int16 ((len - 1) / (64 * 1024) + 1) ≤ 32767 := by
    unfold int16 Int.bmod
    dsimp only
    split <;> omega
  unfold smb2RqCreditCheck kCreditLowWater
  dsimp only
  rw [charge]
  split_ifs with short low most
  · exact ⟨1, one, le_rfl⟩
  · exact ⟨1, one, le_rfl⟩
  · exact ⟨_, rfl, by omega⟩
  · exact ⟨_, rfl, Nat.le_add_left 1 _⟩

theorem creditDecrementRegular_numbered {goingAway : Bool} {iod' : CreditIod} {rqp' : CreditRq}
    {rqLen rqLen' : Option Nat} (other : rqp.command ≠ .negotiate) (single : rqp.creditcharge = 1)
    (fits : ∀ len ∈ rqLen, len ≤ maxNumberedLength)
    (taken : creditDecrementRegular goingAway iod rqp rqLen = .done iod' rqp' rqLen') :
    iod'.messageId = iod.messageId ∧ Numbered { rqp := rqp' } := by
  obtain ⟨charge, checked, pos⟩ :
      ∃ charge, ((rqLen.map (smb2RqCreditCheck iod rqp)).map (·.2)).getD rqp =
        { rqp with creditcharge := charge } ∧ 1 ≤ charge := by
    cases rqLen with
    | none => exact ⟨1, by rw [← single]; rfl, le_rfl⟩
    | some len => exact smb2RqCreditCheck_pos single (fits len rfl)
  unfold creditDecrementRegular at taken
  dsimp only at taken
  rw [checked] at taken
  generalize osAddAtomic _ iod.creditsGranted = granted at taken
  split at taken
  · cases taken
    refine ⟨rfl, ?_⟩
    unfold Numbered
    dsimp only
    rw [if_neg other]
    exact pos
  · split_ifs at taken

theorem smb2RqCreditDecrement_numbered {smb2 goingAway : Bool} {iod' : CreditIod} {rqp' : CreditRq}
    {rqLen rqLen' : Option Nat} (single : rqp.creditcharge = 1) (fits : ∀ len ∈ rqLen, len ≤ maxNumberedLength)
    (taken : smb2RqCreditDecrement smb2 goingAway iod rqp rqLen = .done iod' rqp' rqLen') :
    iod'.messageId = iod.messageId ∧ Numbered { rqp := rqp' } := by
  have waved {requested : Nat} (other : rqp.command ≠ .negotiate) :
      Numbered { rqp := { rqp with creditsrequested := requested } } := by
    unfold Numbered
    dsimp only
    rw [if_neg other]
    exact single.ge
  unfold smb2RqCreditDecrement at taken
  split at taken
  case h_1 command =>
    cases taken
    exact ⟨rfl, by simp [Numbered, command]⟩
  case h_2 command =>
    cases taken
    exact ⟨rfl, waved (by simp [command])⟩
  case h_3 command =>
    cases taken
    exact ⟨rfl, waved (by simp [command])⟩
  case h_4 command =>
    cases taken
    exact ⟨rfl, waved (by simp [command])⟩
  case h_5 command => exact creditDecrementRegular_numbered (by simp [command]) single fits taken
  case h_6 =>
    split_ifs at taken
    · cases taken
      exact ⟨rfl, waved (by assumption)⟩
    · exact creditDecrementRegular_numbered (by assumption) single fits taken

variable (iod : CreditIod) (rqp : CreditRq)

@[simp] theorem wakeWaiter_messageId : (wakeWaiter iod).messageId = iod.messageId := by
  unfold wakeWaiter
  split <;> rfl

@[simp] theorem smb2RqCreditIncrement_messageId : (smb2RqCreditIncrement iod rqp).messageId = iod.messageId := by
  unfold smb2RqCreditIncrement
  split
  · rfl
  · split <;> simp

structure Unnumbered (c next : Connection) : Prop where
  counter : next.iod.messageId = c.iod.messageId
  numbered : c.AllNumbered → next.AllNumbered

namespace Unnumbered
variable {c mid next : Connection}

theorem trans (first : Unnumbered c mid) (second : Unnumbered mid next) : Unnumbered c next :=
  ⟨second.counter.trans first.counter, fun all => second.numbered (first.numbered all)⟩

theorem store {id : Nat} {r r' : Request} (found : c.rqs.lookup id = some r) (stored : next.rqs = c.rqs.store id r')
    (same : r'.rqp.command = r.rqp.command ∧ r'.rqp.creditcharge = r.rqp.creditcharge)
    (counter : next.iod.messageId = c.iod.messageId) : Unnumbered c next := by
  refine ⟨counter, fun all => ?_⟩
  have numbered := Slots.All.lookup all found
  unfold AllNumbered
  rw [stored]
  apply Slots.All.store all
  unfold Numbered at numbered ⊢
  rwa [same.1, same.2]

theorem sameRqs (counter : next.iod.messageId = c.iod.messageId) (rqs : next.rqs = c.rqs) :
    Unnumbered c next :=
  ⟨counter, fun all => (congrArg (Slots.All Numbered) rqs).mpr all⟩

end Unnumbered

section
variable {c next : Connection}

variable {id : Nat}

theorem unnumbered_transmit (taken : c.transmit id = some next) : Unnumbered c next := by
  obtain ⟨r, found, taken⟩ := Option.bind_eq_some_iff.mp taken
  split at taken
  · cases taken
  · cases taken
    exact Unnumbered.store found rfl ⟨rfl, rfl⟩ rfl

theorem unnumbered_markSent {now : Nat} (taken : c.markSent id now = some next) :
    Unnumbered c next := by
  obtain ⟨r, found, rfl⟩ := Option.map_eq_some_iff.mp taken
  exact Unnumbered.store found rfl ⟨rfl, rfl⟩ rfl

theorem unnumbered_send {chain : List Nat} {now : Nat} (taken : c.send chain now = some next) :
    Unnumbered c next := by
  unfold send at taken
  split at taken
  · obtain ⟨sent, transmitted, taken⟩ := Option.bind_eq_some_iff.mp taken
    obtain ⟨id, _, taken⟩ := Option.bind_eq_some_iff.mp taken
    have each (s : Connection) (id : Nat) (after : Connection) (so : Unnumbered c s) (_ : True)
        (one : s.transmit id = some after) : Unnumbered c after := so.trans (unnumbered_transmit one)
    have all := run_invariant transmit each (Unnumbered.sameRqs rfl rfl)
      (AllSteps.of_forall transmit (fun _ _ => trivial) c) transmitted
    exact all.trans (unnumbered_markSent taken)
  · cases taken

theorem unnumbered_interim {credits : Nat} (taken : c.interim id credits = some next) :
    Unnumbered c next := by
  unfold interim at taken
  split at taken
  · dsimp only at taken
    split at taken
    · cases taken
      exact Unnumbered.sameRqs rfl rfl
    · rename_i r found
      cases taken
      exact Unnumbered.store (queued_eq_some found) rfl ⟨rfl, rfl⟩ (by simp [dropGrant])
  · cases taken

theorem preprocessReply_unnumbered (credits : Nat) :
    (preprocessReply iod rqp credits).2.command = rqp.command ∧
      (preprocessReply iod rqp credits).2.creditcharge = rqp.creditcharge ∧
      (preprocessReply iod rqp credits).1.messageId = iod.messageId := by
  unfold preprocessReply
  split
  · exact ⟨rfl, rfl, smb2RqCreditIncrement_messageId _ _⟩
  · exact ⟨rfl, rfl, rfl⟩

theorem unnumbered_reply {credits : Nat} {wake : Bool} (taken : c.reply id credits wake = some next) :
    Unnumbered c next := by
  unfold reply at taken
  split at taken
  · dsimp only at taken
    split at taken
    · cases taken
      exact Unnumbered.sameRqs rfl rfl
    · rename_i r found
      split at taken
      · cases taken
        exact Unnumbered.store (queued_eq_some found) rfl ⟨rfl, rfl⟩ rfl
      · cases taken
        obtain ⟨command, charge, counter⟩ :=
          preprocessReply_unnumbered c.iod { r.rqp with response := true } credits
        exact Unnumbered.store (queued_eq_some found) rfl ⟨command, charge⟩ counter
  · cases taken

theorem unnumbered_parse (taken : c.parse id = some next) : Unnumbered c next := by
  obtain ⟨r, found, taken⟩ := Option.bind_eq_some_iff.mp taken
  obtain ⟨credits, _, rfl⟩ := Option.map_eq_some_iff.mp taken
  refine Unnumbered.store found rfl ⟨rfl, rfl⟩ ?_
  dsimp only
  split <;> simp

theorem unnumbered_pretendUnsent {r : Request} (state : RqState)
    (found : c.rqs.lookup id = some r) : Unnumbered c (c.pretendUnsent id r state) :=
  Unnumbered.store found rfl ⟨rfl, rfl⟩ rfl

theorem unnumbered_timeout (taken : c.timeout id = some next) : Unnumbered c next := by
  obtain ⟨r, found, taken⟩ := Option.bind_eq_some_iff.mp taken
  split at taken
  · cases taken
    exact unnumbered_pretendUnsent _ (queued_eq_some found)
  · cases taken

theorem unnumbered_echoSent (taken : c.echoSent id = some next) : Unnumbered c next := by
  obtain ⟨r, found, taken⟩ := Option.bind_eq_some_iff.mp taken
  split at taken
  · cases taken
    exact unnumbered_pretendUnsent _ found
  · cases taken

theorem unnumbered_sendall : Unnumbered c c.sendall := by
  refine Unnumbered.sameRqs ?_ rfl
  unfold sendall
  dsimp only
  split <;> simp

theorem unnumbered_done (taken : c.done id = some next) : Unnumbered c next := by
  obtain ⟨r, _, rfl⟩ := Option.map_eq_some_iff.mp taken
  refine ⟨?_, fun all => Slots.All.free all⟩
  dsimp only
  unfold smbRqDone
  split <;> simp

theorem unnumbered_creditStart (taken : c.creditStart = some next) : Unnumbered c next := by
  unfold creditStart at taken
  split at taken
  · cases taken
  · cases taken
    exact Unnumbered.sameRqs (by simp [smb2RqCreditStart]) rfl

theorem unnumbered_smb2RqInitInternal (rq : Build) (fits : ∀ len ∈ rq.rqLen, len ≤ maxNumberedLength) :
    Unnumbered c (c.smb2RqInitInternal rq) := by
  unfold smb2RqInitInternal
  dsimp only
  split
  · rename_i taken
    obtain ⟨counter, numbered⟩ := smb2RqCreditDecrement_numbered rfl fits taken
    split
    · exact Unnumbered.sameRqs counter rfl
    · exact ⟨counter, fun all => Slots.All.alloc all numbered⟩
  · exact Unnumbered.sameRqs rfl rfl
  · rename_i iod slept
    rw [smb2RqCreditDecrement_sleeps slept]
    exact Unnumbered.sameRqs rfl rfl

theorem assignMessageId_tiles {m : Member} (all : c.AllNumbered) (numberable : c.Numberable m)
    (taken : c.assignMessageId m = some next) :
    next.AllNumbered ∧ Tiles c.iod.messageId (c.idRange m) next.iod.messageId := by
  obtain ⟨r, found, rfl⟩ := Option.map_eq_some_iff.mp taken
  have numbered := Slots.All.lookup all found
  obtain ⟨small, headed⟩ := numberable r found
  refine ⟨Slots.All.store all numbered, ?_⟩
  unfold idRange
  rw [found]
  refine ⟨rfl, ?_⟩
  -- the amount the counter is moved by is the width of the range
  have amount : (if m.head && r.rqp.command = .negotiate then 1 else r.rqp.creditcharge) =
      max r.rqp.creditcharge 1 := by
    unfold Numbered at numbered
    split at numbered
    · have : m.head = true := by simp_all
      simp_all
    · rw [if_neg (by simp_all)]
      omega
  change c.iod.messageId + max r.rqp.creditcharge 1 = _
  simp only [smb2RqMessageIdIncrement, amount]
  exact (Nat.mod_eq_of_lt small).symm

theorem enqueue_tiles {chain : List Nat} {internal : Bool} (all : c.AllNumbered)
    (inRange : c.InRange (.enqueue chain internal)) (taken : c.enqueue chain internal = some next) :
    next.AllNumbered ∧
      Tiles c.iod.messageId (c.idRanges (.enqueue chain internal)) next.iod.messageId := by
  obtain ⟨assigned, reached, rfl⟩ := Option.map_eq_some_iff.mp taken
  exact Tiles.emitted (fun c => c.iod.messageId) (fun _ _ _ => assignMessageId_tiles) all inRange reached

theorem Unnumbered.tiles (unnumbered : Unnumbered c next) (all : c.AllNumbered) :
    next.AllNumbered ∧ Tiles c.iod.messageId [] next.iod.messageId :=
  ⟨unnumbered.numbered all, unnumbered.counter.symm⟩

theorem step_tiles {e : Event} (all : c.AllNumbered) (inRange : c.InRange e) (taken : c.step e = some next) :
    next.AllNumbered ∧ Tiles c.iod.messageId (c.idRanges e) next.iod.messageId := by
  cases e with
  | build rq =>
    cases taken
    exact (unnumbered_smb2RqInitInternal rq inRange).tiles all
  | sleepTimedOut =>
    cases taken
    exact Unnumbered.tiles (.sameRqs (wakeWaiter_messageId c.iod) rfl) all
  | enqueue chain internal => exact enqueue_tiles all inRange taken
  | send chain now => exact (unnumbered_send taken).tiles all
  | interim id credits => exact (unnumbered_interim taken).tiles all
  | reply id credits wake => exact (unnumbered_reply taken).tiles all
  | parse id => exact (unnumbered_parse taken).tiles all
  | timeout id => exact (unnumbered_timeout taken).tiles all
  | echoSent id => exact (unnumbered_echoSent taken).tiles all
  | sendall =>
    cases taken
    exact unnumbered_sendall.tiles all
  | remove id =>
    cases taken
    exact (Unnumbered.sameRqs rfl rfl).tiles all
  | done id => exact (unnumbered_done taken).tiles all
  | creditStart => exact (unnumbered_creditStart taken).tiles all

theorem lifeStep_numbered {e : LifeEvent} (all : c.AllNumbered) (inRange : c.LifeInRange e)
    (taken : c.lifeStep e = some next) : next.AllNumbered := by
  cases e with
  | event e => exact (step_tiles all inRange taken).1
  | reset value =>
    cases taken
    exact all

end

/-- The counter is reset to `value` at any point in the life of a connection, and `segment` is what
happens until its next reset. -/
theorem messageIds_disjoint_contiguous {before : List LifeEvent} {c : Connection} {value : Nat}
    {segment : List Event} {last : Connection} (reached : run Connection.lifeStep .initial before = some c)
    (beforeInRange : AllSteps Connection.lifeStep Connection.LifeInRange .initial before)
    (taken : run Connection.step (c.resetMessageId value) segment = some last)
    (inRange : AllSteps Connection.step Connection.InRange (c.resetMessageId value) segment) :
    let ranges := emitted Connection.step idRanges (c.resetMessageId value) segment
    (ranges.Pairwise fun e f => Disjoint e.toSet f.toSet) ∧
      ⋃ e ∈ ranges, e.toSet = Set.Ico value last.iod.messageId := by
  have all : c.AllNumbered :=
    run_invariant lifeStep (fun _ _ _ => lifeStep_numbered) (by intro r member; cases member)
      beforeInRange reached
  have start : (c.resetMessageId value).AllNumbered := all
  obtain ⟨_, tiles⟩ := Tiles.emitted (fun c => c.iod.messageId) (fun _ _ _ => step_tiles) start inRange taken
  exact ⟨tiles.pairwise, tiles.iUnion⟩

private def loggedIn : List Event :=
  [.build { command := .negotiate }, .enqueue [0] true, .send [0] 0, .reply 0 1 true, .parse 0, .done 0,
   .build { command := .sessionSetup }, .enqueue [1] true, .send [1] 1, .reply 1 300 true, .parse 1,
   .done 1, .creditStart]

private def compoundRead : List Event :=
  [.build { command := .read, compound := true, rqLen := some 300000 },
   .build { command := .close, compound := true }, .enqueue [2, 3] false]

theorem messageIds_compoundRead :
    let ranges := emitted Connection.step idRanges (Connection.initial.resetMessageId 0)
      (loggedIn ++ compoundRead)
    ∃ last, run Connection.step (Connection.initial.resetMessageId 0) (loggedIn ++ compoundRead) = some last ∧
      last.iod.messageId = 8 ∧ (ranges.Pairwise fun e f => Disjoint e.toSet f.toSet) ∧
      ⋃ e ∈ ranges, e.toSet = Set.Ico 0 last.iod.messageId := by
  have final : (run Connection.step (Connection.initial.resetMessageId 0) (loggedIn ++ compoundRead)).map
      (·.iod.messageId) = some 8 := by decide +kernel
  obtain ⟨last, taken, counter⟩ := Option.map_eq_some_iff.mp final
  have reached : run lifeStep .initial [] = some .initial := rfl
  exact ⟨last, taken, counter, messageIds_disjoint_contiguous reached trivial taken (by decide +kernel)⟩

private def hugeQuery : List Event :=
  [.build { command := .queryDirectory, rqLen := some 0xFFFFFFFF }, .enqueue [2] false,
   .build { command := .close }, .enqueue [3] false]

theorem messageIds_hugeQuery :
    let ranges := emitted Connection.step idRanges (Connection.initial.resetMessageId 0)
      (loggedIn ++ hugeQuery)
    (run Connection.step (Connection.initial.resetMessageId 0) (loggedIn ++ hugeQuery)).isSome ∧
      ranges = [⟨0, 1⟩, ⟨1, 1⟩, ⟨2, 1⟩, ⟨2, 1⟩] ∧
      ¬ ranges.Pairwise fun e f => Disjoint e.toSet f.toSet := by
  intro ranges
  have assigned : ranges = [⟨0, 1⟩, ⟨1, 1⟩, ⟨2, 1⟩, ⟨2, 1⟩] := by decide +kernel
  refine ⟨by decide +kernel, assigned, fun disjoint => ?_⟩
  rw [assigned] at disjoint
  have last : Disjoint (Extent.toSet ⟨2, 1⟩) (Extent.toSet ⟨2, 1⟩) := by
    simp only [List.pairwise_cons] at disjoint
    exact disjoint.2.2.1 _ List.mem_cons_self
  have shared : 2 ∈ Extent.toSet ⟨2, 1⟩ := ⟨le_rfl, Nat.lt_succ_self 2⟩
  exact Set.disjoint_left.mp last shared shared

end SmbClient.Credits
