import SmbClient.Credits.Charge

/-!
`smb2_rq_alloc` and `smb2_rq_init_internal`: what a call that fails leaves behind of the credits it has taken and
of the references it has counted.
-/

namespace SmbClient.Credits
open SmbClient.Mbuf SmbClient.Session

structure Refs where
  session : Nat := 0
  share : Nat := 0
  iod : Nat := 0
  deriving DecidableEq, Repr

inductive ConnObj
  | session (zombie : Bool)
  | share (zombie sessionZombie : Bool)
  | other
  deriving DecidableEq, Repr

structure Wake where
  granted : Nat → Nat := id
  others : CreditIod → CreditIod := id
  timedOut : Bool := false
  shareGoingAway : Bool := false

def Wake.count (w : Wake) (granted : Nat) : Nat := w.granted granted % 2 ^ 32

def Wake.act (w : Wake) (iod : CreditIod) : CreditIod :=
  { w.others iod with creditsGranted := w.count iod.creditsGranted }

def unattempted (wakes : List Wake) (granted : Nat) : Nat := wakes.foldl (fun granted w => w.count granted) granted

structure Call where
  command : Command
  obj : ConnObj := .session false
  iodContext : Bool := false
  noBlock : Bool := false
  rqLen : Option Nat := none
  smb2 : Bool := true
  rqAllocated : Bool := true
  accessError : Option Errno := none
  shareGoingAway : Bool := false
  wakes : List Wake := []
  headerError : Option Errno := none

structure NewRq where
  session : Bool := false
  share : Bool := false
  smb2Request : Bool := false
  iod : Bool := false
  credit : CreditRq

structure Channel where
  iod : CreditIod
  refs : Refs := {}
  deriving DecidableEq, Repr

def smbRqGetenv (obj : ConnObj) (refs : Refs) : Except Errno (Bool × Refs) :=
  match obj with
  | .session zombie => if zombie then .error .einval else .ok (false, { refs with session := refs.session + 1 })
  | .share zombie sessionZombie =>
    if zombie || sessionZombie then .error .einval
    else .ok (true, { refs with session := refs.session + 1, share := refs.share + 1 })
  | .other => .error .einval

def Channel.rqDone (c : Channel) (rqp : NewRq) : Channel :=
  let c := if rqp.smb2Request && rqp.iod then
      { c with iod := smbRqDone c.iod rqp.credit, refs := { c.refs with iod := c.refs.iod - 1 } }
    else c
  { c with refs := { c.refs with
      session := if rqp.session then c.refs.session - 1 else c.refs.session
      share := if rqp.share then c.refs.share - 1 else c.refs.share } }

namespace Call
variable (call : Call)

def fresh : CreditRq := { command := call.command, iodContext := call.iodContext, noBlock := call.noBlock }

abbrev Waited := CreditIod × Except Errno (CreditIod × CreditRq)

def returns {α : Type} (wakes : List Wake) (result : α) : Option α := if wakes.isEmpty then some result else none

def pass (shareGoingAway : Bool) (wakes : List Wake) (sleep : CreditIod → Option Waited) (iod : CreditIod) :
    Option Waited :=
  match smb2RqCreditDecrement call.smb2 shareGoingAway iod call.fresh call.rqLen with
  | .done iod' rqp _ => returns wakes (iod, .ok (iod', rqp))
  | .failed e => returns wakes (iod, .error e)
  | .sleeps iod => sleep iod

def sleep (slept : Nat) : List Wake → CreditIod → Option Waited
  | [], _ => none
  | w :: wakes, iod =>
    let iod := w.act iod
    if w.timedOut then
      let iod := creditSleepTimedOut iod
      if w.shareGoingAway then returns wakes (iod, .error .enxio)
      else if 0 < int32 iod.creditsGranted ∨ slept + 1 = 60 then
        call.pass w.shareGoingAway wakes (sleep 0 wakes) iod
      else sleep (slept + 1) wakes { iod with creditsWait := iod.creditsWait + 1 }
    else call.pass w.shareGoingAway wakes (sleep 0 wakes) iod

def creditDecrement (iod : CreditIod) : Option Waited :=
  call.pass call.shareGoingAway call.wakes (call.sleep 0 call.wakes) iod

def smb2RqInitInternal (c : Channel) : Option (Channel × Except Errno NewRq) :=
  match smbRqGetenv call.obj c.refs with
  | .error e => returns call.wakes (c.rqDone { credit := call.fresh }, .error e)
  | .ok (share, refs) =>
    let rqp : NewRq := { session := true, share, credit := call.fresh }
    match call.accessError with
    | some e => returns call.wakes ({ c with refs }.rqDone rqp, .error e)
    | none =>
      let rqp := { rqp with smb2Request := true, iod := true }
      (call.creditDecrement c.iod).map fun
        | (_, .ok (iod, credit)) =>
          match call.headerError with
          | none => ({ iod, refs }, .ok { rqp with credit })
          | some e => (({ iod, refs } : Channel).rqDone { rqp with credit, iod := false }, .error e)
        | (iod, .error e) =>
          let credit := { rqp.credit with creditcharge := 0 }
          (({ iod, refs } : Channel).rqDone { rqp with credit, iod := false }, .error e)

def smb2RqAlloc (c : Channel) : Option (Channel × Except Errno NewRq) :=
  if call.rqAllocated then call.smb2RqInitInternal c else returns call.wakes (c, .error .enomem)

def accepted : Bool :=
  call.rqAllocated && call.accessError.isNone &&
    match call.obj with
    | .session zombie => !zombie
    | .share zombie sessionZombie => !zombie && !sessionZombie
    | .other => false

def letThrough (iod : CreditIod) : Option CreditIod :=
  if call.accepted then
    (call.creditDecrement iod).bind fun
      | (before, .ok _) => some before
      | (_, .error _) => none
  else none

/-- `smb2_rq_credit_decrement` takes nothing from the counter. -/
def FreeOfCharge (iod : CreditIod) : Prop :=
  if call.command = .negotiate then iod.creditsGranted = 0
  else call.fresh.charged = false ∨
    ∃ len ∈ call.rqLen, 65535 * 65536 < len ∧ kCreditLowWater < int32 iod.creditsGranted

variable {call}

variable {wakes : List Wake} {iod iod' : CreditIod} {waited : Waited} {rqp : CreditRq} {goingAway : Bool}
  {len' : Option Nat} {refs : Refs}

theorem returns_eq_some {α : Type} {a b : α} (returned : returns wakes a = some b) :
    wakes = [] ∧ a = b := by
  unfold returns at returned
  split at returned
  · rename_i none
    exact ⟨List.isEmpty_iff.mp none, Option.some.inj returned⟩
  · cases returned

structure Waits (call : Call) (wakes : List Wake) (granted : Nat) (waited : Waited) : Prop where
  counter : waited.1.creditsGranted = unattempted wakes granted
  admitted : ∀ iod rqp, waited.2 = .ok (iod, rqp) → ∃ shareGoingAway len,
    smb2RqCreditDecrement call.smb2 shareGoingAway waited.1 call.fresh call.rqLen = .done iod rqp len

theorem pass_waits {shareGoingAway : Bool} {sleep : CreditIod → Option Waited}
    (passed : call.pass shareGoingAway wakes sleep iod = some waited)
    (slept : ∀ iod waited, sleep iod = some waited → Waits call wakes iod.creditsGranted waited) :
    Waits call wakes iod.creditsGranted waited := by
  unfold pass at passed
  split at passed
  · rename_i iod' rqp len decremented
    obtain ⟨rfl, rfl⟩ := returns_eq_some passed
    refine ⟨rfl, fun iod'' rqp' same => ?_⟩
    cases same
    exact ⟨shareGoingAway, len, decremented⟩
  · obtain ⟨rfl, rfl⟩ := returns_eq_some passed
    exact ⟨rfl, fun iod'' rqp' same => nomatch same⟩
  · rename_i iod' sleeps
    have same := smb2RqCreditDecrement_sleeps sleeps
    have waits := slept iod' waited passed
    rw [same] at waits
    exact waits

theorem sleep_waits {slept : Nat}
    (ended : call.sleep slept wakes iod = some waited) : Waits call wakes iod.creditsGranted waited := by
  induction wakes generalizing slept iod waited with
  | nil => cases ended
  | cons w wakes ih =>
    have later (iod : CreditIod) (waited : Waited) (ended : call.sleep 0 wakes iod = some waited) :
        Waits call wakes iod.creditsGranted waited := ih ended
    -- the counter is the other threads' when the thread is awake again
    have onward (waits : Waits call wakes (w.count iod.creditsGranted) waited) :
        Waits call (w :: wakes) iod.creditsGranted waited := ⟨waits.counter, waits.admitted⟩
    apply onward
    rw [sleep] at ended
    dsimp only at ended
    split at ended
    · have same : (creditSleepTimedOut (w.act iod)).creditsGranted = w.count iod.creditsGranted :=
        wakeWaiter_creditsGranted _
      rw [← same]
      split at ended
      · obtain ⟨rfl, rfl⟩ := returns_eq_some ended
        exact ⟨rfl, fun iod' rqp same => nomatch same⟩
      · split at ended
        · exact pass_waits ended later
        · obtain ⟨counter, admitted⟩ := ih ended
          exact ⟨counter, admitted⟩
    · exact pass_waits ended later

theorem creditDecrement_waits (ended : call.creditDecrement iod = some waited) :
    Waits call call.wakes iod.creditsGranted waited :=
  pass_waits ended fun _ _ slept => sleep_waits slept

theorem int16_creditcharge_eq_zero {len : Nat} (single : rqp.creditcharge = 1) (word : len < 2 ^ 32) :
    int16 (smb2RqCreditCheck iod rqp len).2.creditcharge = 0 ↔
      65535 * 65536 < len ∧ kCreditLowWater < int32 iod.creditsGranted := by
  have one : int16 1 ≠ 0 := by decide
  have lost : int16 (((len - 1) / (64 * 1024) + 1) % 2 ^ 16) = 0 ↔ 65535 * 65536 < len := by
    unfold int16 Int.bmod
    dsimp only
    split <;> omega
  have most : int16 (((len - 1) / (64 * 1024) + 1) % 2 ^ 16) < 2 ^ 15 := by
    unfold int16 Int.bmod
    dsimp only
    split <;> omega
  unfold smb2RqCreditCheck
  dsimp only
  split
  · rw [single]
    exact iff_of_false one (by omega)
  · split
    · rw [single]
      exact iff_of_false one (by omega)
    · split
      · rename_i afford
        unfold kCreditLowWater at *
        dsimp only
        rw [Nat.mod_eq_of_lt (by omega), int16_eq (by omega)]
        exact iff_of_false (by omega) (by omega)
      · dsimp only
        rw [lost]
        omega

theorem osAddAtomic_eq_self {word : Nat} (small : word < 2 ^ 32) (charge : Nat) :
    osAddAtomic (-int16 charge) word = word ↔ int16 charge = 0 := by
  have range : -32768 ≤ int16 charge ∧ int16 charge ≤ 32767 := by
    unfold int16 Int.bmod
    dsimp only
    split <;> omega
  unfold osAddAtomic
  omega

theorem creditDecrementRegular_granted {rqp' : CreditRq} {rqLen : Option Nat} (single : rqp.creditcharge = 1)
    (word : iod.creditsGranted < 2 ^ 32) (lengths : ∀ len ∈ rqLen, len < 2 ^ 32)
    (taken : creditDecrementRegular goingAway iod rqp rqLen = .done iod' rqp' len') :
    iod'.creditsGranted = iod.creditsGranted ↔
      ∃ len ∈ rqLen, 65535 * 65536 < len ∧ kCreditLowWater < int32 iod.creditsGranted := by
  unfold creditDecrementRegular at taken
  split at taken
  · simp only [Decrement.done.injEq] at taken
    obtain ⟨rfl, -, -⟩ := taken
    dsimp only
    rw [osAddAtomic_eq_self word]
    cases rqLen with
    | none =>
      have one : int16 1 = 1 := rfl
      simp [single, one]
    | some len =>
      rw [Option.map_some, Option.map_some, Option.getD_some, int16_creditcharge_eq_zero single (lengths len rfl)]
      simp
  · split_ifs at taken

theorem uncharged_iod (uncharged : call.fresh.charged = false) (other : call.command ≠ .negotiate)
    (taken : smb2RqCreditDecrement call.smb2 goingAway iod call.fresh call.rqLen = .done iod' rqp len') :
    iod' = iod := by
  unfold smb2RqCreditDecrement at taken
  unfold RqKind.charged at uncharged
  split at taken
  case h_1 command => exact absurd command other
  case h_5 command => simp [command] at uncharged
  case h_6 =>
    split_ifs at taken with smb1 own
    · cases taken
      rfl
    · split at uncharged <;> simp_all
  all_goals
    cases taken
    rfl

theorem done_granted_iff (word : iod.creditsGranted < 2 ^ 32) (lengths : ∀ len ∈ call.rqLen, len < 2 ^ 32)
    (taken : smb2RqCreditDecrement call.smb2 goingAway iod call.fresh call.rqLen = .done iod' rqp len') :
    iod'.creditsGranted = iod.creditsGranted ↔ call.FreeOfCharge iod := by
  unfold FreeOfCharge
  by_cases negotiate : call.command = .negotiate
  · have command : call.fresh.command = .negotiate := negotiate
    simp only [smb2RqCreditDecrement, command, Decrement.done.injEq] at taken
    rw [if_pos negotiate, ← taken.1]
    exact eq_comm
  · rw [if_neg negotiate]
    cases charged : call.fresh.charged with
    | true =>
      have regular := creditDecrementRegular_of_charged charged taken
      rw [creditDecrementRegular_granted rfl word lengths regular, or_iff_right Bool.noConfusion]
    | false =>
      refine iff_of_true ?_ (.inl rfl)
      rw [uncharged_iod charged negotiate taken]

theorem unattempted_lt {granted : Nat} (word : granted < 2 ^ 32) (wakes : List Wake) :
    unattempted wakes granted < 2 ^ 32 := by
  induction wakes generalizing granted with
  | nil => exact word
  | cons w wakes ih => exact ih (Nat.mod_lt _ (by decide))

theorem rqDone_getenv {obj : ConnObj} {refs' : Refs} {share : Bool}
    (got : smbRqGetenv obj refs = .ok (share, refs')) (iod : CreditIod) (smb2Request : Bool) (credit : CreditRq) :
    ({ iod, refs := refs' } : Channel).rqDone { session := true, share, smb2Request, iod := false, credit } =
      { iod, refs } := by
  unfold smbRqGetenv at got
  cases obj with
  | session zombie =>
    dsimp only at got
    split at got
    · cases got
    · cases got
      simp [Channel.rqDone]
  | share zombie sessionZombie =>
    dsimp only at got
    split at got
    · cases got
    · cases got
      simp [Channel.rqDone]
  | other => cases got

theorem letThrough_refused (c : CreditIod) (refused : call.accepted = false) : call.letThrough c = none := by
  rw [letThrough, refused]
  rfl

theorem accepted_of_getenv {refs' : Refs} {share : Bool} (got : smbRqGetenv call.obj refs = .ok (share, refs')) :
    call.accepted = (call.rqAllocated && call.accessError.isNone) := by
  unfold smbRqGetenv at got
  unfold accepted
  cases obj : call.obj with
  | session zombie => cases zombie <;> simp_all
  | share zombie sessionZombie => cases zombie <;> cases sessionZombie <;> simp_all
  | other => simp_all

theorem refused_of_getenv {e : Errno} (got : smbRqGetenv call.obj refs = .error e) :
    call.accepted = false := by
  unfold smbRqGetenv at got
  unfold accepted
  cases obj : call.obj with
  | session zombie => cases zombie <;> simp_all
  | share zombie sessionZombie => cases zombie <;> cases sessionZombie <;> simp_all
  | other => simp_all

end Call

theorem smb2RqAlloc_restores_iff {call : Call} {c c' : Channel} {e : Errno} (word : c.iod.creditsGranted < 2 ^ 32)
    (lengths : ∀ len ∈ call.rqLen, len < 2 ^ 32) (failed : call.smb2RqAlloc c = some (c', .error e)) :
    (c'.iod.creditsGranted = unattempted call.wakes c.iod.creditsGranted ∧ c'.refs = c.refs) ↔
      ∀ before ∈ call.letThrough c.iod, call.FreeOfCharge before := by
  -- a call that does not get to the credits
  have early (refused : call.accepted = false) (none : call.wakes = []) (same : c' = c) :
      (c'.iod.creditsGranted = unattempted call.wakes c.iod.creditsGranted ∧ c'.refs = c.refs) ↔
        ∀ before ∈ call.letThrough c.iod, call.FreeOfCharge before := by
    rw [Call.letThrough_refused _ refused, none, same]
    exact iff_of_true ⟨rfl, rfl⟩ (by simp)
  unfold Call.smb2RqAlloc at failed
  split at failed
  · rename_i allocated
    unfold Call.smb2RqInitInternal at failed
    split at failed
    · rename_i error got
      obtain ⟨none, same⟩ := Call.returns_eq_some failed
      exact early (Call.refused_of_getenv got) none (congrArg Prod.fst same).symm
    · rename_i share refs got
      have accepted := Call.accepted_of_getenv got
      dsimp only at failed
      split at failed
      · rename_i error access
        obtain ⟨none, same⟩ := Call.returns_eq_some failed
        rw [Call.rqDone_getenv got] at same
        refine early ?_ none (congrArg Prod.fst same).symm
        rw [accepted, access]
        simp
      · rename_i access
        rw [allocated, access] at accepted
        replace accepted : call.accepted = true := accepted
        obtain ⟨⟨before, outcome⟩, ended, outcome_eq⟩ := Option.map_eq_some_iff.mp failed
        obtain ⟨counter, admitted⟩ := Call.creditDecrement_waits ended
        dsimp only at counter admitted
        rw [Call.letThrough, if_pos accepted, ended, ← counter]
        cases outcome with
        | error error =>
          -- not let through, so that nothing was taken
          dsimp only at outcome_eq
          rw [Call.rqDone_getenv got] at outcome_eq
          obtain ⟨rfl, -⟩ := Prod.mk.inj outcome_eq
          exact iff_of_true ⟨rfl, rfl⟩ (by simp)
        | ok taken =>
          obtain ⟨iod, credit⟩ := taken
          obtain ⟨shareGoingAway, len, decremented⟩ := admitted iod credit rfl
          dsimp only at outcome_eq
          split at outcome_eq
          · cases congrArg Prod.snd outcome_eq
          · rw [Call.rqDone_getenv got] at outcome_eq
            obtain ⟨rfl, -⟩ := Prod.mk.inj outcome_eq
            rw [and_iff_left rfl]
            have small : before.creditsGranted < 2 ^ 32 := counter ▸ Call.unattempted_lt word call.wakes
            rw [Call.done_granted_iff small lengths decremented]
            simp
  · rename_i none
    obtain ⟨ended, same⟩ := Call.returns_eq_some failed
    refine early ?_ ended (congrArg Prod.fst same).symm
    simp [Call.accepted, none]

/-- A tree connect, which is not charged, for which there is no mbuf. -/
theorem smb2RqAlloc_restores_treeConnect :
    let call : Call := { command := .treeConnect, obj := .share false false, headerError := some .enobufs }
    let c : Channel := { iod := { creditsGranted := 5 }, refs := { session := 2, share := 1, iod := 1 } }
    call.smb2RqAlloc c = some (c, .error .enobufs) ∧
      c.iod.creditsGranted = unattempted call.wakes c.iod.creditsGranted := by
  intro call c
  have failed : call.smb2RqAlloc c = some (c, .error .enobufs) := rfl
  refine ⟨failed, ((smb2RqAlloc_restores_iff (by decide) (by simp [call]) failed).mpr ?_).1⟩
  intro before _
  exact .inl rfl

/-- A read, which is charged one credit, for which there is no mbuf. -/
theorem smb2RqAlloc_loses_credit :
    let call : Call := { command := .read, obj := .share false false, headerError := some .enobufs }
    let c : Channel := { iod := { creditsGranted := 5 }, refs := { session := 2, share := 1, iod := 1 } }
    (call.smb2RqAlloc c).map (fun result => (result.1, result.2.toOption.isNone)) =
        some ({ c with iod := { c.iod with creditsGranted := 4 } }, true) ∧
      unattempted call.wakes c.iod.creditsGranted = 5 := by
  decide +kernel

end SmbClient.Credits
