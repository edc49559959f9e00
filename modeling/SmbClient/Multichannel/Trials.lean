import SmbClient.Multichannel.NicStates

namespace SmbClient.Multichannel
open SmbClient.Lib Table

def Table.Trying (t : Table) (id : Nat) (con : Con) : Prop := t.cons.lookup id = some con ∧ con.state = .inTrial

/-- No interface takes part in two trials. -/
def Table.Separate (t : Table) : Prop :=
  ∀ i j a b, t.Trying i a → t.Trying j b → ∀ side, a.nic side = b.nic side → i = j

def Table.TrialsMarked (t : Table) : Prop :=
  ∀ id ∈ t.cons.inUse, ∀ con ∈ t.cons.lookup id, con.state = .inTrial →
    (t.nic con.clientNic).state = .onTrial ∧ (t.nic con.serverNic).state = .onTrial

instance (t : Table) : Decidable t.TrialsMarked := by
  unfold TrialsMarked
  infer_instance

variable {t next : Table} {id : Nat}

theorem Table.TrialsMarked.state (marked : t.TrialsMarked) {con : Con} (trying : t.Trying id con)
    (side : Side) : (t.nic (con.nic side)).state = .onTrial := by
  have both := marked id (Slots.mem_inUse.mpr ⟨con, trying.1⟩) con trying.1 trying.2
  cases side
  · exact both.1
  · exact both.2

def shrinking : Rules where
  con _ before after := before.SameNics after ∧ (after.state = .inTrial → before.state = .inTrial)
  nic _ _ := True
  insert _ _ := True
  reset _ _ _ := True
  listing := True
  counter := True

theorem Con.Quiet.inTrial_iff {before after : Con} (quiet : before.Quiet after) :
    after.state = .inTrial ↔ before.state = .inTrial := by
  rcases quiet.state with same | ⟨waited, waits⟩
  · rw [same]
  · rcases waited with waited | waited <;> rcases waits with waits | waits <;> simp [waited, waits]

theorem shrinking_permissive : shrinking.Permissive where
  nics allowed := allowed.1
  con quiet := ⟨quiet.nics, quiet.inTrial_iff.mp⟩
  nic _ := trivial
  marks _ _ := trivial
  inserts _ _ := trivial
  resets _ _ _ := trivial
  connects _ _ _ := ⟨⟨rfl, rfl⟩, nofun⟩
  fails _ := ⟨⟨rfl, rfl⟩, nofun⟩
  ends _ := ⟨⟨rfl, rfl⟩, nofun⟩
  retires _ := ⟨⟨rfl, rfl⟩, nofun⟩
  listing := trivial
  counter := trivial

theorem shrinking_lenient : shrinking.Lenient := shrinking_permissive.toLenient

theorem trying_move (move : Move shrinking t next) {con : Con} (trying : next.Trying id con) :
    ∃ old, t.Trying id old ∧ old.SameNics con := by
  obtain ⟨found, state⟩ := trying
  have change := move.con_cases shrinking_lenient id
  rw [found] at change
  generalize was : t.cons.lookup id = old at change
  cases change with
  | same => exact ⟨con, ⟨was, state⟩, rfl, rfl⟩
  | changed allowed => exact ⟨_, ⟨was, allowed.2 state⟩, allowed.1⟩
  | reset _ _ potential _ _ => simp [potential] at state
  | joined _ waits _ => rcases waits with (waits | waits) | waits <;> simp [waits] at state

theorem Moves.trying (moves : Moves shrinking t next) :
    ∀ {id con}, next.Trying id con → ∃ old, t.Trying id old ∧ old.SameNics con := by
  induction moves with
  | refl => exact fun {_ con} trying => ⟨con, trying, rfl, rfl⟩
  | tail _ move ih =>
    intro id con trying
    obtain ⟨middle, trying, nics⟩ := trying_move move trying
    obtain ⟨old, trying, nics'⟩ := ih trying
    exact ⟨old, trying, nics.1.trans nics'.1, nics.2.trans nics'.2⟩

theorem Moves.separate (moves : Moves shrinking t next) (separate : t.Separate) : next.Separate := by
  intro i j a b tryingA tryingB side same
  obtain ⟨oldA, wasA, nicsA⟩ := moves.trying tryingA
  obtain ⟨oldB, wasB, nicsB⟩ := moves.trying tryingB
  rw [nicsA.nic side, nicsB.nic side] at same
  exact separate i j oldA oldB wasA wasB side same

/-! ## Trials are started -/

theorem nics_countConnectionStats (t : Table) : t.smb2McCountConnectionStats.1.nics = t.nics := by
  obtain ⟨cons, same, -⟩ := resped_countConnectionStats t
  rw [same]

structure Table.Sound (t : Table) : Prop where
  linked : Linked t
  separate : t.Separate
  marked : t.TrialsMarked

theorem Table.Sound.move (sound : t.Sound) (moves : Moves shrinking t next) (nics : next.nics = t.nics) :
    next.Sound where
  linked := moves.linked shrinking_lenient sound.linked
  separate := moves.separate sound.separate
  marked := by
    intro id _ con found state
    obtain ⟨old, trying, same⟩ := moves.trying ⟨found, state⟩
    have client := sound.marked.state trying .client
    have server := sound.marked.state trying .server
    unfold nic at client server ⊢
    rw [nics, same.1, same.2]
    exact ⟨client, server⟩

theorem sound_startTrial (sound : t.Sound) (eligible : t.Eligible id) (activeState : ActiveState) :
    (t.startTrial id activeState).Sound := by
  obtain ⟨con, found, potential, free⟩ := eligible
  have moves : Moves steady t (t.startTrial id activeState) := by
    refine moves_startTrial ?_ ?_ trivial ⟨con, found, potential, free⟩ activeState
    · exact fun _ _ _ _ _ => ⟨rfl, rfl⟩
    · exact fun _ => ⟨rfl, rfl⟩
  have trying {j : Nat} {other : Con} (now : (t.startTrial id activeState).Trying j other) :
      id = j ∧ con.SameNics other ∨ t.Trying j other := by
    obtain ⟨lookup, state⟩ := now
    unfold startTrial at lookup
    rw [found] at lookup
    change (t.cons.modify id _).lookup j = some other at lookup
    rw [Slots.lookup_modify] at lookup
    split at lookup
    · rename_i same
      obtain ⟨old, lookup', rfl⟩ := Option.map_eq_some_iff.mp lookup
      have : con = old := Option.some.inj (found.symm.trans (same ▸ lookup'))
      exact .inl ⟨same, this ▸ ⟨rfl, rfl⟩⟩
    · exact .inr ⟨lookup, state⟩
  have apart {j : Nat} {other : Con} (was : t.Trying j other) (side : Side) : con.nic side ≠ other.nic side := by
    intro same
    apply free side
    rw [same]
    exact sound.marked.state was side
  have states (side : Side) (j : Nat) : ((t.startTrial id activeState).nic j).state =
      ((t.setNicStates con .onTrial).nic j).state := by
    unfold startTrial
    rw [found]
    rfl
  have live (side : Side) := sound.linked.live (sound.linked.listed found side)
  refine ⟨moves.linked steady_lenient sound.linked, ?_, ?_⟩
  · intro i j a b nowA nowB side same
    rcases trying nowA with ⟨rfl, nicsA⟩ | wasA <;> rcases trying nowB with ⟨here, nicsB⟩ | wasB
    · exact here
    · rw [nicsA.nic side] at same
      exact absurd same (apart wasB side)
    · rw [nicsB.nic side] at same
      exact absurd same.symm (apart wasA side)
    · exact sound.separate i j a b wasA wasB side same
  · intro j _ other lookup state
    have both (side : Side) : ((t.startTrial id activeState).nic (other.nic side)).state = .onTrial := by
      rw [states side]
      rcases trying ⟨lookup, state⟩ with ⟨_, nics⟩ | was
      · rw [nics.nic side]
        exact state_setNicStates live side
      · have before := sound.marked.state was side
        unfold nic at before ⊢
        rw [lookup_setNicStates]
        split
        · cases slot : t.nics.lookup (other.nic side) with
          | none => simp [slot] at before
          | some nic => rfl
        · exact before
    exact ⟨both .client, both .server⟩

theorem separate_askForNewConnectionTrial (linked : Linked t) (separate : t.Separate)
    (marked : t.TrialsMarked) (maxOutLen : Nat) : (t.smb2McAskForNewConnectionTrial maxOutLen).1.Separate := by
  refine (ask_invariant Sound ?_ ?_ ?_ maxOutLen ⟨linked, separate, marked⟩).separate
  · intro s sound
    exact sound.move (moves_countConnectionStats shrinking_lenient) (nics_countConnectionStats s)
  · intro s id sound
    exact sound.move (moves_modifyCon shrinking_lenient id (fun _ => ⟨rfl, rfl⟩) fun _ => rfl) rfl
  · intro s id activeState sound eligible
    exact sound_startTrial sound eligible activeState

/-! ## Whole operations -/

/-- At a request for trials the interfaces of every connection in trial are marked. -/
def Table.AsksMarked (t : Table) : Table.Event → Prop
  | .askForNewConnectionTrial _ => t.TrialsMarked
  | _ => True

instance (t : Table) (e : Table.Event) : Decidable (t.AsksMarked e) :=
  match e with
  | .askForNewConnectionTrial _ => inferInstanceAs (Decidable t.TrialsMarked)
  | .parseClientInterfaceArray .. | .notifierEvent .. | .queryInfoResponseEvent .. | .resetNicList | .attach ..
  | .reportConnectionTrialResults .. | .updateMainChannel .. | .informConnectionDisconnected ..
  | .informConnectionActiveStateChange .. | .returnExcessConnections _ | .pauseTrials | .resumeTrials => .isTrue trivial

theorem separate_step {event : Table.Event} (linked : Linked t) (separate : t.Separate) (spares : t.Spares event)
    (marked : t.AsksMarked event) (taken : t.step event = some next) : next.Separate := by
  refine permissive_invariant Separate shrinking_permissive linked spares
    (fun _ separate moves => moves.separate separate) separate (fun _ separate _ => separate) ?_ taken
  rintro maxOutLen rfl
  exact separate_askForNewConnectionTrial linked separate marked maxOutLen

/-- In every run in which trials are only asked for while the interfaces of those under way are marked, and no report
releases interfaces that have entries, no interface takes part in two trials. -/
theorem trials_share_no_nic (maxChannels srvrRssChannels clntRssChannels : Nat) (ignorelist : List Nat)
    (preferWired : Bool) (events : List Table.Event) (last : Table)
    (marked : AllSteps Table.step (fun t event => t.Spares event ∧ t.AsksMarked event)
      (smb2McInit maxChannels srvrRssChannels clntRssChannels ignorelist preferWired) events)
    (reached : run Table.step (smb2McInit maxChannels srvrRssChannels clntRssChannels ignorelist preferWired) events =
      some last) :
    last.Separate := by
  let sound (t : Table) : Prop := Linked t ∧ t.Separate
  have keeps (t : Table) (event : Table.Event) (next : Table) (both : sound t)
      (allowed : t.Spares event ∧ t.AsksMarked event) (taken : t.step event = some next) : sound next :=
    ⟨linked_step both.1 allowed.1 taken, separate_step both.1 both.2 allowed.1 allowed.2 taken⟩
  have both : sound last := by
    refine run_invariant Table.step keeps ⟨linked_init _ _ _ _ _, ?_⟩ marked reached
    exact fun _ _ _ _ trying => absurd (Slots.lookup_lt trying.1) (Nat.not_lt_zero _)
  exact both.2

theorem trials_share_no_nic_twoTrials :
    ∃ last, run Table.step (smb2McInit 0 0 0 [] false) (twoTrials ++ [.reportConnectionTrialResults true 0]) =
      some last ∧ last.Separate := by
  have result : (run Table.step (smb2McInit 0 0 0 [] false)
      (twoTrials ++ [.reportConnectionTrialResults true 0])).isSome := by decide +kernel
  obtain ⟨last, reached⟩ := Option.isSome_iff_exists.mp result
  refine ⟨last, reached, trials_share_no_nic 0 0 0 [] false _ last ?_ reached⟩
  decide +kernel

/-- Two connections are handed out for a trial, and the first of the two fails. The walk that follows meets the main
channel after the other trial and marks the client interface that they share as used, so that it is handed out for
another trial. -/
theorem trials_share_nic :
    (run Table.step (smb2McInit 0 0 0 [] false) slowMainChannel).map
        (fun t => (t.smb2McAskForNewConnectionTrial 2).2) = some [0, 4] ∧
    ∃ last, run Table.step (smb2McInit 0 0 0 [] false)
        (twoTrials ++ [.reportConnectionTrialResults false 0, .askForNewConnectionTrial 1]) = some last ∧
      ¬last.Separate := by
  have result : (run Table.step (smb2McInit 0 0 0 [] false)
      (twoTrials ++ [.reportConnectionTrialResults false 0, .askForNewConnectionTrial 1])).map
        (fun last => ((last.cons.lookup 3).map fun con => (con.state, con.clientNic),
          (last.cons.lookup 4).map fun con => (con.state, con.clientNic))) =
      some (some (.inTrial, 0), some (.inTrial, 0)) := by decide +kernel
  obtain ⟨last, reached, both⟩ := Option.map_eq_some_iff.mp result
  refine ⟨by decide +kernel, last, reached, fun separate => ?_⟩
  obtain ⟨first, second⟩ := Prod.mk.inj both
  obtain ⟨a, foundA, sameA⟩ := Option.map_eq_some_iff.mp first
  obtain ⟨b, foundB, sameB⟩ := Option.map_eq_some_iff.mp second
  obtain ⟨stateA, clientA⟩ := Prod.mk.inj sameA
  obtain ⟨stateB, clientB⟩ := Prod.mk.inj sameB
  have same : 3 = 4 := separate 3 4 a b ⟨foundA, stateA⟩ ⟨foundB, stateB⟩ .client (clientA.trans clientB.symm)
  cases same

end SmbClient.Multichannel
