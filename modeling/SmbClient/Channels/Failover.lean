import SmbClient.Channels.MainIod

/-!
The references that `smb_iod_main_ch_failover` takes on alternate channels and gives back, over all its turns.
-/

namespace SmbClient.Channels

inductive RefEvent
  | obtained (iod : Nat)
  | released (iod : Nat)
  deriving DecidableEq, Repr

structure Turn where
  looked : Session
  asked : Session

def Turn.fails (turn : Turn) (iod alt : Nat) : Bool := (turn.asked.smbIodProclaimMain alt iod).isNone

def failoverTurns (iod : Nat) : (attempts : Nat) → (Nat → Turn) → List RefEvent × Nat
  | 0, _ => ([], 0)
  | attempts + 1, turns =>
    match (turns 0).looked.smbIodGetNonMainIod false with
    | none => ([], 0)
    | some alt =>
      if (turns 0).fails iod alt then
        -- the reference is given back here, and after the last attempt at the label `exit` as well
        if attempts = 0 then ([.obtained alt, .released alt, .released alt], 0)
        else
          let (events, result) := failoverTurns iod attempts fun i => turns (i + 1)
          (.obtained alt :: .released alt :: events, result)
      else ([.obtained alt, .released alt], 1)

def smbIodMainChFailover (iod : Nat) (turns : Nat → Turn) : List RefEvent × Nat := failoverTurns iod 10 turns

/-- Each reference that is obtained is released once. -/
def Settled (events : List RefEvent) : Prop := ∀ alt, events.count (.released alt) = events.count (.obtained alt)

/-- There is no alternate channel, or the one there is becomes the main channel. -/
def Turn.Ends (turn : Turn) (iod : Nat) : Prop :=
  ∀ alt ∈ turn.looked.smbIodGetNonMainIod false, turn.fails iod alt = false

theorem settled_turn (alt : Nat) (events : List RefEvent) :
    Settled (.obtained alt :: .released alt :: events) ↔ Settled events := by
  refine forall_congr' fun other => ?_
  simp only [List.count_cons, RefEvent.obtained.injEq, RefEvent.released.injEq, beq_iff_eq, reduceCtorEq, if_false,
    Nat.add_zero, Nat.add_right_cancel_iff]

theorem settled_nil : Settled [] := fun _ => rfl

theorem failoverTurns_ends {iod : Nat} {turns : Nat → Turn} (ends : (turns 0).Ends iod) (attempts : Nat) :
    Settled (failoverTurns iod (attempts + 1) turns).1 := by
  rw [failoverTurns]
  cases found : (turns 0).looked.smbIodGetNonMainIod false with
  | none => exact settled_nil
  | some alt =>
    dsimp only
    rw [ends alt found, if_neg Bool.false_ne_true]
    exact (settled_turn alt []).mpr settled_nil

theorem not_ends {iod : Nat} {turn : Turn} (goesOn : ¬turn.Ends iod) :
    ∃ alt, turn.looked.smbIodGetNonMainIod false = some alt ∧ turn.fails iod alt = true := by
  unfold Turn.Ends at goesOn
  push Not at goesOn
  obtain ⟨alt, found, fails⟩ := goesOn
  exact ⟨alt, found, Bool.not_eq_false _ ▸ fails⟩

theorem settled_failoverTurns_iff (iod attempts : Nat) (turns : Nat → Turn) :
    Settled (failoverTurns iod (attempts + 1) turns).1 ↔ ∃ k ≤ attempts, (turns k).Ends iod := by
  induction attempts generalizing turns with
  | zero =>
    by_cases ends : (turns 0).Ends iod
    · exact iff_of_true (failoverTurns_ends ends 0) ⟨0, Nat.le_refl 0, ends⟩
    · obtain ⟨alt, found, fails⟩ := not_ends ends
      rw [failoverTurns, found]
      dsimp only
      rw [if_pos fails, if_pos rfl, settled_turn]
      refine iff_of_false (fun settled => ?_) ?_
      · have twice := settled alt
        simp at twice
      · rintro ⟨k, least, ends'⟩
        exact ends (Nat.le_zero.mp least ▸ ends')
  | succ attempts ih =>
    by_cases ends : (turns 0).Ends iod
    · exact iff_of_true (failoverTurns_ends ends _) ⟨0, Nat.zero_le _, ends⟩
    · obtain ⟨alt, found, fails⟩ := not_ends ends
      rw [failoverTurns, found]
      dsimp only
      rw [if_pos fails, if_neg (Nat.succ_ne_zero _), settled_turn, ih]
      constructor
      · rintro ⟨k, within, ends'⟩
        exact ⟨k + 1, Nat.succ_le_succ within, ends'⟩
      · rintro ⟨k, within, ends'⟩
        cases k with
        | zero => exact absurd ends' ends
        | succ k => exact ⟨k, Nat.le_of_succ_le_succ within, ends'⟩

theorem smbIodMainChFailover_settled_iff (iod : Nat) (turns : Nat → Turn) :
    Settled (smbIodMainChFailover iod turns).1 ↔ ∃ k ≤ 9, (turns k).Ends iod :=
  settled_failoverTurns_iff iod 9 turns

def twoChannels (shutdown : Bool) : Session where
  iods := [some { state := .sessionActive, running := true },
    some { state := .sessionActive, running := true, alternateChannel := true, shutdown }]
  iodTailq := [0, 1]
  sessionIod := some 0

/-- The alternate channel is found ten times and is shutting down each time it is asked. -/
theorem smbIodMainChFailover_releases_twice :
    (smbIodMainChFailover 0 fun _ => ⟨twoChannels false, twoChannels true⟩).1.count (.obtained 1) = 10 ∧
      (smbIodMainChFailover 0 fun _ => ⟨twoChannels false, twoChannels true⟩).1.count (.released 1) = 11 := by
  decide

end SmbClient.Channels
