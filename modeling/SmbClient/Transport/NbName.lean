import SmbClient.Mbuf.Chain

/-!
The encoded name in a NetBIOS socket address: `nb_validate_name` and `nb_put_name`. A label is a byte with its length
and that many characters, and the name ends with an empty label.
-/

namespace SmbClient.Transport
open SmbClient.Mbuf

def nbEncnamelen : Nat := 16 * 2

def snbNameSize : Nat := 1 + nbEncnamelen + 1

abbrev Memory := Nat → UInt8

abbrev Walk := Option (Except Errno Unit) × List Nat

def Walk.after (addresses : List Nat) (walk : Walk) : Walk := (walk.1, addresses ++ walk.2)

def validateLoop (mem : Memory) : Nat → Nat → UInt8 → Walk
  | 0, _, _ => (none, [])
  | fuel + 1, cp, totalBytes =>
    if mem cp = 0 then (some (.ok ()), [cp])
    else
      let seglen := mem cp + 1
      let totalBytes := totalBytes + seglen
      if seglen = 0 ∨ snbNameSize < totalBytes.toNat then (some (.error .einval), [cp])
      else (validateLoop mem fuel (cp + seglen.toNat) totalBytes).after [cp]

def nbValidateName (mem : Memory) (fuel : Nat) : Walk :=
  if mem 0 = 0 then (some (.error .einval), [0]) else (validateLoop mem fuel 0 0).after [0]

def putLoop (mem : Memory) : Nat → (Nat → Option Errno) → Nat → Walk
  | 0, _, _ => (none, [])
  | fuel + 1, puts, cp =>
    let seglen := mem cp + 1
    let copied := List.range' cp seglen.toNat
    match puts 0 with
    | some e => (some (.error e), cp :: copied)
    | none =>
      if seglen = 1 then (some (.ok ()), cp :: copied)
      else (putLoop mem fuel (fun n => puts (n + 1)) (cp + seglen.toNat)).after (cp :: copied)

def nbPutName (mem : Memory) (puts : Nat → Option Errno) (fuel : Nat) : Walk :=
  match (nbValidateName mem fuel).1 with
  | some (.ok ()) => (putLoop mem fuel puts 0).after (nbValidateName mem fuel).2
  | _ => nbValidateName mem fuel

def Inside (walk : Walk) : Prop := ∀ a ∈ walk.2, a < snbNameSize

/-- An accepted name is walked over inside the array, up to an empty label. -/
structure SafeName (mem : Memory) : Prop where
  validates : ∀ fuel, (nbValidateName mem fuel).1 = some (.ok ()) →
    Inside (nbValidateName mem fuel) ∧ ∃ last ∈ (nbValidateName mem fuel).2.getLast?, mem last = 0
  puts : ∀ fuel, (nbValidateName mem fuel).1 = some (.ok ()) →
    (∀ fuel' puts, Inside (nbPutName mem puts fuel')) ∧ ∃ fuel', (nbPutName mem (fun _ => none) fuel').1 = some (.ok ()) ∧
      ∃ last ∈ (nbPutName mem (fun _ => none) fuel').2.getLast?, mem last = 0

def escapes (mem : Memory) : Nat → Nat → Bool
  | 0, _ => false
  | fuel + 1, cp =>
    let next := cp + (mem cp).toNat + 1
    if mem cp = 0 then false
    else if next < snbNameSize then escapes mem fuel next
    else decide (next = snbNameSize ∨ 256 ≤ next ∧ mem cp ≠ 255)

/-- The labels from `cp` on end with an empty one inside the array. -/
inductive Ends (mem : Memory) : Nat → Prop
  | zero {cp : Nat} : cp < snbNameSize → mem cp = 0 → Ends mem cp
  | label {cp : Nat} : mem cp ≠ 0 → Ends mem (cp + (mem cp).toNat + 1) → Ends mem cp

section
variable {mem : Memory} {cp fuel : Nat} {totalBytes : UInt8}

theorem Ends.inside (ends : Ends mem cp) : cp < snbNameSize := by
  induction ends with
  | zero inside _ => exact inside
  | label _ _ ih => omega

theorem Inside.after {addresses : List Nat} {walk : Walk} (front : ∀ a ∈ addresses, a < snbNameSize)
    (inside : Inside walk) : Inside (walk.after addresses) := by
  intro a member
  rcases List.mem_append.mp member with first | later
  · exact front a first
  · exact inside a later

theorem getLast?_after {addresses : List Nat} {walk : Walk} {last : Nat} (found : last ∈ walk.2.getLast?) :
    last ∈ (walk.after addresses).2.getLast? := by
  rw [Option.mem_def] at found ⊢
  rw [Walk.after, List.getLast?_append, found]
  rfl

theorem seglen_eq {length : UInt8} (short : length ≠ 255) : (length + 1).toNat = length.toNat + 1 := by
  have bound := length.toNat_lt
  have differs : length.toNat ≠ 255 := fun same => short (UInt8.toNat_inj.mp same)
  rw [UInt8.toNat_add, UInt8.toNat_one]
  omega

theorem seglen_ne_zero_iff (length : UInt8) : length + 1 ≠ 0 ↔ length ≠ 255 := by
  have bound := length.toNat_lt
  rw [ne_eq, ne_eq, not_iff_not, ← UInt8.toNat_inj, ← UInt8.toNat_inj, UInt8.toNat_add, UInt8.toNat_one,
    UInt8.toNat_zero, show (255 : UInt8).toNat = 255 from rfl]
  omega

theorem ends_short (ends : Ends mem cp) (zero : mem cp ≠ 0) : mem cp ≠ 255 := by
  cases ends with
  | zero _ empty => exact absurd empty zero
  | label _ later =>
    intro long
    have inside := later.inside
    rw [long] at inside
    unfold snbNameSize nbEncnamelen at inside
    have : (255 : UInt8).toNat = 255 := rfl
    omega

/-! ## The walk of `nb_validate_name` -/

theorem validateLoop_ends_zero (accepted : (validateLoop mem fuel cp totalBytes).1 = some (.ok ())) :
    ∃ last ∈ (validateLoop mem fuel cp totalBytes).2.getLast?, mem last = 0 := by
  induction fuel generalizing cp totalBytes with
  | zero => cases accepted
  | succ fuel ih =>
    unfold validateLoop at accepted ⊢
    by_cases zero : mem cp = 0
    · rw [if_pos zero]
      exact ⟨cp, rfl, zero⟩
    rw [if_neg zero] at accepted ⊢
    dsimp only at accepted ⊢
    split at accepted
    · cases accepted
    · rename_i continues
      rw [if_neg continues]
      obtain ⟨last, found, here⟩ := ih accepted
      exact ⟨last, getLast?_after found, here⟩

theorem totalBytes_next {length : UInt8} (short : length ≠ 255) (total : totalBytes.toNat = cp) :
    (totalBytes + (length + 1)).toNat = (cp + length.toNat + 1) % 256 := by
  rw [UInt8.toNat_add, seglen_eq short, total, Nat.add_assoc]

theorem totalBytes_within {length : UInt8} (total : totalBytes.toNat = cp) (within : cp + length.toNat + 1 < snbNameSize) :
    length ≠ 255 ∧ (totalBytes + (length + 1)).toNat = cp + length.toNat + 1 := by
  have short : length ≠ 255 := by
    rintro rfl
    unfold snbNameSize nbEncnamelen at within
    have : (255 : UInt8).toNat = 255 := rfl
    omega
  refine ⟨short, ?_⟩
  rw [totalBytes_next short total, Nat.mod_eq_of_lt]
  exact Nat.lt_trans within (by decide)

theorem validateLoop_label (zero : mem cp ≠ 0) (short : mem cp ≠ 255)
    (small : (totalBytes + (mem cp + 1)).toNat ≤ snbNameSize) : validateLoop mem (fuel + 1) cp totalBytes =
      (validateLoop mem fuel (cp + (mem cp).toNat + 1) (totalBytes + (mem cp + 1))).after [cp] := by
  have fits : ¬(mem cp + 1 = 0 ∨ snbNameSize < (totalBytes + (mem cp + 1)).toNat) := by
    rintro (wrapped | large)
    · exact (seglen_ne_zero_iff _).mpr short wrapped
    · exact Nat.not_lt.mpr small large
  rw [validateLoop, if_neg zero]
  dsimp only
  rw [if_neg fits, seglen_eq short, ← Nat.add_assoc]

theorem validateLoop_walks (ends : Ends mem cp) (total : totalBytes.toNat = cp) :
    Inside (validateLoop mem fuel cp totalBytes) ∧
      (snbNameSize ≤ cp + fuel → (validateLoop mem fuel cp totalBytes).1 = some (.ok ())) := by
  have here : ∀ a ∈ [cp], a < snbNameSize := by simpa using ends.inside
  induction fuel generalizing cp totalBytes with
  | zero => exact ⟨nofun, fun fueled => absurd ends.inside (Nat.not_lt.mpr fueled)⟩
  | succ fuel ih =>
    cases ends with
    | zero _ empty =>
      rw [validateLoop, if_pos empty]
      exact ⟨here, fun _ => rfl⟩
    | label zero later =>
      obtain ⟨short, next⟩ := totalBytes_within total later.inside
      rw [validateLoop_label zero short (next.trans_le later.inside.le)]
      obtain ⟨inside, accepts⟩ := ih later next (by simpa using later.inside)
      exact ⟨.after here inside, fun fueled => accepts (by omega)⟩

theorem ends_of_accepted {steps : Nat} (inside : cp < snbNameSize) (total : totalBytes.toNat = cp)
    (stepped : snbNameSize ≤ cp + steps) (stays : escapes mem steps cp = false)
    (accepted : (validateLoop mem fuel cp totalBytes).1 = some (.ok ())) : Ends mem cp := by
  induction steps generalizing cp totalBytes fuel with
  | zero => omega
  | succ steps ih =>
    cases fuel with
    | zero => cases accepted
    | succ fuel =>
      unfold validateLoop at accepted
      unfold escapes at stays
      by_cases zero : mem cp = 0
      · exact .zero inside zero
      rw [if_neg zero] at accepted stays
      dsimp only at accepted stays
      split at accepted
      · cases accepted
      rename_i continues
      have short := (seglen_ne_zero_iff (mem cp)).mp fun wrapped => continues (.inl wrapped)
      have small := Nat.not_lt.mp fun large => continues (.inr large)
      have next := totalBytes_next short total
      rw [next] at small
      by_cases within : cp + (mem cp).toNat + 1 < snbNameSize
      · rw [if_pos within] at stays
        rw [seglen_eq short, ← Nat.add_assoc] at accepted
        exact .label zero (ih within (totalBytes_within total within).2 (by omega) stays accepted)
      · rw [if_neg within, decide_eq_false_iff_not] at stays
        refine absurd ?_ stays
        unfold snbNameSize nbEncnamelen at small within ⊢
        by_cases exact' : cp + (mem cp).toNat + 1 = 1 + 16 * 2 + 1
        · exact .inl exact'
        · exact .inr ⟨by omega, short⟩

/-! ## The walk of `nb_put_name` -/

theorem label_inside (ends : Ends mem cp) : ∀ a ∈ cp :: List.range' cp (mem cp + 1).toNat, a < snbNameSize := by
  have inside := ends.inside
  intro a member
  rcases List.mem_cons.mp member with rfl | member
  · exact inside
  obtain ⟨-, upper⟩ := List.mem_range'_1.mp member
  cases ends with
  | zero _ empty =>
    rw [empty, show ((0 : UInt8) + 1).toNat = 1 from rfl] at upper
    omega
  | label zero later =>
    have next := later.inside
    rw [seglen_eq (ends_short (.label zero later) zero)] at upper
    omega

theorem putLoop_inside {puts : Nat → Option Errno} (ends : Ends mem cp) : Inside (putLoop mem fuel puts cp) := by
  induction fuel generalizing cp puts with
  | zero => exact nofun
  | succ fuel ih =>
    have here := label_inside ends
    unfold putLoop
    dsimp only
    split
    · exact here
    split
    · exact here
    · rename_i another
      refine .after here (ih ?_)
      cases ends with
      | zero _ empty => exact absurd (by rw [empty]; rfl) another
      | label zero later =>
        rw [seglen_eq (ends_short (.label zero later) zero), ← Nat.add_assoc]
        exact later

theorem putLoop_ends (ends : Ends mem cp) (fueled : snbNameSize ≤ cp + fuel) :
    (putLoop mem fuel (fun _ => none) cp).1 = some (.ok ()) ∧
      ∃ last ∈ (putLoop mem fuel (fun _ => none) cp).2.getLast?, mem last = 0 := by
  induction fuel generalizing cp with
  | zero =>
    have inside := ends.inside
    omega
  | succ fuel ih =>
    unfold putLoop
    dsimp only
    cases ends with
    | zero _ empty =>
      rw [empty]
      exact ⟨rfl, cp, rfl, empty⟩
    | label zero later =>
      have short := ends_short (.label zero later) zero
      have another : mem cp + 1 ≠ 1 := by
        intro one
        have length := congrArg UInt8.toNat one
        rw [seglen_eq short, UInt8.toNat_one] at length
        exact zero (UInt8.toNat_inj.mp (by simpa using length))
      rw [if_neg another, seglen_eq short, ← Nat.add_assoc]
      obtain ⟨done, last, found, here⟩ := ih later (by omega)
      exact ⟨done, last, getLast?_after found, here⟩

/-! ## Escaping labels -/

theorem accepted_of_escapes {steps : Nat} (zeros : ∀ a, snbNameSize ≤ a → mem a = 0) (inside : cp < snbNameSize)
    (total : totalBytes.toNat = cp) (leaves : escapes mem steps cp = true) :
    ∃ fuel, (validateLoop mem fuel cp totalBytes).1 = some (.ok ()) ∧ ¬Inside (validateLoop mem fuel cp totalBytes) := by
  induction steps generalizing cp totalBytes with
  | zero => cases leaves
  | succ steps ih =>
    unfold escapes at leaves
    by_cases zero : mem cp = 0
    · rw [if_pos zero] at leaves
      cases leaves
    rw [if_neg zero] at leaves
    by_cases within : cp + (mem cp).toNat + 1 < snbNameSize
    · rw [if_pos within] at leaves
      obtain ⟨short, next⟩ := totalBytes_within total within
      obtain ⟨fuel, accepted, outside⟩ := ih within next leaves
      refine ⟨fuel + 1, ?_⟩
      rw [validateLoop_label zero short (next.trans_le within.le)]
      exact ⟨accepted, fun inside => outside fun a member => inside a (List.mem_append_right _ member)⟩
    · rw [if_neg within, decide_eq_true_eq] at leaves
      have bound := (mem cp).toNat_lt
      have short : mem cp ≠ 255 := by
        rcases leaves with exactly | wraps
        · intro long
          rw [long, show (255 : UInt8).toNat = 255 from rfl] at exactly
          unfold snbNameSize nbEncnamelen at exactly
          omega
        · exact wraps.2
      have length := seglen_eq short
      rw [UInt8.toNat_add, UInt8.toNat_one] at length
      have small : (totalBytes + (mem cp + 1)).toNat ≤ snbNameSize := by
        rw [totalBytes_next short total]
        unfold snbNameSize nbEncnamelen at inside leaves ⊢
        omega
      have stops : validateLoop mem 1 (cp + (mem cp).toNat + 1) (totalBytes + (mem cp + 1)) =
          (some (.ok ()), [cp + (mem cp).toNat + 1]) := by
        rw [validateLoop, if_pos (zeros _ (Nat.not_lt.mp within))]
      refine ⟨2, ?_⟩
      rw [validateLoop_label zero short small, stops]
      exact ⟨rfl, fun all => within (all _ (.tail _ (.head _)))⟩

end

variable {mem : Memory}

theorem escapes_congr {mem' : Memory} (same : ∀ a < snbNameSize, mem' a = mem a) {steps cp : Nat}
    (inside : cp < snbNameSize) : escapes mem' steps cp = escapes mem steps cp := by
  induction steps generalizing cp with
  | zero => rfl
  | succ steps ih =>
    unfold escapes
    rw [same cp inside]
    dsimp only
    split
    · rfl
    split
    · rename_i within
      exact ih within
    · rfl

theorem nbValidateName_accepted {fuel : Nat} (accepted : (nbValidateName mem fuel).1 = some (.ok ())) :
    mem 0 ≠ 0 ∧ (validateLoop mem fuel 0 0).1 = some (.ok ()) := by
  unfold nbValidateName at accepted
  split at accepted
  · cases accepted
  · rename_i present
    exact ⟨present, accepted⟩

theorem safeName_of_stays (stays : escapes mem snbNameSize 0 = false) : SafeName mem := by
  have ends {fuel : Nat} (accepted : (nbValidateName mem fuel).1 = some (.ok ())) : Ends mem 0 := by
    obtain ⟨-, loop⟩ := nbValidateName_accepted accepted
    exact ends_of_accepted (by decide) rfl (Nat.le_add_left _ _) stays loop
  have first : ∀ a ∈ [0], a < snbNameSize := by decide
  have validated {fuel : Nat} (walked : Ends mem 0) : Inside (nbValidateName mem fuel) := by
    unfold nbValidateName
    split
    · exact first
    · exact .after first (validateLoop_walks walked rfl).1
  refine ⟨fun fuel accepted => ⟨validated (ends accepted), ?_⟩, fun fuel accepted => ⟨fun fuel' puts => ?_, ?_⟩⟩
  · obtain ⟨present, loop⟩ := nbValidateName_accepted accepted
    obtain ⟨last, found, zero⟩ := validateLoop_ends_zero loop
    rw [nbValidateName, if_neg present]
    exact ⟨last, getLast?_after found, zero⟩
  · unfold nbPutName
    split
    · exact .after (validated (ends accepted)) (putLoop_inside (ends accepted))
    · exact validated (ends accepted)
  · have walked := ends accepted
    obtain ⟨present, -⟩ := nbValidateName_accepted accepted
    have again : (nbValidateName mem snbNameSize).1 = some (.ok ()) := by
      rw [nbValidateName, if_neg present]
      exact (validateLoop_walks walked rfl).2 (Nat.le_add_left _ _)
    obtain ⟨done, last, found, zero⟩ := putLoop_ends walked (Nat.le_add_left snbNameSize 0)
    refine ⟨snbNameSize, ?_⟩
    rw [nbPutName, again]
    exact ⟨done, last, getLast?_after found, zero⟩

/-- Whatever is behind the array, an accepted name is walked over inside it just when no label escapes. -/
theorem nbName_safe_iff (mem : Memory) :
    (∀ mem' : Memory, (∀ a < snbNameSize, mem' a = mem a) → SafeName mem') ↔ escapes mem snbNameSize 0 = false := by
  constructor
  · intro safe
    rw [← Bool.not_eq_true]
    intro leaves
    let mem' : Memory := fun a => if a < snbNameSize then mem a else 0
    have same : ∀ a < snbNameSize, mem' a = mem a := fun a inside => if_pos inside
    have zeros : ∀ a, snbNameSize ≤ a → mem' a = 0 := fun a outside => if_neg (Nat.not_lt.mpr outside)
    rw [← escapes_congr same (by decide)] at leaves
    have atStart : (0 : UInt8).toNat = 0 := rfl
    obtain ⟨fuel, accepted, outside⟩ := accepted_of_escapes zeros (by decide) atStart leaves
    have present : mem' 0 ≠ 0 := by
      intro empty
      rw [snbNameSize, nbEncnamelen, escapes, if_pos empty] at leaves
      cases leaves
    have whole : nbValidateName mem' fuel = (validateLoop mem' fuel 0 0).after [0] := by
      rw [nbValidateName, if_neg present]
    obtain ⟨inside, -⟩ := (safe mem' same).validates fuel (by rw [whole]; exact accepted)
    rw [whole] at inside
    exact outside fun a member => inside a (List.mem_append_right _ member)
  · intro stays mem' same
    apply safeName_of_stays
    rw [escapes_congr same (by decide)]
    exact stays

/-- A label of nine characters and one of 249: the total wraps to four, and the walk goes on at 260. -/
theorem nbValidateName_wraps :
    let mem : Memory := fun a => if a = 0 then 9 else if a = 10 then 249 else 0
    nbValidateName mem 3 = (some (.ok ()), [0, 0, 10, 260]) ∧ ¬SafeName mem := by
  intro mem
  have accepted : nbValidateName mem 3 = (some (.ok ()), [0, 0, 10, 260]) := by decide +kernel
  refine ⟨accepted, fun safe => ?_⟩
  obtain ⟨inside, -⟩ := safe.validates 3 (by rw [accepted])
  rw [accepted] at inside
  exact absurd (inside 260 (by decide)) (by decide)

end SmbClient.Transport
