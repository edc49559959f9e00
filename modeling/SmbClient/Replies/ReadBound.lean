import SmbClient.Replies.Placed

/-! How much of a reply to a read reaches the caller: `smb2_smb_parse_read_one` does not know how much was asked
for. -/

namespace SmbClient.Replies
open SmbClient.Lib SmbClient.Lib.Fallible SmbClient.Mbuf SmbClient.Mbuf.Reader SmbClient.ReadWrite

def claimedLength (data : Bytes) : Nat := (readOne.fields data).length

def dataStart (data : Bytes) : Nat := 16 + skipDistance 8 80 (readOne.fields data).offset

/-- The parse gets to the data. -/
def ReachesData (data : Bytes) : Prop := ReadHead data ∧ dataStart data ≤ data.length

/-- To the uio of a request for `n` bytes go no more than `n`, no more are reported, and a reply that claims more
is rejected. -/
structure ReadBounded (n claimed : Nat) (before : Target) (result : Except Errno Nat × Reading Target) : Prop where
  stores : before.auio.resid ≤ result.2.state.auio.resid + n
  reports : ∀ length, result.1 = .ok length → length ≤ n
  rejects : n < claimed → ∃ e, result.1 = .error e

theorem mdGetUioLoop_resid (unread : Chain) (size : Nat) (target : Target) :
    (mdGetUioLoop unread size target).2.auio.resid = target.auio.resid - min size (bytes unread).length := by
  induction unread generalizing size target with
  | nil =>
    rw [mdGetUioLoop, bytes_nil, List.length_nil, Nat.min_zero, Nat.sub_zero]
    split <;> rfl
  | cons m rest ih =>
    rw [mdGetUioLoop, bytes_cons, List.length_append]
    split
    · dsimp only
      omega
    · rw [ih]
      simp only [uiomove, smbfsUioUpdate, List.length_take]
      omega

theorem toReadData_state (before : Target) :
    Ensures (fun s => s.state = before) toReadData (fun s => s.state = before) := by
  have same : ∀ state : Target, state = before → state = before := fun _ holds => holds
  have keeps : ∀ s : Reading Target, s.state = before → s.state = before := fun _ holds => holds
  unfold toReadData
  refine .bind (ensures_getUint same 2) (fun _ => ?_) keeps
  refine .bind (ensures_require same _ _) (fun _ => ?_) keeps
  refine .bind (ensures_getUint same 1) (fun _ => ?_) keeps
  refine .bind (ensures_getUint same 1) (fun _ => ?_) keeps
  refine .bind (ensures_getUint same 4) (fun _ => ?_) keeps
  refine .bind (ensures_getUint same 4) (fun _ => ?_) keeps
  refine .bind (ensures_getUint same 4) (fun _ => ?_) keeps
  refine .bind (.ite (fun _ => ensures_skip same _) (fun _ => .pure keeps)) (fun _ => .pure keeps) keeps

theorem smb2SmbParseReadOne_unreached {s : Reading Target} (unreached : ¬ReachesData s.mdp.rest) :
    ∃ e, (smb2SmbParseReadOne s).1 = .error e ∧ (smb2SmbParseReadOne s).2.state = s.state := by
  obtain ⟨e, t, failed⟩ := (readOne_reaches s).settles.error unreached
  have unchanged := toReadData_state s.state s rfl
  have stops : smb2SmbParseReadOne s = (.error e, t) := by
    rw [smb2SmbParseReadOne_eq]
    exact bind_of_error failed
  rw [show toReadData s = (.error e, t) from failed] at unchanged
  exact ⟨e, by rw [stops], by rw [stops]; exact unchanged⟩

theorem smb2SmbParseReadOne_reached {s : Reading Target} (reaches : ReachesData s.mdp.rest) :
    smb2SmbParseReadOne s = readData (claimedLength s.mdp.rest) (s.advance (dataStart s.mdp.rest)) := by
  obtain ⟨_, _, found, rfl, after⟩ := (readOne_reaches s).settles.ok reaches
  rw [smb2SmbParseReadOne_eq]
  rw [after] at found
  exact bind_of_ok found

variable {retLen : Nat}

theorem readData_of_pos (present : retLen ≠ 0) (u : Reading Target) :
    (readData retLen u).2 = (mdGetUio retLen u).2 := by
  unfold readData
  rw [if_neg present]
  cases run : mdGetUio retLen u with
  | mk result t =>
    cases result with
    | ok copied => rw [bind_of_ok run]; rfl
    | error e => rw [bind_of_error run]

theorem readData_resid (retLen : Nat) (u : Reading Target) :
    (readData retLen u).2.state.auio.resid =
      u.state.auio.resid - min (Int.bmod retLen (2 ^ 32)).toNat u.mdp.rest.length := by
  by_cases present : retLen = 0
  · subst present
    rw [Int.ofNat_zero, Int.zero_bmod, Int.toNat_zero, Nat.zero_min, Nat.sub_zero]
    rfl
  · rw [readData_of_pos present]
    exact mdGetUioLoop_resid u.mdp.unread _ u.state

theorem readData_reports {u t : Reading Target} {length : Nat}
    (run : readData retLen u = (.ok length, t)) : length = retLen := by
  unfold readData at run
  split at run
  · rename_i zero
    obtain ⟨result, -⟩ := Prod.mk.inj run
    cases result
    exact zero.symm
  · obtain ⟨_, _, -, last⟩ := of_bind_eq_ok run
    obtain ⟨result, -⟩ := Prod.mk.inj last
    cases result
    rfl

/-- The data of the reply and the room for it let the parse store and report no more than `n` bytes: the reply
claims no more, or what it claims is not there, is missed, and is no more than `n` bytes either. -/
def ClaimContained (n claimed left resid : Nat) : Prop :=
  claimed ≤ n ∨ claimed < 2 ^ 31 ∧ left ≤ n ∧ left < resid

theorem toNat_bmod_le (size : Nat) : (Int.bmod size (2 ^ 32)).toNat ≤ size := by
  rw [Int.bmod_def]
  omega

theorem toNat_bmod_of_lt {size : Nat} (small : size < 2 ^ 31) : (Int.bmod size (2 ^ 32)).toNat = size := by
  rw [Int.bmod_eq_of_le] <;> omega

theorem toNat_bmod_of_ge {size : Nat} (large : 2 ^ 31 ≤ size) (bounded : size < 2 ^ 32) :
    (Int.bmod size (2 ^ 32)).toNat = 0 := by
  rw [Int.bmod_def]
  omega

theorem readData_error_iff (retLen : Nat) (u : Reading Target) :
    (∃ e, (readData retLen u).1 = .error e) ↔
      retLen ≠ 0 ∧ u.mdp.rest.length < min (Int.bmod retLen (2 ^ 32)).toNat u.state.auio.resid := by
  have accepts := readData_ok_iff retLen u
  cases run : readData retLen u with
  | mk result t =>
    cases result with
    | ok length =>
      refine iff_of_false (fun failed => by obtain ⟨_, ⟨⟩⟩ := failed) fun missing => ?_
      rcases accepts.mp ⟨length, t, run⟩ with zero | filled
      · exact missing.1 zero
      · exact Nat.not_lt.mpr filled missing.2
    | error e =>
      refine iff_of_true ⟨e, rfl⟩ ?_
      have refused : ¬(retLen = 0 ∨ UioFilled retLen u.state.auio u.mdp.rest.length) := by
        intro taken
        obtain ⟨_, _, ended⟩ := accepts.mpr taken
        rw [run] at ended
        obtain ⟨⟨⟩, -⟩ := Prod.mk.inj ended
      exact ⟨fun zero => refused (.inl zero), Nat.not_le.mp fun filled => refused (.inr filled)⟩

theorem readData_bounded_iff {n : Nat} (bounded : retLen < 2 ^ 32) (u : Reading Target) :
    ReadBounded n retLen u.state (readData retLen u) ↔
      ClaimContained n retLen u.mdp.rest.length u.state.auio.resid := by
  have reports : ∀ length, (readData retLen u).1 = .ok length → length = retLen :=
    fun length reported => readData_reports (Prod.ext reported rfl)
  have copied := readData_resid retLen u
  by_cases claimed : retLen ≤ n
  · refine iff_of_true ⟨?_, fun length reported => ?_, fun more => absurd more (Nat.not_lt.mpr claimed)⟩ (.inl claimed)
    · have size := toNat_bmod_le retLen
      omega
    · rw [reports length reported]
      exact claimed
  · have missing := readData_error_iff retLen u
    constructor
    · intro holds
      obtain ⟨-, short⟩ := missing.mp (holds.rejects (Nat.not_le.mp claimed))
      have stored := holds.stores
      -- A length that is negative as an `int32_t` would have been accepted.
      rcases Nat.lt_or_ge retLen (2 ^ 31) with small | large
      · rw [toNat_bmod_of_lt small] at copied short
        exact .inr ⟨small, by omega, by omega⟩
      · rw [toNat_bmod_of_ge large bounded, Nat.zero_min] at short
        exact absurd short (Nat.not_lt_zero _)
    · rintro (less | ⟨small, left, room⟩)
      · exact absurd less claimed
      · rw [toNat_bmod_of_lt small] at copied missing
        obtain ⟨e, failed⟩ := missing.mpr ⟨by omega, by omega⟩
        refine ⟨by omega, fun length reported => ?_, fun _ => ⟨e, failed⟩⟩
        rw [failed] at reported
        cases reported

theorem readOne_bounded_iff (n : Nat) (s : Reading Target) :
    ReadBounded n (claimedLength s.mdp.rest) s.state (smb2SmbParseReadOne s) ↔
      (ReachesData s.mdp.rest → ClaimContained n (claimedLength s.mdp.rest)
        (s.mdp.rest.length - dataStart s.mdp.rest) s.state.auio.resid) := by
  by_cases reaches : ReachesData s.mdp.rest
  · have inside := @readData_bounded_iff _ n (ofLe_slice_lt s.mdp.rest 4 4) (s.advance (dataStart s.mdp.rest))
    rw [Reading.advance_rest, List.length_drop] at inside
    rw [smb2SmbParseReadOne_reached reaches, forall_prop_of_true reaches]
    exact inside
  · obtain ⟨e, failed, unchanged⟩ := smb2SmbParseReadOne_unreached reaches
    refine iff_of_true ⟨?_, fun length reported => ?_, fun _ => ⟨e, failed⟩⟩ fun reached => absurd reached reaches
    · rw [unchanged]
      exact Nat.le_add_right _ _
    · rw [failed] at reported
      cases reported

/-- Eight bytes in reply to a request for four, with room for sixteen left in the uio: all of them are stored, the
last four over what belongs to the next request, and all are reported. -/
theorem readOne_stores_unasked :
    let reply : Bytes := toLe 2 17 ++ [80, 0] ++ toLe 4 8 ++ toLe 4 0 ++ toLe 4 0 ++ List.replicate 8 7
    let s : Reading Target := ⟨mdInitm [reply], ⟨⟨0, 0, 16⟩, fun _ => none⟩⟩
    (smb2SmbParseReadOne s).1 = .ok 8 ∧ (smb2SmbParseReadOne s).2.state.auio.resid = 8 ∧
      ¬ReadBounded 4 (claimedLength s.mdp.rest) s.state (smb2SmbParseReadOne s) := by
  intro reply s
  have accepted : (smb2SmbParseReadOne s).1 = .ok 8 := by decide +kernel
  refine ⟨accepted, by decide +kernel, fun bounded => ?_⟩
  exact absurd (bounded.reports 8 accepted) (by decide)

end SmbClient.Replies
