import SmbClient.Lib.Runs
import SmbClient.Mbuf.MdChain

/-!
`smb2_rq_next_command`, which takes the read cursor from one reply of a compound reply to the next.
-/

namespace SmbClient.Receive
open SmbClient.Lib SmbClient.Mbuf

def smb2RqNextCommand (rspnextcmd nextCmdOffset : Nat) (mdp : MdChain) : Nat × Except Errno MdChain :=
  let nextCmdOffset := nextCmdOffset + rspnextcmd
  -- more may have been parsed than the offsets account for: then there are no pad bytes
  if mdp.len < nextCmdOffset then (nextCmdOffset, (getMem mdp (nextCmdOffset - mdp.len)).map (·.2))
  else (nextCmdOffset, .ok mdp)

def position (mdp : MdChain) : Nat := (bytes mdp.top).length - mdp.rest.length

structure CompoundReply where
  mdp : MdChain
  nextCmdOffset : Nat := 0
  start : Nat := 0

inductive ReplyEvent
  | parsed (mdp : MdChain)
  | nextCommand (rspnextcmd : Nat)

namespace CompoundReply

def step (s : CompoundReply) : ReplyEvent → Option CompoundReply
  | .parsed mdp => if mdp.top = s.mdp.top ∧ mdp.cur <:+ mdp.top then some { s with mdp } else none
  | .nextCommand rspnextcmd =>
    match smb2RqNextCommand rspnextcmd s.nextCmdOffset s.mdp with
    | (nextCmdOffset, .ok mdp) => some { mdp, nextCmdOffset, start := position mdp }
    | (_, .error _) => none

/-- A call that succeeds leaves the cursor where the server says that the next reply starts. -/
def Exact (s : CompoundReply) : ReplyEvent → Prop
  | .parsed _ => True
  | .nextCommand rspnextcmd =>
    ∀ mdp, (smb2RqNextCommand rspnextcmd s.nextCmdOffset s.mdp).2 = .ok mdp → position mdp = s.start + rspnextcmd

/-- The parsers have not gone past the next reply, and `md_len` is the number of bytes they have gone through;
or the message is too short to have a next reply there. -/
def Covered (s : CompoundReply) : ReplyEvent → Prop
  | .parsed _ => True
  | .nextCommand rspnextcmd =>
    if s.mdp.len < s.nextCmdOffset + rspnextcmd then
      position s.mdp = s.mdp.len ∨
        (bytes s.mdp.top).length < position s.mdp + (s.nextCmdOffset + rspnextcmd - s.mdp.len)
    else position s.mdp = s.nextCmdOffset + rspnextcmd

structure InStep (s : CompoundReply) : Prop where
  cursor : s.mdp.cur <:+ s.mdp.top
  start : s.start = s.nextCmdOffset

end CompoundReply

theorem mdGetMemLoop_suffix (cur : Chain) (pos size : Nat) : (mdGetMemLoop cur pos size).2.1 <:+ cur := by
  induction cur, pos, size using mdGetMemLoop.induct with
  | case1 cur pos =>
    unfold mdGetMemLoop
    exact List.suffix_refl cur
  | case2 pos size => exact List.suffix_refl []
  | case3 m rest pos size count short ih =>
    simp only [mdGetMemLoop, count, if_pos short]
    exact ih.trans (List.suffix_cons m rest)
  | case4 m rest pos size count long =>
    simp only [mdGetMemLoop, count, if_neg long]
    exact List.suffix_refl _

theorem mdGetMem_cursor (mdp : MdChain) (size : Nat) :
    (mdGetMem mdp size).mdp.top = mdp.top ∧ (mdGetMem mdp size).mdp.cur <:+ mdp.cur := by
  have suffix := mdGetMemLoop_suffix mdp.cur mdp.pos size
  simp only [mdGetMem]
  split <;> exact ⟨rfl, suffix⟩

theorem length_unreadFrom_le (cur : Chain) (pos : Nat) : (bytes (unreadFrom cur pos)).length ≤ (bytes cur).length := by
  cases cur with
  | nil => exact Nat.le_refl _
  | cons m rest => simp

variable {mdp : MdChain}

theorem length_rest_le (cursor : mdp.cur <:+ mdp.top) :
    mdp.rest.length ≤ (bytes mdp.top).length := by
  obtain ⟨front, whole⟩ := cursor
  have part := length_unreadFrom_le mdp.cur mdp.pos
  rw [← whole, bytes_append, List.length_append]
  exact Nat.le_add_left_of_le part

theorem smb2RqNextCommand_ok {rspnextcmd nextCmdOffset : Nat} {next : MdChain} (cursor : mdp.cur <:+ mdp.top)
    (success : (smb2RqNextCommand rspnextcmd nextCmdOffset mdp).2 = .ok next) :
    next.cur <:+ next.top ∧ position next = position mdp + (nextCmdOffset + rspnextcmd - mdp.len) ∧
      position next ≤ (bytes mdp.top).length := by
  have inside := length_rest_le cursor
  unfold smb2RqNextCommand at success
  dsimp only at success
  split at success
  · rw [getMem_eq] at success
    split at success
    · rename_i enough
      simp only [Except.map, Except.ok.injEq] at success
      subst success
      obtain ⟨top, suffix⟩ := mdGetMem_cursor mdp (nextCmdOffset + rspnextcmd - mdp.len)
      unfold position
      rw [top, mdGetMem_rest, List.length_drop]
      exact ⟨suffix.trans cursor, by omega, by omega⟩
    · cases success
  · simp only [Except.ok.injEq] at success
    subst success
    unfold position
    exact ⟨cursor, by omega, by omega⟩

theorem smb2RqNextCommand_error {rspnextcmd nextCmdOffset : Nat} {e : Errno}
    (cursor : mdp.cur <:+ mdp.top) (failed : (smb2RqNextCommand rspnextcmd nextCmdOffset mdp).2 = .error e) :
    mdp.len < nextCmdOffset + rspnextcmd ∧
      (bytes mdp.top).length < position mdp + (nextCmdOffset + rspnextcmd - mdp.len) := by
  have inside := length_rest_le cursor
  unfold smb2RqNextCommand at failed
  dsimp only at failed
  split at failed
  · rename_i more
    rw [getMem_eq] at failed
    split at failed
    · cases failed
    · unfold position
      exact ⟨more, by omega⟩
  · cases failed

namespace CompoundReply

theorem exact_iff {s : CompoundReply} (inStep : InStep s) (e : ReplyEvent) : s.Exact e ↔ s.Covered e := by
  cases e with
  | parsed mdp => exact Iff.rfl
  | nextCommand rspnextcmd =>
    unfold Exact Covered
    dsimp only
    rw [inStep.start]
    cases called : (smb2RqNextCommand rspnextcmd s.nextCmdOffset s.mdp).2 with
    | error e =>
      obtain ⟨more, short⟩ := smb2RqNextCommand_error inStep.cursor called
      rw [if_pos more]
      exact iff_of_true (fun mdp success => nomatch success) (.inr short)
    | ok mdp =>
      obtain ⟨-, skipped, inside⟩ := smb2RqNextCommand_ok inStep.cursor called
      simp only [Except.ok.injEq, forall_eq']
      split
      · constructor
        · intro exact
          exact .inl (by omega)
        · rintro (counted | short) <;> omega
      · constructor <;> omega

theorem InStep.step {s next : CompoundReply} {e : ReplyEvent} (inStep : InStep s) (exact : s.Exact e)
    (taken : s.step e = some next) : InStep next := by
  cases e with
  | parsed mdp =>
    unfold CompoundReply.step at taken
    dsimp only at taken
    split at taken
    · rename_i here
      cases taken
      exact ⟨here.2, inStep.start⟩
    · cases taken
  | nextCommand rspnextcmd =>
    have total : (smb2RqNextCommand rspnextcmd s.nextCmdOffset s.mdp).1 = s.nextCmdOffset + rspnextcmd := by
      unfold smb2RqNextCommand
      dsimp only
      split <;> rfl
    unfold CompoundReply.step at taken
    dsimp only at taken
    split at taken
    · rename_i nextCmdOffset mdp called
      cases taken
      have success := congrArg Prod.snd called
      refine ⟨(smb2RqNextCommand_ok inStep.cursor success).1, ?_⟩
      have there := exact mdp success
      rw [called] at total
      rw [there, inStep.start]
      exact total.symm
    · cases taken

theorem inStep_initial (m : Chain) : InStep { mdp := mdInitm m } := ⟨List.suffix_refl m, rfl⟩

end CompoundReply

theorem nextCommand_exact_iff (m : Chain) (events : List ReplyEvent) :
    AllSteps CompoundReply.step CompoundReply.Exact { mdp := mdInitm m } events ↔
      AllSteps CompoundReply.step CompoundReply.Covered { mdp := mdInitm m } events := by
  have start := CompoundReply.inStep_initial m
  constructor
  · apply AllSteps.of_invariant CompoundReply.step _ _ start
    · exact fun s e next inStep exact taken => inStep.step exact taken
    · exact fun s e inStep exact => (CompoundReply.exact_iff inStep e).mp exact
  · apply AllSteps.of_invariant CompoundReply.step _ _ start
    · exact fun s e next inStep covered taken => inStep.step ((CompoundReply.exact_iff inStep e).mpr covered) taken
    · exact fun s e inStep covered => (CompoundReply.exact_iff inStep e).mpr covered

def compound : Chain := [List.replicate 160 0]

def parsedReply : MdChain := (mdGetMem (mdInitm compound) 80).mdp

/-- The reply says that the next one starts after 72 bytes. -/
theorem nextCommand_past :
    position parsedReply = 80 ∧ (smb2RqNextCommand 72 0 parsedReply).2.toOption.map position = some 80 ∧
      ¬AllSteps CompoundReply.step CompoundReply.Exact { mdp := mdInitm compound }
        [.parsed parsedReply, .nextCommand 72] := by
  refine ⟨by decide +kernel, by decide +kernel, fun exact => ?_⟩
  have stays : (smb2RqNextCommand 72 0 parsedReply).2 = .ok parsedReply := by
    unfold smb2RqNextCommand
    rw [if_neg (by decide +kernel)]
  have inside : parsedReply.top = (mdInitm compound).top ∧ parsedReply.cur <:+ parsedReply.top := by decide +kernel
  have taken : CompoundReply.step { mdp := mdInitm compound } (.parsed parsedReply) = some { mdp := parsedReply } := by
    unfold CompoundReply.step
    dsimp only
    rw [if_pos inside]
  have there := (exact.2 { mdp := parsedReply } taken).1
  unfold CompoundReply.Exact at there
  dsimp only at there
  replace there := there parsedReply stays
  revert there
  decide +kernel

end SmbClient.Receive
