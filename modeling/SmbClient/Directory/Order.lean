import SmbClient.Directory.Queries

/-! The order in which `smb2fs_smb_findnext` returns the entries of a directory. -/

namespace SmbClient.Directory
open SmbClient.Lib SmbClient.Mbuf SmbClient.Replies

/-! ## What the server sends -/

def splitEntries : Nat → Bytes → List Bytes
  | 0, _ => []
  | fuel + 1, buffer =>
    if buffer = [] then []
    else if recordNext buffer = 0 then [buffer]
    else buffer.take (recordNext buffer) :: splitEntries fuel (buffer.drop (recordNext buffer))

def entriesOf (buffer : Bytes) : List Bytes := splitEntries buffer.length buffer

def outputBuffer (body : Chain) : Bytes :=
  let named := outputBufferFields (bytes body)
  ((bytes body).drop (8 + skipDistance 16 72 named.offset)).take named.length

def sentBy (e : Enumeration) : Event → List Bytes
  | .answer (.replied body) _ _ =>
    match e.phase, (smb2SmbParseQueryDir ⟨mdInitm body, dirRequest⟩).1 with
    | .sending _, .ok () => entriesOf (outputBuffer body)
    | _, _ => []
  | _ => []

def returnedBy (env : DirEnv) (e : Enumeration) (event : Event) : List Found :=
  (step env e event).elim [] fun next => if next.phase = .returned none then [next.ctx.found] else []

section
variable (env : DirEnv) (level : InfoLevel)

def Shows (entry : Bytes) (found : Found) : Prop :=
  ∃ before r t, smb2SmbParseQueryDirBothDirInfo env level ⟨mdInitm [entry], before⟩ = (.ok r, t) ∧ t.state = found

structure ReplyWellFormed (body : Chain) : Prop where
  present : outputBuffer body ≠ []
  whole : (outputBuffer body).length = (outputBufferFields (bytes body)).length
  entries : ∀ entry ∈ entriesOf (outputBuffer body), WellFormed env level entry

end

/-- Replies are well formed, and none is accepted while there is another one with entries to return. -/
def InTurn (env : DirEnv) (e : Enumeration) : Event → Prop
  | .answer (.replied body) _ _ =>
    (∃ after, smb2SmbParseQueryDir ⟨mdInitm body, dirRequest⟩ = (.ok (), after)) →
      e.ctx.queries.tail = [] ∧ ReplyWellFormed env e.ctx.infolevel body
  | _ => True

/-- The calls have returned the first of the entries sent, each once and in order, all of them at the end of the
directory; and the next call returns the next one. -/
structure InOrder (env : DirEnv) (level : InfoLevel) (sent : List Bytes) (returned : List Found) (e : Enumeration)
    (got left : List Bytes) : Prop where
  split : sent = got ++ left
  shown : List.Forall₂ (Shows env level) got returned
  all : e.phase = .returned (some .enoent) → left = []
  next : ∀ entry later error queryp node, left = entry :: later → e.phase = .returned error →
    ∃ after, run (step env) e [.findnext queryp node, .parse] = some after ∧ after.phase = .returned none ∧
      Shows env level entry after.ctx.found

/-! ## What is saved -/

/-- Each entry but the last says where the next one begins. -/
def Linked : List Bytes → Prop
  | [] => True
  | entry :: later => (recordNext entry = entry.length ∨ recordNext entry = 0 ∧ later = []) ∧ Linked later

/-- The query has just these entries left. -/
structure Holds (env : DirEnv) (level : InfoLevel) (q : Query) (waiting : List Bytes) : Prop where
  present : waiting ≠ []
  length : q.outputBufLen = waiting.flatten.length
  small : q.outputBufLen < 2 ^ 32
  bytes : ∃ tail, q.reply.rest = waiting.flatten ++ tail
  linked : Linked waiting
  wellFormed : ∀ entry ∈ waiting, WellFormed env level entry

inductive Saved (env : DirEnv) (level : InfoLevel) : List Query → List Bytes → Prop
  | nothing : Saved env level [] []
  | one {q : Query} {waiting : List Bytes} : Holds env level q waiting → Saved env level [q] waiting

section
variable {env : DirEnv} {level : InfoLevel}

variable {entry : Bytes} {q : Query}

theorem recordNext_append (four : 4 ≤ entry.length) (tail : Bytes) :
    recordNext (entry ++ tail) = recordNext entry := by
  unfold recordNext slice
  rw [List.drop_zero, List.drop_zero, List.take_append_of_le_length four]

theorem rest_alone (entry : Bytes) : (mdInitm [entry]).rest = entry := by
  rw [rest_mdInitm, bytes_cons, bytes_nil, List.append_nil]

theorem WellFormed.length (wellFormed : WellFormed env level entry) :
    4 ≤ entry.length ∧ recordNext entry ≤ entry.length := by
  have whole := wellFormed.whole
  have fixed : 4 ≤ fixedSize level := by cases level <;> decide
  refine ⟨by omega, ?_⟩
  by_cases last : recordNext entry = 0
  · rw [last]
    exact Nat.zero_le _
  · exact (wellFormed.follows last).2.1

theorem WellFormed.alone (wellFormed : WellFormed env level entry) (before : Found) :
    ∃ r t, smb2SmbParseQueryDirBothDirInfo env level ⟨mdInitm [entry], before⟩ = (.ok r, t) := by
  apply WellFormed.accepted
  rw [rest_alone]
  exact wellFormed

theorem splitEntries_flatten {fuel : Nat} {buffer : Bytes} (fueled : buffer.length ≤ fuel)
    (wellFormed : ∀ entry ∈ splitEntries fuel buffer, WellFormed env level entry) :
    (splitEntries fuel buffer).flatten = buffer ∧ Linked (splitEntries fuel buffer) := by
  induction fuel generalizing buffer with
  | zero =>
    rw [Nat.le_zero, List.length_eq_zero_iff] at fueled
    subst fueled
    exact ⟨rfl, trivial⟩
  | succ fuel ih =>
    unfold splitEntries at wellFormed ⊢
    by_cases empty : buffer = []
    · rw [if_pos empty]
      exact ⟨empty.symm, trivial⟩
    rw [if_neg empty] at wellFormed ⊢
    by_cases last : recordNext buffer = 0
    · rw [if_pos last]
      exact ⟨List.append_nil _, .inr ⟨last, rfl⟩, trivial⟩
    rw [if_neg last] at wellFormed ⊢
    obtain ⟨four, covers⟩ := (wellFormed _ List.mem_cons_self).length
    have same := recordNext_append four (buffer.drop (recordNext buffer))
    rw [List.take_append_drop] at same
    rw [← same] at covers
    have shorter : (buffer.drop (recordNext buffer)).length ≤ fuel := by
      rw [List.length_drop]
      omega
    obtain ⟨others, linked⟩ := ih shorter fun entry member => wellFormed entry (List.mem_cons_of_mem _ member)
    refine ⟨?_, .inl ?_, linked⟩
    · rw [List.flatten_cons, others, List.take_append_drop]
    · rw [List.length_take] at covers ⊢
      omega

theorem Holds.parseHead {ctx : Fctx} {later : List Bytes} (holds : Holds env ctx.infolevel q (entry :: later)) :
    ∃ r t, Directory.parseHead env ctx q = (.ok r, t) ∧ Shows env ctx.infolevel entry t.state ∧
      ((recordNext entry = entry.length ∧ r.recsz = entry.length ∧ r.lastEntry = false ∧
          ∃ tail, t.mdp.rest = later.flatten ++ tail) ∨
        (r.lastEntry = true ∧ later = [])) := by
  let found := { ctx.found with networkNameLen := 0 }
  have wellFormed := holds.wellFormed entry List.mem_cons_self
  obtain ⟨four, -⟩ := wellFormed.length
  obtain ⟨r, t, parsed⟩ := wellFormed.alone found
  obtain ⟨size, last, -, n, taken, reaches⟩ := smb2SmbParseQueryDirBothDirInfo_parsed parsed
  obtain ⟨tail, bytes⟩ := holds.bytes
  have enough := taken.enough
  rw [rest_alone] at enough reaches size last
  rw [List.flatten_cons, List.append_assoc] at bytes
  have front : q.reply.rest.take n = (mdInitm [entry]).rest.take n := by
    rw [bytes, rest_alone, List.take_append_of_le_length enough]
  obtain ⟨t', run, state, rest⟩ := taken.again ⟨q.reply, found⟩ rfl front
  refine ⟨r, t', run, ⟨found, r, t, parsed, state.symm⟩, ?_⟩
  obtain ⟨next | ⟨zero, none⟩, -⟩ := holds.linked
  · refine .inl ⟨next, ?_, ?_, tail, ?_⟩
    · rw [size, recordSize, recsz, if_pos (by omega), next]
    · rw [← Bool.not_eq_true, last]
      omega
    · have whole : n = entry.length := by omega
      rw [rest, bytes, whole, List.drop_left]
  · exact .inr ⟨last.mpr zero, none⟩

theorem sub32_of_le {a b : Nat} (covered : b ≤ a) (small : a < 2 ^ 32) : sub32 a b = a - b := by
  unfold sub32
  omega

theorem parseQuery_of_ok {e : Enumeration} {rest : List Query} {r : Record} {t : Reading Found}
    (queries : e.ctx.queries = q :: rest) (parsed : parseHead env e.ctx q = (.ok r, t)) :
    parseQuery env e = { e with
      ctx := (Fctx.recordParsed { e.ctx with found := t.state } { q with reply := t.mdp } rest r).freeFinished
      phase := .returned none } := by
  unfold parseQuery
  simp only [queries, parsed]

theorem freeFinished_infolevel (ctx : Fctx) :
    ctx.freeFinished.infolevel = ctx.infolevel ∧ ctx.freeFinished.found = ctx.found := by
  unfold Fctx.freeFinished
  split
  · split <;> exact ⟨rfl, rfl⟩
  · exact ⟨rfl, rfl⟩

theorem recordParsed_infolevel (ctx : Fctx) (q : Query) (rest : List Query) (r : Record) :
    (ctx.recordParsed q rest r).infolevel = ctx.infolevel ∧ (ctx.recordParsed q rest r).found = ctx.found := by
  unfold Fctx.recordParsed
  dsimp only
  split <;> exact ⟨rfl, rfl⟩

theorem recordParsed_queries (ctx : Fctx) (q : Query) (rest : List Query) (r : Record) :
    (ctx.recordParsed q rest r).freeFinished.queries =
      if r.lastEntry = true ∨ sub32 q.outputBufLen r.recsz = 0 then rest
      else { q with outputBufLen := sub32 q.outputBufLen r.recsz } :: rest := by
  unfold Fctx.recordParsed Fctx.freeFinished Fctx.freeQueryHead
  cases last : r.lastEntry with
  | true => simp
  | false =>
    simp only [Bool.false_eq_true, if_false, false_or]
    split <;> rfl

theorem Holds.parseQuery {e : Enumeration} {later : List Bytes}
    (queries : e.ctx.queries = [q]) (holds : Holds env e.ctx.infolevel q (entry :: later)) :
    (Directory.parseQuery env e).phase = .returned none ∧
      Shows env e.ctx.infolevel entry (Directory.parseQuery env e).ctx.found ∧
      Saved env e.ctx.infolevel (Directory.parseQuery env e).ctx.queries later ∧
      (Directory.parseQuery env e).ctx.infolevel = e.ctx.infolevel := by
  obtain ⟨r, t, parsed, shows, place⟩ := holds.parseHead
  rw [parseQuery_of_ok queries parsed]
  refine ⟨rfl, ?_, ?_, ?_⟩
  · rw [(freeFinished_infolevel _).2, (recordParsed_infolevel _ _ _ _).2]
    exact shows
  · dsimp only
    rw [recordParsed_queries]
    obtain ⟨-, size, more, tail, rest⟩ | ⟨last, rfl⟩ := place
    · have length := holds.length
      rw [List.flatten_cons, List.length_append] at length
      have left : sub32 q.outputBufLen r.recsz = later.flatten.length := by
        rw [sub32_of_le (by omega) holds.small]
        omega
      dsimp only
      rw [more, left]
      cases later with
      | nil =>
        rw [if_pos (.inr rfl)]
        exact .nothing
      | cons following others =>
        have nonempty : 0 < (following :: others).flatten.length := by
          have four := (holds.wellFormed following (.tail _ (.head _))).length.1
          rw [List.flatten_cons, List.length_append]
          omega
        rw [if_neg (by simpa using nonempty.ne')]
        refine .one ⟨List.cons_ne_nil _ _, rfl, ?_, ⟨tail, rest⟩, holds.linked.2, ?_⟩
        · have small := holds.small
          dsimp only
          omega
        · exact fun d member => holds.wellFormed d (List.mem_cons_of_mem _ member)
    · rw [if_pos (.inl last)]
      exact .nothing
  · rw [(freeFinished_infolevel _).1, (recordParsed_infolevel _ _ _ _).1]

end

/-! ## One step -/

def Enumeration.answered (e : Enumeration) : List Query :=
  match e.phase with
  | .sending _ => e.ctx.queries.tail
  | _ => e.ctx.queries

structure Waiting (env : DirEnv) (level : InfoLevel) (e : Enumeration) (waiting : List Bytes) : Prop where
  infolevel : e.ctx.infolevel = level
  saved : Saved env level e.answered waiting
  sending : ∀ attempts, e.phase = .sending attempts → e.ctx.queries ≠ [] ∧ e.ctx.eof = false
  parsing : e.phase = .parsing → waiting ≠ []
  all : e.phase = .returned (some .enoent) → waiting = []

structure Passes (env : DirEnv) (level : InfoLevel) (e : Enumeration) (waiting : List Bytes) : Prop
    extends Waiting env level e waiting where
  silent : e.phase ≠ .returned none

section
variable {env : DirEnv} {level : InfoLevel} {waiting : List Bytes}

variable {e : Enumeration}

section
variable (infolevel : e.ctx.infolevel = level) (saved : Saved env level e.ctx.queries waiting)
include infolevel saved

theorem waiting_idle (idle : ∀ attempts, e.phase ≠ .sending attempts) (parsing : e.phase = .parsing → waiting ≠ [])
    (all : e.phase = .returned (some .enoent) → waiting = []) : Waiting env level e waiting where
  infolevel
  saved := by
    unfold Enumeration.answered
    split
    · rename_i attempts sending
      exact absurd sending (idle attempts)
    · exact saved
  sending attempts here := absurd here (idle attempts)
  parsing
  all

theorem waiting_returned (phase : e.phase = .returned none) : Waiting env level e waiting :=
  waiting_idle infolevel saved (by simp [phase]) (by simp [phase]) (by simp [phase])

theorem passes_returned {error : Errno} (phase : e.phase = .returned (some error))
    (all : error = .enoent → waiting = []) : Passes env level e waiting :=
  ⟨waiting_idle infolevel saved (by simp [phase]) (by simp [phase]) (by simpa [phase] using all), by simp [phase]⟩

theorem passes_parsing (phase : e.phase = .parsing) (present : waiting ≠ []) : Passes env level e waiting :=
  ⟨waiting_idle infolevel saved (by simp [phase]) (fun _ => present) (by simp [phase]), by simp [phase]⟩

theorem doQuery_passes (atEnd : e.ctx.eof = true → waiting = []) (attempts : Nat) (node : Bool) :
    Passes env level (doQuery e attempts node) waiting := by
  unfold doQuery
  split
  · rename_i eof
    exact passes_returned infolevel saved rfl fun _ => atEnd eof
  rename_i more
  split
  · exact passes_returned infolevel saved rfl nofun
  split
  · refine ⟨⟨infolevel, saved, fun _ _ => ⟨List.cons_ne_nil _ _, ?_⟩, nofun, nofun⟩, nofun⟩
    exact Bool.eq_false_iff.mpr more
  · exact passes_returned infolevel saved rfl nofun

theorem querySaved_passes (more : e.ctx.eof = false) (present : waiting ≠ []) (attempts : Nat) (limits : CacheLimits)
    (node : Bool) : Passes env level (querySaved e attempts limits node) waiting := by
  unfold querySaved
  split
  · refine doQuery_passes infolevel saved (fun eof => ?_) attempts node
    exact absurd (more.symm.trans eof) Bool.false_ne_true
  · exact passes_parsing infolevel saved rfl present

end

theorem Saved.nil_iff {queries : List Query} (saved : Saved env level queries waiting) :
    queries = [] ↔ waiting = [] := by
  cases saved with
  | nothing => exact iff_of_true rfl rfl
  | one holds => exact iff_of_false (List.cons_ne_nil _ _) holds.present

theorem Waiting.saved_of_returned (holds : Waiting env level e waiting) {error : Option Errno}
    (phase : e.phase = .returned error) : Saved env level e.ctx.queries waiting := by
  have saved := holds.saved
  unfold Enumeration.answered at saved
  rw [phase] at saved
  exact saved

theorem smb2fsSmbFindnext_of_present (saved : Saved env level e.ctx.queries waiting)
    (present : waiting ≠ []) (queryp node : Bool) : smb2fsSmbFindnext e queryp node = { e with phase := .parsing } := by
  generalize queries : e.ctx.queries = saved' at saved
  cases saved with
  | nothing => exact absurd rfl present
  | one held =>
    obtain ⟨entry, later, rfl⟩ := List.exists_cons_of_ne_nil present
    have four := (held.wellFormed entry List.mem_cons_self).length.1
    have length := held.length
    rw [List.flatten_cons, List.length_append] at length
    unfold smb2fsSmbFindnext
    rw [queries]
    exact if_neg (by omega)

theorem smb2fsSmbFindnext_passes (holds : Waiting env level e waiting) {error : Option Errno}
    (phase : e.phase = .returned error) (queryp node : Bool) :
    Passes env level (smb2fsSmbFindnext e queryp node) waiting := by
  have saved := holds.saved_of_returned phase
  by_cases none : waiting = []
  · unfold smb2fsSmbFindnext
    rw [saved.nil_iff.mpr none]
    dsimp only
    unfold fetchEntries
    split
    · exact doQuery_passes holds.infolevel saved (fun _ => none) 0 node
    · exact passes_returned holds.infolevel saved rfl nofun
  · rw [smb2fsSmbFindnext_of_present saved none]
    exact passes_parsing holds.infolevel saved rfl none

theorem queryFailed_passes (infolevel : e.ctx.infolevel = level)
    (saved : Saved env level e.ctx.queries.tail waiting) (more : e.ctx.eof = false) (attempts : Nat) (error : Errno)
    (invalidParameter node : Bool) : Passes env level (queryFailed e attempts error invalidParameter node) waiting := by
  unfold queryFailed
  dsimp only
  split
  · split
    · rename_i empty
      exact passes_returned infolevel saved rfl fun _ => saved.nil_iff.mp empty
    · rename_i some
      exact passes_parsing infolevel saved rfl fun none => some (saved.nil_iff.mpr none)
  rename_i other
  split
  · let retried := { e with ctx := e.ctx.freeQueryHead, query64k := true }
    refine doQuery_passes (e := retried) infolevel saved (fun eof => ?_) _ _
    exact absurd (more.symm.trans eof) Bool.false_ne_true
  · exact passes_returned infolevel saved rfl fun ended => absurd ended other

theorem saveReply_fields {ctx : Fctx} {q : Query} {rest : List Query} (queries : ctx.queries = q :: rest)
    (reply : MdChain) (retBufferLen : Nat) :
    (ctx.saveReply reply retBufferLen).queries = { reply, outputBufLen := retBufferLen } :: rest ∧
      (ctx.saveReply reply retBufferLen).infolevel = ctx.infolevel ∧
      (ctx.saveReply reply retBufferLen).eof = ctx.eof := by
  simp only [Fctx.saveReply, queries, and_self]

theorem Saved.parseQuery {entry : Bytes} {later : List Bytes} (infolevel : e.ctx.infolevel = level)
    (saved : Saved env level e.ctx.queries (entry :: later)) :
    (Directory.parseQuery env e).phase = .returned none ∧
      Shows env level entry (Directory.parseQuery env e).ctx.found ∧
      Saved env level (Directory.parseQuery env e).ctx.queries later ∧
      (Directory.parseQuery env e).ctx.infolevel = level := by
  subst infolevel
  generalize queries : e.ctx.queries = saved' at saved
  cases saved with
  | one holds => exact holds.parseQuery queries

theorem ReplyWellFormed.holds {body : Chain} {after : Reading QueryDirRq}
    (parsed : smb2SmbParseQueryDir ⟨mdInitm body, dirRequest⟩ = (.ok (), after))
    (wellFormed : ReplyWellFormed env level body) :
    Holds env level { reply := after.mdp, outputBufLen := after.state.retBufferLen } (entriesOf (outputBuffer body)) := by
  obtain ⟨flat, linked⟩ := splitEntries_flatten (Nat.le_refl _) wellFormed.entries
  obtain ⟨declared, rest⟩ := smb2SmbParseQueryDir_ok parsed
  refine ⟨?_, ?_, ?_, ⟨after.mdp.rest.drop after.state.retBufferLen, ?_⟩, linked, wellFormed.entries⟩
  · intro none
    have empty := flat
    rw [show splitEntries _ _ = [] from none] at empty
    exact wellFormed.present empty.symm
  · rw [show (entriesOf (outputBuffer body)).flatten = outputBuffer body from flat, wellFormed.whole]
    exact declared
  · rw [declared]
    exact ofLe_slice_lt (bytes body) 4 4
  · rw [show (entriesOf (outputBuffer body)).flatten = outputBuffer body from flat, outputBuffer, ← rest, ← declared,
      List.take_append_drop]

theorem queryAnswered_passes (holds : Waiting env level e waiting) {attempts : Nat}
    (phase : e.phase = .sending attempts) {a : Answer} {limits : CacheLimits} {node : Bool}
    (inTurn : InTurn env e (.answer a limits node)) :
    Passes env level (queryAnswered e attempts limits node a) (waiting ++ sentBy e (.answer a limits node)) := by
  have saved := holds.saved
  unfold Enumeration.answered at saved
  rw [phase] at saved
  obtain ⟨node', more⟩ := holds.sending attempts phase
  cases a with
  | failed error invalidParameter opened =>
    rw [show sentBy e _ = [] from rfl, List.append_nil]
    let opens := { e with ctx := { e.ctx with needClose := e.ctx.needClose || opened } }
    exact queryFailed_passes (e := opens) holds.infolevel saved more _ _ _ _
  | replied body =>
    unfold queryAnswered sentBy
    dsimp only
    rw [phase]
    cases parsed : smb2SmbParseQueryDir ⟨mdInitm body, dirRequest⟩ with
    | mk result after =>
      let opens := { e with ctx := { e.ctx with needClose := true } }
      cases result with
      | error error =>
        rw [List.append_nil]
        exact queryFailed_passes (e := opens) holds.infolevel saved more _ _ _ _
      | ok =>
        obtain ⟨alone, wellFormed⟩ := inTurn ⟨after, parsed⟩
        rw [alone] at saved
        cases saved
        rw [holds.infolevel] at wellFormed
        have held := wellFormed.holds parsed
        obtain ⟨q, rest, queries⟩ := List.exists_cons_of_ne_nil node'
        rw [queries, List.tail_cons] at alone
        subst alone
        obtain ⟨one, infolevel, eof⟩ := @saveReply_fields opens.ctx _ _ queries after.mdp after.state.retBufferLen
        refine querySaved_passes (infolevel.trans holds.infolevel) ?_ (eof.trans more) held.present attempts limits
          node
        dsimp only
        rw [one]
        exact .one held

theorem step_delivers {next : Enumeration} {event : Event} (holds : Waiting env level e waiting)
    (inTurn : InTurn env e event) (taken : step env e event = some next) : ∃ got left,
      waiting ++ sentBy e event = got ++ left ∧ List.Forall₂ (Shows env level) got (returnedBy env e event) ∧
        Waiting env level next left := by
  have passing (after : Passes env level next (waiting ++ sentBy e event)) : ∃ got left,
      waiting ++ sentBy e event = got ++ left ∧ List.Forall₂ (Shows env level) got (returnedBy env e event) ∧
        Waiting env level next left := by
    refine ⟨[], _, rfl, ?_, after.toWaiting⟩
    unfold returnedBy
    rw [taken, Option.elim_some, if_neg after.silent]
    exact .nil
  cases event with
  | findnext queryp node =>
    cases phase : e.phase with
    | sending | parsing => simp [step, phase] at taken
    | returned error =>
      simp only [step, phase, Option.some.injEq] at taken
      subst taken
      apply passing
      rw [show sentBy e _ = [] from rfl, List.append_nil]
      exact smb2fsSmbFindnext_passes holds phase queryp node
  | answer a limits node =>
    cases phase : e.phase with
    | returned | parsing => simp [step, phase] at taken
    | sending attempts =>
      simp only [step, phase, Option.some.injEq] at taken
      subst taken
      exact passing (queryAnswered_passes holds phase inTurn)
  | parse =>
    cases phase : e.phase with
    | returned | sending => simp [step, phase] at taken
    | parsing =>
      have saved := holds.saved
      unfold Enumeration.answered at saved
      rw [phase] at saved
      obtain ⟨entry, later, rfl⟩ := List.exists_cons_of_ne_nil (holds.parsing phase)
      obtain ⟨done, shows, saved', same⟩ := saved.parseQuery holds.infolevel
      refine ⟨[entry], later, List.append_nil _, ?_, ?_⟩
      · unfold returnedBy
        rw [taken, Option.elim_some]
        simp only [step, phase, Option.some.injEq] at taken
        rw [← taken, if_pos done]
        exact .cons shows .nil
      · simp only [step, phase, Option.some.injEq] at taken
        subst taken
        exact waiting_returned same saved' done

end

/-! ## Runs -/

theorem smbfsSmbFindopen_waiting (env : DirEnv) (infolevel : InfoLevel) (findSingle query64k : Bool) :
    Waiting env infolevel (smbfsSmbFindopen infolevel findSingle query64k) [] where
  infolevel := rfl
  saved := .nothing
  sending := nofun
  parsing := nofun
  all := nofun

theorem Waiting.next {env : DirEnv} {level : InfoLevel} {e : Enumeration} {entry : Bytes} {later : List Bytes}
    (holds : Waiting env level e (entry :: later)) {error : Option Errno} (phase : e.phase = .returned error)
    (queryp node : Bool) : ∃ after, run (step env) e [.findnext queryp node, .parse] = some after ∧
      after.phase = .returned none ∧ Shows env level entry after.ctx.found := by
  have saved := holds.saved_of_returned phase
  have parses := smb2fsSmbFindnext_of_present saved (List.cons_ne_nil _ _) queryp node
  obtain ⟨done, shows, -⟩ := Saved.parseQuery (e := { e with phase := .parsing }) holds.infolevel saved
  refine ⟨_, ?_, done, shows⟩
  have called : step env e (.findnext queryp node) = some { e with phase := .parsing } := by
    simp only [step, phase, parses]
  rw [run_cons called]
  rfl

/-- Where replies come in turn, the entries of a directory are returned once each and in order. -/
theorem findnext_in_order (env : DirEnv) (infolevel : InfoLevel) (findSingle query64k : Bool) {events : List Event}
    {e : Enumeration}
    (inTurn : AllSteps (step env) (InTurn env) (smbfsSmbFindopen infolevel findSingle query64k) events)
    (reached : run (step env) (smbfsSmbFindopen infolevel findSingle query64k) events = some e) :
    ∃ got left, InOrder env infolevel
      (emitted (step env) sentBy (smbfsSmbFindopen infolevel findSingle query64k) events)
      (emitted (step env) (returnedBy env) (smbfsSmbFindopen infolevel findSingle query64k) events) e got left := by
  have start := smbfsSmbFindopen_waiting env infolevel findSingle query64k
  obtain ⟨got, left, split, shown, holds⟩ :=
    run_delivers (fun s event next waiting holds meets taken => step_delivers holds meets taken) start inTurn reached
  refine ⟨got, left, split, shown, holds.all, fun entry later error queryp node here phase => ?_⟩
  subst here
  exact holds.next phase queryp node

def letterEntry (next : Nat) (letter : UInt8) : Bytes :=
  toLe 4 next ++ toLe 4 1 ++ List.replicate 52 0 ++ toLe 4 2 ++ List.replicate 40 0 ++ [letter, 0]

def letterReply (entries : Bytes) : Chain := [toLe 2 9 ++ toLe 2 72 ++ toLe 4 entries.length, entries]

/-- Two entries in one reply, returned by two calls; the third call meets the end of the directory. -/
theorem findnext_in_order_two :
    let first := letterEntry 112 97 ++ List.replicate 6 0
    let reply := letterReply (first ++ letterEntry 0 98)
    let events : List Event := [.findnext true true, .answer (.replied reply) ⟨0, 0⟩ true, .parse,
      .findnext true true, .parse, .findnext true true, .answer (.failed .enoent false true) ⟨0, 0⟩ true]
    let start := smbfsSmbFindopen .bothDirectory false false
    ∃ e, run (step plainServer) start events = some e ∧ ∃ got left, InOrder plainServer .bothDirectory
      (emitted (step plainServer) sentBy start events)
      (emitted (step plainServer) (returnedBy plainServer) start events) e got left := by
  intro first reply events start
  have entries : entriesOf (outputBuffer reply) = [first, letterEntry 0 98] := by decide +kernel
  have wellFormed : ReplyWellFormed plainServer .bothDirectory reply := by
    refine ⟨by decide +kernel, by decide +kernel, ?_⟩
    rw [entries]
    intro entry member
    rcases List.mem_pair.mp member with rfl | rfl
    · decide +kernel
    · decide +kernel
  have inTurn : AllSteps (step plainServer) (InTurn plainServer) start events := by
    refine ⟨trivial, fun next taken => ?_⟩
    cases taken
    refine ⟨fun _ => ⟨rfl, wellFormed⟩, fun _ _ => ⟨trivial, fun _ _ => ⟨trivial, fun _ _ => ?_⟩⟩⟩
    exact ⟨trivial, fun _ _ => ⟨trivial, fun _ _ => ⟨trivial, fun _ _ => trivial⟩⟩⟩
  have ends : (run (step plainServer) start events).isSome = true := by decide +kernel
  obtain ⟨e, reached⟩ := Option.isSome_iff_exists.mp ends
  exact ⟨e, reached, findnext_in_order plainServer .bothDirectory false false inTurn reached⟩

/-- With room for more entries a second reply is fetched before the first one is parsed, and goes in front of it. -/
theorem findnext_returns_newest :
    let events : List Event := [.findnext true true, .answer (.replied (letterReply (letterEntry 0 97))) ⟨1000, 0⟩ true,
      .answer (.replied (letterReply (letterEntry 0 98))) ⟨1000, 0⟩ true,
      .answer (.failed .enoent false false) ⟨1000, 0⟩ true, .parse]
    let start := smbfsSmbFindopen .bothDirectory false false
    emitted (step plainServer) sentBy start events = [letterEntry 0 97, letterEntry 0 98] ∧
      (emitted (step plainServer) (returnedBy plainServer) start events).map (·.networkName) = [[98, 0]] ∧
      ∀ e got left, ¬InOrder plainServer .bothDirectory (emitted (step plainServer) sentBy start events)
        (emitted (step plainServer) (returnedBy plainServer) start events) e got left := by
  intro events start
  have sent : emitted (step plainServer) sentBy start events = [letterEntry 0 97, letterEntry 0 98] := by
    decide +kernel
  have returned : (emitted (step plainServer) (returnedBy plainServer) start events).map (·.networkName) =
      [[98, 0]] := by decide +kernel
  refine ⟨sent, returned, fun e got left inOrder => ?_⟩
  obtain ⟨found, one, name⟩ := List.map_eq_singleton_iff.mp returned
  have split := inOrder.split
  have shown := inOrder.shown
  rw [one] at shown
  obtain ⟨entry, rfl, ⟨before, r, t, parsed, rfl⟩⟩ : ∃ entry, got = [entry] ∧ Shows plainServer .bothDirectory entry found := by
    cases shown with
    | cons shows rest =>
      cases rest
      exact ⟨_, rfl, shows⟩
  rw [sent] at split
  obtain ⟨rfl, -⟩ := List.cons.inj split
  have letter := (smb2SmbParseQueryDirBothDirInfo_parsed parsed).name
  rw [rest_alone, name] at letter
  exact absurd letter (by decide +kernel)

end SmbClient.Directory
