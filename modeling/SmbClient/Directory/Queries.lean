import SmbClient.Directory.Entry
import SmbClient.Lib.Runs
import SmbClient.Replies.Placed

/-! `smb2fs_smb_findnext`: the replies that an enumeration has saved, and the memory counted for them. -/

namespace SmbClient.Directory
open SmbClient.Lib SmbClient.Lib.Fallible SmbClient.Mbuf SmbClient.Replies

structure Query where
  reply : MdChain := mdInitm []
  outputBufLen : Nat := 0
  deriving DecidableEq, Repr

structure Fctx where
  infolevel : InfoLevel
  findSingle : Bool
  findFirst : Bool := true
  eof : Bool := false
  needClose : Bool := false
  queries : List Query := []
  queriesTotalMemory : Nat := 0
  eofs : Nat := 0
  resumeFileIndex : Nat := 0
  found : Found := {}
  deriving DecidableEq, Repr

def sub32 (a b : Nat) : Nat := (a + 2 ^ 32 - b) % 2 ^ 32

def add32 (a b : Nat) : Nat := (a + b) % 2 ^ 32

inductive Phase
  | returned (error : Option Errno)
  | sending (attempts : Nat)
  | parsing
  deriving DecidableEq, Repr

structure Enumeration where
  ctx : Fctx
  /-- `SMBV_64K_QUERY_DIR` of the session. -/
  query64k : Bool
  phase : Phase := .returned none
  deriving DecidableEq, Repr

inductive Answer
  | failed (error : Errno) (invalidParameter opened : Bool)
  | replied (body : Chain)
  deriving DecidableEq, Repr

structure CacheLimits where
  maxDirEntriesCached : Nat
  overflowCount : Nat
  deriving DecidableEq, Repr

inductive Event
  | findnext (queryp node : Bool)
  | answer (a : Answer) (limits : CacheLimits) (node : Bool)
  | parse
  deriving DecidableEq, Repr

def kEntryStructSize : Nat := 600

def Fctx.freeQueryHead (ctx : Fctx) : Fctx := { ctx with queries := ctx.queries.tail }

def Fctx.addQuery (ctx : Fctx) : Fctx := { ctx with queries := {} :: ctx.queries }

def doQuery (e : Enumeration) (attempts : Nat) (node : Bool) : Enumeration :=
  if e.ctx.eof then { e with phase := .returned (some .enoent) }
  else if e.ctx.infolevel = .other then { e with phase := .returned (some .einval) }
  else if node then { e with ctx := e.ctx.addQuery, phase := .sending attempts }
  else { e with phase := .returned (some .enomem) }

def fetchEntries (e : Enumeration) (queryp node : Bool) : Enumeration :=
  if queryp then doQuery e 0 node else { e with phase := .returned (some .enomem) }

def smb2fsSmbFindnext (e : Enumeration) (queryp node : Bool) : Enumeration :=
  match e.ctx.queries with
  | [] => fetchEntries e queryp node
  | q :: rest =>
    if q.outputBufLen = 0 then
      let freed := { e with ctx := e.ctx.freeQueryHead }
      if rest = [] then fetchEntries freed queryp node else { freed with phase := .parsing }
    else { e with phase := .parsing }

def queryFailed (e : Enumeration) (attempts : Nat) (error : Errno) (invalidParameter node : Bool) : Enumeration :=
  let ctx := e.ctx.freeQueryHead
  if error = .enoent then
    let ctx := { ctx with eof := true }
    if ctx.queries = [] then { e with ctx, phase := .returned (some .enoent) } else { e with ctx, phase := .parsing }
  else if error = .einval ∧ invalidParameter ∧ ¬e.query64k ∧ attempts = 0 then
    doQuery { e with ctx, query64k := true } (attempts + 1) node
  else { e with ctx, phase := .returned (some error) }

def Fctx.saveReply (ctx : Fctx) (reply : MdChain) (retBufferLen : Nat) : Fctx :=
  match ctx.queries with
  | [] => ctx
  | _ :: rest =>
    { ctx with
      queries := { reply, outputBufLen := retBufferLen } :: rest
      queriesTotalMemory := add32 ctx.queriesTotalMemory retBufferLen
      findFirst := false
      eofs := 0 }

def totalEntries (ctx : Fctx) (limits : CacheLimits) : Nat :=
  limits.overflowCount + ctx.queriesTotalMemory / kEntryStructSize

def querySaved (e : Enumeration) (attempts : Nat) (limits : CacheLimits) (node : Bool) : Enumeration :=
  if totalEntries e.ctx limits < limits.maxDirEntriesCached ∧ ¬e.ctx.findSingle then doQuery e attempts node
  else { e with phase := .parsing }

def dirRequest : QueryDirRq := { outputBufferLen := 64 * 1024, rcvOutputUio := none }

def queryAnswered (e : Enumeration) (attempts : Nat) (limits : CacheLimits) (node : Bool) : Answer → Enumeration
  | .failed error invalidParameter opened =>
    let opens := { e with ctx := { e.ctx with needClose := e.ctx.needClose || opened } }
    queryFailed opens attempts error invalidParameter node
  | .replied body =>
    let opens := { e with ctx := { e.ctx with needClose := true } }
    match smb2SmbParseQueryDir ⟨mdInitm body, dirRequest⟩ with
    | (.error error, _) => queryFailed opens attempts error false node
    | (.ok (), after) =>
      querySaved { opens with ctx := opens.ctx.saveReply after.mdp after.state.retBufferLen } attempts limits node

def Fctx.recordParsed (ctx : Fctx) (q : Query) (rest : List Query) (r : Record) : Fctx :=
  let outputBufLen := sub32 q.outputBufLen r.recsz
  let total := sub32 ctx.queriesTotalMemory r.recsz
  let ctx := { ctx with resumeFileIndex := r.fileIndex, eofs := add32 ctx.eofs r.recsz }
  if r.lastEntry then
    let outputBufLen := 0
    { ctx with queries := { q with outputBufLen } :: rest, queriesTotalMemory := sub32 total outputBufLen }
  else { ctx with queries := { q with outputBufLen } :: rest, queriesTotalMemory := total }

def Fctx.freeFinished (ctx : Fctx) : Fctx :=
  match ctx.queries with
  | q :: _ => if q.outputBufLen = 0 then ctx.freeQueryHead else ctx
  | [] => ctx

def parseHead (env : DirEnv) (ctx : Fctx) (q : Query) : Except Errno Record × Reading Found :=
  smb2SmbParseQueryDirBothDirInfo env ctx.infolevel ⟨q.reply, { ctx.found with networkNameLen := 0 }⟩

def parseQuery (env : DirEnv) (e : Enumeration) : Enumeration :=
  match e.ctx.queries with
  | [] => { e with phase := .returned (some .einval) }
  | q :: rest =>
    let parsed := parseHead env e.ctx q
    let ctx := { e.ctx with found := parsed.2.state }
    let moved := { q with reply := parsed.2.mdp }
    match parsed.1 with
    | .error error =>
      { e with ctx := { ctx with queries := moved :: rest }, phase := .returned (some error) }
    | .ok r => { e with ctx := (ctx.recordParsed moved rest r).freeFinished, phase := .returned none }

def step (env : DirEnv) (e : Enumeration) : Event → Option Enumeration
  | .findnext queryp node =>
    match e.phase with
    | .returned _ => some (smb2fsSmbFindnext e queryp node)
    | _ => none
  | .answer a limits node =>
    match e.phase with
    | .sending attempts => some (queryAnswered e attempts limits node a)
    | _ => none
  | .parse =>
    match e.phase with
    | .parsing => some (parseQuery env e)
    | _ => none

def smbfsSmbFindopen (infolevel : InfoLevel) (findSingle query64k : Bool) : Enumeration where
  ctx := { infolevel, findSingle }
  query64k

/-! ## The memory of the saved queries -/

def Fctx.remaining (ctx : Fctx) : Nat := (ctx.queries.map (·.outputBufLen)).sum

def Fctx.Balanced (ctx : Fctx) : Prop := ctx.queriesTotalMemory = ctx.remaining

instance (ctx : Fctx) : Decidable ctx.Balanced := inferInstanceAs (Decidable (_ = _))

def takenOff (env : DirEnv) (e : Enumeration) : Event → Option Nat
  | .parse =>
    match e.phase, e.ctx.queries with
    | .parsing, q :: _ =>
      match (parseHead env e.ctx q).1 with
      | .ok r => some r.recsz
      | .error _ => none
    | _, _ => none
  | _ => none

/-- The total does not go below zero in the event, and is the memory of what is saved after it. -/
structure Accounted (env : DirEnv) (e : Enumeration) (event : Event) : Prop where
  covered : ∀ size ∈ takenOff env e event, size ≤ e.ctx.queriesTotalMemory
  balanced : ∀ next, step env e event = some next → next.ctx.Balanced
  emptied : ∀ next, step env e event = some next → next.ctx.queries = [] → next.ctx.queriesTotalMemory = 0

def ReplyFits (ctx : Fctx) : Answer → Prop
  | .failed .. => True
  | .replied body =>
    (∃ after, smb2SmbParseQueryDir ⟨mdInitm body, dirRequest⟩ = (.ok (), after)) →
      ctx.queriesTotalMemory + (outputBufferFields (bytes body)).length < 2 ^ 32

def EntryFits (env : DirEnv) (ctx : Fctx) (q : Query) : Prop :=
  (∃ r after, parseHead env ctx q = (.ok r, after)) →
    recordSize ctx.infolevel q.reply.rest ≤ q.outputBufLen ∧
      (recordNext q.reply.rest = 0 → recordSize ctx.infolevel q.reply.rest = q.outputBufLen)

def Fits (env : DirEnv) (e : Enumeration) : Event → Prop
  | .findnext .. => True
  | .answer a _ _ => ∀ attempts, e.phase = .sending attempts → ReplyFits e.ctx a
  | .parse => e.phase = .parsing → ∀ q ∈ e.ctx.queries.head?, EntryFits env e.ctx q

structure Fctx.Sound (ctx : Fctx) : Prop where
  balanced : ctx.Balanced
  small : ctx.queriesTotalMemory < 2 ^ 32

def Enumeration.Sent (e : Enumeration) : Prop :=
  ∀ attempts, e.phase = .sending attempts → ∃ q rest, e.ctx.queries = q :: rest ∧ q.outputBufLen = 0

structure Enumeration.Sound (e : Enumeration) : Prop where
  ctx : e.ctx.Sound
  sent : e.Sent

def SameMemory (before after : Fctx) : Prop :=
  after.queriesTotalMemory = before.queriesTotalMemory ∧ after.remaining = before.remaining

variable {a b ctx : Fctx} {q : Query} {rest : List Query} {e : Enumeration}

theorem SameMemory.trans {c : Fctx} (first : SameMemory a b) (second : SameMemory b c) : SameMemory a c :=
  ⟨second.1.trans first.1, second.2.trans first.2⟩

theorem SameMemory.balanced_iff (same : SameMemory a b) : b.Balanced ↔ a.Balanced := by
  unfold Fctx.Balanced
  rw [same.1, same.2]

theorem SameMemory.sound_iff (same : SameMemory a b) : b.Sound ↔ a.Sound := by
  constructor
  · intro sound
    exact ⟨same.balanced_iff.mp sound.balanced, same.1 ▸ sound.small⟩
  · intro sound
    exact ⟨same.balanced_iff.mpr sound.balanced, same.1.symm ▸ sound.small⟩

theorem freeQueryHead_same (front : ctx.queries = q :: rest)
    (nothing : q.outputBufLen = 0) : SameMemory ctx ctx.freeQueryHead := by
  refine ⟨rfl, ?_⟩
  simp [Fctx.remaining, Fctx.freeQueryHead, front, nothing]

theorem addQuery_same (ctx : Fctx) : SameMemory ctx ctx.addQuery := by
  refine ⟨rfl, ?_⟩
  simp [Fctx.remaining, Fctx.addQuery]

theorem freeFinished_same (ctx : Fctx) : SameMemory ctx ctx.freeFinished := by
  unfold Fctx.freeFinished
  split
  · rename_i q rest front
    split
    · rename_i nothing
      exact freeQueryHead_same front nothing
    · exact ⟨rfl, rfl⟩
  · exact ⟨rfl, rfl⟩

structure Quiet (ctx : Fctx) (e : Enumeration) : Prop where
  same : SameMemory ctx e.ctx
  sent : e.Sent

theorem Quiet.sound (quiet : Quiet ctx e) (sound : ctx.Sound) : e.Sound :=
  ⟨quiet.same.sound_iff.mpr sound, quiet.sent⟩

theorem Quiet.after (same : SameMemory a b) (quiet : Quiet b e) : Quiet a e :=
  ⟨same.trans quiet.same, quiet.sent⟩

theorem quiet_returned (ctx : Fctx) (query64k : Bool) (error : Option Errno) :
    Quiet ctx ⟨ctx, query64k, .returned error⟩ :=
  ⟨⟨rfl, rfl⟩, nofun⟩

theorem quiet_parsing (ctx : Fctx) (query64k : Bool) : Quiet ctx ⟨ctx, query64k, .parsing⟩ :=
  ⟨⟨rfl, rfl⟩, nofun⟩

theorem doQuery_quiet (e : Enumeration) (attempts : Nat) (node : Bool) : Quiet e.ctx (doQuery e attempts node) := by
  unfold doQuery
  split
  · apply quiet_returned
  split
  · apply quiet_returned
  split
  · exact ⟨addQuery_same e.ctx, fun _ _ => ⟨_, _, rfl, rfl⟩⟩
  · apply quiet_returned

theorem fetchEntries_quiet (e : Enumeration) (queryp node : Bool) : Quiet e.ctx (fetchEntries e queryp node) := by
  unfold fetchEntries
  split
  · apply doQuery_quiet
  · apply quiet_returned

theorem smb2fsSmbFindnext_quiet (e : Enumeration) (queryp node : Bool) :
    Quiet e.ctx (smb2fsSmbFindnext e queryp node) := by
  unfold smb2fsSmbFindnext
  split
  · apply fetchEntries_quiet
  · rename_i q rest front
    split
    · rename_i nothing
      apply Quiet.after (freeQueryHead_same front nothing)
      dsimp only
      split
      · exact fetchEntries_quiet { e with ctx := e.ctx.freeQueryHead } queryp node
      · apply quiet_parsing
    · apply quiet_parsing

theorem queryFailed_quiet (front : e.ctx.queries = q :: rest)
    (nothing : q.outputBufLen = 0) (attempts : Nat) (error : Errno) (invalidParameter node : Bool) :
    Quiet e.ctx (queryFailed e attempts error invalidParameter node) := by
  apply Quiet.after (freeQueryHead_same front nothing)
  unfold queryFailed
  dsimp only
  split
  · have marked : SameMemory e.ctx.freeQueryHead { e.ctx.freeQueryHead with eof := true } := ⟨rfl, rfl⟩
    apply Quiet.after marked
    split
    · apply quiet_returned
    · apply quiet_parsing
  split
  · exact doQuery_quiet { e with ctx := e.ctx.freeQueryHead, query64k := true } (attempts + 1) node
  · apply quiet_returned

theorem querySaved_quiet (e : Enumeration) (attempts : Nat) (limits : CacheLimits) (node : Bool) :
    Quiet e.ctx (querySaved e attempts limits node) := by
  unfold querySaved
  split
  · apply doQuery_quiet
  · apply quiet_parsing

/-! ## What one step does to the memory -/

theorem smb2SmbParseQueryDir_ok {body : Chain} {after : Reading QueryDirRq}
    (parsed : smb2SmbParseQueryDir ⟨mdInitm body, dirRequest⟩ = (.ok (), after)) :
    after.state.retBufferLen = (outputBufferFields (bytes body)).length ∧
      after.mdp.rest = (bytes body).drop (8 + skipDistance 16 72 (outputBufferFields (bytes body)).offset) := by
  obtain ⟨named, saved, toEntries, entries⟩ := of_bind_eq_ok parsed
  obtain ⟨_, _, rfl⟩ := (queryDir_reaches ⟨mdInitm body, dirRequest⟩).settles.of_ok toEntries
  -- without a uio the entries stay in the reply
  change ((Except.ok (), _) : Except Errno Unit × Reading QueryDirRq) = _ at entries
  cases entries
  rw [Reading.advance_state, Reading.advance_rest, rest_mdInitm]
  exact ⟨rfl, rfl⟩

theorem saveReply_balanced_iff (sound : ctx.Sound)
    (front : ctx.queries = q :: rest) (nothing : q.outputBufLen = 0) (reply : MdChain) (retBufferLen : Nat) :
    (ctx.saveReply reply retBufferLen).Balanced ↔ ctx.queriesTotalMemory + retBufferLen < 2 ^ 32 := by
  have total : ctx.queriesTotalMemory = (rest.map (·.outputBufLen)).sum := by
    rw [sound.balanced]
    simp [Fctx.remaining, front, nothing]
  simp only [Fctx.Balanced, Fctx.saveReply, front, Fctx.remaining, List.map_cons, List.sum_cons, ← total, add32]
  omega

theorem saveReply_small (front : ctx.queries = q :: rest)
    (reply : MdChain) (retBufferLen : Nat) : (ctx.saveReply reply retBufferLen).queriesTotalMemory < 2 ^ 32 := by
  simp only [Fctx.saveReply, front]
  exact Nat.mod_lt _ (by decide)

theorem queryAnswered_cases (front : e.ctx.queries = q :: rest)
    (nothing : q.outputBufLen = 0) (attempts : Nat) (limits : CacheLimits) (node : Bool) (a : Answer) :
    (Quiet e.ctx (queryAnswered e attempts limits node a) ∧ ReplyFits e.ctx a) ∨
      ∃ reply length, Quiet (e.ctx.saveReply reply length) (queryAnswered e attempts limits node a) ∧
        (ReplyFits e.ctx a ↔ e.ctx.queriesTotalMemory + length < 2 ^ 32) := by
  have failing (needClose : Bool) (error : Errno) (invalidParameter : Bool) :
      Quiet e.ctx (queryFailed { e with ctx := { e.ctx with needClose } } attempts error invalidParameter node) := by
    have opens : SameMemory e.ctx { e.ctx with needClose } := ⟨rfl, rfl⟩
    exact .after opens (queryFailed_quiet (e := { e with ctx := { e.ctx with needClose } }) front nothing _ _ _ _)
  cases a with
  | failed error invalidParameter opened => exact .inl ⟨failing _ error invalidParameter, trivial⟩
  | replied body =>
    simp only [queryAnswered, ReplyFits]
    cases parsed : smb2SmbParseQueryDir ⟨mdInitm body, dirRequest⟩ with
    | mk result after =>
      cases result with
      | error error =>
        refine .inl ⟨failing true error false, ?_⟩
        rintro ⟨_, done⟩
        cases done
      | ok =>
        refine .inr ⟨after.mdp, after.state.retBufferLen, ?_, ?_⟩
        · refine .after ?_ (querySaved_quiet _ attempts limits node)
          simp only [SameMemory, Fctx.remaining, Fctx.saveReply, front, and_self]
        · rw [(smb2SmbParseQueryDir_ok parsed).1]
          exact ⟨fun fits => fits ⟨after, rfl⟩, fun fits _ => fits⟩

theorem sub32_next_iff {length others size : Nat} (small : length + others < 2 ^ 32) (sized : size < 2 ^ 32) :
    (size ≤ length + others ∧ sub32 (length + others) size = sub32 length size + others) ↔ size ≤ length := by
  unfold sub32
  omega

theorem sub32_last_iff {length others size : Nat} (small : length + others < 2 ^ 32) (sized : size < 2 ^ 32) :
    (size ≤ length + others ∧ sub32 (sub32 (length + others) size) 0 = others) ↔ size = length := by
  unfold sub32
  omega

theorem recordParsed_balanced_iff (sound : ctx.Sound)
    (front : ctx.queries = q :: rest) {r : Record} (sized : r.recsz < 2 ^ 32) :
    (r.recsz ≤ ctx.queriesTotalMemory ∧ (ctx.recordParsed q rest r).Balanced) ↔
      r.recsz ≤ q.outputBufLen ∧ (r.lastEntry = true → r.recsz = q.outputBufLen) := by
  have total : ctx.queriesTotalMemory = q.outputBufLen + (rest.map (·.outputBufLen)).sum := by
    rw [sound.balanced]
    simp [Fctx.remaining, front]
  have small := sound.small
  rw [total] at small
  cases last : r.lastEntry with
  | true =>
    simp only [Fctx.Balanced, Fctx.recordParsed, last, if_true, Fctx.remaining, List.map_cons, List.sum_cons,
      Nat.zero_add, total, sub32_last_iff small sized, true_implies]
    exact ⟨fun same => ⟨Nat.le_of_eq same, same⟩, And.right⟩
  | false =>
    simp only [Fctx.Balanced, Fctx.recordParsed, last, Bool.false_eq_true, if_false, Fctx.remaining, List.map_cons,
      List.sum_cons, total, sub32_next_iff small sized, false_implies, and_true]

theorem recordParsed_small (ctx : Fctx) (q : Query) (rest : List Query) (r : Record) :
    (ctx.recordParsed q rest r).queriesTotalMemory < 2 ^ 32 := by
  unfold Fctx.recordParsed
  dsimp only
  split <;> exact Nat.mod_lt _ (by decide)

theorem parseQuery_cases (env : DirEnv) (front : e.ctx.queries = q :: rest) :
    (∃ error after, parseHead env e.ctx q = (.error error, after) ∧ Quiet e.ctx (parseQuery env e)) ∨
      ∃ r after, parseHead env e.ctx q = (.ok r, after) ∧
        Quiet (e.ctx.recordParsed q rest r) (parseQuery env e) := by
  unfold parseQuery
  simp only [front]
  cases parsed : parseHead env e.ctx q with
  | mk result after =>
    cases result with
    | error error =>
      refine .inl ⟨error, after, rfl, .after ?_ (quiet_returned _ _ _)⟩
      simp only [SameMemory, Fctx.remaining, front, List.map_cons, and_self]
    | ok r =>
      refine .inr ⟨r, after, rfl, .after ?_ (quiet_returned _ _ _)⟩
      refine .trans ?_ (freeFinished_same _)
      cases last : r.lastEntry <;>
        simp [SameMemory, Fctx.remaining, Fctx.recordParsed, last]

/-! ## Runs -/

theorem accounted_iff (env : DirEnv) (e : Enumeration) (event : Event) : Accounted env e event ↔
    (∀ size ∈ takenOff env e event, size ≤ e.ctx.queriesTotalMemory) ∧
      ∀ next, step env e event = some next → next.ctx.Balanced := by
  refine ⟨fun accounted => ⟨accounted.covered, accounted.balanced⟩, fun ⟨covered, balanced⟩ => ⟨covered, balanced, ?_⟩⟩
  intro next taken empty
  rw [balanced next taken, Fctx.remaining, empty]
  rfl

theorem accounted_iff_fits (env : DirEnv) (sound : e.Sound) (event : Event) :
    Accounted env e event ↔ Fits env e event := by
  rw [accounted_iff]
  cases event with
  | findnext queryp node =>
    simp only [Fits, takenOff, Option.mem_def, reduceCtorEq, false_implies, implies_true, true_and, iff_true]
    cases phase : e.phase with
    | sending | parsing => simp [step, phase]
    | returned error =>
      simp only [step, phase, Option.some.injEq, forall_eq']
      exact ((smb2fsSmbFindnext_quiet e queryp node).sound sound.ctx).ctx.balanced
  | answer a limits node =>
    simp only [Fits, takenOff, Option.mem_def, reduceCtorEq, false_implies, implies_true, true_and]
    cases phase : e.phase with
    | returned | parsing => simp [step, phase]
    | sending attempts =>
      obtain ⟨q, rest, front, nothing⟩ := sound.sent attempts phase
      simp only [step, phase, Option.some.injEq, forall_eq', Phase.sending.injEq]
      obtain ⟨quiet, fits⟩ | ⟨reply, length, quiet, fits⟩ := queryAnswered_cases front nothing attempts limits node a
      · exact ⟨fun _ => fits, fun _ => (quiet.sound sound.ctx).ctx.balanced⟩
      · rw [fits, ← saveReply_balanced_iff sound.ctx front nothing reply length]
        exact quiet.same.balanced_iff
  | parse =>
    cases phase : e.phase with
    | returned | sending => simp [step, phase, takenOff, Fits]
    | parsing =>
      cases front : e.ctx.queries with
      | nil => simp [step, phase, takenOff, Fits, front, parseQuery, sound.ctx.balanced]
      | cons q rest =>
        simp only [step, phase, takenOff, Fits, front, List.head?_cons, Option.mem_def, Option.some.injEq,
          forall_eq', true_implies, EntryFits]
        obtain ⟨error, after, parsed, quiet⟩ | ⟨r, after, parsed, quiet⟩ := parseQuery_cases env front
        · simp [parsed, (quiet.sound sound.ctx).ctx.balanced]
        · obtain ⟨size, last⟩ := smb2SmbParseQueryDirBothDirInfo_ok parsed
          have sized : r.recsz < 2 ^ 32 := by
            rw [size]
            exact recordSize_lt _ _
          have fits := recordParsed_balanced_iff sound.ctx front sized
          rw [← quiet.same.balanced_iff, last, size] at fits
          simp only [parsed, Option.some.injEq, forall_eq', size, fits]
          exact ⟨fun fits _ => fits, fun fits => fits ⟨r, after, rfl⟩⟩

theorem step_sound (env : DirEnv) {next : Enumeration} {event : Event} (sound : e.Sound) (fits : Fits env e event)
    (taken : step env e event = some next) : next.Sound := by
  have balanced := ((accounted_iff_fits env sound event).mpr fits).balanced next taken
  cases event with
  | findnext queryp node =>
    cases phase : e.phase with
    | sending | parsing => simp [step, phase] at taken
    | returned error =>
      simp only [step, phase, Option.some.injEq] at taken
      subst taken
      exact (smb2fsSmbFindnext_quiet e queryp node).sound sound.ctx
  | answer a limits node =>
    cases phase : e.phase with
    | returned | parsing => simp [step, phase] at taken
    | sending attempts =>
      simp only [step, phase, Option.some.injEq] at taken
      subst taken
      obtain ⟨q, rest, front, nothing⟩ := sound.sent attempts phase
      obtain ⟨quiet, _⟩ | ⟨reply, length, quiet, _⟩ := queryAnswered_cases front nothing attempts limits node a
      · exact quiet.sound sound.ctx
      · exact quiet.sound ⟨quiet.same.balanced_iff.mp balanced, saveReply_small front reply length⟩
  | parse =>
    cases phase : e.phase with
    | returned | sending => simp [step, phase] at taken
    | parsing =>
      simp only [step, phase, Option.some.injEq] at taken
      subst taken
      cases front : e.ctx.queries with
      | nil =>
        simp only [parseQuery, front]
        exact (quiet_returned e.ctx _ _).sound sound.ctx
      | cons q rest =>
        obtain ⟨error, after, _, quiet⟩ | ⟨r, after, _, quiet⟩ := parseQuery_cases env front
        · exact quiet.sound sound.ctx
        · exact quiet.sound ⟨quiet.same.balanced_iff.mp balanced, recordParsed_small _ _ _ _⟩

theorem smbfsSmbFindopen_sound (infolevel : InfoLevel) (findSingle query64k : Bool) :
    (smbfsSmbFindopen infolevel findSingle query64k).Sound :=
  ⟨⟨rfl, Nat.two_pow_pos 32⟩, nofun⟩

/-- The memory of an enumeration is right after every reply, entry and call just when the replies and the entries
fit. -/
theorem findnext_accounted_iff (env : DirEnv) (infolevel : InfoLevel) (findSingle query64k : Bool)
    (events : List Event) :
    AllSteps (step env) (Accounted env) (smbfsSmbFindopen infolevel findSingle query64k) events ↔
      AllSteps (step env) (Fits env) (smbfsSmbFindopen infolevel findSingle query64k) events := by
  have start := smbfsSmbFindopen_sound infolevel findSingle query64k
  have same (e : Enumeration) (event : Event) (sound : e.Sound) := accounted_iff_fits env sound event
  have keeps (e : Enumeration) (event : Event) (next : Enumeration) (sound : e.Sound) (fits : Fits env e event)
      (taken : step env e event = some next) : next.Sound := step_sound env sound fits taken
  constructor
  · apply AllSteps.of_invariant (step env) ?_ (fun e event sound => (same e event sound).mp) start
    intro e event next sound accounted
    exact keeps e event next sound ((same e event sound).mp accounted)
  · exact AllSteps.of_invariant (step env) keeps (fun e event sound => (same e event sound).mpr) start

def paddedReply : Chain :=
  [toLe 2 9 ++ toLe 2 72 ++ toLe 4 112,
    toLe 4 0 ++ toLe 4 1 ++ List.replicate 52 0 ++ toLe 4 2 ++ List.replicate 40 0 ++ [97, 0] ++ List.replicate 6 0]

def plainServer : DirEnv where
  unixServer := false
  osxServer := false
  readDirAttr := false
  readDirAttrV2 := false
  unixBased := false
  smbTimeNT2local := id
  getAllocSize := id
  maxNetworkNameBufferSize := 1020

/-- The padding stays in the total of an empty queue. -/
theorem findnext_keeps_padding :
    (run (step plainServer) (smbfsSmbFindopen .bothDirectory true false)
        [.findnext true true, .answer (.replied paddedReply) ⟨1000, 0⟩ true, .parse]).map
      (fun e => (e.phase, e.ctx.queries, e.ctx.queriesTotalMemory)) = some (.returned none, [], 6) := by
  decide +kernel

end SmbClient.Directory
