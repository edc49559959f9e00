import SmbClient.Lib.Runs
import SmbClient.Mbuf.Chain

/-! Which connection `smb_get_server_info` tells about when it is called again with another URL. -/

namespace SmbClient.Connect
open SmbClient.Lib
open SmbClient.Mbuf (Errno)

/-- How strings are compared without regard to case. -/
structure Comparison where
  equal : String → String → Bool
  refl : ∀ s, equal s s = true

def isUrlStringEqual (compare : Comparison) : (url1 url2 : Option String) → Bool
  -- both strings are those of the first URL
  | some url1, some _ => compare.equal url1 url1
  | _, _ => false

structure SmbCtx (Addr : Type) where
  url : Option String := none
  serverName : String := ""
  connected : Bool := false
  resolved : Bool := false
  saddr : Option Addr := none
  /-- The URL that the connection was made for. -/
  session : Option String := none
  deriving DecidableEq, Repr

/-- What parsing, the directory and the network answer during a call. -/
structure Answers (Addr : Type) where
  parse : String → Except Errno String
  domain : String → Option (List String)
  resolve : String → Except Errno (List Addr)
  findMatchingSession : List Addr → Option Addr
  findReachableAddress : List Addr → Except Errno Addr
  negotiate : Option Addr → Option Errno

variable {Addr : Type}

def SmbCtx.cleared (ctx : SmbCtx Addr) : SmbCtx Addr := { ctx with connected := false, resolved := false }

section
variable (env : Answers Addr) (forceNewSession : Bool)

def smbNegotiate (ctx : SmbCtx Addr) : Option Errno × SmbCtx Addr :=
  match env.negotiate ctx.saddr with
  | some e => (some e, ctx)
  | none => (none, { ctx with connected := true, session := ctx.url })

def smbConnectOne (ctx : SmbCtx Addr) : Option Errno × SmbCtx Addr :=
  if ctx.connected then (none, ctx)
  else if ctx.resolved && ctx.saddr.isSome then smbNegotiate env ctx
  else
    match env.resolve ctx.serverName with
    | .error e => (some e, { ctx with resolved := false })
    | .ok [conn] => smbNegotiate env { ctx with resolved := true, saddr := some conn }
    | .ok addressArray =>
      match if forceNewSession then none else env.findMatchingSession addressArray with
      | some conn => (none, { ctx with resolved := true, saddr := some conn, connected := true, session := ctx.url })
      | none =>
        match env.findReachableAddress addressArray with
        | .error e => (some e, { ctx with resolved := false })
        | .ok conn => smbNegotiate env { ctx with resolved := true, saddr := some conn }

/-- An attempt to connect: its result, the context it leaves, and those that `smb_connect_one` was called with. -/
structure Attempt (Addr : Type) where
  error : Option Errno
  ctx : SmbCtx Addr
  entered : List (SmbCtx Addr)

def connectOnce (ctx : SmbCtx Addr) : Attempt Addr :=
  ⟨(smbConnectOne env forceNewSession ctx).1, (smbConnectOne env forceNewSession ctx).2, [ctx]⟩

def connectAny (holdServerName : String) : List String → SmbCtx Addr → Attempt Addr
  | [], ctx => connectOnce env forceNewSession { ctx with serverName := holdServerName }.cleared
  | dc :: rest, ctx =>
    let first := connectOnce env forceNewSession { ctx with serverName := dc }.cleared
    match first.error with
    | none => first
    | some _ =>
      let next := connectAny holdServerName rest first.ctx
      { next with entered := first.entered ++ next.entered }

def smbConnect (ctx : SmbCtx Addr) : Attempt Addr :=
  match env.domain ctx.serverName with
  | some (dc :: dcs) => connectAny env forceNewSession ctx.serverName (dc :: dcs) ctx
  -- an empty array is treated like none
  | _ => connectOnce env forceNewSession ctx

end

structure Call (Addr : Type) where
  url : Option String
  forceNewSession : Bool := false
  env : Answers Addr

def smbGetServerInfo (compare : Comparison) (ctx : SmbCtx Addr) (call : Call Addr) : Attempt Addr :=
  let ctx := if ctx.connected && !isUrlStringEqual compare ctx.url call.url then ctx.cleared else ctx
  let ctx := { ctx with url := call.url.or ctx.url }
  match ctx.url with
  | none => ⟨some .enomem, ctx, []⟩
  | some url =>
    match call.env.parse url with
    | .error e => ⟨some e, ctx, []⟩
    | .ok serverName => smbConnect call.env call.forceNewSession { ctx with serverName }

def step (compare : Comparison) (ctx : SmbCtx Addr) (call : Call Addr) : Option (SmbCtx Addr) :=
  some (smbGetServerInfo compare ctx call).ctx

def Differs (compare : Comparison) (ctx : SmbCtx Addr) (call : Call Addr) (new : String) : Prop :=
  ∃ old, ctx.url = some old ∧ call.url = some new ∧ compare.equal old new = false

/-- Every connection is made from the start, and what is told is about one that was made for the URL. -/
structure Attempt.Anew (attempt : Attempt Addr) (url : Option String) : Prop where
  cleared : ∀ ctx ∈ attempt.entered, ctx.connected = false ∧ ctx.resolved = false
  told : attempt.error = none → attempt.ctx.session = url
  url : attempt.ctx.url = url

def Answers.NamesController (env : Answers Addr) (serverName : String) : Prop :=
  ∃ dc dcs, env.domain serverName = some (dc :: dcs)

/-- There is nothing to clear, or the connect step clears it, or it is not reached. -/
def NothingLeft (ctx : SmbCtx Addr) (call : Call Addr) (new : String) : Prop :=
  ctx.connected = false ∧ ctx.resolved = false ∨
    ∀ serverName, call.env.parse new = .ok serverName → call.env.NamesController serverName

section
variable {env : Answers Addr} {forceNewSession : Bool} {ctx : SmbCtx Addr}

theorem smbNegotiate_told : (smbNegotiate env ctx).2.url = ctx.url ∧
    ((smbNegotiate env ctx).1 = none → (smbNegotiate env ctx).2.session = ctx.url) := by
  unfold smbNegotiate
  split
  · exact ⟨rfl, nofun⟩
  · exact ⟨rfl, fun _ => rfl⟩

theorem smbConnectOne_told (unconnected : ctx.connected = false) :
    (smbConnectOne env forceNewSession ctx).2.url = ctx.url ∧
      ((smbConnectOne env forceNewSession ctx).1 = none →
        (smbConnectOne env forceNewSession ctx).2.session = ctx.url) := by
  unfold smbConnectOne
  rw [unconnected, if_neg Bool.false_ne_true]
  split
  · exact smbNegotiate_told
  · split
    · exact ⟨rfl, nofun⟩
    · exact smbNegotiate_told
    · split
      · exact ⟨rfl, fun _ => rfl⟩
      · split
        · exact ⟨rfl, nofun⟩
        · exact smbNegotiate_told

theorem anew_connectOnce (unconnected : ctx.connected = false) (unresolved : ctx.resolved = false) :
    (connectOnce env forceNewSession ctx).Anew ctx.url := by
  obtain ⟨same, told⟩ := smbConnectOne_told unconnected
  refine ⟨fun entered member => ?_, told, same⟩
  obtain rfl := List.mem_singleton.mp member
  exact ⟨unconnected, unresolved⟩

theorem anew_connectAny (holdServerName : String) (dcs : List String) (ctx : SmbCtx Addr) :
    (connectAny env forceNewSession holdServerName dcs ctx).Anew ctx.url := by
  induction dcs generalizing ctx with
  | nil => exact anew_connectOnce rfl rfl
  | cons dc rest ih =>
    have first : (connectOnce env forceNewSession { ctx with serverName := dc }.cleared).Anew ctx.url :=
      anew_connectOnce rfl rfl
    rw [connectAny]
    dsimp only
    split
    · exact first
    · obtain ⟨cleared, told, same⟩ := ih (connectOnce env forceNewSession { ctx with serverName := dc }.cleared).ctx
      rw [first.url] at told same
      refine ⟨fun ctx member => ?_, told, same⟩
      exact (List.mem_append.mp member).elim (first.cleared ctx) (cleared ctx)

theorem anew_smbConnect_iff :
    (smbConnect env forceNewSession ctx).Anew ctx.url ↔
      ctx.connected = false ∧ ctx.resolved = false ∨ env.NamesController ctx.serverName := by
  unfold smbConnect
  split
  next dc dcs named => exact iff_of_true (anew_connectAny _ _ ctx) (.inr ⟨dc, dcs, named⟩)
  next unnamed =>
    refine ⟨fun anew => .inl (anew.cleared ctx List.mem_cons_self), ?_⟩
    rintro (⟨unconnected, unresolved⟩ | ⟨dc, dcs, named⟩)
    · exact anew_connectOnce unconnected unresolved
    · exact absurd named (unnamed dc dcs)

end

theorem anew_smbGetServerInfo_iff {compare : Comparison} {ctx : SmbCtx Addr} {call : Call Addr} {new : String}
    (differs : Differs compare ctx call new) :
    (smbGetServerInfo compare ctx call).Anew (some new) ↔ NothingLeft ctx call new := by
  obtain ⟨old, stored, given, -⟩ := differs
  have kept : (if ctx.connected && !isUrlStringEqual compare ctx.url call.url then ctx.cleared else ctx) = ctx := by
    rw [stored, given, isUrlStringEqual, compare.refl, Bool.not_true, Bool.and_false]
    rfl
  unfold smbGetServerInfo NothingLeft
  dsimp only
  rw [kept, given, Option.some_or]
  dsimp only
  cases call.env.parse new with
  | error e => exact iff_of_true ⟨nofun, nofun, rfl⟩ (.inr nofun)
  | ok serverName =>
    have connects : (smbConnect call.env call.forceNewSession { ctx with url := some new, serverName }).Anew _ ↔ _ :=
      anew_smbConnect_iff
    exact connects.trans (or_congr_right (by simp))

/-- Over any sequence of calls, those with another URL connect anew just if none of them finds a flag set that the
connect step does not clear itself. -/
theorem smbGetServerInfo_anew_iff (compare : Comparison) (ctx : SmbCtx Addr) (calls : List (Call Addr)) :
    AllSteps (step compare) (fun ctx call => ∀ new, Differs compare ctx call new →
        (smbGetServerInfo compare ctx call).Anew (some new)) ctx calls ↔
      AllSteps (step compare) (fun ctx call => ∀ new, Differs compare ctx call new → NothingLeft ctx call new)
        ctx calls :=
  AllSteps.congr (step compare) (fun _ _ => forall_congr' fun _ => forall_congr' anew_smbGetServerInfo_iff) ctx calls

def exact : Comparison := ⟨(· == ·), fun _ => beq_self_eq_true _⟩

def reachable : Answers Nat where
  parse := .ok
  domain _ := none
  resolve _ := .ok [1]
  findMatchingSession _ := none
  findReachableAddress _ := .ok 1
  negotiate _ := none

/-- The second call is about another server, and tells about the first one. -/
theorem smbGetServerInfo_stale :
    ∃ ctx, run (step exact) {} [⟨some "smb://a", false, reachable⟩] = some ctx ∧
      Differs exact ctx ⟨some "smb://b", false, reachable⟩ "smb://b" ∧
      (smbGetServerInfo exact ctx ⟨some "smb://b", false, reachable⟩).error = none ∧
      (smbGetServerInfo exact ctx ⟨some "smb://b", false, reachable⟩).ctx.session = some "smb://a" :=
  ⟨_, rfl, ⟨"smb://a", rfl, rfl, by decide⟩, by decide +kernel, by decide +kernel⟩

end SmbClient.Connect
