import SmbClient.Negotiate.Validate
import SmbClient.Replies.OutputBuffer

/-! `smb2_smb_parse_ioctl`, with the memory that it writes to. What is parsed is chosen by the control code
in the reply, and so is what the output buffer of the request is taken for. -/

namespace SmbClient.Replies
open SmbClient.Lib SmbClient.Lib.Fallible SmbClient.Mbuf SmbClient.Mbuf.Reader SmbClient.ReadWrite
open SmbClient.Negotiate (CtlCode)

inductive Area
  | null
  | supplied
  | allocated (size : Nat)
  deriving DecidableEq, Repr

structure Store where
  area : Area
  offset : Nat
  data : Bytes
  deriving DecidableEq, Repr

/-- The store stays within its buffer; `room` is the size of the one that the request has supplied. -/
def Store.Fits (room : Nat) (store : Store) : Prop :=
  match store.area with
  | .null => False
  | .supplied => store.offset + store.data.length ≤ room
  | .allocated size => store.offset + store.data.length ≤ size

structure IoctlRq where
  rcvOutputLen : Nat
  rcvOutputBuffer : Area := .null
  rcvOutputUio : Option Target := none
  retInputLen : Nat := 0
  retOutputLen : Nat := 0
  stores : List Store := []

structure IoctlParams where
  kalloc : Kalloc
  sessionTxmax : Nat
  smbConvertNetworkToPath : Bytes → Nat → Bytes × Option Errno
  path_length : ∀ name room, (smbConvertNetworkToPath name room).1.length ≤ room

abbrev IoctlParser := Reader IoctlRq

def IoctlRq.write (area : Area) (offset : Nat) (data : Bytes) (ioctlp : IoctlRq) : IoctlRq :=
  { ioctlp with stores := ioctlp.stores ++ [⟨area, offset, data⟩] }

def getMemTo (area : Area) (offset size : Nat) : IoctlParser Bytes := fun s =>
  let data := (mdGetMem s.mdp size).target
  let r := getMem size s
  (r.1, if area = .null ∧ offset = 0 then r.2 else { r.2 with state := r.2.state.write area offset data })

def getUintTo (area : Area) (offset size : Nat) : IoctlParser Unit := do
  let data ← getMem size
  if area = .null ∧ offset = 0 then pure () else update (IoctlRq.write area offset data)

def ioReparseTagSymlink : Nat := 0xA000000C

def smb2SmbParseGetReparsePoint (params : IoctlParams) : IoctlParser Unit := do
  let tag ← getUint 4
  require (tag = ioReparseTagSymlink) .ebadrpc
  let _dataLength ← getUint 2
  let _reserved ← getUint 2
  let substituteNameOffset ← getUint 2
  let substituteNameLen ← getUint 2
  let _printNameOffset ← getUint 2
  let _printNameLen ← getUint 2
  let _flags ← getUint 4
  require (substituteNameLen ≠ 0 ∧ substituteNameLen ≤ params.sessionTxmax) .enomem
  skip substituteNameOffset
  require ((params.kalloc.alloc substituteNameLen).isSome) .enomem
  let networkName ← getMemTo (.allocated substituteNameLen) 0 substituteNameLen
  let pathAllocsize := substituteNameLen * 9 + 1
  require ((params.kalloc.alloc pathAllocsize).isSome) .enomem
  let path := params.smbConvertNetworkToPath networkName pathAllocsize
  update (IoctlRq.write (.allocated pathAllocsize) 0 path.1)
  match path.2 with
  | some e => fail e
  | none =>
    update fun ioctlp => { ioctlp with rcvOutputBuffer := .allocated pathAllocsize, rcvOutputLen := path.1.length }

def smb2SmbParseIoctlGetData (params : IoctlParams) : IoctlParser Unit := do
  let ioctlp ← state
  require ((params.kalloc.alloc ioctlp.retOutputLen).isSome) .enomem
  let _ ← getMemTo (.allocated ioctlp.retOutputLen) 0 ioctlp.retOutputLen
  update fun rq => { rq with rcvOutputBuffer := .allocated ioctlp.retOutputLen, rcvOutputLen := ioctlp.retOutputLen }

def skipToIoctlData (retOutputOffset : Nat) : IoctlParser Unit := skip (skipDistance 32 (64 + 48) retOutputOffset)

def parseSecureNegInfo : IoctlParser Unit := do
  let ioctlp ← state
  require (24 ≤ ioctlp.rcvOutputLen) .ebadrpc
  getUintTo ioctlp.rcvOutputBuffer 0 4
  let _guid ← getMemTo ioctlp.rcvOutputBuffer 4 16
  getUintTo ioctlp.rcvOutputBuffer 20 2
  update (IoctlRq.write ioctlp.rcvOutputBuffer 22 (toLe 2 1))
  getUintTo ioctlp.rcvOutputBuffer 24 2

def parseNetworkInterfaceInfo : IoctlParser Unit := do
  let ioctlp ← state
  require (ioctlp.retOutputLen ≤ ioctlp.rcvOutputLen) .einval
  let _ ← getMemTo ioctlp.rcvOutputBuffer 0 ioctlp.retOutputLen

def parsePipeData : IoctlParser Unit := do
  let ioctlp ← state
  if ioctlp.retOutputLen = 0 then pure ()
  else mdGetUioTo (·.rcvOutputUio) (fun target ioctlp => { ioctlp with rcvOutputUio := some target }) ioctlp.retOutputLen

def parseOutput (params : IoctlParams) (retOutputOffset : Nat) : CtlCode → IoctlParser Unit
  | .getReparsePoint => smb2SmbParseGetReparsePoint params
  | .pipe => do
      skipToIoctlData retOutputOffset
      parsePipeData
  | .setReparsePoint => pure ()
  | .requestResumeKey => do
      skipToIoctlData retOutputOffset
      smb2SmbParseIoctlGetData params
  | .copychunk => smb2SmbParseIoctlGetData params
  | .validateNegotiateInfo => parseSecureNegInfo
  | .queryNetworkInterfaceInfo => parseNetworkInterfaceInfo
  | .unsupported => fail .ebadrpc

def parseIoctlHead : IoctlParser (CtlCode × Nat) := do
  let length ← getUint 2
  require (length = 49) .ebadrpc
  let _reserved ← getUint 2
  let retCtlcode ← getUint 4
  let _fidPersistent ← getUint 8
  let _fidVolatile ← getUint 8
  let _retInputOffset ← getUint 4
  let retInputLen ← getUint 4
  update fun ioctlp => { ioctlp with retInputLen }
  let retOutputOffset ← getUint 4
  let retOutputLen ← getUint 4
  update fun ioctlp => { ioctlp with retOutputLen }
  let _retFlags ← getUint 4
  let _reserved2 ← getUint 4
  pure (.ofCode retCtlcode, retOutputOffset)

def smb2SmbParseIoctl (params : IoctlParams) : IoctlParser Unit := do
  let (retCtlcode, retOutputOffset) ← parseIoctlHead
  parseOutput params retOutputOffset retCtlcode

/-! ## The requests -/

def kSmb63K : Nat := 65534
def queryNetworkInterfaceMaxReply : Nat := 64 * 1024

inductive IoctlRequest
  | requestResumeKey
  | getReparsePoint
  | setReparsePoint
  | copychunk (rcvOutputLen : Nat)
  | validateNegotiateInfo
  | queryNetworkInterfaceInfo
  | user (outputLen : Nat) (limited : Bool)
  deriving DecidableEq, Repr

namespace IoctlRequest

def room : IoctlRequest → Option Nat
  | .validateNegotiateInfo => some Negotiate.sizeofSecureNegInfo
  | .queryNetworkInterfaceInfo => some queryNetworkInterfaceMaxReply
  | _ => none

def uio : IoctlRequest → Option Target
  | .user outputLen _ => if outputLen > 0 then some { auio := ⟨0, 0, outputLen⟩, stored := fun _ => none } else none
  | _ => none

def rcvOutputLen : IoctlRequest → Nat
  | .requestResumeKey => 0x20
  | .getReparsePoint => 16 * 1024
  | .setReparsePoint => 0
  | .copychunk rcvOutputLen => rcvOutputLen
  | .validateNegotiateInfo => Negotiate.sizeofSecureNegInfo
  | .queryNetworkInterfaceInfo => queryNetworkInterfaceMaxReply
  | .user outputLen limited => if limited then kSmb63K else outputLen

def build (request : IoctlRequest) : IoctlRq where
  rcvOutputLen := request.rcvOutputLen
  rcvOutputBuffer := if request.room.isSome then .supplied else .null
  rcvOutputUio := request.uio

theorem rcvOutputLen_of_room {request : IoctlRequest} {size : Nat} (supplies : request.room = some size) :
    request.rcvOutputLen = size ∧ 26 ≤ size := by
  cases request <;> cases supplies <;> exact ⟨rfl, by decide⟩

end IoctlRequest

/-! ## Where the output goes -/

def FilledWithin (before after : Target) : Prop :=
  ∀ k, after.stored k ≠ before.stored k → before.auio.pos ≤ k ∧ k < before.auio.pos + before.auio.resid

theorem mdGetUioLoop_filledWithin (unread : Chain) (size : Nat) (target : Target) :
    FilledWithin target (mdGetUioLoop unread size target).2 := by
  induction unread generalizing size target with
  | nil =>
    intro k changed
    refine absurd ?_ changed
    rw [mdGetUioLoop]
    split <;> rfl
  | cons m rest ih =>
    intro k changed
    rw [mdGetUioLoop] at changed
    split at changed
    · exact absurd rfl changed
    · by_cases later : (mdGetUioLoop rest (size - m.length) (uiomove (m.take size) target)).2.stored k =
          (uiomove (m.take size) target).stored k
      · rw [later] at changed
        simp only [uiomove, Stored.put] at changed
        split at changed
        · rename_i inside
          rw [List.length_take] at inside
          omega
        · exact absurd rfl changed
      · have place := ih _ _ k later
        simp only [uiomove, smbfsUioUpdate] at place
        omega

/-- The uio is the one of the request, with nothing written beyond its room. -/
def UioKept : Option Target → Option Target → Prop
  | none, after => after = none
  | some before, after => ∃ target, after = some target ∧ FilledWithin before target

theorem UioKept.refl (uio : Option Target) : UioKept uio uio := by
  cases uio with
  | none => rfl
  | some target => exact ⟨target, rfl, fun k changed => absurd rfl changed⟩

structure Contained (room : Nat) (uio : Option Target) (ioctlp : IoctlRq) : Prop where
  stores : ∀ store ∈ ioctlp.stores, store.Fits room
  uio : UioKept uio ioctlp.rcvOutputUio

structure Ready (request : IoctlRq) (room : Nat) (ioctlp : IoctlRq) : Prop where
  stores : ∀ store ∈ ioctlp.stores, store.Fits room
  rcvOutputLen : ioctlp.rcvOutputLen = request.rcvOutputLen
  rcvOutputBuffer : ioctlp.rcvOutputBuffer = request.rcvOutputBuffer
  rcvOutputUio : ioctlp.rcvOutputUio = request.rcvOutputUio

section
variable {request : IoctlRq} {room : Nat}

theorem Ready.contained {ioctlp : IoctlRq} (ready : Ready request room ioctlp) :
    Contained room request.rcvOutputUio ioctlp :=
  ⟨ready.stores, ready.rcvOutputUio ▸ UioKept.refl _⟩

theorem Ready.write {ioctlp : IoctlRq} (ready : Ready request room ioctlp) {area : Area} {offset : Nat} {data : Bytes}
    (fits : Store.Fits room ⟨area, offset, data⟩) : Ready request room (ioctlp.write area offset data) := by
  refine { ready with stores := fun store found => ?_ }
  rcases List.mem_append.mp found with old | new
  · exact ready.stores store old
  · cases List.mem_singleton.mp new
    exact fits

abbrev Keeps {α : Type} (request : IoctlRq) (room : Nat) (p : IoctlParser α) : Prop :=
  Ensures (fun s => Ready request room s.state) p (fun s => Ready request room s.state)

theorem keeps_getUint (size : Nat) : Keeps request room (getUint size) := ensures_getUint (fun _ ready => ready) size

theorem keeps_skip (size : Nat) : Keeps request room (skip size) := ensures_skip (fun _ ready => ready) size

theorem keeps_require (p : Prop) [Decidable p] (e : Errno) : Keeps request room (require p e) :=
  ensures_require (fun _ ready => ready) p e

theorem keeps_getMemTo_null (size : Nat) : Keeps request room (getMemTo .null 0 size) := by
  intro s ready
  unfold getMemTo
  dsimp only
  rw [if_pos ⟨rfl, rfl⟩]
  exact ensures_getMem (fun _ ready => ready) size s ready

theorem Keeps.bind {α β : Type} {p : IoctlParser α} {f : α → IoctlParser β} (first : Keeps request room p)
    (second : ∀ a, Keeps request room (f a)) : Keeps request room (p >>= f) :=
  Ensures.bind first second fun _ ready => ready

variable {area : Area} {offset size : Nat} (fits : ∀ data : Bytes, data.length ≤ size → Store.Fits room ⟨area, offset, data⟩)
include fits

theorem keeps_getMemTo : Keeps request room (getMemTo area offset size) := by
  intro s ready
  have same : (getMem size s).2.state = s.state := by
    unfold Reader.getMem
    split <;> rfl
  have short : ((mdGetMem s.mdp size).target).length ≤ size := by
    rw [mdGetMem_target, List.length_take]
    exact Nat.min_le_left _ _
  unfold getMemTo
  dsimp only
  split
  · rw [same]
    exact ready
  · rw [same]
    exact ready.write (fits _ short)

theorem keeps_getUintTo : Keeps request room (getUintTo area offset size) := by
  intro s ready
  unfold getUintTo
  cases run : getMem size s with
  | mk result t =>
    have same : t.state = s.state := by
      unfold Reader.getMem at run
      split at run <;> cases run <;> rfl
    cases result with
    | error e =>
      rw [bind_of_error run, same]
      exact ready
    | ok data =>
      rw [bind_of_ok run]
      obtain ⟨_, rfl, _, _⟩ := getMem_ok run
      split
      · exact same ▸ ready
      · refine Ready.write (same ▸ ready) (fits _ ?_)
        rw [List.length_take]
        exact Nat.min_le_left _ _

end

abbrev Contains {α : Type} (request : IoctlRq) (room : Nat) (p : IoctlParser α) : Prop :=
  Ensures (fun s => Ready request room s.state) p (fun s => Contained room request.rcvOutputUio s.state)

section
variable {request : IoctlRq} {room : Nat}

theorem Keeps.contains {α : Type} {p : IoctlParser α} (keeps : Keeps request room p) : Contains request room p :=
  fun s ready => (keeps s ready).contained

theorem Keeps.before {α β : Type} {p : IoctlParser α} {f : α → IoctlParser β} (first : Keeps request room p)
    (second : ∀ a, Contains request room (f a)) : Contains request room (p >>= f) :=
  Ensures.bind first second fun _ ready => ready.contained

theorem fits_allocated {size : Nat} (data : Bytes) (short : data.length ≤ size) :
    Store.Fits room ⟨.allocated size, 0, data⟩ := by
  show 0 + data.length ≤ size
  omega

theorem keeps_parseIoctlHead : Keeps request room parseIoctlHead := by
  unfold parseIoctlHead
  refine (keeps_getUint 2).bind fun length => (keeps_require _ _).bind fun _ => ?_
  refine (keeps_getUint 2).bind fun _ => (keeps_getUint 4).bind fun retCtlcode => ?_
  refine (keeps_getUint 8).bind fun _ => (keeps_getUint 8).bind fun _ => ?_
  refine (keeps_getUint 4).bind fun _ => (keeps_getUint 4).bind fun retInputLen => ?_
  refine Keeps.bind (ensures_update fun _ ready => { ready with }) fun _ => ?_
  refine (keeps_getUint 4).bind fun retOutputOffset => (keeps_getUint 4).bind fun retOutputLen => ?_
  refine Keeps.bind (ensures_update fun _ ready => { ready with }) fun _ => ?_
  refine (keeps_getUint 4).bind fun _ => (keeps_getUint 4).bind fun _ => ?_
  exact .pure fun _ ready => ready

theorem contains_setBuffer (size length : Nat) : Contains request room
    (update fun rq => { rq with rcvOutputBuffer := .allocated size, rcvOutputLen := length }) :=
  ensures_update fun _ ready => ⟨ready.stores, ready.contained.uio⟩

theorem contains_getData (params : IoctlParams) : Contains request room (smb2SmbParseIoctlGetData params) := by
  intro s ready
  unfold smb2SmbParseIoctlGetData
  rw [state_bind]
  refine (keeps_require _ _).before (fun _ => ?_) s ready
  exact (keeps_getMemTo fits_allocated).before fun _ => contains_setBuffer _ _

theorem contains_getReparsePoint (params : IoctlParams) :
    Contains request room (smb2SmbParseGetReparsePoint params) := by
  unfold smb2SmbParseGetReparsePoint
  refine (keeps_getUint 4).before fun tag => (keeps_require _ _).before fun _ => ?_
  refine (keeps_getUint 2).before fun _ => (keeps_getUint 2).before fun _ => ?_
  refine (keeps_getUint 2).before fun nameOffset => (keeps_getUint 2).before fun nameLen => ?_
  refine (keeps_getUint 2).before fun _ => (keeps_getUint 2).before fun _ => ?_
  refine (keeps_getUint 4).before fun _ => (keeps_require _ _).before fun _ => ?_
  refine (keeps_skip nameOffset).before fun _ => (keeps_require _ _).before fun _ => ?_
  refine (keeps_getMemTo fits_allocated).before fun name => (keeps_require _ _).before fun _ => ?_
  have written : Keeps request room (update (IoctlRq.write (.allocated (nameLen * 9 + 1)) 0
      (params.smbConvertNetworkToPath name (nameLen * 9 + 1)).1)) :=
    ensures_update fun _ ready => ready.write (fits_allocated _ (params.path_length _ _))
  refine written.before fun _ => ?_
  split
  · exact .fail fun _ ready => ready.contained
  · exact contains_setBuffer _ _

theorem contains_parsePipeData : Contains request room parsePipeData := by
  intro s ready
  unfold parsePipeData
  rw [state_bind]
  split
  · exact ready.contained
  · unfold mdGetUioTo
    split
    · exact ready.contained
    · rename_i target given
      replace given : s.state.rcvOutputUio = some target := given
      rw [ready.rcvOutputUio] at given
      refine ⟨ready.stores, ?_⟩
      rw [given]
      exact ⟨_, rfl, mdGetUioLoop_filledWithin _ _ target⟩

theorem keeps_parseNetworkInterfaceInfo
    (sized : request.rcvOutputBuffer = .null ∨ request.rcvOutputBuffer = .supplied ∧ request.rcvOutputLen ≤ room) :
    Keeps request room parseNetworkInterfaceInfo := by
  intro s ready
  unfold parseNetworkInterfaceInfo
  rw [state_bind]
  by_cases short : s.state.retOutputLen ≤ s.state.rcvOutputLen
  · rw [require_bind short]
    refine Keeps.bind ?_ (fun _ => .pure fun _ ready => ready) s ready
    rw [ready.rcvOutputLen] at short
    rw [ready.rcvOutputBuffer]
    rcases sized with absent | ⟨supplied, sized⟩
    · rw [absent]
      exact keeps_getMemTo_null _
    · rw [supplied]
      refine keeps_getMemTo fun data inside => ?_
      show 0 + data.length ≤ room
      omega
  · rw [require_bind_fails short]
    exact ready

theorem keeps_parseSecureNegInfo
    (buffered : 24 ≤ request.rcvOutputLen → request.rcvOutputBuffer = .supplied ∧ 26 ≤ room) :
    Keeps request room parseSecureNegInfo := by
  intro s ready
  unfold parseSecureNegInfo
  rw [state_bind]
  by_cases enough : 24 ≤ s.state.rcvOutputLen
  case neg =>
    rw [require_bind_fails enough]
    exact ready
  obtain ⟨supplied, sized⟩ := buffered (ready.rcvOutputLen ▸ enough)
  have fits : ∀ offset size, offset + size ≤ 26 → ∀ data : Bytes, data.length ≤ size →
      Store.Fits room ⟨s.state.rcvOutputBuffer, offset, data⟩ := by
    intro offset size inside data short
    rw [ready.rcvOutputBuffer, supplied]
    show offset + data.length ≤ room
    omega
  rw [require_bind enough]
  refine Keeps.bind (keeps_getUintTo (fits 0 4 (by decide))) (fun _ => ?_) s ready
  refine (keeps_getMemTo (fits 4 16 (by decide))).bind fun _ => ?_
  refine (keeps_getUintTo (fits 20 2 (by decide))).bind fun _ => ?_
  refine Keeps.bind (ensures_update fun _ ready => ready.write (fits 22 2 (by decide) _ ?_)) fun _ => ?_
  · rw [length_toLe]
  · exact keeps_getUintTo (fits 24 2 (by decide))

end

def replyCode (data : Bytes) : CtlCode := .ofCode (ofLe (slice data 4 4))

theorem parseIoctlHead_code {s t : Reading IoctlRq} {code : CtlCode} {offset : Nat}
    (run : parseIoctlHead s = (.ok (code, offset), t)) : code = replyCode s.mdp.rest := by
  obtain ⟨length, a, first, run⟩ := of_bind_eq_ok run
  obtain ⟨_, b, checked, run⟩ := of_bind_eq_ok run
  obtain ⟨_, c, second, run⟩ := of_bind_eq_ok run
  obtain ⟨retCtlcode, d, third, run⟩ := of_bind_eq_ok run
  have same : b.mdp = a.mdp := by
    unfold require at checked
    split at checked <;> cases checked
    rfl
  obtain ⟨_, _, first, _⟩ := getUint_ok first
  obtain ⟨_, _, second, _⟩ := getUint_ok second
  obtain ⟨_, found, _⟩ := getUint_ok third
  rw [second, same, first, List.drop_drop] at found
  -- the rest of the fixed part does not change the result
  iterate 10 obtain ⟨_, _, _, run⟩ := of_bind_eq_ok run
  obtain ⟨result, _⟩ := of_pure_eq_ok run
  cases result
  rw [found]
  rfl

theorem contains_parseOutput (params : IoctlParams) (request : IoctlRequest) (retOutputOffset : Nat) (code : CtlCode)
    (buffered : code = .validateNegotiateInfo → 24 ≤ request.build.rcvOutputLen → request.room ≠ none) :
    Contains request.build (request.room.getD 0) (parseOutput params retOutputOffset code) := by
  have sized : request.build.rcvOutputBuffer = .null ∨
      request.build.rcvOutputBuffer = .supplied ∧ request.build.rcvOutputLen ≤ request.room.getD 0 := by
    unfold IoctlRequest.build
    cases supplies : request.room with
    | none => exact .inl rfl
    | some size => exact .inr ⟨rfl, (IoctlRequest.rcvOutputLen_of_room supplies).1.le⟩
  cases code with
  | getReparsePoint => exact contains_getReparsePoint params
  | pipe => exact (keeps_skip _).before fun _ => contains_parsePipeData
  | setReparsePoint => exact .pure fun _ ready => ready.contained
  | requestResumeKey => exact (keeps_skip _).before fun _ => contains_getData params
  | copychunk => exact contains_getData params
  | validateNegotiateInfo =>
    refine (keeps_parseSecureNegInfo fun enough => ?_).contains
    obtain ⟨size, supplies⟩ := Option.ne_none_iff_exists'.mp (buffered rfl enough)
    rw [supplies]
    exact ⟨by simp [IoctlRequest.build, supplies], (IoctlRequest.rcvOutputLen_of_room supplies).2⟩
  | queryNetworkInterfaceInfo => exact (keeps_parseNetworkInterfaceInfo sized).contains
  | unsupported => exact .fail fun _ ready => ready.contained

/-- The output of every reply to a request that the client builds goes to the buffer or to the uio that
the request has supplied, or to a buffer that the parser has allocated for it, and fits there. Nothing is
said about the reply to a validation of the Negotiate exchange where a request for 24 bytes or more without a buffer
was made. -/
theorem ioctl_output_contained (params : IoctlParams) (request : IoctlRequest) (mdp : MdChain)
    (buffered : replyCode mdp.rest = .validateNegotiateInfo → 24 ≤ request.build.rcvOutputLen → request.room ≠ none) :
    let ioctlp := (smb2SmbParseIoctl params ⟨mdp, request.build⟩).2.state
    (∀ store ∈ ioctlp.stores, store.Fits (request.room.getD 0)) ∧ UioKept request.uio ioctlp.rcvOutputUio := by
  have ready : Ready request.build (request.room.getD 0) request.build :=
    ⟨(fun store found => nomatch found), rfl, rfl, rfl⟩
  have kept : Contained (request.room.getD 0) request.uio (smb2SmbParseIoctl params ⟨mdp, request.build⟩).2.state := by
    have head := keeps_parseIoctlHead ⟨mdp, request.build⟩ ready
    unfold smb2SmbParseIoctl
    cases run : parseIoctlHead ⟨mdp, request.build⟩ with
    | mk result t =>
      rw [run] at head
      cases result with
      | error e =>
        rw [bind_of_error run]
        exact head.contained
      | ok found =>
        rw [bind_of_ok run]
        refine contains_parseOutput params request found.2 found.1 (fun validates => buffered ?_) t head
        exact (parseIoctlHead_code run).symm.trans validates
  exact ⟨kept.stores, kept.uio⟩

def plainParams : IoctlParams where
  kalloc := .zeroed
  sessionTxmax := 65536
  smbConvertNetworkToPath name room := (name.take room, none)
  path_length _ _ := by
    rw [List.length_take]
    exact Nat.min_le_left _ _

def ioctlReply (code : Nat) (output : Bytes) : MdChain :=
  mdInitm [toLe 2 49 ++ toLe 2 0 ++ toLe 4 code ++ List.replicate 16 0 ++ toLe 4 0 ++ toLe 4 0 ++ toLe 4 112 ++
    toLe 4 output.length ++ toLe 4 0 ++ toLe 4 0 ++ output]

theorem ioctl_output_contained_interfaces :
    let ioctlp := (smb2SmbParseIoctl plainParams
      ⟨ioctlReply 0x001401FC (List.replicate 152 1), IoctlRequest.queryNetworkInterfaceInfo.build⟩).2.state
    (∀ store ∈ ioctlp.stores, store.Fits 65536) ∧ UioKept none ioctlp.rcvOutputUio :=
  ioctl_output_contained plainParams .queryNetworkInterfaceInfo (ioctlReply 0x001401FC (List.replicate 152 1))
    (fun _ _ => Option.some_ne_none _)

-- the excluded case: the fields of the reply are written to the first bytes of memory
example : ∃ store ∈ (smb2SmbParseIoctl plainParams
    ⟨ioctlReply 0x00140204 (List.replicate 24 1), IoctlRequest.getReparsePoint.build⟩).2.state.stores,
    store.area = .null := by
  decide +kernel

/-- A resume key is put into a buffer of its own: the request has supplied none. -/
theorem ioctl_output_allocated :
    IoctlRequest.requestResumeKey.room = none ∧ IoctlRequest.requestResumeKey.uio.isNone ∧
      ¬∀ store ∈ (smb2SmbParseIoctl plainParams
        ⟨ioctlReply 0x140078 (List.replicate 32 7), IoctlRequest.requestResumeKey.build⟩).2.state.stores,
        store.area = .supplied := by
  refine ⟨rfl, rfl, ?_⟩
  decide +kernel

end SmbClient.Replies
