import SmbClient.Negotiate.Response
import SmbClient.Replies.OutputBuffer

namespace SmbClient.Replies
open SmbClient.Lib SmbClient.Lib.Fallible SmbClient.Mbuf SmbClient.Mbuf.Reader SmbClient.ReadWrite
open SmbClient.Negotiate

variable {τ : Type}

/-! ## Output buffers -/

/-- The fixed part in front of an output buffer. -/
def OutputBufferHead (allowed : Nat → Bool) (data : Bytes) : Prop :=
  8 ≤ data.length ∧ ofLe (slice data 0 2) = 9 ∧ allowed (outputBufferFields data).length = true

theorem toOutputBuffer_settles (save : Nat → τ → τ) (allowed : τ → Nat → Bool) (s : Reading τ) :
    let named := outputBufferFields s.mdp.rest
    Settles (toOutputBuffer save allowed) s
      (OutputBufferHead (allowed (save named.length s.state)) s.mdp.rest ∧
        8 + skipDistance 16 72 named.offset ≤ s.mdp.rest.length)
      (fun n u => n = named ∧
        u = Reading.advance { s with state := save named.length s.state } (8 + skipDistance 16 72 named.offset)) := by
  intro named
  refine .of_eq (congrArg _ s.advance_zero.symm) ?_
  unfold toOutputBuffer
  refine .getUintFrom (Nat.zero_le _) (fun accept => Nat.le_trans (by decide) accept.1.1) fun size => ?_
  refine .require (fun accept => accept.1.2.1) fun nine => ?_
  refine .getUintFrom size (fun accept => Nat.le_trans (by decide) accept.1.1) fun offset => ?_
  refine .getUintFrom offset (fun accept => accept.1.1) fun length => ?_
  refine .of_eq (update_bind _ _) ?_
  refine .of_eq (state_bind _) ?_
  refine .require (fun accept => accept.1.2.2) fun fits => ?_
  refine .skipFrom (s := { s with state := save named.length s.state }) length (fun accept => accept.2) fun room => ?_
  exact .pure ⟨⟨length, nine, fits⟩, room⟩ ⟨rfl, rfl⟩

/-! ## The parsers -/

def queryDir : PlacedParser QueryDirRq Named Unit where
  start := 64
  fixedEnd := 72
  fields := outputBufferFields
  parser := smb2SmbParseQueryDir
  toPayload := toDirEntries
  payload := fun _ => parseDirEntries
  parser_eq := rfl

def queryInfo {ν : Type} (env : QueryInfoEnv ν) : PlacedParser (QueryInfoRq ν) Named Unit where
  start := 64
  fixedEnd := 72
  fields := outputBufferFields
  parser := smb2SmbParseQueryInfo env
  toPayload := toInfo
  payload := fun _ => parseInfo env
  parser_eq := rfl

def changeNotify : PlacedParser Events Named Bool where
  start := 64
  fixedEnd := 72
  fields := outputBufferFields
  parser := smb2SmbParseChangeNotify
  toPayload := do
    update fun _ => ∅
    toNotifyEntries
  payload := fun named => parseNotifyEntries named.length
  parser_eq := (bind_bind _ _ _).symm

def toReadData : Reader Target Nat := do
  let length ← getUint 2
  require (length = 17) .ebadrpc
  let dataOffset ← getUint 1
  let _ ← getUint 1
  let retLen ← getUint 4
  let _ ← getUint 4
  let _ ← getUint 4
  skipToData dataOffset
  pure retLen

def readData (retLen : Nat) : Reader Target Nat :=
  if retLen = 0 then pure 0
  else do
    mdGetUio retLen
    pure retLen

theorem smb2SmbParseReadOne_eq : smb2SmbParseReadOne = toReadData >>= readData := by
  simp only [smb2SmbParseReadOne, toReadData, bind_bind]
  rfl

def readOne : PlacedParser Target Nat Nat where
  start := 64
  fixedEnd := 80
  fields := fun data => { offset := ofLe (slice data 2 1), length := ofLe (slice data 4 4) }
  parser := smb2SmbParseReadOne
  toPayload := toReadData
  payload := readData
  parser_eq := smb2SmbParseReadOne_eq

def toSecurityBlob : NegReader (Named × Nat) := do
  let secBufOffset ← getUint 2
  let secBufLen ← getUint 2
  let negContextOffset ← getUint 4
  skip (secBufGap secBufOffset)
  pure ({ offset := secBufOffset, length := secBufLen }, negContextOffset)

def readSecurityBlob (kalloc : Kalloc) (secBufLen : Nat) : NegReader Nat := do
  let (tokenLen, error) ← parseToken kalloc secBufLen
  match error with
  | none => pure tokenLen
  | some e => fail e

def securityBlob (kalloc : Kalloc) : PlacedParser Neg (Named × Nat) Nat where
  start := 120
  fixedEnd := 128
  fields := fun data => { offset := ofLe (slice data 0 2), length := ofLe (slice data 2 2) }
  parser := toSecurityBlob >>= fun found => readSecurityBlob kalloc found.1.length
  toPayload := toSecurityBlob
  payload := fun found => readSecurityBlob kalloc found.1.length
  parser_eq := rfl

/-- The blob is found and read in the middle of `smb2_smb_parse_negotiate`. -/
theorem parseTail_eq (kalloc : Kalloc) :
    parseTail kalloc = (do
      let negContextCount ← parseSettings
      let (named, negContextOffset) ← toSecurityBlob
      let (tokenLen, error) ← parseToken kalloc named.length
      return ({ negBytesParsed := 64 + secBufGap named.offset + tokenLen, negContextOffset, negContextCount }, error)) := by
  simp only [parseTail, toSecurityBlob, bind_bind]
  rfl

/-! ## Where the payload is found -/

theorem queryDir_reaches (s : Reading QueryDirRq) :
    queryDir.Reaches 16 (OutputBufferHead (fun _ => true) s.mdp.rest) (outputBufferFields s.mdp.rest)
      (Reading.advance { s with state.retBufferLen := (outputBufferFields s.mdp.rest).length }
        (8 + skipDistance 16 72 (outputBufferFields s.mdp.rest).offset)) s where
  start_le := by decide
  offset_lt := ofLe_slice_lt s.mdp.rest 2 2
  settles := toOutputBuffer_settles _ _ s
  rest := Reading.advance_rest _ _

theorem queryInfo_reaches {ν : Type} (env : QueryInfoEnv ν) (s : Reading (QueryInfoRq ν)) :
    (queryInfo env).Reaches 16 (OutputBufferHead (· ≤ s.state.outputBufferLen) s.mdp.rest)
      (outputBufferFields s.mdp.rest)
      (Reading.advance { s with state.retBufferLen := (outputBufferFields s.mdp.rest).length }
        (8 + skipDistance 16 72 (outputBufferFields s.mdp.rest).offset)) s where
  start_le := Nat.le_add_right 64 8
  offset_lt := ofLe_slice_lt s.mdp.rest 2 2
  settles := toOutputBuffer_settles _ _ s
  rest := Reading.advance_rest _ _

theorem changeNotify_reaches (s : Reading Events) :
    changeNotify.Reaches 16 (OutputBufferHead (fun _ => true) s.mdp.rest) (outputBufferFields s.mdp.rest)
      (Reading.advance { s with state := ∅ } (8 + skipDistance 16 72 (outputBufferFields s.mdp.rest).offset)) s where
  start_le := by decide
  offset_lt := ofLe_slice_lt s.mdp.rest 2 2
  settles := .of_eq (update_bind _ _) (toOutputBuffer_settles _ _ { s with state := ∅ })
  rest := Reading.advance_rest _ _

theorem skipToData_eq (dataOffset : Nat) : skipToData dataOffset = skip (skipDistance 8 80 dataOffset) := by
  unfold skipToData skipDistance
  split
  · rw [if_neg (by omega)]
    congr 1
    omega
  · rw [if_pos (by omega), skip_zero]

/-- The fixed part of a response to a read. -/
def ReadHead (data : Bytes) : Prop := 16 ≤ data.length ∧ ofLe (slice data 0 2) = 17

theorem readOne_reaches (s : Reading Target) :
    readOne.Reaches 8 (ReadHead s.mdp.rest) (readOne.fields s.mdp.rest).length
      (s.advance (16 + skipDistance 8 80 (readOne.fields s.mdp.rest).offset)) s where
  start_le := by decide
  offset_lt := ofLe_slice_lt s.mdp.rest 2 1
  rest := Reading.advance_rest _ _
  settles := by
    refine .of_eq (congrArg _ s.advance_zero.symm) ?_
    unfold readOne toReadData
    refine .getUintFrom (Nat.zero_le _) (fun accept => Nat.le_trans (by decide) accept.1.1) fun size => ?_
    refine .require (fun accept => accept.1.2) fun seventeen => ?_
    refine .getUintFrom size (fun accept => Nat.le_trans (by decide) accept.1.1) fun offset => ?_
    refine .getUintFrom offset (fun accept => Nat.le_trans (by decide) accept.1.1) fun reserved => ?_
    refine .getUintFrom reserved (fun accept => Nat.le_trans (by decide) accept.1.1) fun length => ?_
    refine .getUintFrom length (fun accept => Nat.le_trans (by decide) accept.1.1) fun remaining => ?_
    refine .getUintFrom remaining (fun accept => accept.1.1) fun fixed => ?_
    rw [skipToData_eq]
    refine .skipFrom fixed (fun accept => accept.2) fun room => ?_
    exact .pure ⟨⟨fixed, seventeen⟩, room⟩ ⟨rfl, rfl⟩

theorem securityBlob_reaches (kalloc : Kalloc) (s : Reading Neg) :
    (securityBlob kalloc).Reaches 16 (8 ≤ s.mdp.rest.length)
      ((securityBlob kalloc).fields s.mdp.rest, ofLe (slice s.mdp.rest 4 4))
      (s.advance (8 + skipDistance 16 128 ((securityBlob kalloc).fields s.mdp.rest).offset)) s where
  start_le := Nat.le_add_right 120 8
  offset_lt := ofLe_slice_lt s.mdp.rest 0 2
  rest := Reading.advance_rest _ _
  settles := by
    refine .of_eq (congrArg _ s.advance_zero.symm) ?_
    unfold securityBlob toSecurityBlob
    refine .getUintFrom (Nat.zero_le _) (fun accept => Nat.le_trans (by decide) accept.1) fun offset => ?_
    refine .getUintFrom offset (fun accept => Nat.le_trans (by decide) accept.1) fun length => ?_
    refine .getUintFrom length (fun accept => accept.1) fun fixed => ?_
    refine .skipFrom fixed (fun accept => accept.2) fun room => ?_
    exact .pure ⟨fixed, room⟩ ⟨rfl, rfl⟩

/-! ## What is taken there -/

/-- Of `left` bytes as many are there as are to be copied and fit. -/
def UioFilled (size : Nat) (auio : Uio) (left : Nat) : Prop := min (Int.bmod size (2 ^ 32)).toNat auio.resid ≤ left

theorem mdGetUioLoop_ok_iff (unread : Chain) (size : Nat) (target : Target) :
    (∃ t, mdGetUioLoop unread size target = (.ok (), t)) ↔ min size target.auio.resid ≤ (bytes unread).length := by
  induction unread generalizing size target with
  | nil =>
    rw [mdGetUioLoop, bytes_nil, List.length_nil]
    split
    · exact ⟨fun _ => by omega, fun _ => ⟨target, rfl⟩⟩
    · refine ⟨fun found => ?_, fun _ => by omega⟩
      obtain ⟨t, ⟨⟩⟩ := found
  | cons m rest ih =>
    rw [mdGetUioLoop, bytes_cons, List.length_append]
    split
    · exact ⟨fun _ => by omega, fun _ => ⟨target, rfl⟩⟩
    · rw [ih]
      simp only [uiomove, smbfsUioUpdate, List.length_take]
      omega

theorem mdGetUio_ok_iff (size : Nat) (s : Reading Target) :
    (∃ t, mdGetUio size s = (.ok (), t)) ↔ UioFilled size s.state.auio s.mdp.rest.length := by
  refine Iff.trans ?_ (mdGetUioLoop_ok_iff s.mdp.unread _ s.state)
  constructor
  · rintro ⟨t, run⟩
    have result : (mdGetUio size s).1 = .ok () := by rw [run]
    exact ⟨_, Prod.ext result rfl⟩
  · rintro ⟨t, run⟩
    have result : (mdGetUioLoop s.mdp.unread (Int.bmod size (2 ^ 32)).toNat s.state).1 = .ok () := by rw [run]
    exact ⟨_, Prod.ext result rfl⟩

theorem readData_ok_iff (retLen : Nat) (s : Reading Target) :
    (∃ n t, readData retLen s = (.ok n, t)) ↔ retLen = 0 ∨ UioFilled retLen s.state.auio s.mdp.rest.length := by
  unfold readData
  split
  · rename_i zero
    exact ⟨fun _ => .inl zero, fun _ => ⟨0, s, rfl⟩⟩
  · rename_i present
    rw [← mdGetUio_ok_iff, or_iff_right present]
    constructor
    · rintro ⟨n, t, run⟩
      obtain ⟨_, u, copied, _⟩ := of_bind_eq_ok run
      exact ⟨u, copied⟩
    · rintro ⟨u, copied⟩
      exact ⟨retLen, u, bind_of_ok copied⟩

/-- The uio of a request for a directory, if it has one that is used, gets what it has been promised. -/
def DirFilled (queryp : QueryDirRq) (retBufferLen left : Nat) : Prop :=
  ∀ target ∈ queryp.rcvOutputUio, queryp.outputBufferLen > 0 →
    UioFilled (min queryp.outputBufferLen retBufferLen) target.auio left

theorem mdGetUioTo_ok_iff (uio : τ → Option Target) (setUio : Target → τ → τ) (size : Nat) (s : Reading τ) :
    (∃ a t, mdGetUioTo uio setUio size s = (.ok a, t)) ↔
      ∀ target ∈ uio s.state, UioFilled size target.auio s.mdp.rest.length := by
  unfold mdGetUioTo
  cases given : uio s.state with
  | none =>
    refine ⟨fun _ target found => ?_, fun _ => ⟨(), s, rfl⟩⟩
    cases found
  | some target =>
    have filled := mdGetUio_ok_iff size ⟨s.mdp, target⟩
    constructor
    · rintro ⟨a, t, run⟩ _ ⟨⟩
      have result : (mdGetUio size ⟨s.mdp, target⟩).1 = .ok () := congrArg Prod.fst run
      exact filled.mp ⟨_, Prod.ext result rfl⟩
    · intro promised
      obtain ⟨t, run⟩ := filled.mpr (promised target rfl)
      have result : (mdGetUio size ⟨s.mdp, target⟩).1 = .ok () := congrArg Prod.fst run
      exact ⟨(), _, Prod.ext result rfl⟩

theorem parseDirEntries_ok_iff (s : Reading QueryDirRq) :
    (∃ a t, parseDirEntries s = (.ok a, t)) ↔ DirFilled s.state s.state.retBufferLen s.mdp.rest.length := by
  unfold parseDirEntries DirFilled
  rw [state_bind]
  dsimp only
  split
  · rename_i used
    rw [bind_succeeds_iff]
    have filled := mdGetUioTo_ok_iff (·.rcvOutputUio) (fun target queryp => { queryp with rcvOutputUio := some target })
      (min s.state.outputBufferLen s.state.retBufferLen) s
    constructor
    · rintro ⟨a, u, copied, _⟩ target given _
      exact filled.mp ⟨a, u, copied⟩ target given
    · intro promised
      obtain ⟨a, u, copied⟩ := filled.mpr fun target given => promised target given used.2
      exact ⟨a, u, copied, (), _, rfl⟩
  · rename_i unused
    refine ⟨fun _ target given positive => ?_, fun _ => ⟨(), s, rfl⟩⟩
    exact absurd ⟨Option.isSome_of_mem given, positive⟩ unused

theorem readSecurityBlob_ok_iff (kalloc : Kalloc) (secBufLen : Nat) (s : Reading Neg) :
    (∃ n t, readSecurityBlob kalloc secBufLen s = (.ok n, t)) ↔
      secBufLen = 0 ∨ kalloc.alloc secBufLen ≠ none ∧ secBufLen ≤ s.mdp.rest.length := by
  unfold readSecurityBlob parseToken
  by_cases zero : secBufLen = 0
  · rw [if_pos zero]
    exact ⟨fun _ => .inl zero, fun _ => ⟨0, s, rfl⟩⟩
  rw [if_neg zero, or_iff_right zero]
  cases memory : kalloc.alloc secBufLen with
  | none =>
    rw [if_pos Option.isNone_none]
    refine ⟨fun ⟨n, t, run⟩ => ?_, fun enough => absurd rfl enough.1⟩
    cases run
  | some buf =>
    rw [if_neg (fun missing => Bool.noConfusion missing), bind_bind]
    constructor
    · rintro ⟨n, t, run⟩
      obtain ⟨token, u, copied, _⟩ := of_bind_eq_ok run
      exact ⟨Option.some_ne_none buf, (getMem_ok copied).1⟩
    · rintro ⟨_, enough⟩
      have whole : s.mdp.rest = s.mdp.rest.drop 0 := rfl
      obtain ⟨u, run, _⟩ := getMem_at whole (Nat.le_trans (Nat.zero_add secBufLen).le enough) _
      exact ⟨secBufLen, _, run⟩

/-! ## Misplaced payloads -/

theorem readOne_inPlace_iff (s : Reading Target) :
    let named := readOne.fields s.mdp.rest
    readOne.InPlace s ↔ ¬(Displaced 8 16 80 named s.mdp.rest ∧ ReadHead s.mdp.rest ∧
      (named.length = 0 ∨ UioFilled named.length s.state.auio (leftBehind 8 16 80 named s.mdp.rest))) := by
  intro named
  apply (readOne_reaches s).inPlace_iff
  have taken := readData_ok_iff named.length (s.advance (16 + skipDistance 8 80 named.offset))
  rwa [Reading.advance_rest, List.length_drop] at taken

theorem queryDir_inPlace_iff (s : Reading QueryDirRq) :
    let named := outputBufferFields s.mdp.rest
    queryDir.InPlace s ↔ ¬(Displaced 16 8 72 named s.mdp.rest ∧ OutputBufferHead (fun _ => true) s.mdp.rest ∧
      DirFilled s.state named.length (leftBehind 16 8 72 named s.mdp.rest)) := by
  intro named
  apply (queryDir_reaches s).inPlace_iff
  have taken := parseDirEntries_ok_iff
    (Reading.advance { s with state.retBufferLen := named.length } (8 + skipDistance 16 72 named.offset))
  rwa [Reading.advance_rest, List.length_drop] at taken

theorem securityBlob_inPlace_iff (kalloc : Kalloc) (s : Reading Neg) :
    let named := (securityBlob kalloc).fields s.mdp.rest
    (securityBlob kalloc).InPlace s ↔ ¬(Displaced 16 8 128 named s.mdp.rest ∧ 8 ≤ s.mdp.rest.length ∧
      (named.length = 0 ∨ kalloc.alloc named.length ≠ none ∧ named.length ≤ leftBehind 16 8 128 named s.mdp.rest)) := by
  intro named
  apply (securityBlob_reaches kalloc s).inPlace_iff
  have taken := readSecurityBlob_ok_iff kalloc named.length (s.advance (8 + skipDistance 16 128 named.offset))
  rwa [Reading.advance_rest, List.length_drop] at taken

/-- The payload of every reply is taken from the place it names, if it is not one of those whose offset is
below the end of the fixed part and that are long enough for the distance to which the subtraction wraps,
in the type of its field, and whose payload is then accepted at that other place. -/
theorem payload_in_place_iff {ν : Type} (env : QueryInfoEnv ν) (kalloc : Kalloc) (read : Reading Target)
    (dir : Reading QueryDirRq) (info : Reading (QueryInfoRq ν)) (notify : Reading Events) (neg : Reading Neg) :
    (let named := readOne.fields read.mdp.rest
     readOne.InPlace read ↔ ¬(Displaced 8 16 80 named read.mdp.rest ∧ ReadHead read.mdp.rest ∧
        (named.length = 0 ∨ UioFilled named.length read.state.auio (leftBehind 8 16 80 named read.mdp.rest)))) ∧
    (let named := outputBufferFields dir.mdp.rest
     queryDir.InPlace dir ↔ ¬(Displaced 16 8 72 named dir.mdp.rest ∧ OutputBufferHead (fun _ => true) dir.mdp.rest ∧
        DirFilled dir.state named.length (leftBehind 16 8 72 named dir.mdp.rest))) ∧
    (let named := outputBufferFields info.mdp.rest
     (queryInfo env).InPlace info ↔ ¬(Displaced 16 8 72 named info.mdp.rest ∧
        OutputBufferHead (· ≤ info.state.outputBufferLen) info.mdp.rest ∧
        ∃ a t, parseInfo env (Reading.advance { info with state.retBufferLen := named.length }
          (8 + skipDistance 16 72 named.offset)) = (.ok a, t))) ∧
    (let named := outputBufferFields notify.mdp.rest
     changeNotify.InPlace notify ↔ ¬(Displaced 16 8 72 named notify.mdp.rest ∧
        OutputBufferHead (fun _ => true) notify.mdp.rest ∧
        ∃ a t, parseNotifyEntries named.length
          (Reading.advance { notify with state := ∅ } (8 + skipDistance 16 72 named.offset)) = (.ok a, t))) ∧
    (let named := (securityBlob kalloc).fields neg.mdp.rest
     (securityBlob kalloc).InPlace neg ↔ ¬(Displaced 16 8 128 named neg.mdp.rest ∧ 8 ≤ neg.mdp.rest.length ∧
        (named.length = 0 ∨
          kalloc.alloc named.length ≠ none ∧ named.length ≤ leftBehind 16 8 128 named neg.mdp.rest))) := by
  refine ⟨readOne_inPlace_iff read, queryDir_inPlace_iff dir, ?_, ?_, securityBlob_inPlace_iff kalloc neg⟩
  · exact (queryInfo_reaches env info).inPlace_iff Iff.rfl
  · exact (changeNotify_reaches notify).inPlace_iff Iff.rfl

def withinHeader : Bytes :=
  toLe 2 17 ++ toLe 1 16 ++ [0] ++ toLe 4 1 ++ List.replicate 8 0 ++ List.replicate 192 0 ++ [7]

/-- The one byte of the payload is taken from 272 bytes after the start of the header. -/
theorem payload_out_of_place :
    let s : Reading Target := ⟨mdInitm [withinHeader], { auio := ⟨0, 0, 1⟩, stored := fun _ => none }⟩
    (smb2SmbParseReadOne s).1.toOption = some 1 ∧ (smb2SmbParseReadOne s).2.state.stored 0 = some 7 ∧
      (readOne.fields s.mdp.rest).offset = 16 ∧ ¬readOne.InPlace s := by
  refine ⟨by decide +kernel, by decide +kernel, by decide +kernel, fun inPlace => ?_⟩
  refine (readOne_inPlace_iff _).mp inPlace ⟨?_, ?_, ?_⟩
  · unfold Displaced
    decide +kernel
  · unfold ReadHead
    decide +kernel
  · unfold UioFilled
    decide +kernel

end SmbClient.Replies
