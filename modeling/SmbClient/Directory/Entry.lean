import SmbClient.Mbuf.Reader

/-! `smb2_smb_parse_query_dir_both_dir_info`: one entry of a Query Directory output buffer. -/

namespace SmbClient.Directory
open SmbClient.Lib SmbClient.Lib.Fallible SmbClient.Mbuf SmbClient.Mbuf.Reader

inductive InfoLevel
  | fullDirectory | bothDirectory | other
  deriving DecidableEq, Repr

inductive VType
  | reg | dir | lnk
  deriving DecidableEq, Repr

def smbEfaDirectory : Nat := 0x10
def smbEfaReparsePoint : Nat := 0x400
def ioReparseTagSymlink : Nat := 0xA000000C
def ioReparseTagReservedZero : Nat := 0
def saRightFileAllAccess : Nat := 0x1FF
def stdRightAllAccess : Nat := 0x1F0000
def kAAPLReadDirNoXattr : Nat := 1

inductive FinderInfo
  | folder (reserved1 flags extFlags dateAdded : Nat)
  | file (type creator flags extFlags dateAdded : Nat)
  deriving DecidableEq, Repr

structure Smbfattr where
  crtime : Nat := 0
  atime : Nat := 0
  mtime : Nat := 0
  chtime : Nat := 0
  size : Nat := 0
  dataAlloc : Nat := 0
  attr : Nat := 0
  vtype : VType := .reg
  vtypeValid : Bool := false
  reparseTag : Nat := 0
  reparseTagValid : Bool := false
  noSubstreams : Bool := false
  fstatusValid : Bool := false
  maxAccess : Nat := 0
  maxAccessValid : Bool := false
  rsrcSize : Nat := 0
  rsrcAlloc : Nat := 0
  rsrcForkValid : Bool := false
  finderInfo : Option FinderInfo := none
  permissions : Nat := 0
  unixModesValid : Bool := false
  ino : Nat := 0
  deriving DecidableEq, Repr

structure Found where
  fap : Smbfattr := {}
  networkName : Bytes := []
  networkNameLen : Nat := 0
  deriving DecidableEq, Repr

structure DirEnv where
  unixServer : Bool
  osxServer : Bool
  readDirAttr : Bool
  readDirAttrV2 : Bool
  unixBased : Bool
  smbTimeNT2local : Nat → Nat
  getAllocSize : Nat → Nat
  maxNetworkNameBufferSize : Nat

def updateAttr (f : Smbfattr → Smbfattr) : Reader Found Unit :=
  update fun found => { found with fap := f found.fap }

variable (env : DirEnv) (level : InfoLevel)

def getTime (set : Nat → Smbfattr → Smbfattr) : Reader Found Unit := do
  let llint ← getUint 8
  if llint ≠ 0 then updateAttr (set (env.smbTimeNT2local llint)) else pure ()

def getTimes : Reader Found Unit := do
  getTime env fun time fap => { fap with crtime := time }
  getTime env fun time fap => { fap with atime := time }
  getTime env fun time fap => { fap with mtime := time }
  getTime env fun time fap => { fap with chtime := time }

def getSizes : Reader Found Unit := do
  let size ← getUint 8
  updateAttr fun fap => { fap with size }
  let dataAlloc ← getUint 8
  updateAttr fun fap => { fap with dataAlloc }

def hasBit (word bit : Nat) : Bool := word &&& bit ≠ 0

def getAttr : Reader Found Unit := do
  let dattr ← getUint 4
  let isDir := hasBit dattr smbEfaDirectory
  updateAttr fun fap =>
    { fap with
      attr := dattr
      vtypeValid := fap.vtypeValid || env.unixServer || isDir
      vtype := if isDir then .dir else .reg }

def getEaSize : Reader Found Nat := do
  let eaSize ← getUint 4
  updateAttr fun fap =>
    if hasBit fap.attr smbEfaReparsePoint then
      if eaSize = ioReparseTagSymlink then
        { fap with reparseTagValid := true, reparseTag := eaSize, vtypeValid := true, vtype := .lnk }
      else { fap with reparseTagValid := true, reparseTag := eaSize }
    else { fap with reparseTagValid := true, reparseTag := ioReparseTagReservedZero }
  pure eaSize

def getFinderInfo : Reader Found Unit := do
  let found ← state
  if found.fap.vtype = .dir then do
    let reserved1 ← getUint 8
    let flags ← getUint 2
    let extFlags ← getUint 2
    let dateAdded ← getUint 4
    updateAttr fun fap => { fap with finderInfo := some (.folder reserved1 flags extFlags dateAdded) }
  else do
    let type ← getUint 4
    let creator ← getUint 4
    let flags ← getUint 2
    let extFlags ← getUint 2
    let dateAdded ← getUint 4
    updateAttr fun fap => { fap with finderInfo := some (.file type creator flags extFlags dateAdded) }

def getReadDirAttr (flags eaSize : Nat) : Reader Found Unit := do
  updateAttr fun fap =>
    { fap with
      noSubstreams := env.readDirAttrV2 && hasBit flags kAAPLReadDirNoXattr
      fstatusValid := env.readDirAttrV2
      maxAccess :=
        if hasBit fap.attr smbEfaReparsePoint then saRightFileAllAccess ||| stdRightAllAccess else eaSize
      maxAccessValid := true }
  let rsrcSize ← getUint 8
  updateAttr fun fap => { fap with rsrcSize, rsrcAlloc := env.getAllocSize rsrcSize, rsrcForkValid := true }
  getFinderInfo
  let unixMode ← getUint 2
  if env.unixBased ∧ unixMode ≠ 0 then
    updateAttr fun fap => { fap with permissions := unixMode, unixModesValid := true }
  else pure ()

def getShortName (level : InfoLevel) (eaSize : Nat) : Reader Found Unit :=
  if level = .fullDirectory then skip 4
  else do
    let flags ← getUint 2
    if env.osxServer ∧ (env.readDirAttr ∨ env.readDirAttrV2) then getReadDirAttr env flags eaSize
    else do
      skip 24
      skip 2

def fixedSize (level : InfoLevel) : Nat := 64 + 4 + (if level = .fullDirectory then 4 else 2 + 26) + 8

def recsz (level : InfoLevel) (next networkNameLen : Nat) : Nat :=
  if next ≠ 0 then next else (fixedSize level + networkNameLen) % 2 ^ 32

def padCount (level : InfoLevel) (next networkNameLen : Nat) : Nat :=
  (next + 2 ^ 33 - networkNameLen - fixedSize level) % 2 ^ 32

def endsInNull (name : Bytes) : Bool := 1 < name.length && name.drop (name.length - 2) == [0, 0]

def getPaddedName (clipped next pad : Nat) : Reader Found Unit := do
  update fun found => { found with networkNameLen := clipped }
  let name ← getMem clipped
  update fun found => { found with networkName := name }
  if next ≠ 0 then do
    require (pad < 2 ^ 31) .ebadrpc
    skip pad
  else pure ()
  let trimmed := if endsInNull name then clipped - 2 else clipped
  update fun found => { found with networkNameLen := trimmed }
  require (trimmed ≠ 0) .ebadrpc

def getName (level : InfoLevel) (next networkNameLen : Nat) : Reader Found Unit :=
  let clipped := min networkNameLen env.maxNetworkNameBufferSize
  getPaddedName clipped next (padCount level next clipped)

structure Record where
  fileIndex : Nat
  recsz : Nat
  lastEntry : Bool
  deriving DecidableEq, Repr

def smb2SmbParseQueryDirBothDirInfo (level : InfoLevel) : Reader Found Record := do
  let next ← getUint 4
  let fileIndex ← getUint 4
  getTimes env
  getSizes
  getAttr env
  let networkNameLen ← getUint 4
  update fun found => { found with networkNameLen }
  let eaSize ← getEaSize
  getShortName env level eaSize
  let ino ← getUint 8
  updateAttr fun fap => { fap with ino }
  getName env level next networkNameLen
  pure { fileIndex, recsz := recsz level next networkNameLen, lastEntry := next = 0 }

/-! ## The size of a record in the bytes of the buffer -/

def recordNext (data : Bytes) : Nat := ofLe (slice data 0 4)

def recordNameLen (data : Bytes) : Nat := ofLe (slice data 60 4)

def recordSize (level : InfoLevel) (data : Bytes) : Nat := recsz level (recordNext data) (recordNameLen data)

theorem recordSize_lt (data : Bytes) : recordSize level data < 2 ^ 32 := by
  unfold recordSize recsz
  split
  · exact ofLe_slice_lt data 0 4
  · exact Nat.mod_lt _ (by decide)

theorem getTime_fixed (set : Nat → Smbfattr → Smbfattr) : Fixed 8 (getTime env set) :=
  .bind (.getUint 8) fun _ => .ite (.update _) (.pure ())

theorem getTimes_fixed : Fixed 32 (getTimes env) :=
  .bind (getTime_fixed env _) fun _ => .bind (getTime_fixed env _) fun _ =>
    .bind (getTime_fixed env _) fun _ => getTime_fixed env _

theorem getSizes_fixed : Fixed 16 getSizes :=
  .bind (.getUint 8) fun _ => .bind (.update _) fun _ => .bind (.getUint 8) fun _ => .update _

theorem getAttr_fixed : Fixed 4 (getAttr env) := .bind (.getUint 4) fun _ => .update _

theorem getEaSize_fixed : Fixed 4 getEaSize := .bind (.getUint 4) fun _ => .bind (.update _) fun _ => .pure _

theorem getFinderInfo_fixed : Fixed 16 getFinderInfo := by
  refine Fixed.bind (n := 0) (m := 16) .state fun found => ?_
  apply Fixed.ite
  · exact .bind (.getUint 8) fun _ => .bind (.getUint 2) fun _ => .bind (.getUint 2) fun _ =>
      .bind (.getUint 4) fun _ => .update _
  · exact .bind (.getUint 4) fun _ => .bind (.getUint 4) fun _ => .bind (.getUint 2) fun _ =>
      .bind (.getUint 2) fun _ => .bind (.getUint 4) fun _ => .update _

theorem getReadDirAttr_fixed (flags eaSize : Nat) : Fixed 26 (getReadDirAttr env flags eaSize) := by
  refine Fixed.bind (n := 0) (m := 8 + (0 + (16 + 2))) (.update _) fun _ => ?_
  refine .bind (.getUint 8) fun _ => .bind (.update _) fun _ => .bind getFinderInfo_fixed fun _ => ?_
  exact .bind (.getUint 2) fun _ => .ite (.update _) (.pure ())

theorem getShortName_fixed (eaSize : Nat) :
    Fixed (if level = .fullDirectory then 4 else 2 + 26) (getShortName env level eaSize) := by
  unfold getShortName
  split
  · exact .skip 4
  · refine .bind (.getUint 2) fun flags => .ite (getReadDirAttr_fixed env flags eaSize) ?_
    exact .bind (.skip 24) fun _ => .skip 2

def nameSize (level : InfoLevel) (next clipped : Nat) : Nat :=
  clipped + if next ≠ 0 then padCount level next clipped else 0

theorem getName_local (next networkNameLen : Nat) :
    Local (nameSize level next (min networkNameLen env.maxNetworkNameBufferSize))
      (getName env level next networkNameLen) := by
  refine .of_eq (Nat.zero_add _) (.bind (Fixed.update _).taken fun _ => .bind (Fixed.getMem _).taken fun name => ?_)
  refine .of_eq (Nat.zero_add _) (.bind (Fixed.update _).taken fun _ => ?_)
  by_cases last : next = 0
  · rw [if_neg (not_not.mpr last), if_neg (not_not.mpr last)]
    exact .bind (Fixed.update _).taken fun _ => .require _ _
  · rw [if_pos last, if_pos last]
    refine .of_eq (Nat.zero_add _) (.bind (.require _ _) fun _ => ?_)
    refine .of_eq (Nat.add_zero _) (.bind (Fixed.skip _).taken fun _ => ?_)
    exact .bind (Fixed.update _).taken fun _ => .require _ _

variable {env : DirEnv} {level : InfoLevel} {next clipped : Nat} {s t : Reading Found}

theorem getName_name {networkNameLen : Nat} (run : getName env level next networkNameLen s = (.ok (), t)) :
    t.state.networkName = s.mdp.rest.take (min networkNameLen env.maxNetworkNameBufferSize) := by
  obtain ⟨_, s₁, cleared, rest⟩ := of_bind_eq_ok run
  cases cleared
  obtain ⟨name, s₂, gotMem, last⟩ := of_bind_eq_ok rest
  obtain ⟨-, named, -, -⟩ := getMem_ok gotMem
  let Named (found : Found) : Prop := found.networkName = name
  have same : ∀ found, Named found → Named found := fun _ holds => holds
  have keeps : ∀ u : Reading Found, Named u.state → Named u.state := fun _ holds => holds
  have trims (length : Nat) : Ensures (fun u : Reading Found => Named u.state)
      (do update fun found => { found with networkNameLen := length }; require (length ≠ 0) .ebadrpc)
      (fun u => Named u.state) :=
    .bind (ensures_update (P := Named) (Q := Named) fun _ holds => holds) (fun _ => ensures_require same _ _) keeps
  rw [← named, show t = _ from (congrArg Prod.snd last).symm]
  refine Ensures.bind (P := fun _ => True) (Q := fun u => Named u.state) (S := fun u => Named u.state)
    (ensures_update (P := fun _ => True) (Q := Named) ?_) (fun _ => ?_) keeps s₂ trivial
  · exact fun _ _ => rfl
  · apply Ensures.ite
    · intro _
      refine .bind (ensures_require same _ _) (fun _ => ?_) keeps
      exact .bind (ensures_skip same _) (fun _ => trims _) keeps
    · exact fun _ => trims _

theorem le_nameSize (follows : next ≠ 0) (small : next < 2 ^ 32) (short : clipped < 2 ^ 32)
    (level : InfoLevel) : next ≤ fixedSize level + nameSize level next clipped := by
  have fixed : fixedSize level ≤ 104 := by cases level <;> decide
  unfold nameSize padCount
  rw [if_pos follows]
  generalize fixedSize level = size at fixed ⊢
  omega

structure Parsed (env : DirEnv) (level : InfoLevel) (s : Reading Found) (r : Record) (t : Reading Found) : Prop where
  recsz : r.recsz = recordSize level s.mdp.rest
  last : r.lastEntry = true ↔ recordNext s.mdp.rest = 0
  name : t.state.networkName = (s.mdp.rest.drop (fixedSize level)).take
    (min (recordNameLen s.mdp.rest) env.maxNetworkNameBufferSize)
  taken : ∃ n, TakesFrom (smb2SmbParseQueryDirBothDirInfo env level) s n r t ∧
    (recordNext s.mdp.rest ≠ 0 → recordNext s.mdp.rest ≤ n)

theorem smb2SmbParseQueryDirBothDirInfo_parsed {r : Record}
    (parsed : smb2SmbParseQueryDirBothDirInfo env level s = (.ok r, t)) : Parsed env level s r t := by
  obtain ⟨next, s₁, gotNext, parsed⟩ := of_bind_eq_ok parsed
  obtain ⟨fileIndex, s₂, gotIndex, parsed⟩ := of_bind_eq_ok parsed
  obtain ⟨_, s₃, gotTimes, parsed⟩ := of_bind_eq_ok parsed
  obtain ⟨_, s₄, gotSizes, parsed⟩ := of_bind_eq_ok parsed
  obtain ⟨_, s₅, gotAttr, parsed⟩ := of_bind_eq_ok parsed
  obtain ⟨nameLen, s₆, gotLen, parsed⟩ := of_bind_eq_ok parsed
  obtain ⟨_, s₇, set, parsed⟩ := of_bind_eq_ok parsed
  obtain ⟨eaSize, s₈, gotEa, parsed⟩ := of_bind_eq_ok parsed
  obtain ⟨_, s₉, gotShort, parsed⟩ := of_bind_eq_ok parsed
  obtain ⟨ino, s₁₀, gotIno, parsed⟩ := of_bind_eq_ok parsed
  obtain ⟨_, s₁₁, setIno, parsed⟩ := of_bind_eq_ok parsed
  obtain ⟨_, s₁₂, gotName, parsed⟩ := of_bind_eq_ok parsed
  have tookNext := (Fixed.getUint 4).taken _ _ _ gotNext
  have tookIndex := (Fixed.getUint 4).taken _ _ _ gotIndex
  have tookTimes := (getTimes_fixed env).taken _ _ _ gotTimes
  have tookSizes := getSizes_fixed.taken _ _ _ gotSizes
  have tookAttr := (getAttr_fixed env).taken _ _ _ gotAttr
  have tookLen := (Fixed.getUint 4).taken _ _ _ gotLen
  have tookNone := (Fixed.update _).taken _ _ _ set
  have tookEa := getEaSize_fixed.taken _ _ _ gotEa
  have tookShort := (getShortName_fixed env level eaSize).taken _ _ _ gotShort
  have tookIno := (Fixed.getUint 8).taken _ _ _ gotIno
  have tookNone' := (Fixed.update _).taken _ _ _ setIno
  have tookName := getName_local env level _ _ _ _ _ gotName
  have toLen : s₅.mdp.rest = s.mdp.rest.drop 60 := by
    rw [tookAttr.rest, tookSizes.rest, tookTimes.rest, tookIndex.rest, tookNext.rest]
    simp only [List.drop_drop]
  have toName : s₁₁.mdp.rest = s.mdp.rest.drop (fixedSize level) := by
    rw [tookNone'.rest, tookIno.rest, tookShort.rest, tookEa.rest, tookNone.rest, tookLen.rest, toLen]
    simp only [List.drop_drop, fixedSize, Nat.add_zero, Nat.reduceAdd]
  have nextEq : next = recordNext s.mdp.rest := (getUint_ok gotNext).2.1
  have lenEq : nameLen = recordNameLen s.mdp.rest := by
    rw [(getUint_ok gotLen).2.1, toLen]
    rfl
  obtain ⟨rfl, rfl⟩ := of_pure_eq_ok parsed
  have whole : TakesFrom (smb2SmbParseQueryDirBothDirInfo env level) s _ _ s₁₂ :=
    tookNext.bind <| tookIndex.bind <| tookTimes.bind <| tookSizes.bind <| tookAttr.bind <| tookLen.bind <|
      tookNone.bind <| tookEa.bind <| tookShort.bind <| tookIno.bind <| tookNone'.bind <| tookName.bind <|
      Local.pure _ _ _ _ rfl
  refine ⟨?_, ?_, ?_, _, whole, ?_⟩
  · simp only [recordSize, ← nextEq, ← lenEq]
  · simp only [← nextEq, decide_eq_true_eq]
  · rw [getName_name gotName, toName, lenEq]
  · rw [← nextEq]
    intro follows
    have bound : next < 2 ^ 32 := nextEq ▸ ofLe_slice_lt s.mdp.rest 0 4
    have clipped : min nameLen env.maxNetworkNameBufferSize < 2 ^ 32 :=
      Nat.lt_of_le_of_lt (Nat.min_le_left _ _) (lenEq ▸ ofLe_slice_lt s.mdp.rest 60 4)
    have reaches := le_nameSize follows bound clipped level
    unfold fixedSize at reaches
    omega

theorem smb2SmbParseQueryDirBothDirInfo_ok {r : Record}
    (parsed : smb2SmbParseQueryDirBothDirInfo env level s = (.ok r, t)) :
    r.recsz = recordSize level s.mdp.rest ∧ (r.lastEntry = true ↔ recordNext s.mdp.rest = 0) :=
  have parsed := smb2SmbParseQueryDirBothDirInfo_parsed parsed
  ⟨parsed.recsz, parsed.last⟩

/-! ## Well formed entries -/

def nameLength (env : DirEnv) (entry : Bytes) : Nat := min (recordNameLen entry) env.maxNetworkNameBufferSize

def entryName (env : DirEnv) (level : InfoLevel) (entry : Bytes) : Bytes :=
  (entry.drop (fixedSize level)).take (nameLength env entry)

/-- The entry has all its fields and its name, which is not empty, and if another entry follows it says how long it
is. -/
structure WellFormed (env : DirEnv) (level : InfoLevel) (entry : Bytes) : Prop where
  whole : fixedSize level + nameLength env entry ≤ entry.length
  follows : recordNext entry ≠ 0 → fixedSize level + nameLength env entry ≤ recordNext entry ∧
    recordNext entry ≤ entry.length ∧ recordNext entry < 2 ^ 31
  trimmed : (if endsInNull (entryName env level entry) then nameLength env entry - 2 else nameLength env entry) ≠ 0

theorem getPaddedName_succeeds {pad : Nat} (enough : clipped ≤ s.mdp.rest.length)
    (padded : next ≠ 0 → pad < 2 ^ 31 ∧ pad ≤ s.mdp.rest.length - clipped)
    (named : (if endsInNull (s.mdp.rest.take clipped) then clipped - 2 else clipped) ≠ 0) :
    ∃ t, getPaddedName clipped next pad s = (.ok (), t) := by
  unfold getPaddedName
  dsimp only
  rw [update_bind]
  obtain ⟨name, u, got⟩ := (Fixed.getMem _).succeeds ⟨s.mdp, { s.state with networkNameLen := clipped }⟩ enough
  obtain ⟨-, rfl, after, -⟩ := getMem_ok got
  rw [bind_of_ok got, update_bind]
  by_cases last : next = 0
  · rw [if_neg (not_not.mpr last), update_bind, require, if_pos named]
    exact ⟨_, rfl⟩
  · obtain ⟨fits, room⟩ := padded last
    rw [if_pos last, require_bind fits]
    have left : pad ≤ u.mdp.rest.length := by
      rw [after, List.length_drop]
      exact room
    obtain ⟨_, v, skipped⟩ :=
      (Fixed.skip pad).succeeds ⟨u.mdp, { u.state with networkName := s.mdp.rest.take clipped }⟩ left
    rw [bind_of_ok skipped, update_bind, require, if_pos named]
    exact ⟨_, rfl⟩

instance (env : DirEnv) (level : InfoLevel) (entry : Bytes) : Decidable (WellFormed env level entry) :=
  decidable_of_iff (_ ∧ _ ∧ _) ⟨fun ⟨whole, follows, trimmed⟩ => ⟨whole, follows, trimmed⟩,
    fun wellFormed => ⟨wellFormed.whole, wellFormed.follows, wellFormed.trimmed⟩⟩

theorem padCount_of_le (covered : fixedSize level + clipped ≤ next)
    (small : next < 2 ^ 31) : padCount level next clipped = next - (fixedSize level + clipped) := by
  unfold padCount
  generalize fixedSize level = size at covered ⊢
  omega

theorem WellFormed.accepted (wellFormed : WellFormed env level s.mdp.rest) :
    ∃ r t, smb2SmbParseQueryDirBothDirInfo env level s = (.ok r, t) := by
  generalize entry : s.mdp.rest = data at wellFormed
  have whole := wellFormed.whole
  have fixed : 76 + (if level = .fullDirectory then 4 else 2 + 26) = fixedSize level := by
    unfold fixedSize
    omega
  unfold smb2SmbParseQueryDirBothDirInfo
  obtain ⟨next, s₁, run, gotNext, at₁⟩ := (Fixed.getUint 4).bind_at (entry.trans List.drop_zero.symm) (by omega) _
  rw [run]
  obtain ⟨_, s₂, run, -, at₂⟩ := (Fixed.getUint 4).bind_at at₁ (by omega) _
  rw [run]
  obtain ⟨_, s₃, run, -, at₃⟩ := (getTimes_fixed env).bind_at at₂ (by omega) _
  rw [run]
  obtain ⟨_, s₄, run, -, at₄⟩ := getSizes_fixed.bind_at at₃ (by omega) _
  rw [run]
  obtain ⟨_, s₅, run, -, at₅⟩ := (getAttr_fixed env).bind_at at₄ (by omega) _
  rw [run]
  obtain ⟨nameLen, s₆, run, gotLen, at₆⟩ := (Fixed.getUint 4).bind_at at₅ (by omega) _
  rw [run]
  obtain ⟨_, s₇, run, -, at₇⟩ := (Fixed.update _).bind_at at₆ (by omega) _
  rw [run]
  obtain ⟨eaSize, s₈, run, -, at₈⟩ := getEaSize_fixed.bind_at at₇ (by omega) _
  rw [run]
  obtain ⟨_, s₉, run, -, at₉⟩ := (getShortName_fixed env level eaSize).bind_at at₈ (by omega) _
  rw [run]
  obtain ⟨_, s₁₀, run, -, at₁₀⟩ := (Fixed.getUint 8).bind_at at₉ (by omega) _
  rw [run]
  obtain ⟨_, s₁₁, run, -, at₁₁⟩ := (Fixed.update _).bind_at at₁₀ (by omega) _
  rw [updateAttr, run]
  have nextEq : next = recordNext data := by
    rw [(getUint_ok gotNext).2.1, entry]
    rfl
  have lenEq : nameLen = recordNameLen data := by
    rw [(getUint_ok gotLen).2.1, at₅]
    rfl
  have place : s₁₁.mdp.rest = data.drop (fixedSize level) := by
    rw [at₁₁]
    congr 1
  have length : s₁₁.mdp.rest.length = data.length - fixedSize level := by rw [place, List.length_drop]
  have accepted : ∃ t, getName env level next nameLen s₁₁ = (.ok (), t) := by
    rw [getName, lenEq, nextEq]
    apply getPaddedName_succeeds
    · rw [length]
      exact Nat.le_sub_of_add_le' whole
    · intro another
      obtain ⟨covered, present, small⟩ := wellFormed.follows another
      have pad := padCount_of_le covered small
      unfold nameLength at pad covered
      rw [pad, length]
      omega
    · rw [place]
      exact wellFormed.trimmed
  obtain ⟨t, got⟩ := accepted
  rw [bind_of_ok got]
  exact ⟨_, _, rfl⟩

end SmbClient.Directory
