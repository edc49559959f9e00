import SmbClient.Mbuf.Reader

/-! The replies to reads and writes: `smb2_smb_parse_read_one` and `smb2_smb_parse_write_one`. -/

namespace SmbClient.ReadWrite
open SmbClient.Lib SmbClient.Mbuf SmbClient.Mbuf.Reader

structure Uio where
  pos : Nat
  offset : Nat
  resid : Nat
  deriving DecidableEq, Repr

def smbfsUioUpdate (uio : Uio) (length : Nat) : Uio where
  pos := uio.pos + min length uio.resid
  offset := uio.offset + min length uio.resid
  resid := uio.resid - length

abbrev Stored := Nat → Option UInt8

def Stored.put (stored : Stored) (pos : Nat) (data : Bytes) : Stored := fun k =>
  if pos ≤ k ∧ k < pos + data.length then data[k - pos]? else stored k

structure Target where
  auio : Uio
  stored : Stored

def uiomove (data : Bytes) (target : Target) : Target where
  auio := smbfsUioUpdate target.auio data.length
  stored := target.stored.put target.auio.pos (data.take target.auio.resid)

def mdGetUioLoop : Chain → Nat → Target → Except Errno Unit × Target
  | [], size, target =>
    if size = 0 ∨ target.auio.resid = 0 then (.ok (), target) else (.error .ebadrpc, target)
  | m :: rest, size, target =>
    if size = 0 ∨ target.auio.resid = 0 then (.ok (), target)
    else mdGetUioLoop rest (size - m.length) (uiomove (m.take size) target)

def mdGetUio (size : Nat) : Reader Target Unit := fun s =>
  let r := mdGetUioLoop s.mdp.unread (Int.bmod size (2 ^ 32)).toNat s.state
  (r.1, { s with state := r.2 })

def skipToData (dataOffset : Nat) : Reader Target Unit :=
  if dataOffset > 0 then skip ((dataOffset + (2 ^ 8 - 64) + (2 ^ 8 - 16)) % 2 ^ 8) else pure ()

def smb2SmbParseReadOne : Reader Target Nat := do
  let length ← getUint 2
  require (length = 17) .ebadrpc
  let dataOffset ← getUint 1
  let _ ← getUint 1
  let retLen ← getUint 4
  let _ ← getUint 4
  let _ ← getUint 4
  skipToData dataOffset
  if retLen = 0 then pure 0
  else do
    mdGetUio retLen
    pure retLen

def smb2SmbParseWriteOne : Reader Unit Nat := do
  let length ← getUint 2
  require (length = 17) .ebadrpc
  let _ ← getUint 2
  let retLen ← getUint 4
  let _ ← getUint 4
  let _ ← getUint 4
  pure retLen

theorem uiomove_of_full {target : Target} (full : target.auio.resid = 0) (data : Bytes) :
    uiomove data target = target := by
  obtain ⟨⟨pos, offset, resid⟩, stored⟩ := target
  cases full
  have unchanged : stored.put pos [] = stored := by
    funext k
    exact if_neg (by rw [List.length_nil]; omega)
  simp [uiomove, smbfsUioUpdate, unchanged]

theorem uiomove_nil (target : Target) : uiomove [] target = target := by
  have unchanged : target.stored.put target.auio.pos [] = target.stored := by
    funext k
    exact if_neg (by rw [List.length_nil]; omega)
  simp [uiomove, smbfsUioUpdate, unchanged]

theorem Stored.put_put (stored : Stored) (pos : Nat) (a b : Bytes) :
    (stored.put pos a).put (pos + a.length) b = stored.put pos (a ++ b) := by
  funext k
  simp only [Stored.put, List.length_append]
  rcases Nat.lt_or_ge k (pos + a.length) with front | back
  · rw [if_neg (by omega)]
    by_cases low : pos ≤ k
    · rw [if_pos ⟨low, front⟩, if_pos ⟨low, by omega⟩, List.getElem?_append_left (by omega)]
    · rw [if_neg (fun inside => low inside.1), if_neg (fun inside => low inside.1)]
  · rw [if_neg (c := pos ≤ k ∧ k < pos + a.length) (by omega)]
    by_cases high : k < pos + a.length + b.length
    · rw [if_pos ⟨back, high⟩, if_pos ⟨by omega, by omega⟩, List.getElem?_append_right (by omega)]
      congr 1
      omega
    · rw [if_neg (by omega), if_neg (by omega)]

theorem uiomove_append (a b : Bytes) (target : Target) : uiomove (a ++ b) target = uiomove b (uiomove a target) := by
  rcases Nat.lt_or_ge a.length target.auio.resid with room | full
  · obtain ⟨⟨pos, offset, resid⟩, stored⟩ := target
    replace room : a.length < resid := room
    have whole : a.take resid = a := List.take_of_length_le room.le
    simp only [uiomove, smbfsUioUpdate, List.length_append, Nat.min_eq_left room.le, List.take_append, whole,
      Stored.put_put, Target.mk.injEq, Uio.mk.injEq, and_true]
    omega
  · have first : uiomove (a ++ b) target = uiomove a target := by
      simp only [uiomove, smbfsUioUpdate, List.length_append, List.take_append_of_le_length full, Target.mk.injEq,
        Uio.mk.injEq, and_true]
      omega
    have nothing : (uiomove a target).auio.resid = 0 := Nat.sub_eq_zero_of_le full
    rw [first, uiomove_of_full nothing]

theorem mdGetUioLoop_eq (unread : Chain) (size : Nat) (target : Target) (enough : size ≤ (bytes unread).length) :
    mdGetUioLoop unread size target = (.ok (), uiomove ((bytes unread).take size) target) := by
  induction unread generalizing size target with
  | nil =>
    cases Nat.le_zero.mp enough
    rw [mdGetUioLoop, if_pos (.inl rfl), bytes_nil, List.take_nil, uiomove_nil]
  | cons m rest ih =>
    rw [bytes_cons, List.length_append] at enough
    unfold mdGetUioLoop
    split
    · rename_i stops
      rcases stops with rfl | full
      · rw [List.take_zero, uiomove_nil]
      · rw [uiomove_of_full full]
    · rw [ih _ _ (by omega), bytes_cons, List.take_append, uiomove_append]

structure ReadRsp where
  hdr : Bytes
  reserved1 : UInt8
  dataRemaining : Nat
  reserved2 : Nat
  padding : Bytes
  data : Bytes
  hdr_length : hdr.length = 64
  padding_length : 80 + padding.length ≤ 255

namespace ReadRsp

def body (rsp : ReadRsp) : Bytes :=
  toLe 2 17 ++ (toLe 1 (80 + rsp.padding.length) ++ ([rsp.reserved1] ++ (toLe 4 rsp.data.length ++
    (toLe 4 rsp.dataRemaining ++ (toLe 4 rsp.reserved2 ++ (rsp.padding ++ rsp.data))))))

def bytes (rsp : ReadRsp) : Bytes := rsp.hdr ++ rsp.body

theorem length_bytes (rsp : ReadRsp) : rsp.bytes.length = 80 + rsp.padding.length + rsp.data.length := by
  simp only [bytes, body, List.length_append, length_toLe, rsp.hdr_length, List.length_singleton]
  omega

end ReadRsp

variable {s : Reading Target}

theorem mdGetUio_ok {data : Bytes} (rest : s.mdp.rest = data) (small : data.length < 2 ^ 31) :
    mdGetUio data.length s = (.ok (), { s with state := uiomove data s.state }) := by
  have size : (Int.bmod data.length (2 ^ 32)).toNat = data.length := by
    rw [Int.bmod_eq_of_le (by omega) (by omega), Int.toNat_natCast]
  have whole : (bytes s.mdp.unread).take data.length = data := by
    rw [← rest]
    exact List.take_length
  unfold mdGetUio
  rw [size, mdGetUioLoop_eq _ _ _ (Nat.le_of_eq (congrArg List.length rest.symm)), whole]

theorem skipToData_bind {β : Type} {padding tail : Bytes} (rest : s.mdp.rest = padding ++ tail)
    (small : 80 + padding.length ≤ 255) (f : Unit → Reader Target β) :
    ∃ t, (skipToData (80 + padding.length) >>= f) s = f () t ∧ t.mdp.rest = tail ∧ t.state = s.state := by
  have distance : (80 + padding.length + (2 ^ 8 - 64) + (2 ^ 8 - 16)) % 2 ^ 8 = padding.length := by omega
  unfold skipToData
  rw [if_pos (by omega), distance]
  exact skip_append rest f

theorem smb2SmbParseReadOne_readRsp {rsp : ReadRsp} (rest : s.mdp.rest = rsp.body)
    (present : rsp.data ≠ []) (small : rsp.data.length < 2 ^ 31) :
    ∃ t, smb2SmbParseReadOne s = (.ok rsp.data.length, t) ∧ t.state = uiomove rsp.data s.state := by
  have offset := rsp.padding_length
  obtain ⟨a, toA, rest, sameA⟩ := getUint_toLe rest (by decide) _
  obtain ⟨b, toB, rest, sameB⟩ := getUint_toLe rest (by omega) _
  obtain ⟨c, toC, rest, sameC⟩ := getUint_append rest List.length_singleton _
  obtain ⟨d, toD, rest, sameD⟩ := getUint_toLe rest (by omega) _
  obtain ⟨e, toE, rest, sameE⟩ := getUint_append rest (length_toLe 4 _) _
  obtain ⟨f, toF, rest, sameF⟩ := getUint_append rest (length_toLe 4 _) _
  obtain ⟨g, toG, rest, sameG⟩ := skipToData_bind rest offset _
  have unread : rsp.data.length ≠ 0 := mt List.length_eq_zero_iff.mp present
  have moved := mdGetUio_ok rest small
  refine ⟨{ g with state := uiomove rsp.data g.state }, ?_, ?_⟩
  · unfold smb2SmbParseReadOne
    rw [toA, require_bind rfl, toB, toC, toD, toE, toF, toG, if_neg unread, Fallible.bind_of_ok moved]
    rfl
  · rw [sameG, sameF, sameE, sameD, sameC, sameB, sameA]

end SmbClient.ReadWrite
