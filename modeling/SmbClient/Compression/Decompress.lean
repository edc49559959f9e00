import SmbClient.Compression.Codec
import SmbClient.Lib.Buffer
import SmbClient.Lib.Traced
import SmbClient.Mbuf.MdChain
import SmbClient.Session.State

/-!
`smb2_rq_decompress_read`, with a record of every copy it makes. Memory for mbufs is taken to be
available, so that `mb_init` and `mb_put_mem` do not fail.
-/

namespace SmbClient.Compression
open SmbClient.Lib SmbClient.Lib.Traced SmbClient.Mbuf SmbClient.Session

inductive Area
  | compressed | decompressed | smb2Hdr | output
  deriving DecidableEq, Repr

structure Copy where
  area : Area
  off : Nat
  len : Nat
  size : Nat
  deriving DecidableEq, Repr

def Fits (off len size : Nat) : Prop := len = 0 ∨ off + len ≤ size

instance (off len size : Nat) : Decidable (Fits off len size) := inferInstanceAs (Decidable (_ ∨ _))

def Copy.InBounds (copy : Copy) : Prop := Fits copy.off copy.len copy.size

instance (copy : Copy) : Decidable copy.InBounds := inferInstanceAs (Decidable (Fits _ _ _))

abbrev Copying := Traced Copy Errno

structure Decoder where
  codec : Codec
  kalloc : Kalloc
  chainedCompress : Bool
  compressionLog : Bool
  replyLen : Nat
  originalCompressedSegmentSize : Nat

structure Progress where
  mdp : MdChain
  out : Bytes := []
  currentDecompressedDataSize : Nat := 0
  readSmbHdr : Bool := false

def hdrLen : Nat := 64

namespace Decoder
variable (d : Decoder)

def remaining (s : Progress) : Nat := d.originalCompressedSegmentSize - s.currentDecompressedDataSize

def putMem (offset : Nat) (data : Bytes) (s : Progress) : Copying Progress := do
  emit ⟨.output, s.out.length, data.length, d.originalCompressedSegmentSize + offset⟩
  pure { s with out := s.out ++ data }

def getMemInto (area : Area) (room : Nat) (mdp : MdChain) (size : Nat) : Copying (Bytes × MdChain) := do
  emit ⟨area, 0, (mdGetMem mdp size).target.length, room⟩
  lift (getMem mdp size)

def mdGetMemPutMem (offset size : Nat) (s : Progress) : Copying Progress := do
  let fetch := mdGetMem s.mdp size
  let s ← d.putMem offset fetch.target { s with mdp := fetch.mdp }
  match fetch.error with
  | none => pure s
  | some error => fail error

def putUncompressed (offset : Nat) (readHdr : Bool) (compressLen : Nat) (s : Progress) : Copying Progress :=
  if d.compressionLog && readHdr && decide (hdrLen < compressLen) then do
    let (hdr, mdp) ← getMemInto .smb2Hdr hdrLen s.mdp hdrLen
    let s ← d.putMem offset hdr { s with mdp, readSmbHdr := true }
    d.mdGetMemPutMem offset (compressLen - hdrLen) s
  else d.mdGetMemPutMem offset compressLen s

end Decoder

def payloadFields (mdp : MdChain) : Except Errno (Nat × Nat × MdChain) := do
  let (algorithm, mdp) ← mdGetUint16le mdp
  let (_flags, mdp) ← mdGetUint16le mdp
  let (word, mdp) ← mdGetUint32le mdp
  return (algorithm, word, mdp)

def patternFields (mdp : MdChain) : Except Errno (Nat × Nat × MdChain) := do
  let (patternChar, mdp) ← mdGetUint8 mdp
  let (_reserved1, mdp) ← mdGetUint8 mdp
  let (_reserved2, mdp) ← mdGetUint16le mdp
  let (patternRepetitions, mdp) ← mdGetUint32le mdp
  return (patternChar, patternRepetitions, mdp)

namespace Decoder
variable (d : Decoder)

def chainedHeader (word : Nat) (s : Progress) : Copying Progress :=
  if mdGetSize s.mdp < word then fail .e2big else pure s

def nonchainedHeader (offset : Nat) (s : Progress) : Copying Progress :=
  if d.remaining s < offset then fail .einval
  else if offset = 0 then pure s
  else d.putUncompressed offset true offset s

def nonePayload (offset compressLen : Nat) (s : Progress) : Copying Progress :=
  if d.remaining s < compressLen then fail .einval
  else do
    let s ← d.putUncompressed offset (!s.readSmbHdr) compressLen s
    pure { s with currentDecompressedDataSize := s.currentDecompressedDataSize + compressLen }

def patternPayload (offset : Nat) (s : Progress) : Copying Progress := do
  let (patternChar, patternRepetitions, mdp) ← lift (patternFields s.mdp)
  if d.remaining s < patternRepetitions then fail .einval
  else do
    emit ⟨.compressed, 0, patternRepetitions, d.originalCompressedSegmentSize⟩
    let s ← d.putMem offset (List.replicate patternRepetitions (UInt8.ofNat patternChar)) { s with mdp }
    pure { s with currentDecompressedDataSize := s.currentDecompressedDataSize + patternRepetitions }

def codecLengths (offset compressLen : Nat) (s : Progress) : Except Errno (Nat × Nat × MdChain) :=
  if d.chainedCompress then do
    let (originalPayloadSize, mdp) ← mdGetUint32le s.mdp
    if d.remaining s < originalPayloadSize then .error .einval
    else if compressLen ≤ 4 then .error .einval
    else .ok (compressLen - 4, originalPayloadSize, mdp)
  else
    let compressLen := d.replyLen % 2 ^ 32
    if compressLen < offset then .error .einval
    else if compressLen - offset < 16 then .error .einval
    else .ok (compressLen - offset - 16, d.originalCompressedSegmentSize, s.mdp)

def codecPayload (method : Method) (offset compressLen : Nat) (s : Progress) : Copying Progress := do
  let (compressLen, dataLen, mdp) ← lift (d.codecLengths offset compressLen s)
  let (compressed, mdp) ← getMemInto .compressed d.originalCompressedSegmentSize mdp compressLen
  emit ⟨.decompressed, 0, dataLen, d.originalCompressedSegmentSize⟩
  let data ← lift (d.codec.smb2DecompressData d.kalloc method compressed dataLen)
  if data.length ≠ dataLen then fail .einval
  else do
    let readSmbHdr := s.readSmbHdr || (d.compressionLog && decide (hdrLen < data.length))
    let s ← d.putMem offset data { s with mdp, readSmbHdr }
    pure { s with currentDecompressedDataSize := s.currentDecompressedDataSize + dataLen }

def payload (algorithm offset compressLen : Nat) (s : Progress) : Copying Progress :=
  match Algorithm.ofWire algorithm with
  | none => fail .einval
  | some .none => d.nonePayload offset compressLen s
  | some .patternV1 => d.patternPayload offset s
  | some (.codec method) => d.codecPayload method offset compressLen s

def pass (s : Progress) : Copying Progress := do
  let (algorithm, word, mdp) ← lift (payloadFields s.mdp)
  if d.chainedCompress then do
    let s ← chainedHeader word { s with mdp }
    d.payload algorithm 0 word s
  else do
    let s ← d.nonchainedHeader word { s with mdp }
    d.payload algorithm word word s

def unfinished (s : Progress) : Bool := decide (s.currentDecompressedDataSize < d.originalCompressedSegmentSize)

def decompress (s : Progress) : Copying Bytes := do
  let s ← loop d.unfinished d.pass (mdGetSize s.mdp + 1) s
  if s.currentDecompressedDataSize ≠ d.originalCompressedSegmentSize then fail .einval
  else pure s.out

end Decoder

def decompressStart (codec : Codec) (kalloc : Kalloc) (compressionLog : Bool) (sessionp : SmbSession)
    (m : Chain) : Except Errno (Decoder × Progress) := do
  let (_protocolId, mdp) ← mdGetUint32le (mdInitm m)
  let (originalCompressedSegmentSize, mdp) ← mdGetUint32le mdp
  if kDefaultMaxIOSize < originalCompressedSegmentSize then .error .e2big
  else
    match kalloc.alloc (originalCompressedSegmentSize * 2) with
    | none => .error .enomem
    | some _ =>
      let replyLen := mbufGetChainLen m
      let chainedCompress := !sessionp.compressionChainingOff
      .ok (⟨codec, kalloc, chainedCompress, compressionLog, replyLen, originalCompressedSegmentSize⟩, { mdp })

def smb2RqDecompressRead (codec : Codec) (kalloc : Kalloc) (compressionLog : Bool) (sessionp : SmbSession)
    (m : Chain) : Copying (Option Bytes) :=
  if !sessionp.dialect.smb3OrLater || decide (sessionp.serverCompressionAlgorithmsMap = 0) then pure none
  else do
    let (d, s) ← lift (decompressStart codec kalloc compressionLog sessionp m)
    let out ← d.decompress s
    pure (some out)

theorem payloadFields_ok {mdp : MdChain} (enough : 8 ≤ mdp.rest.length) :
    ∃ next, payloadFields mdp = .ok (ofLe (slice mdp.rest 0 2), ofLe (slice mdp.rest 4 4), next) ∧
      next.rest = mdp.rest.drop 8 := by
  have first : 2 ≤ mdp.rest.length := by omega
  have second : 2 ≤ mdp.rest.length - 2 := by omega
  have third : 4 ≤ mdp.rest.length - (2 + 2) := by omega
  refine ⟨(mdGetMem (mdGetMem (mdGetMem mdp 2).mdp 2).mdp 4).mdp, ?_, ?_⟩
  · simp [payloadFields, mdGetUint16le, mdGetUint32le, getUintLe_eq, mdGetMem_rest, first, second, third,
      slice, Bind.bind, Except.bind, Pure.pure, Except.pure]
  · simp [mdGetMem_rest]

theorem payloadFields_eq_ok {mdp next : MdChain} {algorithm word : Nat}
    (read : payloadFields mdp = .ok (algorithm, word, next)) :
    8 ≤ mdp.rest.length ∧ algorithm = ofLe (slice mdp.rest 0 2) ∧ word = ofLe (slice mdp.rest 4 4) ∧
      next.rest = mdp.rest.drop 8 := by
  simp only [payloadFields, except_bind_eq_ok] at read
  obtain ⟨⟨_, mdp1⟩, first, ⟨_, mdp2⟩, second, ⟨_, mdp3⟩, third, done⟩ := read
  cases done
  obtain ⟨_, rfl, rest1⟩ := getUintLe_eq_ok first
  obtain ⟨_, -, rest2⟩ := getUintLe_eq_ok second
  obtain ⟨enough, rfl, rest3⟩ := getUintLe_eq_ok third
  rw [rest1, List.drop_drop] at rest2
  rw [rest2, List.length_drop] at enough
  rw [rest2, List.drop_drop] at rest3
  exact ⟨by omega, rfl, by rw [rest2]; rfl, rest3⟩

theorem patternFields_ok {mdp : MdChain} (enough : 8 ≤ mdp.rest.length) :
    ∃ next, patternFields mdp = .ok (ofLe (slice mdp.rest 0 1), ofLe (slice mdp.rest 4 4), next) ∧
      next.rest = mdp.rest.drop 8 := by
  have first : 1 ≤ mdp.rest.length := by omega
  have second : 1 ≤ mdp.rest.length - 1 := by omega
  have third : 2 ≤ mdp.rest.length - (1 + 1) := by omega
  have fourth : 4 ≤ mdp.rest.length - (1 + (1 + 2)) := by omega
  refine ⟨(mdGetMem (mdGetMem (mdGetMem (mdGetMem mdp 1).mdp 1).mdp 2).mdp 4).mdp, ?_, ?_⟩
  · simp [patternFields, mdGetUint8, mdGetUint16le, mdGetUint32le, getUintLe_eq, mdGetMem_rest, first, second,
      third, fourth, slice, Bind.bind, Except.bind, Pure.pure, Except.pure]
  · simp [mdGetMem_rest]

theorem patternFields_eq_ok {mdp next : MdChain} {patternChar repetitions : Nat}
    (read : patternFields mdp = .ok (patternChar, repetitions, next)) :
    8 ≤ mdp.rest.length ∧ patternChar = ofLe (slice mdp.rest 0 1) ∧
      repetitions = ofLe (slice mdp.rest 4 4) ∧ next.rest = mdp.rest.drop 8 := by
  simp only [patternFields, except_bind_eq_ok] at read
  obtain ⟨⟨_, mdp1⟩, first, ⟨_, mdp2⟩, second, ⟨_, mdp3⟩, third, ⟨_, mdp4⟩, fourth, done⟩ := read
  cases done
  obtain ⟨_, rfl, rest1⟩ := getUintLe_eq_ok first
  obtain ⟨_, -, rest2⟩ := getUintLe_eq_ok second
  obtain ⟨_, -, rest3⟩ := getUintLe_eq_ok third
  obtain ⟨enough, rfl, rest4⟩ := getUintLe_eq_ok fourth
  rw [rest1, List.drop_drop] at rest2
  rw [rest2, List.drop_drop] at rest3
  rw [rest3, List.length_drop] at enough
  rw [rest3, List.drop_drop] at rest4
  exact ⟨by omega, rfl, by rw [rest3]; rfl, rest4⟩

def Progress.algorithm (s : Progress) : Nat := ofLe (slice s.mdp.rest 0 2)

def Progress.word (s : Progress) : Nat := ofLe (slice s.mdp.rest 4 4)

def Decoder.offsetBytes (d : Decoder) (s : Progress) : Nat := if d.chainedCompress then 0 else s.word

namespace Decoder
variable (d : Decoder) (offset : Nat) (s : Progress)

theorem remaining_le : d.remaining s ≤ d.originalCompressedSegmentSize := Nat.sub_le _ _

theorem result_putMem (data : Bytes) :
    (d.putMem offset data s).result = .ok { s with out := s.out ++ data } := rfl

theorem result_mdGetMemPutMem (size : Nat) : (d.mdGetMemPutMem offset size s).result =
    if size ≤ s.mdp.rest.length then
      .ok { s with mdp := (mdGetMem s.mdp size).mdp, out := s.out ++ s.mdp.rest.take size }
    else .error .ebadrpc := by
  simp only [mdGetMemPutMem, result_bind, result_putMem, mdGetMem_error, mdGetMem_target]
  by_cases enough : size ≤ s.mdp.rest.length
  · rw [if_pos enough, if_neg (Nat.not_lt.mpr enough)]
    rfl
  · rw [if_neg enough, if_pos (Nat.lt_of_not_le enough)]
    rfl

theorem result_getMemInto (area : Area) (room : Nat) (mdp : MdChain) (size : Nat) :
    (getMemInto area room mdp size).result = getMem mdp size := rfl

structure Uncompressed (readHdr : Bool) (n : Nat) (s next : Progress) : Prop where
  rest : next.mdp.rest = s.mdp.rest.drop n
  out : next.out = s.out ++ s.mdp.rest.take n
  current : next.currentDecompressedDataSize = s.currentDecompressedDataSize
  readSmbHdr : next.readSmbHdr = (s.readSmbHdr || (d.compressionLog && readHdr && decide (hdrLen < n)))

theorem putUncompressed_ok (readHdr : Bool) (n : Nat) (enough : n ≤ s.mdp.rest.length) :
    ∃ next, (d.putUncompressed offset readHdr n s).result = .ok next ∧ d.Uncompressed readHdr n s next := by
  unfold putUncompressed
  by_cases header : (d.compressionLog && readHdr && decide (hdrLen < n)) = true
  · have long : hdrLen < n := by
      simp only [Bool.and_eq_true, decide_eq_true_eq] at header
      exact header.2
    obtain ⟨afterHdr, fetched, left⟩ := getMem_ok s.mdp hdrLen (by omega)
    have more : n - hdrLen ≤ afterHdr.rest.length := by
      rw [left, List.length_drop]
      omega
    simp only [if_pos header, result_bind, result_getMemInto, fetched, except_ok_bind, result_putMem,
      result_mdGetMemPutMem, if_pos more]
    have whole : hdrLen + (n - hdrLen) = n := Nat.add_sub_cancel' (Nat.le_of_lt long)
    refine ⟨_, rfl, ?_, ?_, rfl, ?_⟩
    · rw [mdGetMem_rest, left, List.drop_drop, whole]
    · rw [List.append_assoc, left, ← List.take_add, whole]
    · simp [header]
  · rw [if_neg header, result_mdGetMemPutMem, if_pos enough]
    refine ⟨_, rfl, mdGetMem_rest _ _, rfl, rfl, ?_⟩
    simp [header]

theorem putUncompressed_length {readHdr : Bool} {n : Nat} {next : Progress}
    (ended : (d.putUncompressed offset readHdr n s).result = .ok next) : n ≤ s.mdp.rest.length := by
  unfold putUncompressed at ended
  split at ended
  · rename_i header
    simp only [result_bind, result_getMemInto, except_bind_eq_ok, result_putMem, Except.ok.injEq] at ended
    obtain ⟨⟨hdr, mdp⟩, fetched, -, rfl, ended⟩ := ended
    obtain ⟨hasHdr, -, left⟩ := getMem_eq_ok fetched
    rw [result_mdGetMemPutMem] at ended
    split at ended
    · rename_i more
      rw [left, List.length_drop] at more
      omega
    · cases ended
  · rw [result_mdGetMemPutMem] at ended
    split at ended
    · assumption
    · cases ended

theorem putUncompressed_eq_ok {readHdr : Bool} {n : Nat} {next : Progress}
    (ended : (d.putUncompressed offset readHdr n s).result = .ok next) :
    n ≤ s.mdp.rest.length ∧ d.Uncompressed readHdr n s next := by
  have enough := d.putUncompressed_length offset s ended
  obtain ⟨next', expected, done⟩ := d.putUncompressed_ok offset s readHdr n enough
  rw [expected, Except.ok.injEq] at ended
  exact ⟨enough, ended ▸ done⟩

structure Placed (n : Nat) (s next : Progress) : Prop where
  out : next.out.length = s.out.length + n
  current : next.currentDecompressedDataSize = s.currentDecompressedDataSize + n
  rest : next.mdp.rest.length ≤ s.mdp.rest.length
  chained : d.chainedCompress = true → n ≤ d.remaining s

variable {d s} {next : Progress}

theorem nonePayload_placed {compressLen : Nat} (ended : (d.nonePayload offset compressLen s).result = .ok next) :
    d.Placed compressLen s next ∧ s.mdp.rest.length = next.mdp.rest.length + compressLen := by
  unfold nonePayload at ended
  split at ended
  · cases ended
  · rename_i fits
    rw [result_bind_eq_ok] at ended
    obtain ⟨after, copied, ended⟩ := ended
    obtain ⟨enough, done⟩ := d.putUncompressed_eq_ok offset s copied
    rw [result_pure, Except.ok.injEq] at ended
    subst ended
    refine ⟨⟨?_, ?_, ?_, fun _ => Nat.le_of_not_lt fits⟩, ?_⟩
    · simp [done.out, enough]
    · simp [done.current]
    · simp [done.rest]
    · rw [done.rest, List.length_drop, Nat.sub_add_cancel enough]

theorem patternPayload_placed (ended : (d.patternPayload offset s).result = .ok next) :
    ∃ n, d.Placed n s next ∧ s.mdp.rest.length = next.mdp.rest.length + 8 := by
  unfold patternPayload at ended
  rw [result_bind_eq_ok] at ended
  obtain ⟨⟨patternChar, repetitions, mdp⟩, read, ended⟩ := ended
  obtain ⟨enough, -, -, left⟩ := patternFields_eq_ok read
  dsimp only at ended
  split at ended
  · cases ended
  · rename_i fits
    simp only [result_bind, result_emit, except_ok_bind, result_putMem, result_pure, Except.ok.injEq] at ended
    subst ended
    refine ⟨repetitions, ⟨?_, rfl, ?_, fun _ => Nat.le_of_not_lt fits⟩, ?_⟩
    · simp
    · simp [left]
    · rw [left, List.length_drop, Nat.sub_add_cancel enough]

theorem codecLengths_eq_ok {compressLen n dataLen : Nat} {mdp : MdChain}
    (found : d.codecLengths offset compressLen s = .ok (n, dataLen, mdp)) :
    if d.chainedCompress then
      4 ≤ s.mdp.rest.length ∧ 4 < compressLen ∧ dataLen ≤ d.remaining s ∧
        n = compressLen - 4 ∧ dataLen = ofLe (slice s.mdp.rest 0 4) ∧ mdp.rest = s.mdp.rest.drop 4
    else
      offset + 16 ≤ d.replyLen % 2 ^ 32 ∧ n = d.replyLen % 2 ^ 32 - offset - 16 ∧
        dataLen = d.originalCompressedSegmentSize ∧ mdp = s.mdp := by
  unfold codecLengths at found
  split at found
  · rename_i chained
    rw [if_pos chained]
    rw [except_bind_eq_ok] at found
    obtain ⟨⟨size, after⟩, read, found⟩ := found
    obtain ⟨enough, value, left⟩ := getUintLe_eq_ok read
    dsimp only at found
    split_ifs at found with large small
    simp only [Except.ok.injEq, Prod.mk.injEq] at found
    obtain ⟨rfl, rfl, rfl⟩ := found
    exact ⟨enough, Nat.lt_of_not_le small, Nat.le_of_not_lt large, rfl, value, left⟩
  · rename_i nonchained
    rw [if_neg nonchained]
    dsimp only at found
    split_ifs at found with before short
    simp only [Except.ok.injEq, Prod.mk.injEq] at found
    obtain ⟨rfl, rfl, rfl⟩ := found
    exact ⟨by omega, rfl, rfl, rfl⟩

theorem codecLengths_chained (chained : d.chainedCompress = true) {compressLen : Nat}
    (enough : 4 ≤ s.mdp.rest.length) (size : ofLe (slice s.mdp.rest 0 4) ≤ d.remaining s)
    (long : 4 < compressLen) :
    ∃ mdp, d.codecLengths offset compressLen s = .ok (compressLen - 4, ofLe (slice s.mdp.rest 0 4), mdp) ∧
      mdp.rest = s.mdp.rest.drop 4 := by
  obtain ⟨mdp, read, left⟩ := getUintLe_ok s.mdp 4 enough
  refine ⟨mdp, ?_, left⟩
  rw [slice, List.drop_zero] at size ⊢
  rw [codecLengths, if_pos chained, mdGetUint32le, read, except_ok_bind]
  dsimp only
  rw [if_neg (Nat.not_lt.mpr size), if_neg (Nat.not_le.mpr long)]

theorem codecLengths_nonchained (nonchained : d.chainedCompress = false) {compressLen : Nat}
    (long : offset + 16 ≤ d.replyLen % 2 ^ 32) :
    d.codecLengths offset compressLen s =
      .ok (d.replyLen % 2 ^ 32 - offset - 16, d.originalCompressedSegmentSize, s.mdp) := by
  have first : ¬d.replyLen % 2 ^ 32 < offset := by omega
  have second : ¬d.replyLen % 2 ^ 32 - offset < 16 := by omega
  simp only [codecLengths, nonchained, Bool.false_eq_true, if_false, if_neg first, if_neg second]

theorem codecPayload_placed {method : Method} {compressLen : Nat}
    (ended : (d.codecPayload method offset compressLen s).result = .ok next) :
    ∃ n, d.Placed n s next ∧
      (d.chainedCompress = true → s.mdp.rest.length = next.mdp.rest.length + compressLen) := by
  unfold codecPayload at ended
  simp only [result_bind_eq_ok, result_lift, result_emit, result_getMemInto] at ended
  obtain ⟨⟨n, dataLen, mdp⟩, found, ⟨compressed, mdp'⟩, fetched, -, -, data, decoded, ended⟩ := ended
  obtain ⟨within, -, left⟩ := getMem_eq_ok fetched
  have lengths := codecLengths_eq_ok offset found
  dsimp only at ended left within
  split at ended
  · cases ended
  · rename_i same
    simp only [result_bind, except_ok_bind, result_putMem, result_pure, Except.ok.injEq] at ended
    subst ended
    refine ⟨dataLen, ⟨?_, rfl, ?_, fun chained => ?_⟩, fun chained => ?_⟩
    · simpa using Decidable.not_not.mp same
    · rw [left, List.length_drop]
      split at lengths
      · rw [lengths.2.2.2.2.2, List.length_drop]
        omega
      · rw [lengths.2.2.2]
        omega
    · rw [if_pos chained] at lengths
      exact lengths.2.2.1
    · rw [if_pos chained] at lengths
      obtain ⟨four, long, -, rfl, -, rest⟩ := lengths
      rw [rest, List.length_drop] at within
      rw [left, rest, List.length_drop, List.length_drop]
      omega

theorem payload_placed {algorithm compressLen : Nat}
    (ended : (d.payload algorithm offset compressLen s).result = .ok next) : ∃ n, d.Placed n s next ∧
      (d.chainedCompress = true → s.mdp.rest.length = next.mdp.rest.length +
        if Algorithm.ofWire algorithm = some .patternV1 then 8 else compressLen) := by
  unfold payload at ended
  generalize Algorithm.ofWire algorithm = kind at ended ⊢
  split at ended
  · cases ended
  · obtain ⟨placed, rest⟩ := nonePayload_placed offset ended
    exact ⟨_, placed, fun _ => rest⟩
  · obtain ⟨n, placed, rest⟩ := patternPayload_placed offset ended
    exact ⟨n, placed, fun _ => rest⟩
  · simpa using codecPayload_placed offset ended

theorem nonchainedHeader_eq_ok {word : Nat} (ended : (d.nonchainedHeader word s).result = .ok next) :
    word ≤ d.remaining s ∧ word ≤ s.mdp.rest.length ∧ d.Uncompressed true word s next := by
  unfold nonchainedHeader at ended
  split_ifs at ended with large none
  · cases ended
  · rw [result_pure, Except.ok.injEq] at ended
    subst ended none
    exact ⟨Nat.zero_le _, Nat.zero_le _, rfl, by simp, rfl, by simp⟩
  · obtain ⟨enough, copied⟩ := d.putUncompressed_eq_ok word s ended
    exact ⟨Nat.le_of_not_lt large, enough, copied⟩

theorem chainedHeader_eq_ok {word : Nat} (ended : (chainedHeader word s).result = .ok next) :
    word ≤ s.mdp.rest.length ∧ next = s := by
  unfold chainedHeader at ended
  split_ifs at ended with large
  · cases ended
  · rw [result_pure, Except.ok.injEq] at ended
    rw [mdGetSize_eq] at large
    exact ⟨Nat.le_of_not_lt large, ended.symm⟩

theorem nonchainedHeader_ok {offset : Nat} (within : offset ≤ d.remaining s) (part : offset ≤ s.mdp.rest.length) :
    ∃ after, (d.nonchainedHeader offset s).result = .ok after := by
  unfold nonchainedHeader
  rw [if_neg (Nat.not_lt.mpr within)]
  split
  · exact ⟨s, rfl⟩
  · obtain ⟨after, ended, -⟩ := d.putUncompressed_ok offset s true offset part
    exact ⟨after, ended⟩

theorem chainedHeader_ok {word : Nat} (within : word ≤ s.mdp.rest.length) :
    (chainedHeader word s).result = .ok s := by
  rw [chainedHeader, mdGetSize_eq, if_neg (Nat.not_lt.mpr within)]
  rfl

theorem pass_eq_ok (ended : (d.pass s).result = .ok next) :
    8 ≤ s.mdp.rest.length ∧ ∃ mdp, mdp.rest = s.mdp.rest.drop 8 ∧
      if d.chainedCompress then
        s.word ≤ mdp.rest.length ∧ (d.payload s.algorithm 0 s.word { s with mdp }).result = .ok next
      else ∃ after, s.word ≤ mdp.rest.length ∧ d.Uncompressed true s.word { s with mdp } after ∧
        (d.payload s.algorithm s.word s.word after).result = .ok next := by
  unfold pass at ended
  rw [result_bind_eq_ok] at ended
  obtain ⟨⟨algorithm, word, mdp⟩, read, ended⟩ := ended
  obtain ⟨enough, rfl, rfl, left⟩ := payloadFields_eq_ok read
  refine ⟨enough, mdp, left, ?_⟩
  dsimp only at ended
  split at ended
  · rename_i chained
    rw [result_bind_eq_ok] at ended
    obtain ⟨after, header, ended⟩ := ended
    obtain ⟨within, rfl⟩ := chainedHeader_eq_ok header
    rw [if_pos chained]
    exact ⟨within, ended⟩
  · rename_i nonchained
    rw [result_bind_eq_ok] at ended
    obtain ⟨after, header, ended⟩ := ended
    obtain ⟨-, within, copied⟩ := nonchainedHeader_eq_ok header
    rw [if_neg nonchained]
    exact ⟨after, within, copied, ended⟩

theorem pass_placed (ended : (d.pass s).result = .ok next) :
    ∃ n, next.out.length = s.out.length + d.offsetBytes s + n ∧
      next.currentDecompressedDataSize = s.currentDecompressedDataSize + n ∧
      next.mdp.rest.length < s.mdp.rest.length ∧
      (d.chainedCompress = true → n ≤ d.remaining s) := by
  obtain ⟨enough, mdp, left, ended⟩ := pass_eq_ok ended
  have shorter := congrArg List.length left
  rw [List.length_drop] at shorter
  unfold offsetBytes
  split at ended
  · rename_i chained
    obtain ⟨n, placed, -⟩ := payload_placed 0 ended.2
    have rest := placed.rest
    dsimp only at rest
    rw [if_pos chained]
    exact ⟨n, placed.out, placed.current, by omega, placed.chained⟩
  · rename_i nonchained
    obtain ⟨after, within, copied, ended⟩ := ended
    obtain ⟨n, placed, -⟩ := payload_placed s.word ended
    have rest := placed.rest
    rw [copied.rest, List.length_drop] at rest
    dsimp only at rest
    rw [if_neg nonchained]
    refine ⟨n, ?_, ?_, by omega, fun chained => absurd chained nonchained⟩
    · rw [placed.out, copied.out, List.length_append, List.length_take, Nat.min_eq_left within]
    · rw [placed.current, copied.current]

theorem pass_shrinks : Shrinks d.unfinished d.pass (fun s => s.mdp.rest.length) := by
  intro s next _ ended
  obtain ⟨-, -, -, shorter, -⟩ := pass_placed ended
  exact shorter

theorem loop_complete {last : Progress}
    (ended : (loop d.unfinished d.pass (mdGetSize s.mdp + 1) s).result = .ok last) :
    d.originalCompressedSegmentSize ≤ last.currentDecompressedDataSize := by
  have finished := loop_done pass_shrinks (by rw [mdGetSize_eq]; exact Nat.lt_succ_self _) ended
  exact Nat.le_of_not_lt (of_decide_eq_false finished)

end Decoder

def compressingSession : SmbSession where
  sessionId := 7
  dialect := .smb311
  smb3EncryptCiper := 2
  smb3EncryptKey := []
  smb3DecryptKey := []
  serverCompressionAlgorithmsMap := 4
  compressionIoThreshold := 2

end SmbClient.Compression
