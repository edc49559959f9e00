import SmbClient.Compression.Codec
import SmbClient.Lib.Buffer
import SmbClient.Lib.Tokens
import SmbClient.Lib.Traced
import SmbClient.Mbuf.MdChain
import SmbClient.Session.State

/-!
`smb2_rq_compress_write`. As in the other direction, memory for mbufs is taken to be available.
-/

namespace SmbClient.Compression
open SmbClient.Lib SmbClient.Mbuf SmbClient.Session

inductive Payload
  | none (data : Bytes)
  | pattern (char : UInt8) (repetitions : Nat)
  | codec (method : Method) (data compressed : Bytes)
  deriving DecidableEq, Repr

namespace Payload

def data : Payload → Bytes
  | none data => data
  | pattern char repetitions => List.replicate repetitions char
  | codec _ data _ => data

def algorithm : Payload → Algorithm
  | none _ => .none
  | pattern _ _ => .patternV1
  | codec method _ _ => .codec method

def compressedDataLength : Payload → Nat
  | none data => data.length
  | pattern _ _ => 8
  | codec _ _ compressed => compressed.length + 4

def body : Payload → Bytes
  | none data => data
  | pattern char repetitions => [char] ++ ([0] ++ (toLe 2 0 ++ toLe 4 repetitions))
  | codec _ data compressed => toLe 4 data.length ++ compressed

def encode (flags : Nat) (p : Payload) : Bytes :=
  toLe 2 p.algorithm.wire ++ (toLe 2 flags ++ (toLe 4 p.compressedDataLength ++ p.body))

end Payload

structure Chunk where
  forwardDataRepetitions : Nat
  forwardDataChar : UInt8
  backwardDataRepetitions : Nat
  backwardDataChar : UInt8
  data : Bytes
  compressed : Bytes
  deriving DecidableEq, Repr

def taken (repetitions : Nat) : Nat := if 1 < repetitions then repetitions else 0

/-- A `uint8_t` compared with a `char`, which is signed: no byte from 0x80 on is equal to itself. -/
def equalsChar (char byte : UInt8) : Bool := decide ((byte.toNat : Int) = char.toInt8.toInt)

def forwardRepetitions (chunk : Bytes) : Nat := 1 + leading (equalsChar (chunk.headD 0)) chunk.tail

def backwardRepetitions (chunk : Bytes) (forward : Nat) : Nat :=
  if chunk.length - taken forward ≠ 0 ∧ 2 ≤ chunk.length then
    let backwardDataStop := if 1 < forward then forward - 1 else 1
    1 + trailing (equalsChar (chunk.getLastD 0)) (chunk.dropLast.drop (backwardDataStop + 1))
  else 1

section
variable (codec : Codec) (kalloc : Kalloc) (method : Method)

def compressMiddle (data : Bytes) : Except Errno Bytes :=
  if data = [] then .ok [] else codec.smb2CompressData kalloc method data data.length

def smb2RqCompressChunk (chunk : Bytes) : Except Errno Chunk := do
  let forward := forwardRepetitions chunk
  let backward := backwardRepetitions chunk forward
  let data := (chunk.drop (taken forward)).take (chunk.length - taken forward - taken backward)
  let compressed ← compressMiddle codec kalloc method data
  return ⟨forward, chunk.headD 0, backward, chunk.getLastD 0, data, compressed⟩

namespace Chunk
variable (chunk : Chunk)

def run (repetitions : Nat) (char : UInt8) : List Payload :=
  if 1 < repetitions then [.pattern char repetitions] else []

def middle : List Payload :=
  if chunk.compressed ≠ [] then [.codec method chunk.data chunk.compressed]
  else if chunk.data ≠ [] then [.none chunk.data]
  else []

def payloads : List Payload :=
  run chunk.forwardDataRepetitions chunk.forwardDataChar ++ (chunk.middle method ++
    run chunk.backwardDataRepetitions chunk.backwardDataChar)

def saves : Bool :=
  decide (chunk.compressed ≠ [] ∨ 1 < chunk.forwardDataRepetitions ∨ 1 < chunk.backwardDataRepetitions)

end Chunk

def compressChunks (compressionChunkLen : Nat) : Nat → Bytes → Except Errno (Option (List Payload × Bool))
  | _, [] => .ok (some ([], false))
  | 0, _ :: _ => .ok none
  | fuel + 1, b :: rest => do
      let chunk ← smb2RqCompressChunk codec kalloc method ((b :: rest).take compressionChunkLen)
      let later ← compressChunks compressionChunkLen fuel ((b :: rest).drop compressionChunkLen)
      return later.map fun (payloads, saves) => (chunk.payloads method ++ payloads, chunk.saves || saves)

end

def smb2Write : UInt16 := 0x0009
def hdrWriteLen : Nat := 112
def hdrWriteLengthOff : Nat := 68
def compressionSignature : Bytes := [0xfc, 0x53, 0x4d, 0x42]
def compressionFlagNone : Nat := 0
def compressionFlagChained : Nat := 1

structure WriteRq where
  chain : Chain
  command : UInt16 := smb2Write
  compoundRq : Bool := false
  noCompressWrite : Bool := false
  deriving DecidableEq, Repr

inductive WriteOutcome
  | unchanged
  | failed
  | compressed (message : Bytes)
  | endless
  deriving DecidableEq, Repr

def writeMethod (map : Nat) : Option Method :=
  if map.testBit 2 then some .lz77Huffman
  else if map.testBit 1 then some .lz77
  else if map.testBit 0 then some .lznt1
  else none

def chainedMessage (hdrWrite : Bytes) (dataLen : Nat) (payloads : List Payload) : Bytes :=
  compressionSignature ++ (toLe 4 (hdrWriteLen + dataLen) ++
    ((Payload.none hdrWrite).encode compressionFlagChained ++ payloads.flatMap (Payload.encode compressionFlagNone)))

def nonchainedMessage (method : Method) (hdrWrite : Bytes) (dataLen : Nat) (compressed : Bytes) : Bytes :=
  compressionSignature ++ (toLe 4 dataLen ++ (toLe 2 (Algorithm.codec method).wire ++
    (toLe 2 compressionFlagNone ++ (toLe 4 hdrWriteLen ++ (hdrWrite ++ compressed)))))

section
variable (codec : Codec) (kalloc : Kalloc) (sessionp : SmbSession)

def compressChained (method : Method) (hdrWrite data : Bytes) : Except Errno WriteOutcome := do
  match ← compressChunks codec kalloc method sessionp.compressionChunkLen data.length data with
  | none => return .endless
  | some (payloads, saves) =>
    return if saves then .compressed (chainedMessage hdrWrite data.length payloads) else .failed

def compressNonchained (method : Method) (hdrWrite data : Bytes) : Except Errno WriteOutcome := do
  let compressed ← codec.smb2CompressData kalloc method data data.length
  return if compressed = [] then .failed
    else .compressed (nonchainedMessage method hdrWrite data.length compressed)

def smb2RqCompressWrite (rqp : WriteRq) : Except Errno WriteOutcome :=
  if !sessionp.dialect.smb3OrLater || decide (sessionp.serverCompressionAlgorithmsMap = 0) || rqp.compoundRq ||
      decide (rqp.command ≠ smb2Write) || rqp.noCompressWrite then .ok .unchanged
  else
    match writeMethod sessionp.serverCompressionAlgorithmsMap with
    | none => .ok .unchanged
    | some method => do
        let (hdrWrite, mdp) ← getMem (mdInitm rqp.chain) hdrWriteLen
        let writeBufferLen := ofLe (slice hdrWrite hdrWriteLengthOff 4)
        if writeBufferLen = 0 then .error .einval
        else if kDefaultMaxIOSize < writeBufferLen then .error .e2big
        else if writeBufferLen < 2 ∨ writeBufferLen < sessionp.compressionIoThreshold then .ok .unchanged
        else if (kalloc.alloc (writeBufferLen * 2)).isNone then .error .enomem
        else do
          let (data, _) ← getMem mdp writeBufferLen
          if sessionp.compressionChainingOff then compressNonchained codec kalloc method hdrWrite data
          else compressChained codec kalloc sessionp method hdrWrite data

end

theorem eq_of_equalsChar (char byte : UInt8) (equal : equalsChar char byte = true) : byte = char := by
  have extended : char.toInt8.toInt =
      if 2 * char.toNat < 2 ^ 8 then (char.toNat : Int) else char.toNat - (2 ^ 8 : Nat) :=
    BitVec.toInt_eq_toNat_cond char.toBitVec
  rw [equalsChar, decide_eq_true_eq, extended] at equal
  have small := char.toNat_lt
  apply UInt8.toNat_inj.mp
  split at equal <;> omega

example : forwardRepetitions [0x7f, 0x7f] = 2 ∧ forwardRepetitions [0x80, 0x80] = 1 := by decide

section Cut
variable (chunk : Bytes)

theorem take_forward (some' : chunk ≠ []) :
    forwardRepetitions chunk ≤ chunk.length ∧
      chunk.take (forwardRepetitions chunk) = List.replicate (forwardRepetitions chunk) (chunk.headD 0) := by
  cases chunk with
  | nil => exact absurd rfl some'
  | cons c rest =>
    have least := leading_le (equalsChar c) rest
    simp only [forwardRepetitions, List.headD_cons, List.tail_cons, List.length_cons]
    refine ⟨by omega, ?_⟩
    rw [Nat.add_comm 1, List.take_succ_cons, List.replicate_succ, take_leading rest (eq_of_equalsChar c)]

theorem drop_backward (forward : Nat) (some' : 1 < backwardRepetitions chunk forward) :
    taken forward + backwardRepetitions chunk forward ≤ chunk.length ∧
      chunk.drop (chunk.length - backwardRepetitions chunk forward) =
        List.replicate (backwardRepetitions chunk forward) (chunk.getLastD 0) := by
  unfold backwardRepetitions at some' ⊢
  split at some'
  · rename_i scanned
    rw [if_pos scanned]
    dsimp only at some' ⊢
    obtain ⟨init, last, rfl⟩ : ∃ init last, chunk = init ++ [last] := by
      refine ⟨chunk.dropLast, chunk.getLast ?_, (List.dropLast_append_getLast _).symm⟩
      rintro rfl
      simp at scanned
    generalize stops : (if 1 < forward then forward - 1 else 1) = stop at some' ⊢
    simp only [List.getLastD_concat, List.dropLast_concat, List.length_append, List.length_singleton] at some' ⊢
    have run := drop_trailing (init.drop (stop + 1)) (eq_of_equalsChar last)
    have least := trailing_le (equalsChar last) (init.drop (stop + 1))
    generalize trailing (equalsChar last) (init.drop (stop + 1)) = count at some' run least ⊢
    rw [List.length_drop] at run least
    have before : taken forward ≤ stop + 1 := by
      rw [taken, ← stops]
      split <;> omega
    refine ⟨by omega, ?_⟩
    rw [List.drop_drop, show stop + 1 + (init.length - (stop + 1) - count) = init.length - count by omega] at run
    rw [show init.length + 1 - (1 + count) = init.length - count by omega,
      List.drop_append_of_le_length (Nat.sub_le _ _), run, Nat.add_comm 1, List.replicate_succ']
  · omega

theorem forward_payload : (Chunk.run (forwardRepetitions chunk) (chunk.headD 0)).flatMap Payload.data =
    chunk.take (taken (forwardRepetitions chunk)) := by
  unfold Chunk.run taken
  split
  · rename_i run
    have some' : chunk ≠ [] := by
      rintro rfl
      simp [forwardRepetitions, leading] at run
    simp [Payload.data, (take_forward chunk some').2]
  · simp

theorem backward_payload (forward : Nat) :
    (Chunk.run (backwardRepetitions chunk forward) (chunk.getLastD 0)).flatMap Payload.data =
      chunk.drop (chunk.length - taken (backwardRepetitions chunk forward)) := by
  unfold Chunk.run
  split
  · rename_i run
    simp [Payload.data, taken, if_pos run, (drop_backward chunk forward run).2]
  · rename_i single
    simp [taken, if_neg single]

theorem taken_le : taken (forwardRepetitions chunk) +
    taken (backwardRepetitions chunk (forwardRepetitions chunk)) ≤ chunk.length := by
  by_cases run : 1 < backwardRepetitions chunk (forwardRepetitions chunk)
  · have both := (drop_backward chunk _ run).1
    rwa [taken.eq_def (backwardRepetitions _ _), if_pos run]
  · rw [taken.eq_def (backwardRepetitions _ _), if_neg run, taken]
    split
    · rename_i forward
      refine (take_forward chunk ?_).1
      rintro rfl
      simp [forwardRepetitions, leading] at forward
    · exact Nat.zero_le _

end Cut

theorem append_cut (l : List UInt8) {a b : Nat} (within : a + b ≤ l.length) :
    l.take a ++ ((l.drop a).take (l.length - a - b) ++ l.drop (l.length - b)) = l := by
  have last : l.drop (l.length - b) = (l.drop a).drop (l.length - a - b) := by
    rw [List.drop_drop]
    congr 1
    omega
  rw [last, List.take_append_drop, List.take_append_drop]

def Payload.Decodable (codec : Codec) : Payload → Prop
  | .none data => data ≠ []
  | .pattern _ repetitions => 0 < repetitions
  | .codec method data compressed =>
    compressed ≠ [] ∧ compressed.length ≤ data.length ∧ codec.decode method compressed data.length = data

variable {codec : Codec}

theorem Payload.Decodable.data_ne_nil {p : Payload} (decodable : p.Decodable codec) : p.data ≠ [] := by
  cases p with
  | none data => exact decodable
  | pattern char repetitions => simpa [Payload.data] using Nat.ne_of_gt decodable
  | codec method data compressed =>
    obtain ⟨some', fits, -⟩ := decodable
    rintro (rfl : data = [])
    exact some' (List.eq_nil_of_length_eq_zero (Nat.le_zero.mp fits))

theorem middle_data (method : Method) (chunk : Chunk) :
    (chunk.middle method).flatMap Payload.data = chunk.data := by
  unfold Chunk.middle
  by_cases compressed : chunk.compressed = []
  · by_cases data : chunk.data = []
    · simp [compressed, data]
    · simp [compressed, data, Payload.data]
  · simp [compressed, Payload.data]

theorem smb2CompressData_eq_ok {kalloc : Kalloc} {method : Method} {data compressed : Bytes}
    {compressLen : Nat} (encoded : codec.smb2CompressData kalloc method data compressLen = .ok compressed) :
    compressed = codec.encode method data compressLen := by
  unfold Codec.smb2CompressData at encoded
  cases scratch : Codec.scratch kalloc (codec.encodeScratch method) with
  | error e => simp [scratch, Except.map] at encoded
  | ok _ => simpa [scratch, Except.map] using encoded.symm

section Chunks
variable {codec : Codec} {kalloc : Kalloc} {method : Method}

theorem smb2RqCompressChunk_data {buffer : Bytes} {chunk : Chunk}
    (compressed : smb2RqCompressChunk codec kalloc method buffer = .ok chunk) :
    (chunk.payloads method).flatMap Payload.data = buffer := by
  simp only [smb2RqCompressChunk, except_bind_eq_ok] at compressed
  obtain ⟨encoded, -, made⟩ := compressed
  cases made
  rw [Chunk.payloads, List.flatMap_append, List.flatMap_append, forward_payload, middle_data, backward_payload]
  exact append_cut buffer (taken_le buffer)

theorem smb2RqCompressChunk_decodable (inverts : codec.Inverts) {buffer : Bytes} {chunk : Chunk}
    (compressed : smb2RqCompressChunk codec kalloc method buffer = .ok chunk) :
    ∀ p ∈ chunk.payloads method, p.Decodable codec := by
  have run (repetitions : Nat) (char : UInt8) : ∀ p ∈ Chunk.run repetitions char, p.Decodable codec := by
    unfold Chunk.run
    split
    · rename_i long
      simpa [Payload.Decodable] using Nat.lt_of_succ_lt long
    · simp
  have middle : ∀ p ∈ chunk.middle method, p.Decodable codec := by
    simp only [smb2RqCompressChunk, except_bind_eq_ok] at compressed
    obtain ⟨encoded, encoding, made⟩ := compressed
    cases made
    unfold Chunk.middle
    split_ifs with worked data
    · unfold compressMiddle at encoding
      split at encoding
      · cases encoding
        exact absurd rfl worked
      · have value := smb2CompressData_eq_ok encoding
        subst value
        intro p member
        rw [List.mem_singleton.mp member]
        exact ⟨worked, codec.encode_fits _ _ _, inverts _ _ _ worked⟩
    · simpa [Payload.Decodable] using data
    · simp
  intro p member
  rcases List.mem_append.mp member with forward | rest
  · exact run _ _ p forward
  · rcases List.mem_append.mp rest with inside | backward
    · exact middle p inside
    · exact run _ _ p backward

theorem compressChunks_spec (inverts : codec.Inverts) {chunkLen fuel : Nat} {data : Bytes}
    {payloads : List Payload} {saves : Bool}
    (compressed : compressChunks codec kalloc method chunkLen fuel data = .ok (some (payloads, saves))) :
    payloads.flatMap Payload.data = data ∧ ∀ p ∈ payloads, p.Decodable codec := by
  induction fuel generalizing data payloads saves with
  | zero =>
    cases data with
    | nil => cases compressed; simp
    | cons b rest => cases compressed
  | succ fuel ih =>
    cases data with
    | nil => cases compressed; simp
    | cons b rest =>
      simp only [compressChunks, except_bind_eq_ok] at compressed
      obtain ⟨chunk, first, later, others, made⟩ := compressed
      cases later with
      | none => cases made
      | some later =>
        obtain ⟨laterPayloads, laterSaves⟩ := later
        cases made
        obtain ⟨laterData, laterDecodable⟩ := ih others
        constructor
        · rw [List.flatMap_append, smb2RqCompressChunk_data first, laterData, List.take_append_drop]
        · intro p member
          rcases List.mem_append.mp member with here | there
          · exact smb2RqCompressChunk_decodable inverts first p here
          · exact laterDecodable p there

theorem compressChunks_ends {chunkLen fuel : Nat} (some' : 0 < chunkLen) {data : Bytes} (enough : data.length ≤ fuel) :
    compressChunks codec kalloc method chunkLen fuel data ≠ .ok none := by
  induction fuel generalizing data with
  | zero =>
    cases data with
    | nil => simp [compressChunks]
    | cons b rest => simp at enough
  | succ fuel ih =>
    cases data with
    | nil => simp [compressChunks]
    | cons b rest =>
      intro ended
      simp only [compressChunks, except_bind_eq_ok] at ended
      obtain ⟨chunk, -, later, others, made⟩ := ended
      cases later with
      | some later => cases made
      | none =>
        refine ih ?_ others
        rw [List.length_drop]
        rw [List.length_cons] at enough ⊢
        omega

end Chunks

def Compressing (sessionp : SmbSession) : Prop :=
  sessionp.dialect.smb3OrLater = true ∧ sessionp.serverCompressionAlgorithmsMap ≠ 0

theorem smb2RqCompressWrite_cases {kalloc : Kalloc} {sessionp : SmbSession} {rqp : WriteRq}
    {outcome : WriteOutcome} (ended : smb2RqCompressWrite codec kalloc sessionp rqp = .ok outcome) :
    outcome = .unchanged ∨ Compressing sessionp ∧ ∃ method hdrWrite data,
      hdrWrite.length = hdrWriteLen ∧ data.length = ofLe (slice (bytes rqp.chain) hdrWriteLengthOff 4) ∧
      hdrWrite ++ data = (bytes rqp.chain).take (hdrWriteLen + data.length) ∧ data.length ≤ kDefaultMaxIOSize ∧
      (if sessionp.compressionChainingOff then compressNonchained codec kalloc method hdrWrite data
        else compressChained codec kalloc sessionp method hdrWrite data) = .ok outcome := by
  unfold smb2RqCompressWrite at ended
  split at ended
  · exact .inl (Except.ok.inj ended).symm
  rename_i eligible
  split at ended
  · exact .inl (Except.ok.inj ended).symm
  rename_i method _
  simp only [except_bind_eq_ok] at ended
  obtain ⟨⟨hdrWrite, mdp⟩, header, ended⟩ := ended
  obtain ⟨enough, rfl, left⟩ := getMem_eq_ok header
  rw [rest_mdInitm] at enough left ended
  dsimp only at ended
  rw [slice_take (by decide)] at ended
  split at ended
  · cases ended
  split at ended
  · cases ended
  rename_i large
  split at ended
  · exact .inl (Except.ok.inj ended).symm
  split at ended
  · cases ended
  rw [except_bind_eq_ok] at ended
  obtain ⟨⟨data, after⟩, content, ended⟩ := ended
  obtain ⟨within, rfl, -⟩ := getMem_eq_ok content
  have dataLen : (mdp.rest.take (ofLe (slice (bytes rqp.chain) hdrWriteLengthOff 4))).length =
      ofLe (slice (bytes rqp.chain) hdrWriteLengthOff 4) := by
    rw [List.length_take, Nat.min_eq_left within]
  refine .inr ⟨?_, method, _, _, ?_, dataLen, ?_, ?_, ended⟩
  · simp only [Bool.or_eq_true, Bool.not_eq_true', decide_eq_true_eq, not_or, Bool.not_eq_false] at eligible
    exact ⟨eligible.1.1.1.1, eligible.1.1.1.2⟩
  · rw [List.length_take, Nat.min_eq_left enough]
  · rw [dataLen, left, ← List.take_add]
  · rw [dataLen]
    exact Nat.le_of_not_lt large

end SmbClient.Compression
