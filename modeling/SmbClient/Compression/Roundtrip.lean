import SmbClient.Compression.Compress
import SmbClient.Compression.Decompress

namespace SmbClient.Compression
open SmbClient.Lib SmbClient.Lib.Traced SmbClient.Mbuf SmbClient.Session

theorem payloadFields_encoded {mdp : MdChain} {algorithm flags word : Nat} {tail : Bytes}
    (rest : mdp.rest = toLe 2 algorithm ++ (toLe 2 flags ++ (toLe 4 word ++ tail)))
    (known : algorithm < 256 ^ 2) (small : word < 256 ^ 4) :
    ∃ next, payloadFields mdp = .ok (algorithm, word, next) ∧ next.rest = tail := by
  obtain ⟨mdp1, first, rest⟩ := getUintLe_toLe rest known
  obtain ⟨mdp2, second, rest⟩ := getUintLe_append rest
  obtain ⟨mdp3, third, rest⟩ := getUintLe_toLe rest small
  refine ⟨mdp3, ?_, rest⟩
  simp only [payloadFields, mdGetUint16le, mdGetUint32le, first, second, third, except_ok_bind]
  rfl

theorem patternFields_encoded {mdp : MdChain} {char : UInt8} {repetitions : Nat} {tail : Bytes}
    (rest : mdp.rest = (Payload.pattern char repetitions).body ++ tail) (small : repetitions < 256 ^ 4) :
    ∃ next, patternFields mdp = .ok (char.toNat, repetitions, next) ∧ next.rest = tail := by
  have cut : mdp.rest = toLe 1 char.toNat ++ (toLe 1 0 ++ (toLe 2 0 ++ (toLe 4 repetitions ++ tail))) := by
    rw [rest]
    simp [Payload.body, toLe]
  obtain ⟨mdp1, first, rest⟩ := getUintLe_toLe cut (UInt8.toNat_lt char)
  obtain ⟨mdp2, second, rest⟩ := getUintLe_append rest
  obtain ⟨mdp3, third, rest⟩ := getUintLe_append rest
  obtain ⟨mdp4, fourth, rest⟩ := getUintLe_toLe rest small
  refine ⟨mdp4, ?_, rest⟩
  simp only [patternFields, mdGetUint8, mdGetUint16le, mdGetUint32le, first, second, third, fourth, except_ok_bind]
  rfl

def Payload.Readable (codec : Codec) : Payload → Prop
  | .none data => data ≠ []
  | .pattern _ repetitions => 0 < repetitions
  | .codec method data compressed =>
    data ≠ [] ∧ compressed ≠ [] ∧ compressed.length + 4 < 256 ^ 4 ∧ codec.decode method compressed data.length = data

theorem Payload.Readable.data_ne_nil {codec : Codec} {p : Payload} (readable : p.Readable codec) : p.data ≠ [] := by
  cases p with
  | none data => exact readable
  | pattern char repetitions => simpa [Payload.data] using Nat.ne_of_gt readable
  | codec method data compressed => exact readable.1

theorem Payload.Decodable.readable {codec : Codec} {p : Payload} (decodable : p.Decodable codec)
    (small : p.data.length + 4 < 256 ^ 4) : p.Readable codec := by
  cases p with
  | none data => exact decodable
  | pattern char repetitions => exact decodable
  | codec method data compressed =>
    have some' := decodable.data_ne_nil
    obtain ⟨nonempty, shorter, decodes⟩ := decodable
    exact ⟨some', nonempty, Nat.lt_of_le_of_lt (Nat.add_le_add_right shorter 4) small, decodes⟩

structure Added (out : Bytes) (current : Nat) (data tail : Bytes) (next : Progress) : Prop where
  rest : next.mdp.rest = tail
  out : next.out = out ++ data
  current : next.currentDecompressedDataSize = current + data.length

section Payloads
variable {d : Decoder} {s : Progress} {data tail : Bytes} {offset : Nat}

theorem nonePayload_added (rest : s.mdp.rest = data ++ tail) (within : data.length ≤ d.remaining s) :
    ∃ next, (d.nonePayload offset data.length s).result = .ok next ∧ Added s.out s.currentDecompressedDataSize data tail next := by
  obtain ⟨after, copied, done⟩ := d.putUncompressed_ok offset s (!s.readSmbHdr) data.length (by simp [rest])
  rw [Decoder.nonePayload, if_neg (Nat.not_lt.mpr within), result_bind, copied, except_ok_bind]
  refine ⟨_, rfl, ?_, ?_, ?_⟩
  · simp [done.rest, rest]
  · simp [done.out, rest]
  · simp [done.current]

theorem patternPayload_added {char : UInt8} {repetitions : Nat}
    (rest : s.mdp.rest = (Payload.pattern char repetitions).body ++ tail) (small : repetitions < 256 ^ 4)
    (within : repetitions ≤ d.remaining s) :
    ∃ next, (d.patternPayload offset s).result = .ok next ∧
      Added s.out s.currentDecompressedDataSize (List.replicate repetitions char) tail next := by
  obtain ⟨mdp, read, left⟩ := patternFields_encoded rest small
  rw [Decoder.patternPayload, result_bind, result_lift, read, except_ok_bind]
  dsimp only
  rw [if_neg (Nat.not_lt.mpr within)]
  refine ⟨_, rfl, left, ?_, ?_⟩
  · simp
  · simp

theorem codecPayload_added {method : Method} {compressed : Bytes} {compressLen : Nat} {mdp : MdChain}
    (memory : ∀ size, d.kalloc.alloc size ≠ none)
    (lengths : d.codecLengths offset compressLen s = .ok (compressed.length, data.length, mdp))
    (rest : mdp.rest = compressed ++ tail) (some' : data ≠ [])
    (decodes : d.codec.decode method compressed data.length = data) :
    ∃ next, (d.codecPayload method offset compressLen s).result = .ok next ∧
      Added s.out s.currentDecompressedDataSize data tail next := by
  obtain ⟨mdp', fetched, left⟩ := getMem_append rest
  have scratch : Codec.scratch d.kalloc (d.codec.decodeScratch method) = .ok () := by
    unfold Codec.scratch
    split
    · rfl
    · obtain ⟨buf, fresh⟩ := Option.ne_none_iff_exists'.mp (memory (d.codec.decodeScratch method))
      rw [fresh]
  have decoded : d.codec.smb2DecompressData d.kalloc method compressed data.length = .ok data := by
    simp only [Codec.smb2DecompressData, scratch, decodes]
  simp only [Decoder.codecPayload, result_bind, result_lift, lengths, except_ok_bind, Decoder.result_getMemInto,
    fetched, result_emit, decoded, ne_eq, not_true_eq_false, if_false]
  refine ⟨_, rfl, left, rfl, rfl⟩

theorem pass_chained (chained : d.chainedCompress = true) {algorithm : Algorithm} {flags word : Nat}
    (rest : s.mdp.rest = toLe 2 algorithm.wire ++ (toLe 2 flags ++ (toLe 4 word ++ tail))) (small : word < 256 ^ 4)
    (within : word ≤ tail.length) :
    ∃ mdp, mdp.rest = tail ∧ (d.pass s).result = (d.payload algorithm.wire 0 word { s with mdp }).result := by
  obtain ⟨mdp, read, left⟩ := payloadFields_encoded rest algorithm.wire_lt small
  refine ⟨mdp, left, ?_⟩
  rw [Decoder.pass, result_bind, result_lift, read, except_ok_bind]
  dsimp only
  rw [if_pos chained, result_bind, Decoder.chainedHeader_ok (by rwa [← left] at within), except_ok_bind]

theorem pass_added (chained : d.chainedCompress = true) (memory : ∀ size, d.kalloc.alloc size ≠ none)
    (small : d.originalCompressedSegmentSize + 4 < 256 ^ 4) {p : Payload} (readable : p.Readable d.codec)
    {flags : Nat} (rest : s.mdp.rest = p.encode flags ++ tail) (within : p.data.length ≤ d.remaining s) :
    ∃ next, (d.pass s).result = .ok next ∧ Added s.out s.currentDecompressedDataSize p.data tail next := by
  have room := d.remaining_le s
  simp only [Payload.encode, List.append_assoc] at rest
  cases p with
  | none data =>
    simp only [Payload.data] at within
    obtain ⟨mdp, left, passed⟩ := pass_chained chained rest (by simp only [Payload.compressedDataLength]; omega)
      (by simp [Payload.compressedDataLength, Payload.body])
    rw [passed, Payload.algorithm, Decoder.payload, Algorithm.ofWire_wire]
    exact nonePayload_added (s := { s with mdp }) left within
  | pattern char repetitions =>
    simp only [Payload.data, List.length_replicate] at within
    obtain ⟨mdp, left, passed⟩ := pass_chained chained rest (by simp only [Payload.compressedDataLength]; omega)
      (by simp only [Payload.compressedDataLength, Payload.body, List.length_append, length_toLe,
        List.length_singleton]; omega)
    rw [passed, Payload.algorithm, Decoder.payload, Algorithm.ofWire_wire]
    exact patternPayload_added (s := { s with mdp }) left (by omega) within
  | codec method data compressed =>
    obtain ⟨some', nonempty, short, decodes⟩ := readable
    simp only [Payload.data] at within
    obtain ⟨mdp, left, passed⟩ := pass_chained chained rest short
      (by simp only [Payload.compressedDataLength, Payload.body, List.length_append, length_toLe]; omega)
    rw [passed, Payload.algorithm, Decoder.payload, Algorithm.ofWire_wire]
    simp only [Payload.body, List.append_assoc] at left
    have size : ofLe (slice mdp.rest 0 4) = data.length := by
      rw [slice, List.drop_zero, left, List.take_left' (length_toLe 4 _), ofLe_toLe_of_lt (by omega)]
    have positive := List.length_pos_iff.mpr nonempty
    obtain ⟨mdp', lengths, rest'⟩ := Decoder.codecLengths_chained (s := { s with mdp }) 0 chained
      (by rw [left]; simp) (by rwa [size]) (show 4 < compressed.length + 4 by omega)
    rw [size, Nat.add_sub_cancel] at lengths
    rw [left, List.drop_left' (length_toLe 4 _)] at rest'
    exact codecPayload_added memory lengths rest' some' decodes

theorem loop_added (chained : d.chainedCompress = true) (memory : ∀ size, d.kalloc.alloc size ≠ none)
    (small : d.originalCompressedSegmentSize + 4 < 256 ^ 4) {flagged : List (Payload × Nat)}
    (readable : ∀ p ∈ flagged, p.1.Readable d.codec) (rest : s.mdp.rest = flagged.flatMap fun p => p.1.encode p.2)
    (total : s.currentDecompressedDataSize + (flagged.flatMap (·.1.data)).length =
      d.originalCompressedSegmentSize) {fuel : Nat} (enough : s.mdp.rest.length < fuel) :
    ∃ last, (loop d.unfinished d.pass fuel s).result = .ok last ∧
      last.out = s.out ++ flagged.flatMap (·.1.data) ∧
      last.currentDecompressedDataSize = d.originalCompressedSegmentSize := by
  induction flagged generalizing s fuel with
  | nil =>
    have done : d.unfinished s = false := by
      rw [Decoder.unfinished, ← total]
      simp
    refine ⟨s, ?_, by simp, by simpa using total⟩
    rw [loop_stop done, result_pure]
  | cons p flagged ih =>
    have first := readable p List.mem_cons_self
    have some' := List.length_pos_iff.mpr first.data_ne_nil
    rw [List.flatMap_cons, List.length_append] at total
    rw [List.flatMap_cons] at rest
    have within : p.1.data.length ≤ d.remaining s := by
      unfold Decoder.remaining
      omega
    have more : d.unfinished s = true := by
      rw [Decoder.unfinished, decide_eq_true_eq]
      omega
    obtain ⟨next, passed, added⟩ := pass_added chained memory small first rest within
    obtain ⟨left, enough', same⟩ := loop_next Decoder.pass_shrinks enough more passed
    obtain ⟨last, ended, out, current⟩ := ih (fun p member => readable p (List.mem_cons_of_mem _ member))
      added.rest (by rw [added.current]; omega) enough'
    refine ⟨last, same.trans ended, ?_, current⟩
    rw [out, added.out, List.flatMap_cons, List.append_assoc]

theorem decompress_eq {last : Progress} (ended : (loop d.unfinished d.pass (mdGetSize s.mdp + 1) s).result = .ok last)
    (current : last.currentDecompressedDataSize = d.originalCompressedSegmentSize) :
    (d.decompress s).result = .ok last.out := by
  rw [Decoder.decompress, result_bind, ended, except_ok_bind, if_neg (by simpa using current)]
  rfl

end Payloads

section Messages
variable (codec : Codec) {kalloc : Kalloc} (compressionLog : Bool) {sessionp : SmbSession} {m : Chain}

theorem compressionSignature_eq : compressionSignature = toLe 4 0x424d53fc := by decide

theorem decompressStart_small {size : Nat} {tail : Bytes} (memory : ∀ size, kalloc.alloc size ≠ none)
    (message : bytes m = compressionSignature ++ (toLe 4 size ++ tail)) (small : size ≤ kDefaultMaxIOSize) :
    ∃ mdp, mdp.rest = tail ∧ decompressStart codec kalloc compressionLog sessionp m =
      .ok (⟨codec, kalloc, !sessionp.compressionChainingOff, compressionLog, mbufGetChainLen m, size⟩, { mdp }) := by
  rw [compressionSignature_eq] at message
  obtain ⟨mdp1, first, rest⟩ := getUintLe_append ((rest_mdInitm m).trans message)
  obtain ⟨mdp2, second, rest⟩ := getUintLe_toLe rest (Nat.lt_of_le_of_lt small (by decide))
  obtain ⟨buf, fresh⟩ := Option.ne_none_iff_exists'.mp (memory (size * 2))
  refine ⟨mdp2, rest, ?_⟩
  simp only [decompressStart, mdGetUint32le, first, second, except_ok_bind, if_neg (Nat.not_lt.mpr small), fresh]

theorem decompressStart_large {size : Nat} {tail : Bytes}
    (message : bytes m = compressionSignature ++ (toLe 4 size ++ tail)) (large : kDefaultMaxIOSize < size)
    (fits : size < 256 ^ 4) : decompressStart codec kalloc compressionLog sessionp m = .error .e2big := by
  rw [compressionSignature_eq] at message
  obtain ⟨mdp1, first, rest⟩ := getUintLe_append ((rest_mdInitm m).trans message)
  obtain ⟨mdp2, second, -⟩ := getUintLe_toLe rest fits
  simp only [decompressStart, mdGetUint32le, first, second, except_ok_bind, if_pos large]

theorem smb2RqDecompressRead_result (compressing : Compressing sessionp) :
    (smb2RqDecompressRead codec kalloc compressionLog sessionp m).result =
      (decompressStart codec kalloc compressionLog sessionp m >>= fun (d, s) =>
        (d.decompress s).result >>= fun out => .ok (some out)) := by
  obtain ⟨smb3, map⟩ := compressing
  simp only [smb2RqDecompressRead, smb3, map, Bool.not_true, decide_false, Bool.or_false, Bool.false_eq_true,
    if_false, result_bind, result_lift, result_pure]

section
variable (memory : ∀ size, kalloc.alloc size ≠ none) (compressing : Compressing sessionp)
include memory compressing

theorem decompress_chained (chained : sessionp.compressionChainingOff = false)
    {first : Payload} {payloads : List Payload} {flags flags' : Nat}
    (readable : ∀ p ∈ first :: payloads, p.Readable codec) {content : Bytes}
    (whole : (first :: payloads).flatMap Payload.data = content)
    (message : bytes m = compressionSignature ++ (toLe 4 content.length ++
      (first.encode flags ++ payloads.flatMap (Payload.encode flags'))))
    (small : content.length ≤ kDefaultMaxIOSize) :
    (smb2RqDecompressRead codec kalloc compressionLog sessionp m).result = .ok (some content) := by
  obtain ⟨mdp, rest, started⟩ := decompressStart_small codec compressionLog memory message small
  rw [smb2RqDecompressRead_result codec compressionLog compressing, started, except_ok_bind]
  dsimp only
  generalize built : (⟨codec, kalloc, !sessionp.compressionChainingOff, compressionLog, mbufGetChainLen m,
    content.length⟩ : Decoder) = d
  have chained' : d.chainedCompress = true := by simp [← built, chained]
  have memory' : ∀ size, d.kalloc.alloc size ≠ none := by simpa [← built] using memory
  have segment : d.originalCompressedSegmentSize = content.length := by rw [← built]
  have small' : d.originalCompressedSegmentSize + 4 < 256 ^ 4 := by
    unfold kDefaultMaxIOSize at small
    omega
  have readable' : ∀ p ∈ (first, flags) :: payloads.map (·, flags'), p.1.Readable d.codec := by
    simpa [← built] using readable
  have total : ((first, flags) :: payloads.map (·, flags')).flatMap (·.1.data) = content := by
    rw [List.flatMap_cons, List.flatMap_map, ← whole, List.flatMap_cons]
  have fuel : mdp.rest.length < mdGetSize mdp + 1 := by
    rw [mdGetSize_eq]
    omega
  obtain ⟨last, ended, out, current⟩ := loop_added (s := { mdp }) chained' memory' small' readable'
    (by rw [List.flatMap_cons, List.flatMap_map, rest]) (by rw [total, segment, Nat.zero_add]) fuel
  rw [decompress_eq ended current, except_ok_bind, out, total]
  rfl

theorem decompress_chainedMessage (chained : sessionp.compressionChainingOff = false)
    {hdrWrite data : Bytes} {payloads : List Payload}
    (header : hdrWrite.length = hdrWriteLen) (decodable : ∀ p ∈ payloads, p.Decodable codec)
    (content : payloads.flatMap Payload.data = data) (message : bytes m = chainedMessage hdrWrite data.length payloads)
    (small : hdrWriteLen + data.length ≤ kDefaultMaxIOSize) :
    (smb2RqDecompressRead codec kalloc compressionLog sessionp m).result = .ok (some (hdrWrite ++ data)) := by
  have length : (hdrWrite ++ data).length = hdrWriteLen + data.length := by rw [List.length_append, header]
  have readable : ∀ p ∈ Payload.none hdrWrite :: payloads, p.Readable codec := by
    intro p member
    obtain rfl | member := List.mem_cons.mp member
    · rintro (rfl : hdrWrite = [])
      simp [hdrWriteLen] at header
    · refine (decodable p member).readable ?_
      have part := ((List.sublist_flatten_of_mem (List.mem_map_of_mem member)).length_le : p.data.length ≤ _)
      rw [← List.flatMap_def, content] at part
      unfold kDefaultMaxIOSize at small
      omega
  have whole : (Payload.none hdrWrite :: payloads).flatMap Payload.data = hdrWrite ++ data := by
    rw [List.flatMap_cons, content]
    rfl
  rw [chainedMessage, ← length] at message
  exact decompress_chained codec compressionLog memory compressing chained readable whole message (length ▸ small)

theorem decompress_nonchained (nonchained : sessionp.compressionChainingOff = true)
    {method : Method} {plain data compressed : Bytes} {flags : Nat}
    (readable : (Payload.codec method data compressed).Readable codec)
    (message : bytes m = compressionSignature ++ (toLe 4 data.length ++ (toLe 2 (Algorithm.codec method).wire ++
      (toLe 2 flags ++ (toLe 4 plain.length ++ (plain ++ compressed))))))
    (fits : 16 + plain.length + compressed.length < 2 ^ 32) (small : data.length ≤ kDefaultMaxIOSize) :
    (smb2RqDecompressRead codec kalloc compressionLog sessionp m).result =
      if plain.length ≤ data.length then .ok (some (plain ++ data)) else .error .einval := by
  obtain ⟨mdp, rest, started⟩ := decompressStart_small codec compressionLog memory message small
  rw [smb2RqDecompressRead_result codec compressionLog compressing, started, except_ok_bind]
  dsimp only
  have total : mbufGetChainLen m = 16 + plain.length + compressed.length := by
    rw [mbufGetChainLen_eq, message]
    simp only [List.length_append, length_toLe, compressionSignature, List.length_cons, List.length_nil]
    omega
  generalize built : (⟨codec, kalloc, !sessionp.compressionChainingOff, compressionLog, mbufGetChainLen m,
    data.length⟩ : Decoder) = d
  have nonchained' : d.chainedCompress = false := by simp [← built, nonchained]
  have memory' : ∀ size, d.kalloc.alloc size ≠ none := by simpa [← built] using memory
  have segment : d.originalCompressedSegmentSize = data.length := by rw [← built]
  have length : d.replyLen = 16 + plain.length + compressed.length := by rw [← built, total]
  obtain ⟨some', nonempty, -, decodes⟩ : (Payload.codec method data compressed).Readable d.codec := by rwa [← built]
  have positive := List.length_pos_iff.mpr some'
  have more : d.unfinished { mdp } = true := by simpa [Decoder.unfinished, segment] using positive
  obtain ⟨mdp1, read, rest1⟩ := payloadFields_encoded rest (Algorithm.wire_lt _) (by omega)
  have passing : (d.pass { mdp }).result = (d.nonchainedHeader plain.length { mdp := mdp1 }).result >>= fun s =>
      (d.payload (Algorithm.codec method).wire plain.length plain.length s).result := by
    rw [Decoder.pass, result_bind, result_lift, read, except_ok_bind]
    dsimp only
    rw [if_neg (by simp [nonchained']), result_bind]
  split
  · rename_i long
    have within : plain.length ≤ d.remaining { mdp := mdp1 } := by simpa [Decoder.remaining, segment] using long
    obtain ⟨after, headed⟩ := Decoder.nonchainedHeader_ok within (by simp [rest1])
    obtain ⟨-, -, copied⟩ := Decoder.nonchainedHeader_eq_ok headed
    have rest2 : after.mdp.rest = compressed := by rw [copied.rest, rest1, List.drop_left]
    have out : after.out = plain := by rw [copied.out, rest1, List.take_left, List.nil_append]
    have whole : d.replyLen % 2 ^ 32 = d.replyLen := Nat.mod_eq_of_lt (by rwa [length])
    have lengths : d.codecLengths plain.length plain.length after = .ok (compressed.length, data.length, after.mdp) := by
      have left : 16 + plain.length + compressed.length - plain.length - 16 = compressed.length := by omega
      rw [Decoder.codecLengths_nonchained plain.length nonchained' (by rw [whole, length]; omega), whole, length, left,
        segment]
    obtain ⟨next, decoded, added⟩ := codecPayload_added memory' lengths (by rw [rest2, List.append_nil]) some' decodes
    have passed : (d.pass { mdp }).result = .ok next := by
      rw [passing, headed, except_ok_bind, Decoder.payload, Algorithm.ofWire_wire]
      exact decoded
    have finished : next.currentDecompressedDataSize = d.originalCompressedSegmentSize := by
      rw [added.current, copied.current, segment, Nat.zero_add]
    have fuel : mdp.rest.length < mdGetSize mdp + 1 := by
      rw [mdGetSize_eq]
      omega
    obtain ⟨left, -, same⟩ := loop_next Decoder.pass_shrinks (s := { mdp }) fuel more passed
    have done : d.unfinished next = false := by simp [Decoder.unfinished, finished]
    rw [loop_stop done, result_pure] at same
    rw [decompress_eq same finished, except_ok_bind, added.out, out]
  · rename_i short
    have refused : (d.pass { mdp }).result = .error .einval := by
      rw [passing, Decoder.nonchainedHeader, if_pos]
      · rfl
      · simpa [Decoder.remaining, segment] using short
    rw [Decoder.decompress, result_bind, loop_fail more refused, except_error_bind, except_error_bind]

theorem decompress_nonchainedMessage (nonchained : sessionp.compressionChainingOff = true)
    {method : Method} {hdrWrite data compressed : Bytes}
    (header : hdrWrite.length = hdrWriteLen) (decodable : (Payload.codec method data compressed).Decodable codec)
    (message : bytes m = nonchainedMessage method hdrWrite data.length compressed)
    (small : data.length ≤ kDefaultMaxIOSize) :
    (smb2RqDecompressRead codec kalloc compressionLog sessionp m).result =
      if hdrWriteLen ≤ data.length then .ok (some (hdrWrite ++ data)) else .error .einval := by
  have bound : data.length ≤ 8 * 1024 * 1024 := small
  have shorter := decodable.2.1
  have readable : (Payload.codec method data compressed).Readable codec := decodable.readable (by
    change data.length + 4 < 256 ^ 4
    omega)
  rw [nonchainedMessage, ← header] at message
  rw [← header]
  refine decompress_nonchained codec compressionLog memory compressing nonchained readable message ?_ small
  rw [header, hdrWriteLen]
  omega

end

end Messages

/-- The message of a request that is marked as compressed decompresses to the request exactly if the
decoder's limits leave room for the uncompressed header. -/
theorem smb2RqDecompressRead_compressed_iff (codec : Codec) (inverts : codec.Inverts) (kalloc : Kalloc)
    (memory : ∀ size, kalloc.alloc size ≠ none) (compressionLog : Bool) (sessionp : SmbSession) (rqp : WriteRq)
    (message : Bytes) (marked : smb2RqCompressWrite codec kalloc sessionp rqp = .ok (.compressed message))
    (m : Chain) (received : bytes m = message) :
    let writeLen := ofLe (slice (bytes rqp.chain) hdrWriteLengthOff 4)
    (smb2RqDecompressRead codec kalloc compressionLog sessionp m).result =
        .ok (some ((bytes rqp.chain).take (hdrWriteLen + writeLen))) ↔
      if sessionp.compressionChainingOff then hdrWriteLen ≤ writeLen
      else hdrWriteLen + writeLen ≤ kDefaultMaxIOSize := by
  intro writeLen
  obtain same | ⟨compressing, method, hdrWrite, data, header, length, content, small, sent⟩ :=
    smb2RqCompressWrite_cases marked
  · cases same
  rw [show writeLen = data.length from length.symm, ← content]
  split at sent
  · rename_i nonchained
    rw [if_pos nonchained]
    simp only [compressNonchained, except_bind_eq_ok] at sent
    obtain ⟨compressed, encoded, sent⟩ := sent
    split at sent
    · cases sent
    · rename_i nonempty
      cases sent
      have value := smb2CompressData_eq_ok encoded
      have decodable : (Payload.codec method data compressed).Decodable codec := by
        rw [value] at nonempty ⊢
        exact ⟨nonempty, codec.encode_fits _ _ _, inverts _ _ _ nonempty⟩
      rw [decompress_nonchainedMessage codec compressionLog memory compressing nonchained header decodable received
        small]
      split <;> simp_all
  · rename_i chained
    rw [if_neg chained]
    simp only [compressChained, except_bind_eq_ok] at sent
    obtain ⟨result, chunks, sent⟩ := sent
    cases result with
    | none => cases sent
    | some result =>
      obtain ⟨payloads, saves⟩ := result
      cases saves with
      | false => cases sent
      | true =>
        cases sent
        obtain ⟨whole, decodable⟩ := compressChunks_spec inverts chunks
        by_cases fits : hdrWriteLen + data.length ≤ kDefaultMaxIOSize
        · refine iff_of_true ?_ fits
          exact decompress_chainedMessage codec compressionLog memory compressing
            (Bool.eq_false_iff.mpr chained) header decodable whole received fits
        · refine iff_of_false ?_ fits
          have large := Nat.lt_of_not_le fits
          rw [smb2RqDecompressRead_result codec compressionLog compressing,
            decompressStart_large codec compressionLog received large (by
              unfold kDefaultMaxIOSize at small
              unfold hdrWriteLen
              omega)]
          simp

def writeHdr (writeLen : Nat) : Bytes := List.replicate 68 0 ++ (toLe 4 writeLen ++ List.replicate 40 0)

def writeOf (data : Bytes) : WriteRq where
  chain := [writeHdr data.length, data]

theorem smb2RqDecompressRead_compressed_four :
    let message := chainedMessage (writeHdr 4) 4 [.pattern 5 3, .codec .lz77Huffman [7] [7]]
    (smb2RqDecompressRead .repeating .zeroed true compressingSession [message.take 10, [], message.drop 10]).result =
      .ok (some (writeHdr 4 ++ [5, 5, 5, 7])) := by
  have message := smb2RqDecompressRead_compressed_iff .repeating Codec.repeating_inverts .zeroed
    (fun _ => by simp [Kalloc.zeroed]) true compressingSession (writeOf [5, 5, 5, 7])
    (chainedMessage (writeHdr 4) 4 [.pattern 5 3, .codec .lz77Huffman [7] [7]]) (by decide +kernel)
    [(chainedMessage (writeHdr 4) 4 [.pattern 5 3, .codec .lz77Huffman [7] [7]]).take 10, [],
      (chainedMessage (writeHdr 4) 4 [.pattern 5 3, .codec .lz77Huffman [7] [7]]).drop 10]
    (by simp)
  exact message.mpr (by decide +kernel)

/-- A nonchained write of two bytes, fewer than the header that is sent uncompressed before them. -/
theorem smb2RqDecompressRead_compressed_refused :
    let sessionp := { compressingSession with compressionChainingOff := true }
    let message := nonchainedMessage .lz77Huffman (writeHdr 2) 2 [5]
    smb2RqCompressWrite .repeating .zeroed sessionp (writeOf [5, 5]) = .ok (.compressed message) ∧
      (smb2RqDecompressRead .repeating .zeroed false sessionp [message]).result = .error .einval := by
  decide +kernel

end SmbClient.Compression
