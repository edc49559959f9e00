import SmbClient.Compression.Decompress

namespace SmbClient.Compression
open SmbClient.Lib SmbClient.Lib.Traced SmbClient.Mbuf SmbClient.Session

namespace Decoder
variable (d : Decoder) (offset : Nat) (s : Progress)

theorem allLogged_putMem (data : Bytes) : AllLogged Copy.InBounds (d.putMem offset data s) ↔
    Fits s.out.length data.length (d.originalCompressedSegmentSize + offset) := by
  simp [putMem, allLogged_bind, Copy.InBounds]

theorem allLogged_mdGetMemPutMem (size : Nat) : AllLogged Copy.InBounds (d.mdGetMemPutMem offset size s) ↔
    Fits s.out.length (min size s.mdp.rest.length) (d.originalCompressedSegmentSize + offset) := by
  simp only [mdGetMemPutMem, allLogged_bind, allLogged_putMem, mdGetMem_target, List.length_take]
  refine and_iff_left fun next _ => ?_
  cases (mdGetMem s.mdp size).error <;> simp

theorem allLogged_getMemInto (area : Area) (room : Nat) (mdp : MdChain) (size : Nat) :
    AllLogged Copy.InBounds (getMemInto area room mdp size) ↔ Fits 0 (min size mdp.rest.length) room := by
  simp [getMemInto, allLogged_bind, Copy.InBounds, mdGetMem_target]

def passedOn (readHdr : Bool) (n available : Nat) : Nat :=
  if d.compressionLog && readHdr && decide (hdrLen < n) && decide (available < hdrLen) then 0
  else min n available

theorem allLogged_putUncompressed (readHdr : Bool) (n : Nat) :
    AllLogged Copy.InBounds (d.putUncompressed offset readHdr n s) ↔
      Fits s.out.length (d.passedOn readHdr n s.mdp.rest.length) (d.originalCompressedSegmentSize + offset) := by
  unfold putUncompressed passedOn
  by_cases header : (d.compressionLog && readHdr && decide (hdrLen < n)) = true
  · have long : hdrLen < n := by
      simp only [Bool.and_eq_true, decide_eq_true_eq] at header
      exact header.2
    have own : Fits 0 (min hdrLen s.mdp.rest.length) hdrLen := .inr (by omega)
    rw [if_pos header, allLogged_bind, allLogged_getMemInto, and_iff_right own, result_getMemInto]
    by_cases short : s.mdp.rest.length < hdrLen
    · simp [getMem_short _ _ short, header, short, Fits]
    · obtain ⟨afterHdr, fetched, left⟩ := getMem_ok s.mdp hdrLen (Nat.le_of_not_lt short)
      have last : min (n - hdrLen) (s.mdp.rest.length - hdrLen) = min n s.mdp.rest.length - hdrLen := by omega
      simp only [fetched, Except.ok.injEq, forall_eq', allLogged_bind, allLogged_putMem, result_putMem,
        allLogged_mdGetMemPutMem, List.length_append, List.length_take, left, List.length_drop, header, short,
        decide_false, Bool.and_false, Bool.false_eq_true, if_false, last]
      unfold Fits
      omega
  · rw [if_neg header, allLogged_mdGetMemPutMem]
    simp [header]

def Decodes (method : Method) (compressed : Bytes) (dataLen : Nat) : Prop :=
  ∃ data, d.codec.smb2DecompressData d.kalloc method compressed dataLen = .ok data ∧ data.length = dataLen

theorem allLogged_nonePayload (compressLen : Nat) :
    AllLogged Copy.InBounds (d.nonePayload offset compressLen s) ↔
      (compressLen ≤ d.remaining s → Fits s.out.length (d.passedOn (!s.readSmbHdr) compressLen s.mdp.rest.length)
        (d.originalCompressedSegmentSize + offset)) := by
  unfold nonePayload
  by_cases fits : compressLen ≤ d.remaining s
  · simp [Nat.not_lt.mpr fits, fits, allLogged_bind, allLogged_putUncompressed]
  · simp [Nat.lt_of_not_le fits, fits]

theorem allLogged_patternPayload : AllLogged Copy.InBounds (d.patternPayload offset s) ↔
    (8 ≤ s.mdp.rest.length → ofLe (slice s.mdp.rest 4 4) ≤ d.remaining s →
      Fits s.out.length (ofLe (slice s.mdp.rest 4 4)) (d.originalCompressedSegmentSize + offset)) := by
  unfold patternPayload
  rw [allLogged_bind, allLogged_lift, true_and, result_lift]
  by_cases enough : 8 ≤ s.mdp.rest.length
  · obtain ⟨mdp, read, -⟩ := patternFields_ok enough
    simp only [read, Except.ok.injEq, forall_eq', enough, forall_const]
    by_cases fits : ofLe (slice s.mdp.rest 4 4) ≤ d.remaining s
    · have room := Nat.le_trans fits (d.remaining_le s)
      have own : Fits 0 (ofLe (slice s.mdp.rest 4 4)) d.originalCompressedSegmentSize := .inr (by omega)
      simp [Nat.not_lt.mpr fits, fits, allLogged_bind, allLogged_putMem, Copy.InBounds, own]
    · simp [Nat.lt_of_not_le fits, fits]
  · refine iff_of_true (fun fields read => ?_) (fun long => absurd long enough)
    exact absurd (patternFields_eq_ok read).1 enough

theorem allLogged_codecPayload (method : Method) (compressLen : Nat) :
    AllLogged Copy.InBounds (d.codecPayload method offset compressLen s) ↔
      ∀ n dataLen mdp, d.codecLengths offset compressLen s = .ok (n, dataLen, mdp) →
        min n mdp.rest.length ≤ d.originalCompressedSegmentSize ∧
          (n ≤ mdp.rest.length → d.Decodes method (mdp.rest.take n) dataLen →
            Fits s.out.length dataLen (d.originalCompressedSegmentSize + offset)) := by
  unfold codecPayload
  rw [allLogged_bind, allLogged_lift, true_and, result_lift]
  constructor
  · intro all n dataLen mdp found
    have inner := all _ found
    rw [allLogged_bind, allLogged_getMemInto] at inner
    refine ⟨by have := inner.1; unfold Fits at this; omega, fun enough decodes => ?_⟩
    obtain ⟨mdp', fetched, -⟩ := getMem_ok mdp n enough
    obtain ⟨data, decoded, full⟩ := decodes
    have last := inner.2 _ fetched
    simp only [allLogged_bind, allLogged_lift, result_lift, result_emit, allLogged_emit] at last
    have put := (last.2 () trivial).2 data decoded
    rw [if_neg (by simpa using full), allLogged_bind, allLogged_putMem, full] at put
    exact put.1
  · rintro fits ⟨n, dataLen, mdp⟩ found
    obtain ⟨copied, written⟩ := fits n dataLen mdp found
    have lengths := codecLengths_eq_ok offset found
    have room : dataLen ≤ d.originalCompressedSegmentSize := by
      split at lengths
      · exact Nat.le_trans lengths.2.2.1 (d.remaining_le s)
      · exact Nat.le_of_eq lengths.2.2.1
    rw [allLogged_bind, allLogged_getMemInto]
    refine ⟨.inr (by omega), ?_⟩
    rintro ⟨compressed, mdp'⟩ fetched
    obtain ⟨enough, rfl, -⟩ := getMem_eq_ok fetched
    simp only [allLogged_bind, allLogged_lift, result_lift, result_emit, allLogged_emit, true_and]
    refine ⟨.inr (by dsimp only; omega), fun _ _ data decoded => ?_⟩
    split
    · exact (allLogged_fail _ _).mpr trivial
    · rename_i full
      have full := Decidable.not_not.mp full
      rw [allLogged_bind, allLogged_putMem, full]
      exact ⟨written enough ⟨data, decoded, full⟩, fun _ _ => (allLogged_pure _ _).mpr trivial⟩

def ChainedFits (s : Progress) : Prop :=
  let rest := s.mdp.rest
  let compressLen := ofLe (slice rest 4 4)
  ∀ method, Algorithm.ofWire (ofLe (slice rest 0 2)) = some (.codec method) →
    12 ≤ rest.length → compressLen ≤ rest.length - 8 → ofLe (slice rest 8 4) ≤ d.remaining s →
      4 < compressLen → compressLen ≤ d.originalCompressedSegmentSize + 4

def NonchainedPayloadFits (s : Progress) (algorithm offset : Nat) (body : Bytes) : Prop :=
  match Algorithm.ofWire algorithm with
  | none => True
  | some .none =>
    let readSmbHdr := s.readSmbHdr || (d.compressionLog && decide (hdrLen < offset))
    Fits s.out.length (d.passedOn (!readSmbHdr) offset body.length) d.originalCompressedSegmentSize
  | some .patternV1 =>
    8 ≤ body.length → ofLe (slice body 4 4) ≤ d.remaining s →
      Fits s.out.length (ofLe (slice body 4 4)) d.originalCompressedSegmentSize
  | some (.codec method) =>
    let compressLen := d.replyLen % 2 ^ 32 - offset - 16
    offset + 16 ≤ d.replyLen % 2 ^ 32 →
      min compressLen body.length ≤ d.originalCompressedSegmentSize ∧
        (compressLen ≤ body.length →
          d.Decodes method (body.take compressLen) d.originalCompressedSegmentSize → s.out = [])

def NonchainedFits (s : Progress) : Prop :=
  let rest := s.mdp.rest
  let offset := ofLe (slice rest 4 4)
  8 ≤ rest.length → offset ≤ d.remaining s →
    Fits s.out.length (d.passedOn true offset (rest.length - 8)) (d.originalCompressedSegmentSize + offset) ∧
      (offset ≤ rest.length - 8 →
        d.NonchainedPayloadFits s (ofLe (slice rest 0 2)) offset (rest.drop (8 + offset)))

def PassFits (s : Progress) : Prop := if d.chainedCompress then d.ChainedFits s else d.NonchainedFits s

def Chained (s : Progress) : Prop :=
  s.out.length = s.currentDecompressedDataSize ∧
    s.currentDecompressedDataSize ≤ d.originalCompressedSegmentSize

variable {d s}

theorem Chained.pass (chained : d.chainedCompress = true) (exact : d.Chained s) {next : Progress}
    (ended : (d.pass s).result = .ok next) : d.Chained next := by
  obtain ⟨n, out, current, -, within⟩ := pass_placed ended
  specialize within chained
  rw [offsetBytes, if_pos chained] at out
  unfold remaining at within
  obtain ⟨same, most⟩ := exact
  exact ⟨by omega, by omega⟩

theorem Chained.fits (exact : d.Chained s) {n : Nat} (within : n ≤ d.remaining s) :
    Fits s.out.length n d.originalCompressedSegmentSize := by
  obtain ⟨same, most⟩ := exact
  unfold remaining at within
  exact .inr (by omega)

theorem passedOn_le (readHdr : Bool) (n available : Nat) : d.passedOn readHdr n available ≤ n := by
  unfold passedOn
  split <;> omega

theorem allLogged_chained (exact : d.Chained s) (algorithm compressLen : Nat) (chained : d.chainedCompress = true)
    (within : compressLen ≤ s.mdp.rest.length) :
    AllLogged Copy.InBounds (d.payload algorithm 0 compressLen s) ↔
      ∀ method, Algorithm.ofWire algorithm = some (.codec method) → 4 ≤ s.mdp.rest.length →
        ofLe (slice s.mdp.rest 0 4) ≤ d.remaining s → 4 < compressLen →
          compressLen ≤ d.originalCompressedSegmentSize + 4 := by
  unfold payload
  cases kind : Algorithm.ofWire algorithm with
  | none => simp
  | some algorithm =>
    cases algorithm with
    | none =>
      rw [allLogged_nonePayload]
      refine iff_of_true (fun fits => ?_) (by simp)
      exact exact.fits (Nat.le_trans (passedOn_le _ _ _) fits)
    | patternV1 =>
      rw [allLogged_patternPayload]
      exact iff_of_true (fun _ fits => exact.fits fits) (by simp)
    | codec method =>
      rw [allLogged_codecPayload]
      constructor
      · intro all _ _ enough size long
        obtain ⟨mdp, found, left⟩ := codecLengths_chained 0 chained enough size long
        have copied := (all _ _ _ found).1
        rw [left, List.length_drop] at copied
        omega
      · intro bound n dataLen mdp found
        have lengths := codecLengths_eq_ok 0 found
        rw [if_pos chained] at lengths
        obtain ⟨enough, long, size, rfl, rfl, left⟩ := lengths
        have least := bound method rfl enough size long
        exact ⟨by omega, fun _ _ => exact.fits size⟩

theorem allLogged_nonchained {after : Progress} (nonchained : d.chainedCompress = false) (algorithm offset : Nat)
    (copied : d.Uncompressed true offset s after) (within : offset ≤ d.remaining s) (part : offset ≤ s.mdp.rest.length)
    (unfinished : d.unfinished s) :
    AllLogged Copy.InBounds (d.payload algorithm offset offset after) ↔
      d.NonchainedPayloadFits s algorithm offset after.mdp.rest := by
  have same : d.remaining after = d.remaining s := by rw [remaining, copied.current, remaining]
  have length : after.out.length = s.out.length + offset := by
    rw [copied.out, List.length_append, List.length_take, Nat.min_eq_left part]
  have shifted (n : Nat) : Fits after.out.length n (d.originalCompressedSegmentSize + offset) ↔
      Fits s.out.length n d.originalCompressedSegmentSize := by
    rw [length]
    unfold Fits
    omega
  unfold payload NonchainedPayloadFits
  cases kind : Algorithm.ofWire algorithm with
  | none => simp
  | some algorithm =>
    cases algorithm with
    | none =>
      simp only [allLogged_nonePayload, shifted, same, within, forall_const, copied.readSmbHdr, Bool.and_true]
    | patternV1 =>
      simp only [allLogged_patternPayload, shifted, same]
    | codec method =>
      have some' : 0 < d.originalCompressedSegmentSize := by
        have := of_decide_eq_true unfinished
        omega
      have empty : Fits s.out.length d.originalCompressedSegmentSize d.originalCompressedSegmentSize ↔
          s.out = [] := by
        rw [← List.length_eq_zero_iff]
        unfold Fits
        omega
      simp only [allLogged_codecPayload, shifted]
      constructor
      · intro all long
        simpa only [empty] using all _ _ _ (codecLengths_nonchained offset nonchained long)
      · intro fits n dataLen mdp found
        have lengths := codecLengths_eq_ok offset found
        rw [if_neg (by simp [nonchained])] at lengths
        obtain ⟨long, rfl, rfl, rfl⟩ := lengths
        simpa only [empty] using fits long

theorem allLogged_nonchainedHeader (offset : Nat) :
    AllLogged Copy.InBounds (d.nonchainedHeader offset s) ↔
      (offset ≤ d.remaining s → Fits s.out.length (d.passedOn true offset s.mdp.rest.length)
        (d.originalCompressedSegmentSize + offset)) := by
  unfold nonchainedHeader
  by_cases within : offset ≤ d.remaining s
  · rw [if_neg (Nat.not_lt.mpr within)]
    split
    · rename_i nothing
      subst nothing
      simp [Fits, passedOn]
    · simp [allLogged_putUncompressed, within]
  · simp [Nat.lt_of_not_le within, within]

theorem allLogged_chainedHeader (word : Nat) : AllLogged Copy.InBounds (chainedHeader word s) := by
  unfold chainedHeader
  split <;> simp

theorem allLogged_pass_iff (exact : d.chainedCompress = true → d.Chained s) (unfinished : d.unfinished s) :
    AllLogged Copy.InBounds (d.pass s) ↔ d.PassFits s := by
  unfold pass PassFits
  rw [allLogged_bind, allLogged_lift, true_and, result_lift]
  by_cases enough : 8 ≤ s.mdp.rest.length
  · obtain ⟨mdp, read, left⟩ := payloadFields_ok enough
    have next : slice mdp.rest 0 4 = slice s.mdp.rest 8 4 := by simp [slice, left]
    have length : mdp.rest.length = s.mdp.rest.length - 8 := by rw [left, List.length_drop]
    simp only [read, Except.ok.injEq, forall_eq']
    cases chained : d.chainedCompress with
    | true =>
      rw [if_pos rfl, if_pos rfl, allLogged_bind, and_iff_right (allLogged_chainedHeader _)]
      by_cases within : ofLe (slice s.mdp.rest 4 4) ≤ mdp.rest.length
      · have exact' : d.Chained { s with mdp } := exact chained
        rw [chainedHeader_ok within]
        simp only [Except.ok.injEq, forall_eq', allLogged_chained exact' _ _ chained within, next]
        refine forall₂_congr fun method codec => ?_
        rw [length] at within ⊢
        have four : 4 ≤ s.mdp.rest.length - 8 ↔ 12 ≤ s.mdp.rest.length := by omega
        rw [four]
        exact forall_congr' fun _ => (imp_iff_right within).symm
      · rw [length] at within
        refine iff_of_true (fun after header => ?_) (fun _ _ _ part => absurd part within)
        have part := (chainedHeader_eq_ok header).1
        rw [length] at part
        exact absurd part within
    | false =>
      have rest : mdp.rest.drop (ofLe (slice s.mdp.rest 4 4)) =
          s.mdp.rest.drop (8 + ofLe (slice s.mdp.rest 4 4)) := by rw [left, List.drop_drop]
      rw [if_neg Bool.false_ne_true, if_neg Bool.false_ne_true, allLogged_bind, allLogged_nonchainedHeader]
      unfold NonchainedFits
      simp only [enough, forall_const, length]
      by_cases within : ofLe (slice s.mdp.rest 4 4) ≤ d.remaining s
      · have within' : ofLe (slice s.mdp.rest 4 4) ≤ d.remaining { s with mdp } := within
        simp only [within, within', forall_const]
        refine and_congr_right fun _ => ?_
        rw [← length]
        constructor
        · intro all part
          obtain ⟨after, header⟩ := nonchainedHeader_ok within' part
          obtain ⟨-, -, copied⟩ := nonchainedHeader_eq_ok header
          have inner := (allLogged_nonchained chained _ _ copied within' part unfinished).mp (all after header)
          rwa [copied.rest, rest] at inner
        · intro fits after header
          obtain ⟨-, part, copied⟩ := nonchainedHeader_eq_ok header
          refine (allLogged_nonchained chained _ _ copied within' part unfinished).mpr ?_
          rw [copied.rest, rest]
          exact fits part
      · refine iff_of_true ⟨fun part => absurd part within, fun after header => ?_⟩ (fun part => absurd part within)
        exact absurd (nonchainedHeader_eq_ok header).1 within
  · have stops (fields : Nat × Nat × MdChain) : payloadFields s.mdp ≠ .ok fields :=
      fun read => enough (payloadFields_eq_ok read).1
    refine iff_of_true (fun fields read => absurd read (stops fields)) ?_
    split
    · intro _ _ long
      omega
    · intro long
      exact absurd long enough

theorem allLogged_decompress_iff (exact : d.chainedCompress = true → d.Chained s) :
    AllLogged Copy.InBounds (d.decompress s) ↔ ∀ t, Visits d.unfinished d.pass s t → d.PassFits t := by
  have final (last : Progress) : AllLogged Copy.InBounds
      (if last.currentDecompressedDataSize ≠ d.originalCompressedSegmentSize then fail .einval
        else Pure.pure last.out : Copying Bytes) := by
    split <;> simp
  have fuel : s.mdp.rest.length < mdGetSize s.mdp + 1 := by rw [mdGetSize_eq]; omega
  rw [decompress, allLogged_bind, and_iff_left fun last _ => final last,
    allLogged_loop_iff pass_shrinks fuel]
  refine forall₂_congr fun t visit => ?_
  have keeps (s next : Progress) (exact : d.chainedCompress = true → d.Chained s)
      (ended : (d.pass s).result = .ok next) (chained : d.chainedCompress = true) : d.Chained next :=
    (exact chained).pass chained ended
  obtain ⟨exact', more⟩ := visit.invariant keeps exact
  exact allLogged_pass_iff exact' more

end Decoder

theorem decompressStart_eq_ok {codec : Codec} {kalloc : Kalloc} {compressionLog : Bool} {sessionp : SmbSession}
    {m : Chain} {d : Decoder} {s : Progress}
    (started : decompressStart codec kalloc compressionLog sessionp m = .ok (d, s)) : d.Chained s := by
  simp only [decompressStart, except_bind_eq_ok] at started
  obtain ⟨⟨protocolId, mdp⟩, -, ⟨size, mdp'⟩, -, started⟩ := started
  dsimp only at started
  split at started
  · cases started
  · split at started
    · cases started
    · simp only [Except.ok.injEq, Prod.mk.injEq] at started
      obtain ⟨rfl, rfl⟩ := started
      exact ⟨rfl, Nat.zero_le _⟩

theorem smb2RqDecompressRead_inBounds_iff (codec : Codec) (kalloc : Kalloc) (compressionLog : Bool)
    (sessionp : SmbSession) (m : Chain) :
    AllLogged Copy.InBounds (smb2RqDecompressRead codec kalloc compressionLog sessionp m) ↔
      (sessionp.dialect.smb3OrLater = true → sessionp.serverCompressionAlgorithmsMap ≠ 0 →
        ∀ d start, decompressStart codec kalloc compressionLog sessionp m = .ok (d, start) →
          ∀ s, Visits d.unfinished d.pass start s → d.PassFits s) := by
  unfold smb2RqDecompressRead
  by_cases compressing : sessionp.dialect.smb3OrLater = true ∧ sessionp.serverCompressionAlgorithmsMap ≠ 0
  · obtain ⟨smb3, map⟩ := compressing
    simp only [smb3, map, Bool.not_true, decide_false, Bool.or_false, Bool.false_eq_true, if_false, ne_eq,
      not_false_eq_true, forall_const, allLogged_bind, allLogged_lift, true_and, result_lift, Prod.forall,
      allLogged_pure, implies_true, and_true]
    refine forall₃_congr fun d start started => ?_
    exact Decoder.allLogged_decompress_iff fun _ => decompressStart_eq_ok started
  · rw [if_pos]
    · refine iff_of_true ((allLogged_pure _ _).mpr trivial) (fun smb3 map => absurd ⟨smb3, map⟩ compressing)
    · simp only [not_and_or, ne_eq, not_not, Bool.not_eq_true] at compressing
      simpa using compressing

def longPayload : Bytes :=
  [0xfc, 0x53, 0x4d, 0x42] ++ toLe 4 1 ++ (toLe 2 3 ++ toLe 2 0 ++ toLe 4 14 ++ toLe 4 1 ++ List.replicate 10 5)

def twoPayloads : Bytes :=
  [0xfc, 0x53, 0x4d, 0x42] ++ toLe 4 20 ++ (toLe 2 0 ++ toLe 2 0 ++ toLe 4 10 ++ List.replicate 20 5) ++
    (toLe 2 0 ++ toLe 2 0 ++ toLe 4 10 ++ List.replicate 20 6)

theorem smb2RqDecompressRead_outOfBounds :
    (⟨.compressed, 0, 10, 1⟩ : Copy) ∈
        (smb2RqDecompressRead .repeating .zeroed false compressingSession [longPayload]).log ∧
      ¬(⟨.compressed, 0, 10, 1⟩ : Copy).InBounds ∧
      (⟨.output, 30, 10, 30⟩ : Copy) ∈
        (smb2RqDecompressRead .repeating .zeroed false { compressingSession with compressionChainingOff := true }
          [twoPayloads]).log ∧
      ¬(⟨.output, 30, 10, 30⟩ : Copy).InBounds := by
  decide +kernel

end SmbClient.Compression
