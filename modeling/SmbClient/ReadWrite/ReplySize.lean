import SmbClient.Compression.Roundtrip
import SmbClient.Crypt.Roundtrip
import SmbClient.Negotiate.Session
import SmbClient.ReadWrite.Reply

/-!
The largest read that a session may ask for, against the limits on what it takes in: `smb2_session_maxread`,
`smb3_msg_decrypt` and `smb2_rq_decompress_read`.
-/

namespace SmbClient.ReadWrite
open SmbClient.Lib SmbClient.Mbuf SmbClient.Session SmbClient.Crypt SmbClient.Compression SmbClient.Negotiate

inductive Compressed
  | chained (first : Payload) (payloads : List Payload)
  | nonchained (method : Method) (plain data compressed : Bytes)

namespace Compressed

def content : Compressed → Bytes
  | chained first payloads => (first :: payloads).flatMap Payload.data
  | nonchained _ plain data _ => plain ++ data

def bytes : Compressed → Bytes
  | form@(chained first payloads) =>
    compressionSignature ++ (toLe 4 form.content.length ++
      (first.encode compressionFlagChained ++ payloads.flatMap (Payload.encode compressionFlagNone)))
  | nonchained method plain data compressed =>
    compressionSignature ++ (toLe 4 data.length ++ (toLe 2 (Algorithm.codec method).wire ++
      (toLe 2 compressionFlagNone ++ (toLe 4 plain.length ++ (plain ++ compressed)))))

/-- A form that the session has negotiated, and that can be undone. -/
def WellFormed (codec : Codec) (sessionp : SmbSession) : Compressed → Prop
  | chained first payloads =>
    sessionp.compressionChainingOff = false ∧ ∀ p ∈ first :: payloads, p.Readable codec
  | nonchained method plain data compressed =>
    sessionp.compressionChainingOff = true ∧ (Payload.codec method data compressed).Readable codec ∧
      16 + plain.length + compressed.length < 2 ^ 32

/-- The uncompressed part is not longer than what is compressed. -/
def Balanced : Compressed → Prop
  | chained _ _ => True
  | nonchained _ plain data _ => plain.length ≤ data.length

end Compressed

structure Intake where
  kpi : MbufKpi
  kalloc : Kalloc
  cc : CcModes
  codec : Codec
  compressionLog : Bool
  sessionp : SmbSession
  memory : ∀ size, kalloc.alloc size ≠ none
  keyed : sessionp.smb3DecryptKey ≠ []
  compressing : Compressing sessionp

namespace Intake
variable (intake : Intake)

def Decrypts (wire : Chain) (reply : Bytes) : Prop :=
  ∃ payload, (smb3MsgDecrypt intake.kpi intake.kalloc intake.cc intake.sessionp wire).1 = .ok payload ∧
    Mbuf.bytes payload = reply

def Decompresses (m : Chain) (reply : Bytes) : Prop :=
  (smb2RqDecompressRead intake.codec intake.kalloc intake.compressionLog intake.sessionp m).result = .ok (some reply)

structure Server (server : SmbSession) : Prop where
  key : intake.sessionp.smb3DecryptKey = server.smb3EncryptKey
  mode : cipherMode intake.sessionp.smb3EncryptCiper = cipherMode server.smb3EncryptCiper

/-- The encrypted forms of a reply are decrypted, and its compressed forms decompressed. -/
def TakesIn (reply : Bytes) : Prop :=
  (∀ server wire, intake.Server server →
    Mbuf.bytes wire = sealedMessage intake.cc server intake.sessionp.sessionId reply → intake.Decrypts wire reply) ∧
  ∀ (form : Compressed) (m : Chain), form.WellFormed intake.codec intake.sessionp → form.content = reply →
    form.Balanced → Mbuf.bytes m = form.bytes → intake.Decompresses m reply

variable {intake} {reply : Bytes}

theorem decrypts_small (small : reply.length ≤ kDefaultMaxIOSize) {server : SmbSession} (same : intake.Server server)
    {wire : Chain} (carried : Mbuf.bytes wire = sealedMessage intake.cc server intake.sessionp.sessionId reply) :
    intake.Decrypts wire reply := by
  let rqp : EncryptRq := { command := 0x0008, rq := [], rqSessionId := intake.sessionp.sessionId }
  have ends : SameSession server intake.sessionp rqp := ⟨same.key, same.mode, rfl⟩
  exact smb3MsgDecrypt_sealed intake.kpi intake.kalloc intake.cc (fun size _ => intake.memory size) ends
    (same.key ▸ intake.keyed) small carried

theorem decompresses_small (small : reply.length ≤ kDefaultMaxIOSize) {form : Compressed}
    (wellFormed : form.WellFormed intake.codec intake.sessionp) (whole : form.content = reply) (balanced : form.Balanced)
    {m : Chain} (carried : Mbuf.bytes m = form.bytes) : intake.Decompresses m reply := by
  subst whole
  cases form with
  | chained first payloads =>
    obtain ⟨chained, readable⟩ := wellFormed
    exact decompress_chained _ _ intake.memory intake.compressing chained readable rfl carried small
  | nonchained method plain data compressed =>
    obtain ⟨nonchained, readable, fits⟩ := wellFormed
    have part : data.length ≤ kDefaultMaxIOSize := by
      rw [Compressed.content, List.length_append] at small
      exact Nat.le_trans (Nat.le_add_left _ _) small
    exact (decompress_nonchained _ _ intake.memory intake.compressing nonchained readable carried fits part).trans
      (if_pos balanced)

theorem takesIn_of_small (small : reply.length ≤ kDefaultMaxIOSize) : intake.TakesIn reply :=
  ⟨fun _ _ same carried => decrypts_small small same carried,
    fun _ _ wellFormed whole balanced carried => decompresses_small small wellFormed whole balanced carried⟩

theorem not_takesIn_of_large (large : kDefaultMaxIOSize < reply.length) (fits : reply.length ≤ 0xffffffff) :
    ¬intake.TakesIn reply := by
  rintro ⟨decrypts, -⟩
  let server := { intake.sessionp with smb3EncryptKey := intake.sessionp.smb3DecryptKey }
  let rqp : EncryptRq := { command := 0x0008, rq := [], rqSessionId := intake.sessionp.sessionId }
  let wire : Chain := [sealedMessage intake.cc server rqp.rqSessionId reply]
  have carried : Mbuf.bytes wire = sealedMessage intake.cc server rqp.rqSessionId reply := by simp [wire]
  obtain ⟨payload, opened, -⟩ := decrypts server wire ⟨rfl, rfl⟩ carried
  exact smb3MsgDecrypt_sealed_large intake.kpi intake.kalloc intake.cc large fits carried payload opened

theorem not_decompresses_unbalanced {form : Compressed} (wellFormed : form.WellFormed intake.codec intake.sessionp)
    (unbalanced : ¬form.Balanced) {m : Chain} (carried : Mbuf.bytes m = form.bytes) : ¬intake.Decompresses m reply := by
  cases form with
  | chained first payloads => exact absurd trivial unbalanced
  | nonchained method plain data compressed =>
    obtain ⟨nonchained, readable, fits⟩ := wellFormed
    have longer : data.length < plain.length := Nat.lt_of_not_le unbalanced
    intro decompresses
    unfold Intake.Decompresses at decompresses
    by_cases part : data.length ≤ kDefaultMaxIOSize
    · rw [decompress_nonchained _ _ intake.memory intake.compressing nonchained readable carried fits part,
        if_neg (Nat.not_le.mpr longer)] at decompresses
      cases decompresses
    · have start : decompressStart intake.codec intake.kalloc intake.compressionLog intake.sessionp m =
          .error .e2big := decompressStart_large _ _ carried (Nat.lt_of_not_le part) (by omega)
      rw [smb2RqDecompressRead_result _ _ intake.compressing, start] at decompresses
      cases decompresses

end Intake

/-- `PAGE_SIZE`: a proper divisor of the largest transfer, and more than the header of a reply. -/
structure PageSize (pageSize : Nat) : Prop where
  divides : pageSize ∣ kDefaultMaxIOSize
  proper : pageSize < kDefaultMaxIOSize
  header : 255 ≤ pageSize

/-- The server or the socket keeps reads below the largest transfer, or `max_read` leaves room for the header of
a reply, as the one that a mount with its own read sizes passes does not. -/
def RoomForHeader (tunables : Tunables) (sessionp : NegSession) (maxRead : Nat) : Prop :=
  sessionp.sopt.svMaxread < kDefaultMaxIOSize ∨ (∃ nbp ∈ tunables.tdata, nbp.rcvbuf < kDefaultMaxIOSize) ∨
    maxRead + 255 ≤ kDefaultMaxIOSize

def pageAligned (pageSize maxmsgsize : Nat) : Nat :=
  if maxmsgsize > pageSize then maxmsgsize / pageSize * pageSize else maxmsgsize

theorem sessionMaxIo_eq (pageSize srvrMax : Nat) (sockbuf : Option Nat) (maxIo : Nat) :
    sessionMaxIo pageSize srvrMax sockbuf maxIo =
      min (pageAligned pageSize (min srvrMax (sockbuf.getD srvrMax))) maxIo := by
  rw [Nat.min_def]
  unfold sessionMaxIo
  dsimp only
  rw [← pageAligned]
  split <;> split <;> omega

section Aligned
variable {pageSize maxmsgsize : Nat} (pages : PageSize pageSize)
include pages

theorem pageAligned_lt (small : maxmsgsize < kDefaultMaxIOSize) :
    pageAligned pageSize maxmsgsize + 255 ≤ kDefaultMaxIOSize := by
  obtain ⟨count, whole⟩ := pages.divides
  have header := pages.header
  unfold pageAligned
  split
  · -- the aligned size is a smaller multiple of the page size
    have fewer : maxmsgsize / pageSize < count := Nat.div_lt_of_lt_mul (whole ▸ small)
    have below : (maxmsgsize / pageSize + 1) * pageSize ≤ count * pageSize := Nat.mul_le_mul_right _ fewer
    rw [Nat.add_mul, Nat.one_mul, Nat.mul_comm count, ← whole] at below
    omega
  · -- a page is not more than half of the largest transfer
    have more : 1 < count := by
      by_contra few
      have proper := pages.proper
      rw [whole] at proper
      obtain none | one : count = 0 ∨ count = 1 := by omega
      · simp [none] at proper
      · simp [one] at proper
    have half : pageSize * 2 ≤ pageSize * count := Nat.mul_le_mul_left _ more
    rw [← whole] at half
    omega

theorem le_pageAligned (large : kDefaultMaxIOSize ≤ maxmsgsize) :
    kDefaultMaxIOSize ≤ pageAligned pageSize maxmsgsize := by
  obtain ⟨count, whole⟩ := pages.divides
  have header := pages.header
  have beyond := Nat.lt_of_lt_of_le pages.proper large
  rw [pageAligned, if_pos beyond, whole, Nat.mul_comm]
  refine Nat.mul_le_mul_right _ ((Nat.le_div_iff_mul_le (by omega)).mpr ?_)
  rwa [Nat.mul_comm, ← whole]

end Aligned

theorem smb2SessionMaxread_iff {tunables : Tunables} (pages : PageSize tunables.pageSize) (sessionp : NegSession)
    (maxRead : Nat) :
    smb2SessionMaxread tunables sessionp maxRead + 255 ≤ kDefaultMaxIOSize ↔
      RoomForHeader tunables sessionp maxRead := by
  have sock : min sessionp.sopt.svMaxread ((tunables.tdata.map (·.rcvbuf)).getD sessionp.sopt.svMaxread) <
      kDefaultMaxIOSize ↔ sessionp.sopt.svMaxread < kDefaultMaxIOSize ∨
        ∃ nbp ∈ tunables.tdata, nbp.rcvbuf < kDefaultMaxIOSize := by
    cases tunables.tdata with
    | none => simp
    | some nbp => simp
  rw [smb2SessionMaxread, sessionMaxIo_eq, RoomForHeader, ← or_assoc, ← sock]
  generalize min sessionp.sopt.svMaxread _ = maxmsgsize
  by_cases small : maxmsgsize < kDefaultMaxIOSize
  · have aligned := pageAligned_lt pages small
    refine iff_of_true ?_ (.inl small)
    omega
  · have aligned := le_pageAligned pages (Nat.le_of_not_lt small)
    have positive : 0 < kDefaultMaxIOSize := by decide
    rw [or_iff_right small]
    omega

/-- Every reply to a read of an allowed size is taken in exactly if the sizes of reads leave room for
its header; and a reply that is compressed without chaining never is, if more of it stands before the
compressed part than in it. -/
theorem readRsp_takenIn_iff (intake : Intake) (tunables : Tunables) (pages : PageSize tunables.pageSize)
    (sessionp : NegSession) (maxRead : Nat) :
    ((∀ n ≤ smb2SessionMaxread tunables sessionp maxRead, ∀ rsp : ReadRsp, rsp.data.length = n →
        intake.TakesIn rsp.bytes) ↔
      RoomForHeader tunables sessionp maxRead) ∧
    ∀ (rsp : ReadRsp) (form : Compressed) (m : Chain), form.WellFormed intake.codec intake.sessionp →
      form.content = rsp.bytes → ¬form.Balanced → Mbuf.bytes m = form.bytes → ¬intake.Decompresses m rsp.bytes := by
  refine ⟨?_, fun _ _ _ wellFormed _ unbalanced carried => Intake.not_decompresses_unbalanced wellFormed unbalanced carried⟩
  rw [← smb2SessionMaxread_iff pages]
  refine ⟨fun takesIn => ?_, fun room n allowed rsp asked => ?_⟩
  · by_contra tight
    let n := kDefaultMaxIOSize - 254
    let rsp : ReadRsp := ⟨List.replicate 64 0, 0, 0, 0, List.replicate 175 0, List.replicate n 0,
      List.length_replicate, by rw [List.length_replicate]⟩
    have length : rsp.bytes.length = 255 + n := by
      rw [rsp.length_bytes, List.length_replicate, List.length_replicate]
    have size : n = 8 * 1024 * 1024 - 254 := rfl
    have limit : kDefaultMaxIOSize = 8 * 1024 * 1024 := rfl
    refine Intake.not_takesIn_of_large ?_ ?_ (takesIn n (by omega) rsp List.length_replicate)
    · omega
    · omega
  · apply Intake.takesIn_of_small
    have offset := rsp.padding_length
    rw [rsp.length_bytes]
    omega

def sampleIntake : Intake where
  kpi := .copying
  kalloc := .zeroed
  cc := shiftedModes
  codec := .repeating
  compressionLog := false
  sessionp := { gcmSession with serverCompressionAlgorithmsMap := 4 }
  memory size := by simp [Kalloc.zeroed]
  keyed := by decide
  compressing := ⟨rfl, by decide⟩

def tunablesWith (rcvbuf : Nat) : Tunables where
  pageSize := 4096
  maxread := kDefaultMaxIOSize
  maxwrite := kDefaultMaxIOSize
  tdata := some ⟨2 * 1024 * 1024, rcvbuf⟩

def generousServer : NegSession := { sopt.svMaxread := kDefaultMaxIOSize }

theorem pageSize_4096 : PageSize 4096 := ⟨⟨2048, rfl⟩, by decide, by decide⟩

theorem readRsp_takenIn_defaults :
    smb2SessionMaxread (tunablesWith (2 * 1024 * 1024)) generousServer kDefaultMaxIOSize = 2 * 1024 * 1024 ∧
      ∀ n ≤ smb2SessionMaxread (tunablesWith (2 * 1024 * 1024)) generousServer kDefaultMaxIOSize,
        ∀ rsp : ReadRsp, rsp.data.length = n → sampleIntake.TakesIn rsp.bytes :=
  ⟨by decide, (readRsp_takenIn_iff sampleIntake (tunablesWith (2 * 1024 * 1024)) pageSize_4096 generousServer
    kDefaultMaxIOSize).1.mpr (.inr (.inl ⟨_, rfl, by decide⟩))⟩

/-- A read of 8 MiB, which a socket buffer of that size allows. -/
theorem largest_read_refused :
    smb2SessionMaxread (tunablesWith kDefaultMaxIOSize) generousServer kDefaultMaxIOSize = kDefaultMaxIOSize ∧
      ∃ rsp : ReadRsp, rsp.data.length = kDefaultMaxIOSize ∧ rsp.padding = [] ∧ ¬sampleIntake.TakesIn rsp.bytes := by
  let rsp : ReadRsp := ⟨List.replicate 64 0, 0, 0, 0, [], List.replicate kDefaultMaxIOSize 0,
    List.length_replicate, by decide⟩
  have length : rsp.bytes.length = 80 + kDefaultMaxIOSize := by
    rw [rsp.length_bytes, List.length_replicate]
    rfl
  refine ⟨by decide, rsp, List.length_replicate, rfl, Intake.not_takesIn_of_large ?_ ?_⟩
  · rw [length]
    decide
  · rw [length]
    decide

end SmbClient.ReadWrite
