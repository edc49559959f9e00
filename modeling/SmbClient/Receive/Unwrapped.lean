import SmbClient.Compression.Consumption
import SmbClient.Compression.Roundtrip
import SmbClient.Receive.Authenticated

/-!
The header that `smb_iod_recvall` finds the request of a packet by. It is read at `mbuf_data` of the opened
packet, after `mbuf_pullup` where the packet came as it is, and with no check at all where it was decompressed.
-/

namespace SmbClient.Receive
open SmbClient.Lib SmbClient.Mbuf SmbClient.Session SmbClient.Signing SmbClient.Compression

def headerRead (m : Chain) (beyond : Bytes) : Bytes := (m.headD [] ++ beyond).take smb2HdrLen

/-- The header is made of bytes of the packet, whatever lies beyond them. -/
def HeaderInside (m : Chain) : Prop :=
  smb2HdrLen ≤ (bytes m).length ∧
    ∀ beyond, smb2HdrLen ≤ beyond.length → headerRead m beyond = (bytes m).take smb2HdrLen

theorem headD_prefix_bytes (m : Chain) : m.headD [] <+: bytes m := by
  cases m with
  | nil => exact List.prefix_refl []
  | cons first rest => exact List.prefix_append first (bytes rest)

theorem headerInside_iff (m : Chain) : HeaderInside m ↔ smb2HdrLen ≤ (m.headD []).length := by
  obtain ⟨rest, split⟩ := headD_prefix_bytes m
  unfold HeaderInside headerRead
  rw [← split]
  generalize m.headD [] = first
  constructor
  · intro ⟨long, same⟩
    by_contra short
    cases rest with
    | nil =>
      rw [List.append_nil] at long
      exact short long
    | cons next rest =>
      -- memory may hold another byte than the packet where the first mbuf ends
      have inside : first.length < smb2HdrLen := Nat.lt_of_not_le short
      have differs := same ((next + 1) :: List.replicate smb2HdrLen 0) (by simp)
      have atEnd := congrArg (·[first.length]?) differs
      simp [List.getElem?_take_of_lt inside] at atEnd
  · intro long
    refine ⟨by rw [List.length_append]; omega, fun beyond _ => ?_⟩
    rw [List.take_append_of_le_length long, List.take_append_of_le_length long]

variable {m pulled : Chain}

theorem HeaderInside.fields (inside : HeaderInside m) {beyond : Bytes} (long : smb2HdrLen ≤ beyond.length) :
    Smb2Header.ofBytes (headerRead m beyond) = Smb2Header.ofBytes (bytes m) := by
  have within (off len : Nat) (fits : off + len ≤ 64) :
      slice ((bytes m).take smb2HdrLen) off len = slice (bytes m) off len := slice_take fits
  rw [inside.2 beyond long]
  simp [Smb2Header.ofBytes, within]

/-! ## Packets that were decompressed -/

/-- `mbuf_gethdr` gives an mbuf with room for a header, and `mb_put_mem` fills it before it takes another one. -/
def Env.FillsFirst (env : Env) : Prop :=
  ∀ data, min smb2HdrLen data.length ≤ ((env.layout data).headD []).length

def pulledUp (env : Env) (m : Chain) : Option Chain :=
  (env.kpi.pullup m smbHdrLen).bind fun m => env.kpi.pullup m smb2HdrLen

theorem pulledUp_bytes {env : Env} (took : pulledUp env m = some pulled) :
    bytes pulled = bytes m ∧ smb2HdrLen ≤ (pulled.headD []).length := by
  obtain ⟨first, short, long⟩ := Option.bind_eq_some_iff.mp took
  obtain ⟨same, -⟩ := env.kpi.pullup_bytes _ _ _ short
  obtain ⟨same', enough⟩ := env.kpi.pullup_bytes _ _ _ long
  exact ⟨same'.trans same, enough⟩

theorem pulledUp_take {env : Env} (took : pulledUp env m = some pulled) :
    (pulled.headD []).take 4 = (bytes m).take 4 := by
  obtain ⟨same, long⟩ := pulledUp_bytes took
  obtain ⟨rest, split⟩ := headD_prefix_bytes pulled
  rw [← same, ← split, List.take_append_of_le_length (Nat.le_trans (by decide) long)]

theorem pullup_head? {kpi : MbufKpi} {n : Nat} (took : kpi.pullup m n = some pulled)
    (positive : 0 < n) : (pulled.headD []).head? = (bytes m).head? := by
  have same := congrArg List.head? (kpi.pullup_head took)
  simpa [List.head?_take, Nat.ne_of_gt positive] using same

/-- `smb2_rq_decompress_read` replaces the message by `after`, with the payloads read from `start` on. -/
structure Unwraps (env : Env) (sessionp : SmbSession) (m : Chain) (d : Decoder) (start : Progress) (after : Chain) :
    Prop where
  signature : (bytes m).take 4 = smb2SignatureCompression
  decompressed : ∃ pulled, pulledUp env m = some pulled ∧
    Decompressed env.codec env.kalloc env.compressionLog sessionp pulled d start after

def declaredSize (sessionp : SmbSession) (m : Chain) (d : Decoder) (start : Progress) : Nat :=
  originalSize m + if sessionp.compressionChainingOff then ((d.turnsFrom start).map Progress.word).sum else 0

section
variable {env : Env} {sessionp : SmbSession} {m packet after : Chain} {d : Decoder} {start : Progress}

theorem Unwraps.length (unwraps : Unwraps env sessionp m d start after) :
    (bytes after).length = declaredSize sessionp m d start := by
  obtain ⟨pulled, took, done⟩ := unwraps.decompressed
  rw [done.size, declaredSize, originalSize, originalSize, (pulledUp_bytes took).1]

theorem openPacket_smb2 {smb1Allowed : Bool}
    (opened : (openPacket env sessionp smb1Allowed m).1 = some (.smb2 packet)) :
    pulledUp env m = some packet ∨
      ∃ d start after, Unwraps env sessionp m d start after ∧ packet = env.layout (bytes after) := by
  unfold openPacket at opened
  cases short : env.kpi.pullup m smbHdrLen with
  | none => simp [short] at opened
  | some first =>
    simp only [short] at opened
    split at opened
    · cases long : env.kpi.pullup first smb2HdrLen with
      | none => simp [long] at opened
      | some pulled =>
        have took : pulledUp env m = some pulled := by
          unfold pulledUp
          rw [short, Option.bind_some, long]
        simp only [long] at opened
        split at opened
        · cases opened
        · split at opened
          · rename_i compressed
            obtain ⟨smb3, map, signature⟩ := compressed
            rw [pulledUp_take took] at signature
            split at opened
            · cases opened
            · cases opened
              exact .inl took
            · rename_i content ended
              cases opened
              obtain ⟨d, start, done⟩ := decompressed_of_result smb3 map ended
              exact .inr ⟨d, start, _, ⟨signature, pulled, took, done⟩, by simp⟩
          · cases opened
            exact .inl took
    · split at opened
      · cases opened
      · split at opened <;> cases opened

theorem Unwraps.openPacket (unwraps : Unwraps env sessionp m d start after) (smb1Allowed : Bool) :
    (openPacket env sessionp smb1Allowed m).1 = some (.smb2 (env.layout (bytes after))) := by
  obtain ⟨pulled, took, done⟩ := unwraps.decompressed
  obtain ⟨first, short, long⟩ := Option.bind_eq_some_iff.mp took
  have signature : (pulled.headD []).take 4 = smb2SignatureCompression := by
    rw [pulledUp_take took, unwraps.signature]
  have byte : (first.headD []).head? = some 0xfc := by
    rw [pullup_head? short (by decide)]
    have same := congrArg List.head? unwraps.signature
    rwa [List.head?_take, if_neg (by decide)] at same
  unfold Receive.openPacket
  simp only [short, byte, long, signature, done.smb3, done.result]
  simp [done.map]

theorem headerInside_layout (fills : env.FillsFirst) (data : Bytes) :
    HeaderInside (env.layout data) ↔ smb2HdrLen ≤ data.length := by
  constructor
  · intro inside
    rw [← env.layout_bytes data]
    exact inside.1
  · intro long
    rw [headerInside_iff]
    have filled := fills data
    rwa [Nat.min_eq_left long] at filled

end

def Receiver.opened (env : Env) (s : Receiver) (wire : Chain) : Option Packet :=
  match smbNbstRecv env s.sessionp wire with
  | (.error _, _) => none
  | (.ok m, sessionp) => (openPacket env sessionp s.smb1Allowed m).1

theorem opened_headerInside_iff (env : Env) (fills : env.FillsFirst) (s : Receiver) (wire : Chain) :
    (∀ packet, s.opened env wire = some (.smb2 packet) → HeaderInside packet) ↔
      ∀ m sessionp d start after, smbNbstRecv env s.sessionp wire = (.ok m, sessionp) →
        Unwraps env sessionp m d start after → smb2HdrLen ≤ declaredSize sessionp m d start := by
  unfold Receiver.opened
  constructor
  · intro inside m sessionp d start after received unwraps
    rw [received] at inside
    have header := inside _ (unwraps.openPacket s.smb1Allowed)
    rwa [headerInside_layout fills, unwraps.length] at header
  · intro declared packet opened
    split at opened
    · cases opened
    · rename_i m sessionp received
      rcases openPacket_smb2 opened with took | ⟨d, start, after, unwraps, rfl⟩
      · rw [headerInside_iff]
        exact (pulledUp_bytes took).2
      · rw [headerInside_layout fills, unwraps.length]
        exact declared m sessionp d start after received unwraps

def plainPayload (data : Bytes) : Bytes :=
  smb2SignatureCompression ++ toLe 4 data.length ++ (toLe 2 0 ++ toLe 2 0 ++ toLe 4 data.length ++ data)

def compressedReceiver : Receiver :=
  (Receiver.initial compressingSession {} {}).enqueue [readRq 5]

theorem sampleEnv_fillsFirst : sampleEnv.FillsFirst := fun data => Nat.min_le_right _ data.length

/-- The whole reply comes in one payload. -/
theorem opened_headerInside_iff_whole :
    ∃ packet, compressedReceiver.opened sampleEnv [plainPayload (unsignedRsp 5)] = some (.smb2 packet) ∧
      HeaderInside packet := by
  refine ⟨[unsignedRsp 5], by decide +kernel, ?_⟩
  refine (opened_headerInside_iff sampleEnv sampleEnv_fillsFirst compressedReceiver
    [plainPayload (unsignedRsp 5)]).mpr ?_ _ (by decide +kernel)
  intro m sessionp d start after received unwraps
  have plain : smbNbstRecv sampleEnv compressedReceiver.sessionp [plainPayload (unsignedRsp 5)] =
      (.ok [plainPayload (unsignedRsp 5)], compressingSession) := by decide +kernel
  rw [plain, Prod.mk.injEq, Except.ok.injEq] at received
  have declared : smb2HdrLen ≤ originalSize [plainPayload (unsignedRsp 5)] := by decide +kernel
  rw [← received.1]
  exact Nat.le_trans declared (Nat.le_add_right _ _)

/-- The first 48 bytes of a reply, as a compressed message of 64, are all it takes to answer the request. -/
theorem opened_header_beyond :
    let cut := (unsignedRsp 5).take 48
    let wire := [plainPayload cut]
    compressedReceiver.opened sampleEnv wire = some (.smb2 [cut]) ∧ ¬HeaderInside [cut] ∧
      ((compressedReceiver.frame sampleEnv wire).rqs.lookup 0).map (·.rqp.response) = some true := by
  refine ⟨by decide +kernel, fun inside => ?_, by decide +kernel⟩
  have long := inside.1
  revert long
  decide

end SmbClient.Receive
