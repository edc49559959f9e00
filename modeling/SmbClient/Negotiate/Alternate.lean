import SmbClient.Negotiate.Accepted

/-! What a response on an alternate channel does to the parameters of its session. -/

namespace SmbClient.Negotiate
open SmbClient.Lib SmbClient.Lib.Fallible SmbClient.Mbuf SmbClient.Mbuf.Reader

def Neg.reached (neg : Neg) (kalloc : Kalloc) (data : Bytes) : List Setting :=
  if neg.AcceptsHead data ∧ neg.AcceptsTail kalloc data ∧ neg.sessionp.flags.smb311 = true then
    let contexts := (NegotiateResponse.ofBytes data).contexts kalloc
    (contexts.settings neg.expected (data.drop contexts.negBytesParsed)).1
  else []

theorem Neg.recorded_alternate {neg : Neg} (alternate : neg.iod.alternateChannel = true)
    (save : NegSession → NegSession) : neg.recorded save = neg := by
  rw [Neg.recorded, if_pos alternate]

theorem alternate_security (kalloc : Kalloc) (smb1Req : Bool) {s : Reading Neg}
    (alternate : s.state.iod.alternateChannel = true) :
    (smb2SmbParseNegotiate kalloc smb1Req s).2.state.sessionp.security =
      (s.state.reached kalloc s.mdp.rest).foldl (Setting.save true) s.state.sessionp.security := by
  unfold smb2SmbParseNegotiate
  by_cases head : s.state.AcceptsHead s.mdp.rest
  · obtain ⟨dialect, t, run, _, place, state⟩ := (settles_parseHead rfl).ok head
    rw [Neg.recorded_alternate alternate] at state
    rw [bind_of_ok run, state_bind, state, if_neg (by simp [alternate])]
    unfold parseTailAndContexts
    by_cases tail : s.state.AcceptsTail kalloc s.mdp.rest
    · obtain ⟨⟨contexts, error⟩, u, run, rfl, _, place, final⟩ :=
        (settles_parseTail kalloc place head.1).ok (state ▸ tail)
      rw [state, Neg.recorded_alternate alternate] at final
      have sessionp : u.state.sessionp = s.state.sessionp := by rw [final]
      have channel : u.state.iod.alternateChannel = s.state.iod.alternateChannel := by
        rw [final]
        exact NegIod.alternateChannel_withToken _ _
      rw [bind_of_ok run]
      simp only
      rw [state_bind, sessionp]
      have expected : u.state.expected = s.state.expected := by
        unfold Neg.expected
        rw [channel, sessionp]
      unfold Neg.reached
      by_cases smb311 : s.state.sessionp.flags.smb311 = true
      · rw [if_pos smb311, if_pos ⟨head, tail, smb311⟩,
          (yields_parseNegotiateContexts _ place).state, Neg.saveAll, channel, sessionp, alternate, expected]
      · rw [if_neg smb311, if_neg (fun reached => smb311 reached.2.2)]
        cases error <;> exact congrArg NegSession.security sessionp
    · obtain ⟨e, u, run⟩ := (settles_parseTail kalloc place head.1).error (state ▸ tail)
      have kept := keepsSecurity_parseTail kalloc t
      rw [run, state] at kept
      rw [bind_of_error run, Neg.reached, if_neg (fun reached => tail reached.2.1)]
      exact kept
  · obtain ⟨e, t, run⟩ := (settles_parseHead rfl).error head
    have kept := keepsSecurity_parseHead s
    rw [run] at kept
    rw [bind_of_error run, Neg.reached, if_neg (fun reached => head reached.1)]
    exact kept

/-! ## When the parameters stay as they are -/

def Setting.signing? : Setting → Option Nat
  | signingAlgorithm algorithm => some algorithm
  | _ => none

/-- The settings say nothing that the session does not have: the signing algorithm that is named last is
the session's, every compression algorithm is one of the session's, and chaining is off already or
offered by every compression context. -/
structure SecurityParams.Has (security : SecurityParams) (settings : List Setting) : Prop where
  signing : ∀ algorithm ∈ (settings.filterMap Setting.signing?).getLast?, algorithm = security.signingAlgorithm
  compression : ∀ algorithm, Setting.compressionAlgorithm algorithm ∈ settings →
    security.compressionAlgorithmsMap ||| compressionAlgorithmBit algorithm = security.compressionAlgorithmsMap
  chaining : security.compressionChainingOff = true ∨
    Setting.compressionFlags smb2CompressionCapabilitiesFlagNone ∉ settings

variable (security : SecurityParams) (settings : List Setting)

theorem save_compressionFlags (flags : Nat) : Setting.save true security (.compressionFlags flags) =
    { security with
      compressionChainingOff := security.compressionChainingOff || flags == smb2CompressionCapabilitiesFlagNone } := by
  obtain ⟨_, _, _, off⟩ := security
  simp only [Setting.save]
  cases off <;> cases flags == smb2CompressionCapabilitiesFlagNone <;> rfl

theorem foldl_save_cipher : (settings.foldl (Setting.save true) security).encryptCiper = security.encryptCiper := by
  induction settings generalizing security with
  | nil => rfl
  | cons setting rest ih =>
    refine (ih _).trans ?_
    cases setting with
    | compressionFlags flags => rw [save_compressionFlags]
    | _ => rfl

theorem foldl_save_signing : (settings.foldl (Setting.save true) security).signingAlgorithm =
    (settings.filterMap Setting.signing?).getLast?.getD security.signingAlgorithm := by
  induction settings generalizing security with
  | nil => rfl
  | cons setting rest ih =>
    refine (ih _).trans ?_
    cases setting with
    | signingAlgorithm algorithm =>
      simp only [List.filterMap_cons, Setting.signing?, Setting.save, List.getLast?_cons, Option.getD_some]
    | compressionFlags flags =>
      rw [save_compressionFlags]
      rfl
    | _ => rfl

theorem foldl_save_or : security.compressionAlgorithmsMap |||
      (settings.foldl (Setting.save true) security).compressionAlgorithmsMap =
    (settings.foldl (Setting.save true) security).compressionAlgorithmsMap := by
  induction settings generalizing security with
  | nil => exact Nat.or_self _
  | cons setting rest ih =>
    have grown := ih (setting.save true security)
    rw [List.foldl_cons]
    cases setting with
    | compressionAlgorithm algorithm =>
      rw [← grown]
      simp only [Setting.save]
      rw [← Nat.or_assoc, ← Nat.or_assoc, Nat.or_self]
    | compressionFlags flags =>
      rw [save_compressionFlags] at grown ⊢
      exact grown
    | _ => exact grown

theorem foldl_save_map : (settings.foldl (Setting.save true) security).compressionAlgorithmsMap =
      security.compressionAlgorithmsMap ↔
    ∀ algorithm, Setting.compressionAlgorithm algorithm ∈ settings →
      security.compressionAlgorithmsMap ||| compressionAlgorithmBit algorithm = security.compressionAlgorithmsMap := by
  induction settings generalizing security with
  | nil => simp
  | cons setting rest ih =>
    rw [List.foldl_cons]
    cases setting with
    | compressionAlgorithm algorithm =>
      simp only [List.mem_cons, Setting.compressionAlgorithm.injEq, forall_eq_or_imp]
      constructor
      · intro same
        have grown := foldl_save_or (Setting.save true security (.compressionAlgorithm algorithm)) rest
        rw [same] at grown
        have has : security.compressionAlgorithmsMap ||| compressionAlgorithmBit algorithm =
            security.compressionAlgorithmsMap := by
          rwa [Setting.save, Nat.or_comm, ← Nat.or_assoc, Nat.or_self] at grown
        refine ⟨has, ?_⟩
        rw [Setting.save, has] at same
        exact (ih security).mp same
      · rintro ⟨has, others⟩
        rw [Setting.save, has]
        exact (ih security).mpr others
    | compressionFlags flags =>
      rw [save_compressionFlags]
      simpa using ih { security with compressionChainingOff := _ }
    | cipher algorithm => simpa [Setting.save] using ih security
    | signingAlgorithm algorithm => simpa [Setting.save] using ih { security with signingAlgorithm := algorithm }

theorem foldl_save_chaining : (settings.foldl (Setting.save true) security).compressionChainingOff = true ↔
    security.compressionChainingOff = true ∨
      Setting.compressionFlags smb2CompressionCapabilitiesFlagNone ∈ settings := by
  induction settings generalizing security with
  | nil => simp
  | cons setting rest ih =>
    rw [List.foldl_cons, ih]
    cases setting with
    | compressionFlags flags =>
      rw [save_compressionFlags]
      rw [Bool.or_eq_true, beq_iff_eq, List.mem_cons, Setting.compressionFlags.injEq, or_assoc, eq_comm (a := flags)]
    | _ => simp [Setting.save]

/-- A response on an alternate channel leaves the parameters of the session alone just when it says
nothing about them that the session does not have. -/
theorem alternate_security_unchanged_iff (kalloc : Kalloc) (smb1Req : Bool) (s : Reading Neg)
    (alternate : s.state.iod.alternateChannel = true) :
    (smb2SmbParseNegotiate kalloc smb1Req s).2.state.sessionp.security = s.state.sessionp.security ↔
      s.state.sessionp.security.Has (s.state.reached kalloc s.mdp.rest) := by
  rw [alternate_security kalloc smb1Req alternate]
  generalize s.state.reached kalloc s.mdp.rest = settings
  generalize s.state.sessionp.security = security
  have fields (other : SecurityParams) : other = security ↔ other.encryptCiper = security.encryptCiper ∧
      other.signingAlgorithm = security.signingAlgorithm ∧
      other.compressionAlgorithmsMap = security.compressionAlgorithmsMap ∧
      other.compressionChainingOff = security.compressionChainingOff := by
    cases other
    cases security
    simp
  rw [fields, foldl_save_map, foldl_save_signing]
  have off := foldl_save_chaining security settings
  constructor
  · intro ⟨_, signing, compression, chaining⟩
    refine ⟨fun algorithm last => ?_, compression, ?_⟩
    · rw [Option.mem_def.mp last] at signing
      exact signing
    · rw [chaining] at off
      by_cases already : security.compressionChainingOff = true
      · exact .inl already
      · exact .inr fun found => already (off.mpr (.inr found))
  · intro has
    refine ⟨foldl_save_cipher security settings, ?_, has.compression, ?_⟩
    · cases last : (settings.filterMap Setting.signing?).getLast? with
      | none => rfl
      | some algorithm => exact has.signing algorithm last
    · rw [Bool.eq_iff_iff, off]
      rcases has.chaining with already | absent
      · simp [already]
      · simp [absent]

/-! ## A session with AES-GMAC that gets a channel -/

def signingResponse (algorithm : Nat) : Bytes :=
  toLe 2 65 ++ toLe 2 1 ++ toLe 2 smb2Dialect0311 ++ toLe 2 1 ++ List.replicate 16 0 ++ List.replicate 16 0 ++
    List.replicate 16 0 ++ toLe 2 0 ++ toLe 2 0 ++ toLe 4 128 ++
    (toLe 2 8 ++ toLe 2 4 ++ toLe 4 0 ++ toLe 2 1 ++ toLe 2 algorithm)

def gmacNeg : Neg where
  sessionp := {
    flags := { smb2 := true, smb311 := true }
    sopt := { svSecurityMode := 1, svDialect := smb2Dialect0311 }
    security := { encryptCiper := 2, signingAlgorithm := smb2SigningAesGmac, compressionAlgorithmsMap := 6 } }
  iod := { alternateChannel := true }

theorem alternate_security_unchanged_gmac :
    (smb2SmbParseNegotiate .zeroed false ⟨mdInitm [signingResponse smb2SigningAesGmac], gmacNeg⟩).2.state.sessionp.security =
      gmacNeg.sessionp.security := by
  apply (alternate_security_unchanged_iff .zeroed false ⟨mdInitm [signingResponse smb2SigningAesGmac], gmacNeg⟩ rfl).mpr
  have reached : gmacNeg.reached .zeroed (signingResponse smb2SigningAesGmac) =
      [.signingAlgorithm smb2SigningAesGmac] := by decide +kernel
  rw [rest_mdInitm, bytes_cons, bytes_nil, List.append_nil, reached]
  exact ⟨by simp [Setting.signing?, gmacNeg], by simp, by simp⟩

/-- The channel's response is accepted, and from then on the session signs with AES-CMAC. -/
theorem alternate_changes_signing :
    let parsed := smb2SmbParseNegotiate .zeroed false ⟨mdInitm [signingResponse smb2SigningAesCmac], gmacNeg⟩
    errorOf parsed.1 = none ∧ parsed.2.state.sessionp.security.signingAlgorithm = smb2SigningAesCmac ∧
      gmacNeg.sessionp.security.signingAlgorithm = smb2SigningAesGmac := by
  decide +kernel

end SmbClient.Negotiate
