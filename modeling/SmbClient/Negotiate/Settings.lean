import SmbClient.Negotiate.Response

/-! What the contexts of a response say, read off its bytes, and that the parser does just that. -/

namespace SmbClient.Negotiate
open SmbClient.Lib SmbClient.Lib.Fallible SmbClient.Mbuf SmbClient.Mbuf.Reader

abbrev Found := List Setting × Option Errno

def Found.then (first : Found) (second : Found) : Found :=
  match first.2 with
  | some e => (first.1, some e)
  | none => (first.1 ++ second.1, second.2)

def short : Found := ([], some .ebadrpc)

def preauthSettings (data : Bytes) : Found :=
  if data.length < 4 ∨ data.length < 4 + 2 * ofLe (slice data 0 2) + ofLe (slice data 2 2) then short else ([], none)

def cipherSettings (expected : Option Nat) (data : Bytes) : Found :=
  if data.length < 2 ∨ ofLe (slice data 0 2) ≠ 1 ∨ data.length < 4 then short
  else if expected.any (· != ofLe (slice data 2 2)) then ([], some .einval)
  else ([.cipher (ofLe (slice data 2 2))], none)

def algorithmSettings : Nat → Bytes → Found
  | 0, _ => ([], none)
  | count + 1, data =>
    if data.length < 2 then short
    else
      let rest := algorithmSettings count (data.drop 2)
      (.compressionAlgorithm (ofLe (slice data 0 2)) :: rest.1, rest.2)

def compressionSettings (data : Bytes) : Found :=
  if data.length < 8 then short
  else
    let algorithms := algorithmSettings (ofLe (slice data 0 2)) (data.drop 8)
    (.compressionFlags (ofLe (slice data 4 4)) :: algorithms.1, algorithms.2)

def signingSettings (data : Bytes) : Found :=
  if data.length < 2 ∨ ofLe (slice data 0 2) ≠ 1 ∨ data.length < 4 then short
  else if ofLe (slice data 2 2) ≠ smb2SigningAesCmac ∧ ofLe (slice data 2 2) ≠ smb2SigningAesGmac then
    ([], some .einval)
  else ([.signingAlgorithm (ofLe (slice data 2 2))], none)

def contextSettings (expected : Option Nat) (data : Bytes) : Found :=
  if data.length < 8 then short
  else
    match ContextType.ofCode (ofLe (slice data 0 2)) with
    | .preauthIntegrity => preauthSettings (data.drop 8)
    | .encryption => cipherSettings expected (data.drop 8)
    | .compression => compressionSettings (data.drop 8)
    | .signing => signingSettings (data.drop 8)
    | .ignored => ([], none)

def contextsSettings (expected : Option Nat) : Nat → Bytes → Found
  | 0, data => contextSettings expected data
  | count + 1, data =>
    let stride := contextStride (ofLe (slice data 2 2))
    (contextSettings expected data).then
      (if data.length < stride then short else contextsSettings expected count (data.drop stride))

def Contexts.settings (contexts : Contexts) (expected : Option Nat) (data : Bytes) : Found :=
  if data.length < contexts.gap then short
  else contextsSettings expected contexts.more (data.drop contexts.gap)

/-! ## The parser finds and stores these settings -/

def Neg.expected (neg : Neg) : Option Nat :=
  if neg.iod.alternateChannel then some neg.sessionp.security.encryptCiper else none

def Neg.saveAll (neg : Neg) (settings : List Setting) : Neg :=
  { neg with
    sessionp.security := settings.foldl (Setting.save neg.iod.alternateChannel) neg.sessionp.security }

theorem Neg.saveAll_append (neg : Neg) (first second : List Setting) :
    neg.saveAll (first ++ second) = (neg.saveAll first).saveAll second := by
  unfold Neg.saveAll
  rw [List.foldl_append]

theorem Neg.expected_save (neg : Neg) (setting : Setting) : (neg.saveAll [setting]).expected = neg.expected := by
  unfold Neg.expected Neg.saveAll
  cases alternate : neg.iod.alternateChannel with
  | false => simp
  | true =>
    cases setting with
    | compressionFlags flags =>
      simp only [List.foldl_cons, List.foldl_nil, Setting.save]
      split_ifs <;> rfl
    | _ => simp [Setting.save]

theorem Neg.expected_saveAll (neg : Neg) (settings : List Setting) :
    (neg.saveAll settings).expected = neg.expected := by
  induction settings generalizing neg with
  | nil => rfl
  | cons setting rest ih =>
    calc (neg.saveAll (setting :: rest)).expected
        = ((neg.saveAll [setting]).saveAll rest).expected := by rw [← Neg.saveAll_append]; rfl
      _ = (neg.saveAll [setting]).expected := ih _
      _ = neg.expected := neg.expected_save setting

def errorOf {α : Type} : Except Errno α → Option Errno
  | .ok _ => none
  | .error e => some e

/-- From the state `s` the parser finds the settings of `found`, stores them and ends as it does. -/
structure Yields {α : Type} (p : NegReader α) (s : Reading Neg) (found : Found) : Prop where
  error : errorOf (p s).1 = found.2
  state : (p s).2.state = s.state.saveAll found.1

section
variable {α : Type} {p : NegReader α} {s t : Reading Neg} {found : Found}

theorem Yields.ended {result : Except Errno α} (run : p s = (result, t)) (same : t.state = s.state) :
    Yields p s ([], errorOf result) := by
  refine ⟨?_, ?_⟩
  · rw [run]
  · rw [run]
    exact same

theorem Yields.failed {e : Errno} (run : p s = (.error e, t)) (same : t.state = s.state) : Yields p s ([], some e) :=
  .ended run same

theorem Yields.of_eq {q : NegReader α} (run : p s = q t) (same : t.state = s.state) (after : Yields q t found) :
    Yields p s found := by
  refine ⟨?_, ?_⟩
  · rw [run]
    exact after.error
  · rw [run, after.state, same]

theorem Yields.pure (a : α) (s : Reading Neg) : Yields (Pure.pure a) s ([], none) := .ended rfl rfl

variable {size k : Nat} {data : Bytes} {f : Unit → NegReader α}

section
variable (place : s.mdp.rest = data.drop k) (inside : k ≤ data.length)
  (missing : data.length < k + size → found = short)
include place inside missing

theorem Yields.getMem {f : Bytes → NegReader α}
    (after : k + size ≤ data.length → ∀ t, t.mdp.rest = data.drop (k + size) → t.state = s.state →
      Yields (f (slice data k size)) t found) :
    Yields (Reader.getMem size >>= f) s found := by
  rcases Nat.lt_or_ge data.length (k + size) with lacking | enough
  · obtain ⟨t, run, same⟩ := getMem_short place lacking inside f
    rw [missing lacking]
    exact .failed run same
  · obtain ⟨t, run, place, same⟩ := getMem_at place enough f
    exact .of_eq run same (after enough t place same)

theorem Yields.getUint {f : Nat → NegReader α}
    (after : k + size ≤ data.length → ∀ t, t.mdp.rest = data.drop (k + size) → t.state = s.state →
      Yields (f (ofLe (slice data k size))) t found) :
    Yields (Reader.getUint size >>= f) s found := by
  unfold Reader.getUint
  rw [bind_bind]
  exact .getMem place inside missing after

theorem Yields.skip
    (after : k + size ≤ data.length → ∀ t, t.mdp.rest = data.drop (k + size) → t.state = s.state →
      Yields (f ()) t found) :
    Yields (Reader.skip size >>= f) s found := by
  unfold Reader.skip
  rw [bind_bind]
  exact .getMem place inside missing after

end

theorem Yields.require {e : Errno} {holds : Prop} [Decidable holds]
    (fails : ¬holds → found = ([], some e)) (after : holds → Yields (f ()) s found) :
    Yields (Reader.require holds e >>= f) s found := by
  by_cases required : holds
  · exact .of_eq (require_bind required _ _) rfl (after required)
  · rw [fails required]
    exact .failed (require_bind_fails required _ _) rfl

theorem Yields.store (setting : Setting) (s : Reading Neg) : Yields (Negotiate.store setting) s ([setting], none) :=
  ⟨rfl, rfl⟩

theorem Yields.store_bind {setting : Setting} (after : ∀ t, t.mdp = s.mdp → Yields (f ()) t found) :
    Yields (Negotiate.store setting >>= f) s (setting :: found.1, found.2) := by
  have later := after { s with state := s.state.saveAll [setting] } rfl
  refine ⟨later.error, later.state.trans ?_⟩
  rw [← Neg.saveAll_append]
  rfl

end

variable {s : Reading Neg} {data : Bytes}

theorem parseHashAlgorithms_at (count : Nat) {k : Nat} (place : s.mdp.rest = data.drop k) (inside : k ≤ data.length) :
    (data.length < k + 2 * count ∧ ∃ t, parseHashAlgorithms count s = (.error .ebadrpc, t) ∧ t.state = s.state) ∨
    (k + 2 * count ≤ data.length ∧ ∃ t, parseHashAlgorithms count s = (.ok (), t) ∧
      t.mdp.rest = data.drop (k + 2 * count) ∧ t.state = s.state) := by
  induction count generalizing s k with
  | zero => exact .inr ⟨inside, s, rfl, place, rfl⟩
  | succ count ih =>
    have total : k + 2 * (count + 1) = k + 2 + 2 * count := by omega
    rw [total]
    unfold parseHashAlgorithms
    rcases Nat.lt_or_ge data.length (k + 2) with missing | enough
    · obtain ⟨t, run, same⟩ := getUint_short place missing inside fun _ => parseHashAlgorithms count
      exact .inl ⟨by omega, t, run, same⟩
    · obtain ⟨t, run, after, same⟩ := getUint_at place enough fun _ => parseHashAlgorithms count
      rw [run, ← same]
      exact ih after enough

theorem yields_parsePreauthIntegrity (rest : s.mdp.rest = data) :
    Yields parsePreauthIntegrity s (preauthSettings data) := by
  unfold parsePreauthIntegrity preauthSettings
  refine .getUint (k := 0) rest (Nat.zero_le _) (fun missing => if_pos (by omega)) fun enough t place _ => ?_
  refine .getUint place enough (fun missing => if_pos (by omega)) fun enough t place _ => ?_
  generalize ofLe (slice data 0 2) = hashAlgorithmCnt
  generalize ofLe (slice data (0 + 2) 2) = saltLen
  obtain ⟨missing, u, run, same⟩ | ⟨enough, u, run, place, same⟩ :=
    parseHashAlgorithms_at hashAlgorithmCnt place enough
  · rw [if_pos (by omega)]
    exact .failed (bind_of_error run) same
  · refine .of_eq (bind_of_ok run) same ?_
    refine .getMem place enough (fun missing => if_pos (by omega)) fun enough v _ _ => ?_
    rw [if_neg (by omega)]
    exact .pure () v

theorem yields_single {f : Nat → NegReader Unit} {found : Found} (rest : s.mdp.rest = data)
    (missing : data.length < 2 ∨ ofLe (slice data 0 2) ≠ 1 ∨ data.length < 4 → found = short)
    (after : ∀ t, t.state = s.state →
      ¬(data.length < 2 ∨ ofLe (slice data 0 2) ≠ 1 ∨ data.length < 4) → Yields (f (ofLe (slice data 2 2))) t found) :
    Yields (do
      let cnt ← getUint 2
      require (cnt = 1) .ebadrpc
      let algorithm ← getUint 2
      f algorithm) s found := by
  refine .getUint (k := 0) rest (Nat.zero_le _) (fun lacking => missing (by omega)) fun enough t place same => ?_
  refine .require (fun several => missing (.inr (.inl several))) fun one => ?_
  refine .getUint place enough (fun lacking => missing (by omega)) fun enough u _ same' => ?_
  exact after u (same'.trans same) (by omega)

theorem yields_parseCipher (rest : s.mdp.rest = data) :
    Yields parseCipher s (cipherSettings s.state.expected data) := by
  unfold cipherSettings
  refine yields_single rest (fun lacking => if_pos lacking) fun t same enough => ?_
  rw [if_neg enough]
  refine .of_eq (state_bind _) rfl ?_
  generalize ofLe (slice data 2 2) = algorithm
  rw [same]
  have agrees : (s.state.iod.alternateChannel = true → algorithm = s.state.sessionp.security.encryptCiper) ↔
      ¬(s.state.expected.any (· != algorithm) = true) := by
    unfold Neg.expected
    cases s.state.iod.alternateChannel with
    | false => simp
    | true =>
      simp only [forall_const, if_true, Option.any_some, bne_iff_ne, ne_eq, not_not]
      exact eq_comm
  refine .require (fun differs => if_pos ?_) fun agreed => ?_
  · by_contra equal
    exact differs (agrees.mpr equal)
  · rw [if_neg (agrees.mp agreed)]
    exact .store _ t

theorem yields_parseCompressionAlgorithms (count : Nat) (rest : s.mdp.rest = data) :
    Yields (parseCompressionAlgorithms count) s (algorithmSettings count data) := by
  induction count generalizing s data with
  | zero => exact .pure () s
  | succ count ih =>
    unfold parseCompressionAlgorithms algorithmSettings
    refine .getUint (k := 0) rest (Nat.zero_le _) (fun missing => if_pos (by omega)) fun enough t place _ => ?_
    rw [if_neg (by omega)]
    refine .store_bind fun u same => ih ?_
    rw [same, place]

theorem yields_parseCompression (rest : s.mdp.rest = data) :
    Yields parseCompression s (compressionSettings data) := by
  unfold parseCompression compressionSettings
  refine .getUint (k := 0) rest (Nat.zero_le _) (fun missing => if_pos (by omega)) fun enough t place _ => ?_
  refine .getUint place enough (fun missing => if_pos (by omega)) fun enough t place _ => ?_
  refine .getUint place enough (fun missing => if_pos (by omega)) fun enough t place _ => ?_
  rw [if_neg (by omega)]
  refine .store_bind fun u same => yields_parseCompressionAlgorithms _ ?_
  rw [same, place]

theorem yields_parseSigning (rest : s.mdp.rest = data) :
    Yields parseSigning s (signingSettings data) := by
  unfold signingSettings
  refine yields_single rest (fun lacking => if_pos lacking) fun t same enough => ?_
  rw [if_neg enough]
  generalize ofLe (slice data 2 2) = algorithm
  refine .require (fun unknown => if_pos (not_or.mp unknown)) fun known => ?_
  rw [if_neg (not_and_or.mpr (by simpa using known))]
  exact .store _ t

theorem yields_parseContextData (rest : s.mdp.rest = data) (type : ContextType) :
    Yields (parseContextData type) s (match type with
      | .preauthIntegrity => preauthSettings data
      | .encryption => cipherSettings s.state.expected data
      | .compression => compressionSettings data
      | .signing => signingSettings data
      | .ignored => ([], none)) := by
  cases type with
  | preauthIntegrity => exact yields_parsePreauthIntegrity rest
  | encryption => exact yields_parseCipher rest
  | compression => exact yields_parseCompression rest
  | signing => exact yields_parseSigning rest
  | ignored => exact .pure () s

theorem Yields.bind {α β : Type} {p : NegReader α} {f : α → NegReader β} {first second : Found}
    (before : Yields p s first) (after : ∀ a t, p s = (.ok a, t) → Yields (f a) t second) :
    Yields (p >>= f) s (first.then second) := by
  obtain ⟨settings, ending⟩ := first
  obtain ⟨error, state⟩ := before
  obtain ⟨a, t, run, whole⟩ | ⟨e, t, run, whole⟩ := bind_cases p f s
  · rw [run] at error state
    subst error
    obtain ⟨error', state'⟩ := after a t run
    rw [state, ← Neg.saveAll_append] at state'
    rw [← whole] at error' state'
    exact ⟨error', state'⟩
  · rw [run] at error state
    subst error
    refine ⟨?_, ?_⟩
    · rw [whole]
      rfl
    · rw [whole]
      exact state

theorem Found.then_nothing (found : Found) : found.then ([], none) = found := by
  obtain ⟨settings, ending⟩ := found
  cases ending with
  | none => simp [Found.then]
  | some e => rfl

theorem yields_parseContext (rest : s.mdp.rest = data) :
    Yields parseContext s (contextSettings s.state.expected data) := by
  unfold parseContext contextSettings
  refine .getUint (k := 0) rest (Nat.zero_le _) (fun missing => if_pos (by omega)) fun enough t place same => ?_
  refine .getUint place enough (fun missing => if_pos (by omega)) fun enough u place same' => ?_
  refine .getUint place enough (fun missing => if_pos (by omega)) fun enough v place same'' => ?_
  rw [if_neg (by omega)]
  have parsed := yields_parseContextData place (.ofCode (ofLe (slice data 0 2)))
  rw [same'', same', same] at parsed
  have whole := parsed.bind (f := fun _ => pure (ofLe (slice data (0 + 2) 2))) fun _ w _ => .pure _ w
  rwa [Found.then_nothing] at whole

theorem parseContext_len {t : Reading Neg} {len : Nat} (run : parseContext s = (.ok len, t)) :
    len = ofLe (slice s.mdp.rest 2 2) := by
  obtain ⟨_, u, fetchedType, run⟩ := of_bind_eq_ok run
  obtain ⟨contextDataLen, v, fetchedLen, run⟩ := of_bind_eq_ok run
  obtain ⟨_, _, _, run⟩ := of_bind_eq_ok run
  obtain ⟨_, _, _, run⟩ := of_bind_eq_ok run
  obtain ⟨rfl, _⟩ := of_pure_eq_ok run
  obtain ⟨_, _, afterType, _⟩ := getUint_ok fetchedType
  obtain ⟨_, rfl, _, _⟩ := getUint_ok fetchedLen
  rw [afterType]
  rfl

theorem Yields.shadow {α : Type} {p : NegReader α} {found : Found} (parsed : Yields p s found) :
    Yields (Reader.shadow p) s found :=
  ⟨parsed.error, parsed.state⟩

theorem yields_parseContextLoop (count : Nat) (rest : s.mdp.rest = data) :
    Yields (parseContextLoop count) s (contextsSettings s.state.expected count data) := by
  induction count generalizing s data with
  | zero =>
    rw [← Found.then_nothing (contextsSettings _ _ _)]
    exact (yields_parseContext rest).shadow.bind fun _ t _ => .pure () t
  | succ count ih =>
    refine (yields_parseContext rest).shadow.bind fun len t run => ?_
    -- the chain is still at the start of the context, and the expected cipher is the same
    have chain : t.mdp.rest = data.drop 0 := by
      obtain ⟨_, rfl⟩ := Prod.mk.inj run
      exact rest
    have expected : t.state.expected = s.state.expected := by
      have stored := (yields_parseContext rest).shadow.state
      rw [run] at stored
      rw [stored, Neg.expected_saveAll]
    have length : len = ofLe (slice data 2 2) := by
      obtain ⟨parsed, _⟩ := Prod.mk.inj run
      rw [← rest]
      exact parseContext_len (Prod.ext parsed rfl)
    rw [← length]
    refine .skip chain (Nat.zero_le _) (fun missing => if_pos (by omega)) fun enough u place same => ?_
    rw [if_neg (by omega), ← expected, ← same]
    exact ih (by rw [place, Nat.zero_add])

theorem yields_parseNegotiateContexts (contexts : Contexts) (rest : s.mdp.rest = data) :
    Yields (smb2SmbParseNegotiateContexts contexts) s (contexts.settings s.state.expected data) := by
  unfold smb2SmbParseNegotiateContexts Contexts.settings
  refine .skip (k := 0) rest (Nat.zero_le _) (fun missing => if_pos (by omega)) fun enough t place same => ?_
  rw [if_neg (by omega), ← same]
  exact yields_parseContextLoop _ (by rw [place, Nat.zero_add])

end SmbClient.Negotiate
