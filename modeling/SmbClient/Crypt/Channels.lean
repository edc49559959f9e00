import SmbClient.Crypt.Nonce
import SmbClient.Lib.Runs

/-!
Channel threads encrypting on one session, interleaved where the session lock is released.
-/

namespace SmbClient.Crypt
open SmbClient.Lib SmbClient.Session SmbClient.Mbuf

inductive ChannelEvent
  | locked (thread : Nat) (gethdr : Bool) (rqp : EncryptRq)
  | unlocked (thread : Nat)

structure Channels where
  sessionp : SmbSession
  pending : Nat → Option EncryptRq := fun _ => none
  sent : List Chain := []

def setPending (pending : Nat → Option EncryptRq) (thread : Nat) (rqp : Option EncryptRq) :
    Nat → Option EncryptRq :=
  fun t => if t = thread then rqp else pending t

def channelStep (cc : CcModes) (s : Channels) : ChannelEvent → Option Channels
  | .locked thread gethdr rqp =>
    match s.pending thread with
    | some _ => none
    | none =>
      match smb3RqEncryptLocked gethdr s.sessionp with
      | (some _, sessionp) => some { s with sessionp }
      | (none, sessionp) =>
        some { s with sessionp, pending := setPending s.pending thread (some rqp) }
  | .unlocked thread =>
    match s.pending thread with
    | none => none
    | some rqp =>
      let pending := setPending s.pending thread none
      match smb3RqEncryptUnlocked cc s.sessionp rqp with
      | .ok mb => some { s with pending, sent := s.sent ++ [mb] }
      | .error _ => some { s with pending }

def nonces (s : Channels) : List Bytes :=
  s.sent.map (messageNonce (cipherMode s.sessionp.smb3EncryptCiper))

def lowNonce (start : SmbSession) (low : Nat) : Bytes :=
  toLe 8 start.smb3NonceHigh.toNat ++
    toLe ((cipherMode start.smb3EncryptCiper).nonceLen - 8) low

theorem lowNonce_injective (start : SmbSession) {a b : Nat} (equal : lowNonce start a = lowNonce start b)
    {low : Nat} (first : low < a ∧ a ≤ low + nonceSpan start) (second : low < b ∧ b ≤ low + nonceSpan start) :
    a = b := by
  have same : a % nonceSpan start = b % nonceSpan start :=
    (toLe_eq_iff _ _ _).mp (List.append_cancel_left equal)
  have shifted : (a - (low + 1)) % nonceSpan start = (b - (low + 1)) % nonceSpan start := by
    apply Nat.ModEq.add_right_cancel' (low + 1)
    rw [Nat.sub_add_cancel first.1, Nat.sub_add_cancel second.1]
    exact same
  have := eq_of_mod_eq shifted (by omega) (by omega)
  omega

structure Serial (start : SmbSession) (s : Channels) : Prop where
  mode : cipherMode s.sessionp.smb3EncryptCiper = cipherMode start.smb3EncryptCiper
  high : s.sessionp.smb3NonceHigh = start.smb3NonceHigh
  lowGe : start.smb3NonceLow.toNat ≤ s.sessionp.smb3NonceLow.toNat
  lowLe : s.sessionp.smb3NonceLow.toNat ≤ start.smb3NonceLow.toNat + nonceSpan start
  alone : ∀ t u, s.pending t ≠ none → s.pending u ≠ none → t = u
  advanced : ∀ t, s.pending t ≠ none → start.smb3NonceLow.toNat < s.sessionp.smb3NonceLow.toNat
  used : ∃ lows : List Nat, nonces s = lows.map (lowNonce start) ∧ lows.Nodup ∧
    ∀ low ∈ lows, start.smb3NonceLow.toNat < low ∧ low ≤ s.sessionp.smb3NonceLow.toNat ∧
      ∀ t, s.pending t ≠ none → low < s.sessionp.smb3NonceLow.toNat

/-- Nobody is between the two steps, and the part of the low counter that reaches the cipher has
not gone round since `start`. -/
def MayIncrement (start : SmbSession) (s : Channels) : ChannelEvent → Prop
  | .locked _ _ _ => (∀ t, s.pending t = none) ∧
      s.sessionp.smb3NonceLow.toNat < start.smb3NonceLow.toNat + nonceSpan start
  | .unlocked _ => True

def NoWrap (s : Channels) : ChannelEvent → Prop
  | .locked _ _ _ => s.sessionp.smb3NonceLow.toNat + 1 < 2 ^ 64
  | .unlocked _ => True

theorem Serial.start (sessionp : SmbSession) : Serial sessionp { sessionp } where
  mode := rfl
  high := rfl
  lowGe := le_refl _
  lowLe := Nat.le_add_right _ _
  alone := by simp
  advanced := by simp
  used := ⟨[], rfl, List.nodup_nil, by simp⟩

variable {start : SmbSession} {s : Channels} {thread : Nat}

theorem Serial.locked {rqp : EncryptRq} (serial : Serial start s) (may : MayIncrement start s (.locked thread true rqp))
    (room : s.sessionp.smb3NonceLow.toNat + 1 < 2 ^ 64) :
    Serial start { s with
      sessionp := nonceIncrement (defaultCiper s.sessionp)
      pending := setPending s.pending thread (some rqp) } := by
  obtain ⟨idle, span⟩ := may
  obtain ⟨low, high⟩ := nonceIncrement_low (by rwa [defaultCiper_low] :
    (defaultCiper s.sessionp).smb3NonceLow.toNat + 1 < 2 ^ 64)
  rw [defaultCiper_low] at low
  rw [defaultCiper_high] at high
  obtain ⟨lows, listed, nodup, bounds⟩ := serial.used
  have ge := serial.lowGe
  refine ⟨?_, high.trans serial.high, by dsimp only; omega, by dsimp only; omega, ?_,
    fun t _ => by dsimp only; omega, lows, ?_, nodup, ?_⟩
  · rw [nonceIncrement_ciper, cipherMode_defaultCiper, serial.mode]
  · intro t u
    have only (v : Nat) (pending : setPending s.pending thread (some rqp) v ≠ none) : v = thread := by
      by_contra other
      simp [setPending, other, idle v] at pending
    intro first second
    rw [only t first, only u second]
  · simpa only [nonces, nonceIncrement_ciper, cipherMode_defaultCiper] using listed
  · intro l member
    obtain ⟨above, below, -⟩ := bounds l member
    dsimp only
    refine ⟨above, by omega, fun t _ => by omega⟩

theorem Serial.refused (serial : Serial start s) :
    Serial start { s with sessionp := defaultCiper s.sessionp } where
  mode := by rw [cipherMode_defaultCiper, serial.mode]
  high := by rw [defaultCiper_high, serial.high]
  lowGe := by rw [defaultCiper_low]; exact serial.lowGe
  lowLe := by rw [defaultCiper_low]; exact serial.lowLe
  alone := serial.alone
  advanced := by rw [defaultCiper_low]; exact serial.advanced
  used := by simpa only [nonces, cipherMode_defaultCiper, defaultCiper_low] using serial.used

theorem Serial.freed (serial : Serial start s)
    (taken : s.pending thread ≠ none) (t : Nat) : setPending s.pending thread none t = none := by
  by_cases same : t = thread
  · simp [setPending, same]
  · by_contra other
    rw [setPending, if_neg same] at other
    exact same (serial.alone t thread other taken)

theorem Serial.dropped (serial : Serial start s) (taken : s.pending thread ≠ none) :
    Serial start { s with pending := setPending s.pending thread none } := by
  have idle := serial.freed taken
  obtain ⟨lows, listed, nodup, bounds⟩ := serial.used
  refine ⟨serial.mode, serial.high, serial.lowGe, serial.lowLe, fun t _ first => absurd (idle t) first,
    fun t pending => absurd (idle t) pending, lows, listed, nodup, ?_⟩
  intro l member
  obtain ⟨above, below, -⟩ := bounds l member
  exact ⟨above, below, fun t pending => absurd (idle t) pending⟩

theorem Serial.unlocked {rqp : EncryptRq}
    {cc : CcModes} {mb : Chain} (serial : Serial start s) (taken : s.pending thread ≠ none)
    (sent : smb3RqEncryptUnlocked cc s.sessionp rqp = .ok mb) :
    Serial start { s with pending := setPending s.pending thread none, sent := s.sent ++ [mb] } := by
  have idle := serial.freed taken
  obtain ⟨lows, listed, nodup, bounds⟩ := serial.used
  have nonce : messageNonce (cipherMode s.sessionp.smb3EncryptCiper) mb =
      lowNonce start s.sessionp.smb3NonceLow.toNat := by
    rw [messageNonce_eq sent, cipherNonce_eq, serial.high, serial.mode, lowNonce]
  refine ⟨serial.mode, serial.high, serial.lowGe, serial.lowLe, fun t _ first => absurd (idle t) first,
    fun t pending => absurd (idle t) pending, lows ++ [s.sessionp.smb3NonceLow.toNat], ?_, ?_, ?_⟩
  · simp only [nonces] at listed
    simp only [nonces, List.map_append, listed, List.map_cons, List.map_nil, nonce]
  · rw [List.nodup_append]
    refine ⟨nodup, List.nodup_singleton _, ?_⟩
    intro l member m last equal
    rw [List.mem_singleton] at last
    have := (bounds l member).2.2 thread taken
    omega
  · intro l member
    rw [List.mem_append, List.mem_singleton] at member
    obtain member | rfl := member
    · obtain ⟨above, below, -⟩ := bounds l member
      exact ⟨above, below, fun t pending => absurd (idle t) pending⟩
    · exact ⟨serial.advanced thread taken, le_refl _, fun t pending => absurd (idle t) pending⟩

theorem channelStep_serial (cc : CcModes) (start : SmbSession) (s : Channels) (event : ChannelEvent)
    (next : Channels) (serial : Serial start s) (cond : MayIncrement start s event ∧ NoWrap s event)
    (step : channelStep cc s event = some next) : Serial start next := by
  cases event with
  | locked thread gethdr rqp =>
    have free : s.pending thread = none := cond.1.1 thread
    obtain ⟨error, locked⟩ | ⟨-, locked⟩ := smb3RqEncryptLocked_cases gethdr s.sessionp
    · simp only [channelStep, free, locked, Option.some.injEq] at step
      exact step ▸ serial.refused
    · simp only [channelStep, free, locked, Option.some.injEq] at step
      exact step ▸ serial.locked cond.1 cond.2
  | unlocked thread =>
    cases taken : s.pending thread with
    | none => simp [channelStep, taken] at step
    | some rqp =>
      have busy : s.pending thread ≠ none := by simp [taken]
      cases sent : smb3RqEncryptUnlocked cc s.sessionp rqp with
      | error error =>
        simp only [channelStep, taken, sent, Option.some.injEq] at step
        exact step ▸ serial.dropped busy
      | ok mb =>
        simp only [channelStep, taken, sent, Option.some.injEq] at step
        exact step ▸ serial.unlocked busy sent

theorem Serial.nonces_nodup (serial : Serial start s) :
    (nonces s).Nodup := by
  obtain ⟨lows, listed, nodup, bounds⟩ := serial.used
  have le := serial.lowLe
  rw [listed, List.nodup_map_iff_inj_on nodup]
  intro a first b second equal
  obtain ⟨aboveA, belowA, -⟩ := bounds a first
  obtain ⟨aboveB, belowB, -⟩ := bounds b second
  exact lowNonce_injective start equal ⟨aboveA, by omega⟩ ⟨aboveB, by omega⟩

theorem interleaved_nonces_distinct (cc : CcModes) (start : SmbSession) (events : List ChannelEvent)
    (last : Channels) (reached : run (channelStep cc) { sessionp := start } events = some last)
    (noWrap : AllSteps (channelStep cc) NoWrap { sessionp := start } events)
    (serialized : AllSteps (channelStep cc) (MayIncrement start) { sessionp := start } events) :
    (nonces last).Nodup :=
  (run_invariant (channelStep cc) (channelStep_serial cc start) (Serial.start start)
    (serialized.and noWrap) reached).nonces_nodup

def echoRq : EncryptRq where
  command := 0x000d
  rq := [List.replicate 64 0, [4, 0, 0, 0]]
  rqSessionId := 7

theorem interleaved_nonces_distinct_serially :
    ∃ last, run (channelStep shiftedModes) { sessionp := gcmSession }
      [.locked 0 true echoRq, .unlocked 0, .locked 1 true echoRq, .unlocked 1] = some last ∧
        (nonces last).Nodup :=
  ⟨_, rfl, interleaved_nonces_distinct shiftedModes gcmSession
    [.locked 0 true echoRq, .unlocked 0, .locked 1 true echoRq, .unlocked 1] _ rfl
    (.cons (by decide : _ < _) rfl <| .cons trivial rfl <| .cons (by decide : _ < _) rfl <|
      .cons trivial rfl trivial)
    (.cons ⟨fun _ => rfl, by decide⟩ rfl <| .cons trivial rfl <|
      .cons ⟨fun t => by by_cases t = 0 <;> simp [setPending, *], by decide⟩ rfl <|
        .cons trivial rfl trivial)⟩

theorem interleaved_nonces_repeat :
    ∃ last, run (channelStep shiftedModes) { sessionp := gcmSession }
      [.locked 0 true echoRq, .locked 1 true echoRq, .unlocked 0, .unlocked 1] = some last ∧
        ¬(nonces last).Nodup :=
  ⟨_, rfl, by decide⟩

end SmbClient.Crypt
