import SmbClient.Negotiate.Settings

/-! The responses that `smb2_smb_parse_negotiate` accepts, and what it records of them. -/

namespace SmbClient.Negotiate
open SmbClient.Lib SmbClient.Lib.Fallible SmbClient.Mbuf SmbClient.Mbuf.Reader

def saveKnownDialect (dialect : Nat) (sessionp : NegSession) : NegSession :=
  { sessionp with
    sopt.svDialect := dialect
    flags := (sessionp.flags.withDialect dialect).getD sessionp.flags }

structure NegotiateResponse where
  structSize : Nat
  securityMode : Nat
  dialect : Nat
  contextCount : Nat
  guid : Bytes
  capabilities : Nat
  maxtransact : Nat
  maxread : Nat
  maxwrite : Nat
  secBufOffset : Nat
  secBufLen : Nat
  contextOffset : Nat
  deriving DecidableEq, Repr

namespace NegotiateResponse

def ofBytes (data : Bytes) : NegotiateResponse where
  structSize := ofLe (slice data 0 2)
  securityMode := ofLe (slice data 2 2)
  dialect := ofLe (slice data 4 2)
  contextCount := ofLe (slice data 6 2)
  guid := slice data 8 16
  capabilities := ofLe (slice data 24 4)
  maxtransact := ofLe (slice data 28 4)
  maxread := ofLe (slice data 32 4)
  maxwrite := ofLe (slice data 36 4)
  secBufOffset := ofLe (slice data 56 2)
  secBufLen := ofLe (slice data 58 2)
  contextOffset := ofLe (slice data 60 4)

variable (r : NegotiateResponse)

def RepeatsDialect (sopt : Sopt) : Prop := r.securityMode = sopt.svSecurityMode ∧ r.dialect = sopt.svDialect

def RepeatsLimits (sopt : Sopt) : Prop :=
  r.guid = sopt.svGuid ∧ r.capabilities = sopt.svSavedCapabilities ∧ r.maxtransact = sopt.svMaxtransact ∧
    r.maxread = sopt.svMaxread ∧ r.maxwrite = sopt.svMaxwrite

instance (sopt : Sopt) : Decidable (r.RepeatsDialect sopt) := inferInstanceAs (Decidable (_ ∧ _))
instance (sopt : Sopt) : Decidable (r.RepeatsLimits sopt) := inferInstanceAs (Decidable (_ ∧ _))

def tokenLen (kalloc : Kalloc) : Nat := if (kalloc.alloc r.secBufLen).isNone then 0 else r.secBufLen

def token (kalloc : Kalloc) (data : Bytes) : Bytes := slice data (64 + secBufGap r.secBufOffset) (r.tokenLen kalloc)

def contexts (kalloc : Kalloc) : Contexts where
  negBytesParsed := 64 + secBufGap r.secBufOffset + r.tokenLen kalloc
  negContextOffset := r.contextOffset
  negContextCount := r.contextCount

def recordDialect (sessionp : NegSession) : NegSession :=
  saveKnownDialect r.dialect (saveSecurityMode r.securityMode sessionp)

def recordLimits (sessionp : NegSession) : NegSession :=
  saveMaxwrite r.maxwrite (saveMaxread r.maxread (saveMaxtransact r.maxtransact
    (saveCapabilities r.capabilities (saveGuid r.guid sessionp))))

end NegotiateResponse

def NegIod.withToken (iod : NegIod) (token : Bytes) : NegIod :=
  if token = [] then iod else { iod with negotiateToken := some token }

theorem NegIod.alternateChannel_withToken (iod : NegIod) (token : Bytes) :
    (iod.withToken token).alternateChannel = iod.alternateChannel := by
  unfold NegIod.withToken
  split <;> rfl

variable (neg : Neg)

def Neg.recorded (save : NegSession → NegSession) : Neg :=
  if neg.iod.alternateChannel then neg else { neg with sessionp := save neg.sessionp }

theorem Neg.recorded_iod (save : NegSession → NegSession) : (neg.recorded save).iod = neg.iod := by
  unfold Neg.recorded
  split <;> rfl

theorem Neg.recorded_recorded (first second : NegSession → NegSession) :
    (neg.recorded first).recorded second = neg.recorded (second ∘ first) := by
  unfold Neg.recorded
  cases alternate : neg.iod.alternateChannel with
  | true => rw [if_pos rfl, if_pos alternate, if_pos rfl]
  | false => simp [alternate]

def KnownDialect (dialect : Nat) : Prop := dialect ∈ smb2Dialect02ff :: allDialects

instance (dialect : Nat) : Decidable (KnownDialect dialect) := inferInstanceAs (Decidable (_ ∈ _))

theorem withDialect_isSome (flags : SessionFlags) (dialect : Nat) :
    (flags.withDialect dialect).isSome ↔ KnownDialect dialect := by
  unfold SessionFlags.withDialect KnownDialect allDialects
  simp only [List.mem_cons, List.not_mem_nil, or_false]
  split_ifs <;> simp_all

theorem Neg.recorded_id : neg.recorded id = neg := by
  unfold Neg.recorded
  split <;> rfl

variable {s : Reading Neg} {data : Bytes}

theorem settles_validateOrSave {ν : Type} [DecidableEq ν] {saved : Sopt → ν} {save : ν → NegSession → NegSession}
    {value : ν} {α : Type} {f : Unit → NegReader α} {accepted : Prop} {Q : α → Reading Neg → Prop}
    {base : Neg} {before : NegSession → NegSession} (state : s.state = base.recorded before)
    (needs : accepted → base.iod.alternateChannel = true → value = saved base.sessionp.sopt)
    (after : ∀ t, t.mdp = s.mdp → t.state = base.recorded (save value ∘ before) →
      (base.iod.alternateChannel = true → value = saved base.sessionp.sopt) → Settles (f ()) t accepted Q) :
    Settles (validateOrSave saved save value >>= f) s accepted Q := by
  rw [← Neg.recorded_recorded, ← state] at after
  cases alternate : base.iod.alternateChannel with
  | true =>
    have same : s.state = base := by
      rw [state, Neg.recorded, if_pos alternate]
    subst same
    have run : (validateOrSave saved save value >>= f) s =
        (require (value = saved s.state.sessionp.sopt) .einval >>= f) s := by
      show ((if s.state.iod.alternateChannel then _ else _ : NegReader Unit) >>= f) s = _
      rw [alternate]
      rfl
    refine .of_eq run (.require (fun accept => needs accept alternate) fun equal => ?_)
    exact after s rfl (by rw [Neg.recorded, if_pos alternate]) fun _ => equal
  | false =>
    have main : s.state.iod.alternateChannel = false := by
      rw [state, Neg.recorded_iod, alternate]
    have run : (validateOrSave saved save value >>= f) s =
        f () { s with state := s.state.recorded (save value) } := by
      show ((if s.state.iod.alternateChannel then _ else _ : NegReader Unit) >>= f) s = _
      rw [Neg.recorded, main]
      rfl
    exact .of_eq run (after _ rfl rfl (fun impossible => by rw [alternate] at impossible; cases impossible))

def Neg.TakesDialect (dialect : Nat) : Prop :=
  if neg.iod.alternateChannel then dialect = neg.sessionp.sopt.svDialect else KnownDialect dialect

instance (neg : Neg) (dialect : Nat) : Decidable (neg.TakesDialect dialect) :=
  inferInstanceAs (Decidable (if neg.iod.alternateChannel = true then _ else _))

theorem settles_parseDialect (dialect : Nat) (s : Reading Neg) :
    Settles (parseDialect dialect) s (s.state.TakesDialect dialect) fun _ t =>
      t.mdp = s.mdp ∧ t.state = s.state.recorded (saveKnownDialect dialect) := by
  unfold parseDialect Neg.TakesDialect Neg.recorded
  refine .of_eq (state_bind _) ?_
  cases s.state.iod.alternateChannel with
  | true =>
    simp only [if_true]
    by_cases equal : dialect = s.state.sessionp.sopt.svDialect
    · refine .of_eq (t := s) ?_ (.pure (a := ()) equal ⟨rfl, rfl⟩)
      simp only [require, if_pos equal]
    · refine .failed (e := .einval) (t := s) ?_ equal
      simp only [require, if_neg equal]
      rfl
  | false =>
    simp only [Bool.false_eq_true, if_false]
    unfold saveDialect
    refine .of_eq (update_bind _ _) (.of_eq (state_bind _) ?_)
    have known := withDialect_isSome s.state.sessionp.flags dialect
    cases found : s.state.sessionp.flags.withDialect dialect with
    | none =>
      rw [found] at known
      refine .failed (e := .enotsup) rfl fun holds => ?_
      cases known.mpr holds
    | some flags =>
      rw [found] at known
      refine .done (a := ()) (t := { s with
        state := { s.state with sessionp := saveKnownDialect dialect s.state.sessionp } }) ?_ (known.mp rfl)
        ⟨rfl, rfl⟩
      simp only [saveKnownDialect, found, Option.getD_some]
      rfl

def Neg.AcceptsHead (data : Bytes) : Prop :=
  let r := NegotiateResponse.ofBytes data
  6 ≤ data.length ∧ r.structSize = 65 ∧
    (neg.iod.alternateChannel = true → r.securityMode = neg.sessionp.sopt.svSecurityMode) ∧ neg.TakesDialect r.dialect

theorem settles_parseHead (rest : s.mdp.rest = data) :
    Settles parseHead s (s.state.AcceptsHead data) fun dialect t =>
      dialect = (NegotiateResponse.ofBytes data).dialect ∧ t.mdp.rest = data.drop 6 ∧
        t.state = s.state.recorded (NegotiateResponse.ofBytes data).recordDialect := by
  refine .getUint (k := 0) rest (Nat.zero_le _) (fun ⟨length, _⟩ => by omega) fun enough t place same => ?_
  refine .require (fun accept => accept.2.1) fun size => ?_
  refine .getUint place enough (fun ⟨length, _⟩ => by omega) fun enough u place same' => ?_
  have state : u.state = s.state.recorded id := (same'.trans same).trans s.state.recorded_id.symm
  refine settles_validateOrSave state (fun accept => accept.2.2.1) fun v chain recorded mode => ?_
  refine .getUint (chain ▸ place) enough (fun ⟨length, _⟩ => by omega) fun enough w place same => ?_
  have takes : w.state.TakesDialect (NegotiateResponse.ofBytes data).dialect ↔
      s.state.TakesDialect (NegotiateResponse.ofBytes data).dialect := by
    rw [same, recorded]
    unfold Neg.TakesDialect Neg.recorded
    cases alternate : s.state.iod.alternateChannel <;> simp [alternate]
  refine .bind (settles_parseDialect _ w) (fun accept => takes.mpr accept.2.2.2) fun taken _ x ⟨chain, state⟩ => ?_
  refine .pure ⟨enough, size, mode, takes.mp taken⟩ ⟨rfl, ?_, ?_⟩
  · rw [chain, place]
  · rw [state, same, recorded, Neg.recorded_recorded]
    rfl

theorem settles_parseToken {k : Nat} (kalloc : Kalloc) (secBufLen : Nat)
    (place : s.mdp.rest = data.drop k) (inside : k ≤ data.length) {tokenLen : Nat}
    (token : tokenLen = if (kalloc.alloc secBufLen).isNone then 0 else secBufLen) :
    Settles (parseToken kalloc secBufLen) s (k + tokenLen ≤ data.length) fun result t =>
      result.1 = tokenLen ∧ (result.2.isSome ↔ secBufLen ≠ 0 ∧ (kalloc.alloc secBufLen).isNone) ∧
        t.mdp.rest = data.drop (k + tokenLen) ∧
        t.state = { s.state with iod := s.state.iod.withToken (slice data k tokenLen) } := by
  unfold parseToken
  split_ifs with empty missing
  · have none : tokenLen = 0 := by
      rw [token, empty]
      split <;> rfl
    rw [none]
    exact .pure inside ⟨rfl, by simp [empty], place, by simp [slice, NegIod.withToken]⟩
  · rw [if_pos missing] at token
    rw [token]
    exact .pure inside ⟨rfl, by simp [empty, missing], place, by simp [slice, NegIod.withToken]⟩
  · rw [if_neg missing] at token
    rw [token]
    refine .getMem place inside id fun enough t place same => ?_
    refine .of_eq (update_bind _ _) (.pure enough ⟨rfl, by simp [missing], place, ?_⟩)
    have nonempty : slice data k secBufLen ≠ [] := by
      apply List.ne_nil_of_length_pos
      rw [slice, List.length_take, List.length_drop]
      omega
    rw [same, NegIod.withToken, if_neg nonempty]

def Neg.AcceptsTail (kalloc : Kalloc) (data : Bytes) : Prop :=
  let r := NegotiateResponse.ofBytes data
  64 ≤ data.length ∧ (r.contexts kalloc).negBytesParsed ≤ data.length ∧
    (neg.iod.alternateChannel = true → r.RepeatsLimits neg.sessionp.sopt)

theorem settles_parseTail (kalloc : Kalloc) (place : s.mdp.rest = data.drop 6) (inside : 6 ≤ data.length) :
    Settles (parseTail kalloc) s (s.state.AcceptsTail kalloc data) fun result t =>
      result.1 = (NegotiateResponse.ofBytes data).contexts kalloc ∧
        (result.2.isSome ↔ (NegotiateResponse.ofBytes data).secBufLen ≠ 0 ∧
          (kalloc.alloc (NegotiateResponse.ofBytes data).secBufLen).isNone) ∧
        t.mdp.rest = data.drop ((NegotiateResponse.ofBytes data).contexts kalloc).negBytesParsed ∧
        t.state = { s.state.recorded (NegotiateResponse.ofBytes data).recordLimits with
          iod := s.state.iod.withToken ((NegotiateResponse.ofBytes data).token kalloc data) } := by
  unfold parseTail parseSettings
  simp only [bind_bind]
  refine .getUint place inside (fun ⟨length, _⟩ => by omega) fun enough t place state => ?_
  refine .getMem place enough (fun ⟨length, _⟩ => by omega) fun enough u place same => ?_
  replace state : u.state = s.state.recorded id := (same.trans state).trans s.state.recorded_id.symm
  refine settles_validateOrSave state (fun accept alternate => (accept.2.2 alternate).1) fun v chain state guid => ?_
  refine .getUint (chain ▸ place) enough (fun ⟨length, _⟩ => by omega) fun enough t place same => ?_
  refine settles_validateOrSave (same.trans state) (fun accept alternate => (accept.2.2 alternate).2.1)
    fun v chain state capabilities => ?_
  refine .getUint (chain ▸ place) enough (fun ⟨length, _⟩ => by omega) fun enough t place same => ?_
  refine settles_validateOrSave (same.trans state) (fun accept alternate => (accept.2.2 alternate).2.2.1)
    fun v chain state maxtransact => ?_
  refine .getUint (chain ▸ place) enough (fun ⟨length, _⟩ => by omega) fun enough t place same => ?_
  refine settles_validateOrSave (same.trans state) (fun accept alternate => (accept.2.2 alternate).2.2.2.1)
    fun v chain state maxread => ?_
  refine .getUint (chain ▸ place) enough (fun ⟨length, _⟩ => by omega) fun enough t place same => ?_
  refine settles_validateOrSave (same.trans state) (fun accept alternate => (accept.2.2 alternate).2.2.2.2)
    fun v chain state maxwrite => ?_
  refine .skip (chain ▸ place) enough (fun ⟨length, _⟩ => by omega) fun enough t place same => ?_
  replace state := same.trans state
  refine .skip place enough (fun ⟨length, _⟩ => by omega) fun enough t place same => ?_
  replace state := same.trans state
  refine .getUint place enough (fun ⟨length, _⟩ => by omega) fun enough t place same => ?_
  replace state := same.trans state
  refine .getUint place enough (fun ⟨length, _⟩ => by omega) fun enough t place same => ?_
  replace state := same.trans state
  refine .getUint place enough (fun ⟨length, _⟩ => by omega) fun enough t place same => ?_
  replace state := same.trans state
  refine .skip place enough ?_ fun enough t place same => ?_
  · exact fun accept => Nat.le_trans (Nat.le_add_right _ _) accept.2.1
  replace state := same.trans state
  refine .bind (settles_parseToken kalloc _ place enough rfl) (fun accept => accept.2.1)
    fun fits result w ⟨len, error, place, final⟩ => ?_
  have repeats (alternate : s.state.iod.alternateChannel = true) :
      (NegotiateResponse.ofBytes data).RepeatsLimits s.state.sessionp.sopt :=
    ⟨guid alternate, capabilities alternate, maxtransact alternate, maxread alternate, maxwrite alternate⟩
  refine .pure ⟨by omega, fits, repeats⟩ ⟨?_, error, place, ?_⟩
  · rw [len]
    rfl
  · rw [final, state, Neg.recorded_iod]
    rfl

instance (neg : Neg) (data : Bytes) : Decidable (neg.AcceptsHead data) := inferInstanceAs (Decidable (_ ∧ _))

instance (neg : Neg) (kalloc : Kalloc) (data : Bytes) : Decidable (neg.AcceptsTail kalloc data) :=
  inferInstanceAs (Decidable (_ ∧ _))

def KeepsSecurity {α : Type} (p : NegReader α) : Prop :=
  Within (fun s t => t.state.sessionp.security = s.state.sessionp.security) p

section
variable {α β : Type} {p : NegReader α}

theorem KeepsSecurity.bind {f : α → NegReader β} (first : KeepsSecurity p) (second : ∀ a, KeepsSecurity (f a)) :
    KeepsSecurity (p >>= f) :=
  Within.bind (fun _ _ _ before after => after.trans before) first second

theorem keepsSecurity_getMem (size : Nat) : KeepsSecurity (getMem size) := by
  intro s
  unfold Reader.getMem
  split <;> rfl

theorem keepsSecurity_pure (a : α) : KeepsSecurity (pure a) := fun _ => rfl

theorem keepsSecurity_getUint (size : Nat) : KeepsSecurity (getUint size) :=
  (keepsSecurity_getMem size).bind fun _ => keepsSecurity_pure _

theorem keepsSecurity_skip (size : Nat) : KeepsSecurity (skip size) :=
  (keepsSecurity_getMem size).bind fun _ => keepsSecurity_pure _

theorem keepsSecurity_require (holds : Prop) [Decidable holds] (e : Errno) : KeepsSecurity (require holds e) := by
  intro s
  unfold require
  split <;> rfl

theorem keepsSecurity_validateOrSave {ν : Type} [DecidableEq ν] (saved : Sopt → ν)
    {save : ν → NegSession → NegSession} (value : ν) (keeps : ∀ sessionp, (save value sessionp).security = sessionp.security) :
    KeepsSecurity (validateOrSave saved save value) := by
  intro s
  unfold validateOrSave
  rw [state_bind]
  split
  · exact keepsSecurity_require _ _ s
  · exact keeps s.state.sessionp

theorem keepsSecurity_parseDialect (dialect : Nat) : KeepsSecurity (parseDialect dialect) := by
  refine KeepsSecurity.bind (fun _ => rfl) fun neg => ?_
  split
  · exact keepsSecurity_require _ _
  · refine KeepsSecurity.bind (fun _ => rfl) fun _ => KeepsSecurity.bind (fun _ => rfl) fun neg => ?_
    cases neg.sessionp.flags.withDialect dialect <;> exact fun _ => rfl

end

theorem keepsSecurity_parseHead : KeepsSecurity parseHead := by
  refine (keepsSecurity_getUint 2).bind fun _ => (keepsSecurity_require _ _).bind fun _ => ?_
  refine (keepsSecurity_getUint 2).bind fun mode => ?_
  refine (keepsSecurity_validateOrSave _ mode fun _ => rfl).bind fun _ => ?_
  refine (keepsSecurity_getUint 2).bind fun dialect => ?_
  exact (keepsSecurity_parseDialect dialect).bind fun _ => keepsSecurity_pure dialect

theorem keepsSecurity_parseToken (kalloc : Kalloc) (secBufLen : Nat) : KeepsSecurity (parseToken kalloc secBufLen) := by
  unfold parseToken
  split_ifs
  · exact keepsSecurity_pure _
  · exact keepsSecurity_pure _
  · refine (keepsSecurity_getMem secBufLen).bind fun _ => ?_
    exact KeepsSecurity.bind (fun _ => rfl) fun _ => keepsSecurity_pure _

theorem keepsSecurity_parseSettings : KeepsSecurity parseSettings := by
  refine (keepsSecurity_getUint 2).bind fun _ => (keepsSecurity_getMem 16).bind fun guid => ?_
  refine (keepsSecurity_validateOrSave _ guid fun _ => rfl).bind fun _ => ?_
  refine (keepsSecurity_getUint 4).bind fun capabilities => ?_
  refine (keepsSecurity_validateOrSave _ capabilities fun _ => rfl).bind fun _ => ?_
  refine (keepsSecurity_getUint 4).bind fun maxtransact => ?_
  refine (keepsSecurity_validateOrSave _ maxtransact fun _ => rfl).bind fun _ => ?_
  refine (keepsSecurity_getUint 4).bind fun maxread => ?_
  refine (keepsSecurity_validateOrSave _ maxread fun _ => rfl).bind fun _ => ?_
  refine (keepsSecurity_getUint 4).bind fun maxwrite => ?_
  refine (keepsSecurity_validateOrSave _ maxwrite fun _ => rfl).bind fun _ => ?_
  exact (keepsSecurity_skip 8).bind fun _ => (keepsSecurity_skip 8).bind fun _ => keepsSecurity_pure _

theorem keepsSecurity_parseTail (kalloc : Kalloc) : KeepsSecurity (parseTail kalloc) := by
  refine keepsSecurity_parseSettings.bind fun _ => ?_
  refine (keepsSecurity_getUint 2).bind fun secBufOffset => (keepsSecurity_getUint 2).bind fun secBufLen => ?_
  refine (keepsSecurity_getUint 4).bind fun _ => (keepsSecurity_skip _).bind fun _ => ?_
  exact (keepsSecurity_parseToken kalloc secBufLen).bind fun _ => keepsSecurity_pure _

/-! ## The main channel -/

theorem Yields.settles {α : Type} {p : NegReader α} {found : Found} (parsed : Yields p s found) :
    Settles p s (found.2 = none) fun _ t => t.state = s.state.saveAll found.1 := by
  obtain ⟨error, state⟩ := parsed
  cases run : p s with
  | mk result t =>
    rw [run] at error state
    cases result with
    | ok a => exact .done run error.symm state
    | error e => exact .failed run (by rw [← error]; exact Option.some_ne_none e)

def Neg.afterFixed (kalloc : Kalloc) (data : Bytes) : Neg :=
  let r := NegotiateResponse.ofBytes data
  { sessionp := r.recordLimits (r.recordDialect neg.sessionp), iod := neg.iod.withToken (r.token kalloc data) }

def Neg.contextsFound (kalloc : Kalloc) (data : Bytes) : Found :=
  let r := NegotiateResponse.ofBytes data
  if (neg.afterFixed kalloc data).sessionp.flags.smb311 then
    (r.contexts kalloc).settings none (data.drop (r.contexts kalloc).negBytesParsed)
  else if r.secBufLen ≠ 0 ∧ (kalloc.alloc r.secBufLen).isNone then ([], some .enomem)
  else ([], none)

def Neg.Accepts (kalloc : Kalloc) (data : Bytes) : Prop :=
  neg.AcceptsHead data ∧ neg.AcceptsTail kalloc data ∧ (neg.contextsFound kalloc data).2 = none

theorem Neg.recorded_main {neg : Neg} (main : neg.iod.alternateChannel = false) (save : NegSession → NegSession) :
    neg.recorded save = { neg with sessionp := save neg.sessionp } := by
  rw [Neg.recorded, main, if_neg Bool.false_ne_true]

theorem settles_parseNegotiate (kalloc : Kalloc) (smb1Req : Bool)
    (rest : s.mdp.rest = data) (main : s.state.iod.alternateChannel = false)
    (whole : smb1Req = true → (NegotiateResponse.ofBytes data).dialect = smb2Dialect0202 ∨
      (NegotiateResponse.ofBytes data).dialect = smb2Dialect0210) :
    Settles (smb2SmbParseNegotiate kalloc smb1Req) s (s.state.Accepts kalloc data) fun _ t =>
      t.state = (s.state.afterFixed kalloc data).saveAll (s.state.contextsFound kalloc data).1 := by
  refine .bind (settles_parseHead rest) (fun accept => accept.1) fun head dialect t ⟨dialect_eq, place, state⟩ => ?_
  refine .of_eq (state_bind _) ?_
  have on : ¬(!t.state.iod.alternateChannel && dialect != smb2Dialect0202 && dialect != smb2Dialect0210 && smb1Req) =
      true := by
    rw [dialect_eq]
    cases smb1Req with
    | false => simp
    | true => rcases whole rfl with is | is <;> simp [is]
  rw [if_neg on]
  rw [Neg.recorded_main main] at state
  have tail_iff : t.state.AcceptsTail kalloc data ↔ s.state.AcceptsTail kalloc data := by
    unfold Neg.AcceptsTail
    simp [state, main]
  refine .bind (settles_parseTail kalloc place head.1) (fun accept => tail_iff.mpr accept.2.1)
    fun tail result u ⟨contexts, error, place, final⟩ => ?_
  have main' : t.state.iod.alternateChannel = false := by
    rw [state]
    exact main
  rw [Neg.recorded_main main', state] at final
  replace final : u.state = s.state.afterFixed kalloc data := final
  obtain ⟨contexts', error'⟩ := result
  subst contexts
  have rest_iff : s.state.Accepts kalloc data ↔ (s.state.contextsFound kalloc data).2 = none :=
    ⟨fun accept => accept.2.2, fun found => ⟨head, tail_iff.mp tail, found⟩⟩
  refine .congr ?_ rest_iff fun _ _ found => found
  refine .of_eq (state_bind _) ?_
  unfold Neg.contextsFound
  rw [← final]
  by_cases smb311 : u.state.sessionp.flags.smb311 = true
  · have expected : u.state.expected = none := by
      unfold Neg.expected
      rw [final, Neg.afterFixed, NegIod.alternateChannel_withToken, main, if_neg Bool.false_ne_true]
    rw [if_pos smb311, if_pos smb311, ← expected]
    exact (yields_parseNegotiateContexts _ place).settles
  · rw [if_neg smb311, if_neg smb311]
    cases error' with
    | none =>
      rw [if_neg (fun failed => by cases error.mpr failed)]
      exact .pure rfl rfl
    | some e =>
      rw [if_pos (error.mp rfl)]
      exact .failed rfl (Option.some_ne_none _)

end SmbClient.Negotiate
