import SmbClient.Negotiate.Alternate

/-! `smb2_smb_negotiate`, and the dialect that it settles on. -/

namespace SmbClient.Negotiate
open SmbClient.Lib SmbClient.Lib.Fallible SmbClient.Mbuf SmbClient.Mbuf.Reader

structure NegotiateEnv where
  kalloc : Kalloc
  tunables : Tunables
  addNegotiateContexts : NegSession → NegIod → Bool → Option Errno
  gssNegotiate : NegIod → Option Errno

inductive Attempt
  | unallocated (e : Errno)
  | failed (e : Errno)
  | reconnected
  | answered (mdp : MdChain)

def buildNegotiate (env : NegotiateEnv) (inReconnect : Bool) (neg : Neg) : Option Errno × Neg :=
  let again := inReconnect || neg.iod.alternateChannel
  match smb2SmbGetClientDialects neg.sessionp again neg.sessionp.negDialects with
  | (.error e, sessionp) => (some e, { neg with sessionp })
  | (.ok negDialects, sessionp) =>
    let sessionp := { sessionp with negDialects }
    let sessionp := { sessionp with negSecurityMode := smb2SmbGetClientSecurityMode sessionp }
    let sessionp := { sessionp with negCapabilities := smb2SmbGetClientCapabilities sessionp }
    let addNegContexts := !sessionp.flags.disable311 &&
      if again then negDialects.head? == some smb2Dialect0311 else sessionp.misc.negSmb3Enabled
    if addNegContexts then (env.addNegotiateContexts sessionp neg.iod again, { neg with sessionp })
    else (none, { neg with sessionp })

def sendNegotiate (env : NegotiateEnv) (inReconnect : Bool) : List Attempt → Neg → Option (Except Errno MdChain × Neg)
  | [], _ => none
  | .unallocated e :: _, neg => some (.error e, neg)
  | attempt :: rest, neg =>
    match buildNegotiate env inReconnect neg with
    | (some e, neg) => some (.error e, neg)
    | (none, neg) =>
      match attempt with
      | .answered mdp => some (.ok mdp, neg)
      | .reconnected => sendNegotiate env inReconnect rest neg
      | .failed e | .unallocated e => some (.error e, neg)

def signingRefused (sessionp : NegSession) : Bool :=
  sessionp.misc.clientSigningRequired && sessionp.sopt.svSecurityMode &&& smb2NegotiateSigningEnabled == 0 &&
    (sessionp.misc.smb2SigningRequired && (sessionp.flags.smb21 || sessionp.flags.smb2002) ||
      sessionp.misc.smb3SigningRequired && sessionp.flags.smb3OrLater)

def concludeNegotiate (env : NegotiateEnv) (neg : Neg) : Option Errno × Neg :=
  if signingRefused neg.sessionp then (some .eauth, neg)
  else if neg.iod.alternateChannel then (none, neg)
  else
    match env.gssNegotiate neg.iod with
    | some e => (some e, neg)
    | none => (none, { neg with sessionp := setLimits env.tunables neg.sessionp })

structure LastResponse where
  neg : Neg
  mdp : MdChain
  offered : Option (List Nat)

structure Negotiated where
  error : Option Errno
  neg : Neg
  last : Option LastResponse

def finishNegotiate (env : NegotiateEnv) (last : LastResponse) : Except Errno Unit × Reading Neg → Negotiated
  | (.error e, s) => ⟨some e, s.state, some last⟩
  | (.ok (), s) =>
    let concluded := concludeNegotiate env s.state
    ⟨concluded.1, concluded.2, some last⟩

def negotiateSmb2 (env : NegotiateEnv) (inReconnect : Bool) (attempts : List Attempt) (neg : Neg) : Option Negotiated :=
  match sendNegotiate env inReconnect attempts neg with
  | none => none
  | some (.error e, neg) => some ⟨some e, neg, none⟩
  | some (.ok mdp, neg) =>
    some (finishNegotiate env ⟨neg, mdp, some neg.sessionp.negDialects⟩
      (smb2SmbParseNegotiate env.kalloc false ⟨mdp, neg⟩))

def startsOver : Except Errno Unit × Reading Neg → Bool
  | (.error _, _) => false
  | (.ok (), s) => s.state.sessionp.sopt.svDialect != smb2Dialect0202 && s.state.sessionp.sopt.svDialect != smb2Dialect0210

def smb2SmbNegotiate (env : NegotiateEnv) (inRqp : Option MdChain) (inReconnect : Bool) (attempts : List Attempt)
    (neg : Neg) : Option Negotiated :=
  match inRqp with
  | none => negotiateSmb2 env inReconnect attempts neg
  | some mdp =>
    if neg.iod.alternateChannel then negotiateSmb2 env inReconnect attempts neg
    else
      let parsed := smb2SmbParseNegotiate env.kalloc true ⟨mdp, neg⟩
      if startsOver parsed then negotiateSmb2 env inReconnect attempts parsed.2.state
      else some (finishNegotiate env ⟨neg, mdp, none⟩ parsed)

/-! ## The dialect that is settled on -/

def NegSession.Enables (config : NegSession) (dialect : Nat) : Prop :=
  (dialect = smb2Dialect0202 ∨ dialect = smb2Dialect0210 → config.misc.negSmb2Enabled = true) ∧
    (dialect = smb2Dialect0300 ∨ dialect = smb2Dialect0302 ∨ dialect = smb2Dialect0311 →
      config.misc.negSmb3Enabled = true) ∧
    (dialect = smb2Dialect0311 → config.flags.disable311 = false)

/-- The dialect is one of those in the request, if that is one of SMB 2/3, and is enabled. -/
def NegSession.Allows (config : NegSession) (offered : Option (List Nat)) (dialect : Nat) : Prop :=
  (∀ dialects ∈ offered, dialect ∈ dialects) ∧ config.Enables dialect

def Negotiated.offered (out : Negotiated) : Option (List Nat) := out.last.bind (·.offered)

/-- The response is well formed and names a dialect that is known, the server has signing enabled if the
client requires it, and GSS takes the token. -/
structure LastResponse.Taken (env : NegotiateEnv) (last : LastResponse) : Prop where
  accepted : last.neg.Accepts env.kalloc last.mdp.rest
  signing : signingRefused (last.neg.afterFixed env.kalloc last.mdp.rest).sessionp = false
  gss : env.gssNegotiate (last.neg.afterFixed env.kalloc last.mdp.rest).iod = none

def LastResponse.dialect (last : LastResponse) : Nat := (NegotiateResponse.ofBytes last.mdp.rest).dialect

variable (env : NegotiateEnv) (inReconnect : Bool) (attempts : List Attempt)

theorem concludeNegotiate_saveAll (neg : Neg) (settings : List Setting) (main : neg.iod.alternateChannel = false) :
    ((concludeNegotiate env (neg.saveAll settings)).1 = none ↔
      signingRefused neg.sessionp = false ∧ env.gssNegotiate neg.iod = none) ∧
      (concludeNegotiate env (neg.saveAll settings)).2.sessionp.sopt = neg.sessionp.sopt := by
  unfold concludeNegotiate
  have channel : (neg.saveAll settings).iod.alternateChannel = false := main
  have refused : signingRefused (neg.saveAll settings).sessionp = signingRefused neg.sessionp := rfl
  have gss : env.gssNegotiate (neg.saveAll settings).iod = env.gssNegotiate neg.iod := rfl
  rw [refused, channel, gss]
  cases signingRefused neg.sessionp <;> cases env.gssNegotiate neg.iod <;> simp <;> rfl

variable {neg : Neg}

theorem parseNegotiate_other (kalloc : Kalloc) {mdp : MdChain} (main : neg.iod.alternateChannel = false)
    (accepted : neg.AcceptsHead mdp.rest) (not202 : (NegotiateResponse.ofBytes mdp.rest).dialect ≠ smb2Dialect0202)
    (not21 : (NegotiateResponse.ofBytes mdp.rest).dialect ≠ smb2Dialect0210) :
    ∃ t, smb2SmbParseNegotiate kalloc true ⟨mdp, neg⟩ = (.ok (), t) ∧
      t.state = { neg with sessionp := (NegotiateResponse.ofBytes mdp.rest).recordDialect neg.sessionp } := by
  obtain ⟨dialect, t, run, rfl, _, state⟩ := (settles_parseHead (s := ⟨mdp, neg⟩) rfl).ok accepted
  rw [Neg.recorded_main main] at state
  refine ⟨t, ?_, state⟩
  unfold smb2SmbParseNegotiate
  rw [bind_of_ok run, state_bind, if_pos]
  · rfl
  · simp [state, main, not202, not21]

theorem startsOver_false (neg : Neg) (mdp : MdChain) (main : neg.iod.alternateChannel = false)
    (ends : startsOver (smb2SmbParseNegotiate env.kalloc true ⟨mdp, neg⟩) = false) :
    (NegotiateResponse.ofBytes mdp.rest).dialect = smb2Dialect0202 ∨
      (NegotiateResponse.ofBytes mdp.rest).dialect = smb2Dialect0210 ∨
      ¬neg.AcceptsHead mdp.rest ∧ ∃ e t, smb2SmbParseNegotiate env.kalloc true ⟨mdp, neg⟩ = (.error e, t) := by
  by_cases accepted : neg.AcceptsHead mdp.rest
  · by_contra other
    rw [not_or, not_or] at other
    obtain ⟨t, parsed, state⟩ := parseNegotiate_other env.kalloc main accepted other.1 other.2.1
    have recorded : t.state.sessionp.sopt.svDialect = (NegotiateResponse.ofBytes mdp.rest).dialect := by
      rw [state]
      rfl
    rw [parsed] at ends
    simp [startsOver, recorded, other] at ends
  · obtain ⟨e, t, run⟩ := (settles_parseHead (s := ⟨mdp, neg⟩) rfl).error accepted
    exact .inr (.inr ⟨accepted, e, t, bind_of_error run⟩)

theorem startsOver_iod (neg : Neg) (mdp : MdChain) (main : neg.iod.alternateChannel = false)
    (restarts : startsOver (smb2SmbParseNegotiate env.kalloc true ⟨mdp, neg⟩) = true) :
    (smb2SmbParseNegotiate env.kalloc true ⟨mdp, neg⟩).2.state.iod = neg.iod := by
  by_cases accepted : neg.AcceptsHead mdp.rest
  · by_cases other : (NegotiateResponse.ofBytes mdp.rest).dialect ≠ smb2Dialect0202 ∧
        (NegotiateResponse.ofBytes mdp.rest).dialect ≠ smb2Dialect0210
    · obtain ⟨t, parsed, state⟩ := parseNegotiate_other env.kalloc main accepted other.1 other.2
      rw [parsed, state]
    · have settling : (NegotiateResponse.ofBytes mdp.rest).dialect = smb2Dialect0202 ∨
          (NegotiateResponse.ofBytes mdp.rest).dialect = smb2Dialect0210 := by
        rwa [not_and_or, not_not, not_not] at other
      have settled := settles_parseNegotiate env.kalloc true (s := ⟨mdp, neg⟩) rfl main fun _ => settling
      by_cases taken : neg.Accepts env.kalloc mdp.rest
      · obtain ⟨_, t, run, state⟩ := settled.ok taken
        have recorded : t.state.sessionp.sopt.svDialect = (NegotiateResponse.ofBytes mdp.rest).dialect := by
          rw [state]
          rfl
        rw [run] at restarts
        rcases settling with is | is <;> simp [startsOver, recorded, is] at restarts
      · obtain ⟨e, t, run⟩ := settled.error taken
        rw [run] at restarts
        cases restarts
  · obtain ⟨e, t, run⟩ := (settles_parseHead (s := ⟨mdp, neg⟩) rfl).error accepted
    have parsed : smb2SmbParseNegotiate env.kalloc true ⟨mdp, neg⟩ = (.error e, t) := bind_of_error run
    rw [parsed] at restarts
    cases restarts

theorem finishNegotiate_main (last : LastResponse) (smb1Req : Bool) (main : last.neg.iod.alternateChannel = false)
    (whole : smb1Req = true → startsOver (smb2SmbParseNegotiate env.kalloc true ⟨last.mdp, last.neg⟩) = false) :
    let out := finishNegotiate env last (smb2SmbParseNegotiate env.kalloc smb1Req ⟨last.mdp, last.neg⟩)
    (out.error = none ↔ last.Taken env) ∧ (out.error = none → out.neg.sessionp.sopt.svDialect = last.dialect) := by
  have rejected {e : Errno} {t : Reading Neg} (refused : ¬last.neg.Accepts env.kalloc last.mdp.rest)
      (run : smb2SmbParseNegotiate env.kalloc smb1Req ⟨last.mdp, last.neg⟩ = (.error e, t)) :
      let out := finishNegotiate env last (smb2SmbParseNegotiate env.kalloc smb1Req ⟨last.mdp, last.neg⟩)
      (out.error = none ↔ last.Taken env) ∧ (out.error = none → out.neg.sessionp.sopt.svDialect = last.dialect) := by
    rw [run]
    dsimp only [finishNegotiate]
    refine ⟨⟨fun none => ?_, fun taken => absurd taken.accepted refused⟩, fun none => ?_⟩ <;> cases none
  by_cases ended : ¬last.neg.AcceptsHead last.mdp.rest ∧
      ∃ e t, smb2SmbParseNegotiate env.kalloc smb1Req ⟨last.mdp, last.neg⟩ = (.error e, t)
  · obtain ⟨refused, e, t, run⟩ := ended
    exact rejected (fun accept => refused accept.1) run
  have settled := settles_parseNegotiate env.kalloc smb1Req (s := ⟨last.mdp, last.neg⟩) rfl main (by
    rintro rfl
    rcases startsOver_false env last.neg last.mdp main (whole rfl) with is | is | refused
    · exact .inl is
    · exact .inr is
    · exact absurd refused ended)
  by_cases accepted : last.neg.Accepts env.kalloc last.mdp.rest
  · obtain ⟨_, t, run, state⟩ := settled.ok accepted
    have channel : (last.neg.afterFixed env.kalloc last.mdp.rest).iod.alternateChannel = false := by
      rw [Neg.afterFixed, NegIod.alternateChannel_withToken, main]
    obtain ⟨error, sopt⟩ := concludeNegotiate_saveAll env (last.neg.afterFixed env.kalloc last.mdp.rest)
      (last.neg.contextsFound env.kalloc last.mdp.rest).1 channel
    rw [run]
    simp only [finishNegotiate]
    rw [state, error, sopt]
    exact ⟨⟨fun both => ⟨accepted, both.1, both.2⟩, fun taken => ⟨taken.signing, taken.gss⟩⟩, fun _ => rfl⟩
  · obtain ⟨e, t, run⟩ := settled.error accepted
    exact rejected accepted run

theorem sendNegotiate_iod {after : Neg}
    {result : Except Errno MdChain} (sent : sendNegotiate env inReconnect attempts neg = some (result, after)) :
    after.iod = neg.iod := by
  have built (neg : Neg) : (buildNegotiate env inReconnect neg).2.iod = neg.iod := by
    unfold buildNegotiate
    dsimp only
    split
    · rfl
    · split_ifs <;> rfl
  induction attempts generalizing neg with
  | nil => cases sent
  | cons attempt rest ih =>
    have same := built neg
    generalize build : buildNegotiate env inReconnect neg = building at same
    obtain ⟨error, next⟩ := building
    cases attempt with
    | unallocated e =>
      cases sent
      rfl
    | _ =>
      simp only [sendNegotiate, build] at sent
      cases error with
      | some e =>
        cases sent
        exact same
      | none =>
        first
          | exact (ih sent).trans same
          | cases sent
            exact same

def Negotiated.EndsWith (env : NegotiateEnv) (out : Negotiated) : Prop :=
  (out.last = none ∧ out.error ≠ none) ∨
    ∃ last, out.last = some last ∧ (out.error = none ↔ last.Taken env) ∧
      (out.error = none → out.neg.sessionp.sopt.svDialect = last.dialect)

theorem finishNegotiate_endsWith (last : LastResponse) (smb1Req : Bool) (main : last.neg.iod.alternateChannel = false)
    (whole : smb1Req = true → startsOver (smb2SmbParseNegotiate env.kalloc true ⟨last.mdp, last.neg⟩) = false) :
    (finishNegotiate env last (smb2SmbParseNegotiate env.kalloc smb1Req ⟨last.mdp, last.neg⟩)).EndsWith env := by
  refine .inr ⟨last, ?_, finishNegotiate_main env last smb1Req main whole⟩
  unfold finishNegotiate
  split <;> rfl

theorem negotiateSmb2_endsWith (main : neg.iod.alternateChannel = false) {out : Negotiated}
    (done : negotiateSmb2 env inReconnect attempts neg = some out) : out.EndsWith env := by
  unfold negotiateSmb2 at done
  split at done
  · cases done
  · cases done
    exact .inl ⟨rfl, Option.some_ne_none _⟩
  · rename_i mdp after sent
    cases done
    refine finishNegotiate_endsWith env ⟨after, mdp, _⟩ false ?_ nofun
    rw [sendNegotiate_iod env inReconnect attempts sent]
    exact main

theorem negotiate_endsWith (inRqp : Option MdChain) (inReconnect : Bool) (attempts : List Attempt)
    (main : neg.iod.alternateChannel = false) {out : Negotiated}
    (done : smb2SmbNegotiate env inRqp inReconnect attempts neg = some out) : out.EndsWith env := by
  cases inRqp with
  | none => exact negotiateSmb2_endsWith env inReconnect attempts main done
  | some mdp =>
    simp only [smb2SmbNegotiate, main, Bool.false_eq_true, if_false] at done
    split at done
    · rename_i restarts
      refine negotiateSmb2_endsWith env inReconnect attempts ?_ done
      rw [startsOver_iod env neg mdp main restarts]
      exact main
    · rename_i ends
      cases done
      exact finishNegotiate_endsWith env ⟨neg, mdp, none⟩ true main fun _ => Bool.not_eq_true _ ▸ ends

/-- The dialect of a session is one the client has offered and enabled just when the response that is
taken names such a dialect: nothing in the client checks it. -/
theorem negotiated_dialect_allowed_iff (env : NegotiateEnv) (inRqp : Option MdChain) (inReconnect : Bool)
    (attempts : List Attempt) (neg : Neg) (main : neg.iod.alternateChannel = false) :
    (∀ out, smb2SmbNegotiate env inRqp inReconnect attempts neg = some out → out.error = none →
      neg.sessionp.Allows out.offered out.neg.sessionp.sopt.svDialect) ↔
    (∀ out, smb2SmbNegotiate env inRqp inReconnect attempts neg = some out → ∀ last ∈ out.last, last.Taken env →
      neg.sessionp.Allows last.offered last.dialect) := by
  constructor
  · intro allowed out done last isLast taken
    rcases negotiate_endsWith env inRqp inReconnect attempts main done with ⟨none, _⟩ | ⟨last', found, error, dialect⟩
    · rw [none] at isLast
      cases isLast
    · rw [Option.mem_def, found, Option.some.injEq] at isLast
      subst isLast
      have settled := allowed out done (error.mpr taken)
      rw [dialect (error.mpr taken), Negotiated.offered, found] at settled
      exact settled
  · intro allowed out done succeeded
    rcases negotiate_endsWith env inRqp inReconnect attempts main done with ⟨_, failed⟩ | ⟨last, found, error, dialect⟩
    · exact absurd succeeded failed
    · have settled := allowed out done last found (error.mp succeeded)
      rw [dialect succeeded, Negotiated.offered, found]
      exact settled

/-! ## A client that has SMB 2 disabled -/

def smb3Only : Neg where
  sessionp := { misc := { negSmb3Enabled := true } }
  iod := {}

def plainEnv : NegotiateEnv where
  kalloc := .zeroed
  tunables := { pageSize := 4096, maxread := 8388608, maxwrite := 8388608, tdata := none }
  addNegotiateContexts _ _ _ := none
  gssNegotiate _ := none

def plainResponse (dialect : Nat) : MdChain :=
  mdInitm [toLe 2 65 ++ toLe 2 1 ++ toLe 2 dialect ++ toLe 2 0 ++ List.replicate 56 0]

theorem negotiated_dialect_allowed_302 :
    ∃ out, smb2SmbNegotiate plainEnv none false [.answered (plainResponse smb2Dialect0302)] smb3Only = some out ∧
      out.error = none ∧ smb3Only.sessionp.Allows out.offered out.neg.sessionp.sopt.svDialect := by
  have run : (smb2SmbNegotiate plainEnv none false [.answered (plainResponse smb2Dialect0302)] smb3Only).map
      (fun out => (out.error, out.last.map fun last => (last.offered, last.dialect))) =
      some (none, some (some [smb2Dialect0300, smb2Dialect0302, smb2Dialect0311], smb2Dialect0302)) := by
    decide +kernel
  obtain ⟨out, done, ended⟩ := Option.map_eq_some_iff.mp run
  obtain ⟨error, lastEq⟩ := Prod.mk.inj ended
  refine ⟨out, done, error, ?_⟩
  refine (negotiated_dialect_allowed_iff plainEnv none false _ smb3Only rfl).mpr ?_ out done error
  intro other done' last isLast _
  rw [done, Option.some.injEq] at done'
  subst done'
  rw [Option.mem_def.mp isLast, Option.map_some, Option.some.injEq] at lastEq
  obtain ⟨offered, dialect⟩ := Prod.mk.inj lastEq
  rw [offered, dialect]
  refine ⟨?_, ?_⟩
  · rintro dialects ⟨⟩
    decide
  · unfold NegSession.Enables
    decide

/-- The server answers with 2.002, which was not offered, and the session is one of 2.002. -/
theorem unoffered_dialect_settled :
    ∃ out, smb2SmbNegotiate plainEnv none false [.answered (plainResponse smb2Dialect0202)] smb3Only = some out ∧
      out.error = none ∧ ¬smb3Only.sessionp.Allows out.offered out.neg.sessionp.sopt.svDialect := by
  have run : (smb2SmbNegotiate plainEnv none false [.answered (plainResponse smb2Dialect0202)] smb3Only).map
      (fun out => (out.error, out.offered, out.neg.sessionp.sopt.svDialect)) =
      some (none, some [smb2Dialect0300, smb2Dialect0302, smb2Dialect0311], smb2Dialect0202) := by
    decide +kernel
  obtain ⟨out, done, ended⟩ := Option.map_eq_some_iff.mp run
  obtain ⟨error, ended⟩ := Prod.mk.inj ended
  obtain ⟨offered, dialect⟩ := Prod.mk.inj ended
  refine ⟨out, done, error, fun allows => ?_⟩
  have listed := allows.1 _ offered
  rw [dialect] at listed
  revert listed
  decide

end SmbClient.Negotiate
