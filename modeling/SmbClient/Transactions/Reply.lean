import SmbClient.Lib.Buffer
import SmbClient.Lib.Traced
import SmbClient.Mbuf.MdChain

/-!
The replies to SMB 1 transactions. A server may split one into several messages, each with a fragment of the
parameters and one of the data; `smb_t2_reply` and `smb_nt_reply` put them together.
-/

namespace SmbClient.Transactions
open SmbClient.Mbuf

def statusBufferOverflow : Nat := 0x80000005
def statusNotifyEnumDir : Nat := 0x10c
def smbFlags2ErrStatus : Nat := 0x4000

structure Reply where
  error : Option Errno := none
  moreData : Bool := false
  ntstatus : Nat := 0
  rpflags2 : Nat := smbFlags2ErrStatus
  mdp : MdChain
  deriving DecidableEq, Repr

structure Piece where
  count : Nat
  off : Nat
  disp : Nat
  deriving DecidableEq, Repr

structure Fragment where
  totpcount : Nat
  totdcount : Nat
  param : Piece
  data : Piece
  top : Chain
  deriving DecidableEq, Repr

/-! ## The words of a message -/

def stopping {α : Type} : Except Errno α → Except (Option Errno) α
  | .ok a => .ok a
  | .error e => .error (some e)

def uintOr (mdp : MdChain) (width old : Nat) : Nat × MdChain :=
  match getUintLe mdp width with
  | .ok fetched => fetched
  | .error _ => (old, (mdGetMem mdp width).mdp)

def skip (mdp : MdChain) (size : Nat) : MdChain := (mdGetMem mdp size).mdp

def skipWords (mdp : MdChain) : Nat → MdChain
  | 0 => mdp
  | tmp + 1 => skipWords (skip mdp 2) tmp

def pieceFields (width got : Nat) (mdp : MdChain) : Except (Option Errno) (Piece × MdChain) := do
  let (count, mdp) ← stopping (getUintLe mdp width)
  let (off, mdp) ← stopping (getUintLe mdp width)
  let (disp, mdp) ← stopping (getUintLe mdp width)
  if count ≠ 0 ∧ disp ≠ got then .error (some .einval)
  else .ok (⟨count, off, disp⟩, mdp)

def EmptyOverflow (r : Reply) (wc : Nat) : Prop :=
  wc = 0 ∧ r.rpflags2 &&& smbFlags2ErrStatus ≠ 0 ∧ r.ntstatus = statusBufferOverflow

instance (r : Reply) (wc : Nat) : Decidable (EmptyOverflow r wc) := inferInstanceAs (Decidable (_ ∧ _))

def t2Fragment (r : Reply) (totpgot totdgot : Nat) : Except (Option Errno) Fragment := do
  let (wc, mdp) ← stopping (mdGetUint8 r.mdp)
  if EmptyOverflow r wc then .error none
  else if wc < 10 then .error (some .enoent)
  else do
    let (totpcount, mdp) ← stopping (mdGetUint16le mdp)
    let (totdcount, mdp) := uintOr mdp 2 totpcount
    let (_reserved, mdp) ← stopping (mdGetUint16le mdp)
    let (param, mdp) ← pieceFields 2 totpgot mdp
    let (data, mdp) ← pieceFields 2 totdgot mdp
    let (wc, mdp) := uintOr mdp 1 wc
    let (_bc, _) ← stopping (mdGetUint16le (skipWords (skip mdp 1) wc))
    return { totpcount, totdcount, param, data, top := r.mdp.top }

def ntFragment (r : Reply) (totpgot totdgot : Nat) : Except (Option Errno) Fragment := do
  let (wc, mdp) ← stopping (mdGetUint8 r.mdp)
  if wc < 18 then .error (some .enoent)
  else do
    let (totpcount, mdp) ← stopping (mdGetUint32le (skip mdp 3))
    let (totdcount, mdp) ← stopping (mdGetUint32le mdp)
    let (param, mdp) ← pieceFields 4 totpgot mdp
    let (data, mdp) ← pieceFields 4 totdgot mdp
    let (wc, mdp) := uintOr mdp 1 wc
    let (_bc, _) ← stopping (mdGetUint16le (skipWords mdp wc))
    return { totpcount, totdcount, param, data, top := r.mdp.top }

/-! ## Putting the pieces together -/

def mbufTrim : Chain → Nat → Chain
  | [], _ => []
  | m :: rest, n => m.take n :: mbufTrim rest (n - m.length)

def smbT2Placedata (kpi : MbufKpi) (mtop : Chain) (offset count : Nat) (mdTop : Option Chain) :
    Except Errno (Option Chain × Chain) :=
  match kpi.split mtop offset with
  | none => .error .ebadrpc
  | some (front, m0) =>
    let checkLen := mbufGetChainLen m0
    if 0xffff < checkLen then .error .einval
    else if checkLen < count then .error .einval
    else
      let m0 := if count < checkLen then mbufTrim m0 count else m0
      .ok (some (mdTop.getD [] ++ m0), front)

def Piece.place (kpi : MbufKpi) (mtop : Chain) (p : Piece) (mdTop : Option Chain) :
    Except Errno (Option Chain × Chain) :=
  if p.count ≠ 0 then smbT2Placedata kpi mtop (p.off % 2 ^ 16) (p.count % 2 ^ 16) mdTop
  else .ok (mdTop, mtop)

/-- The parameters or the data so far: how many bytes the counts come to, the total, and `md_top`. -/
structure Part where
  got : Nat := 0
  total : Nat
  mdTop : Option Chain := none
  deriving DecidableEq, Repr

structure Assembly where
  param : Part
  data : Part
  moreData : Bool := false
  allRecv : Bool := false
  read : List Fragment := []
  deriving DecidableEq, Repr

structure Loop where
  fragment : Reply → Nat → Nat → Except (Option Errno) Fragment
  unset : Nat
  add : Nat → Nat → Nat
  multipacket : Bool

def Loop.start (l : Loop) : Assembly := { param := { total := l.unset }, data := { total := l.unset } }

def Loop.turn (l : Loop) (kpi : MbufKpi) (s : Assembly) (f : Fragment) : Option Errno × Assembly :=
  match f.data.place kpi f.top s.data.mdTop with
  | .error e => (some e, s)
  | .ok (rdata, mtop) =>
    match f.param.place kpi mtop s.param.mdTop with
    | .error e => (some e, { s with data := { s.data with mdTop := rdata } })
    | .ok (rparam, _) =>
      (none, { s with
        param := ⟨l.add s.param.got f.param.count, min s.param.total f.totpcount, rparam⟩
        data := ⟨l.add s.data.got f.data.count, min s.data.total f.totdcount, rdata⟩
        read := s.read ++ [f] })

def Assembly.complete (s : Assembly) : Bool :=
  decide (s.param.total ≤ s.param.got) && decide (s.data.total ≤ s.data.got)

inductive Turn
  | done (error2 : Option Errno) (s : Assembly)
  | more (s : Assembly)

def Loop.message (l : Loop) (kpi : MbufKpi) (s : Assembly) (r : Reply) : Turn :=
  match l.fragment r s.param.got s.data.got with
  | .error error2 => .done error2 s
  | .ok f =>
    match l.turn kpi s f with
    | (some error2, s) => .done (some error2) s
    | (none, s) =>
      if s.complete then .done none { s with allRecv := true }
      else if l.multipacket then .more s
      else .done (some .einval) s

def Loop.collect (l : Loop) (kpi : MbufKpi) (error : Option Errno) (s : Assembly) : List Reply → Option Errno × Assembly
  | [] => (some .etimedout, s)
  | r :: replies =>
    let s := { s with moreData := s.moreData || r.moreData }
    if r.error ≠ none ∧ r.moreData = false then (r.error, s)
    else
      let error := r.error.or error
      match l.message kpi s r with
      | .done error2 s => (error.or error2, s)
      | .more s => l.collect kpi error s replies

def t2Loop : Loop := ⟨t2Fragment, 0xffff, (· + ·), true⟩

def ntLoop (multipacket : Bool) : Loop := ⟨ntFragment, 0xffffffff, fun got count => (got + count) % 2 ^ 32, multipacket⟩

def smbT2Reply (kpi : MbufKpi) (replies : List Reply) : Option Errno × Assembly :=
  t2Loop.collect kpi none t2Loop.start replies

def smbNtReply (kpi : MbufKpi) (multipacket : Bool) (replies : List Reply) : Option Errno × Assembly :=
  if replies.head?.map (·.ntstatus) = some statusNotifyEnumDir then (none, (ntLoop multipacket).start)
  else (ntLoop multipacket).collect kpi none (ntLoop multipacket).start replies

end SmbClient.Transactions
