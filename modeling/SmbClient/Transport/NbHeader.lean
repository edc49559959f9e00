import SmbClient.Mbuf.Chain

/-!
The four bytes in front of every message: `nb_sethdr` and `smb_nbst_send` write them, `nbssn_recvhdr` reads them. The
length has 17 bits on a NetBIOS session and 24 on a direct connection.
-/

namespace SmbClient.Transport
open SmbClient.Lib SmbClient.Mbuf

def smbMaxpktlen : Nat := 0x1FFFF
def smbLargeMaxpktlen : Nat := 0xFFFFFF

def nbSsnMessage : Nat := 0x0
def nbSsnRequest : Nat := 0x81
def nbSsnPosresp : Nat := 0x82
def nbSsnNegresp : Nat := 0x83
def nbSsnRtgresp : Nat := 0x84
def nbSsnKeepalive : Nat := 0x85

structure Nbpcb where
  netbios : Bool
  session : Bool
  hasIod : Bool
  sockOpened : Bool
  deriving DecidableEq, Repr

def putNetworkWord (word : Nat) : Bytes := (toLe 4 word).reverse

def getNetworkWord (header : Bytes) : Nat := ofLe header.reverse

def Nbpcb.lengthMask (nbp : Nbpcb) : Nat := if nbp.netbios then smbMaxpktlen else smbLargeMaxpktlen

def nbSethdr (nbp : Nbpcb) (type len : Nat) : Bytes := putNetworkWord ((len &&& nbp.lengthMask) ||| type <<< 24)

def mFixhdr (m : Chain) : Nat := (m.map List.length).sum

def smbNbstSend (nbp : Nbpcb) (prepended : Bool) (m0 : Chain) : Except Errno Bytes :=
  if ¬nbp.session then .error .enotconn
  else if ¬prepended then .error .enobufs
  else
    let m0' := List.replicate 4 0 :: m0
    .ok (nbSethdr nbp nbSsnMessage ((mFixhdr m0' - 4) % 2 ^ 32) ++ bytes m0)

inductive Received
  | data (part : Bytes)
  | failed (error : Errno) (connected : Bool)
  deriving DecidableEq, Repr

def recvHeader (nbp : Nbpcb) : List Received → Bool → Bytes → Option (Except Errno Bytes)
  | [], _, got => if got.length = 4 then some (.ok got) else none
  | event :: later, waitTime, got =>
    if got.length = 4 then some (.ok got)
    else
      match event with
      | .data part =>
        if part = [] ∨ 4 - got.length < part.length then some (.error .epipe)
        else recvHeader nbp later waitTime (got ++ part)
      | .failed error connected =>
        if error = .ewouldblock ∧ waitTime then recvHeader nbp later false got
        else if ¬nbp.hasIod then some (.error .enoent)
        else some (.error (if ¬nbp.sockOpened ∨ ¬connected then .epipe else error))

def readHeader (nbp : Nbpcb) (header : Bytes) : Except Errno (Nat × Nat) :=
  let len := getNetworkWord header
  let rpcode := len >>> 24 &&& 0xFF
  if nbp.netbios ∧ len >>> 16 &&& 0xFE ≠ 0 then .error .epipe
  else if rpcode ∈ [nbSsnMessage, nbSsnKeepalive] ∨
      nbp.netbios ∧ rpcode ∈ [nbSsnRequest, nbSsnPosresp, nbSsnNegresp, nbSsnRtgresp] then
    .ok (rpcode, len &&& nbp.lengthMask)
  else .error .epipe

def nbssnRecvhdr (nbp : Nbpcb) (events : List Received) (waitTime : Bool) : Option (Except Errno (Nat × Nat)) :=
  (recvHeader nbp events waitTime []).map fun header => header.bind (readHeader nbp)

structure Framed (nbp : Nbpcb) (wire : Bytes) (message : Bytes) : Prop where
  behind : wire.drop 4 = message
  length : ∀ parts : List Bytes, (∀ part ∈ parts, part ≠ []) → parts.flatten = wire.take 4 → ∀ waitTime,
    nbssnRecvhdr nbp (parts.map .data) waitTime = some (.ok (nbSsnMessage, message.length))

/-- A message is framed by what is sent, or it is refused; one that is too long is refused. -/
structure SendsFramed (nbp : Nbpcb) (prepended : Bool) (m0 : Chain) : Prop where
  framed : ∀ wire, smbNbstSend nbp prepended m0 = .ok wire → Framed nbp wire (bytes m0)
  refused : nbp.lengthMask < (bytes m0).length → ∃ e, smbNbstSend nbp prepended m0 = .error e

variable (nbp : Nbpcb)

theorem lengthMask_mod (len : Nat) : len &&& nbp.lengthMask = len % (nbp.lengthMask + 1) := by
  unfold Nbpcb.lengthMask
  split
  · exact Nat.and_two_pow_sub_one_eq_mod len 17
  · exact Nat.and_two_pow_sub_one_eq_mod len 24

theorem lengthMask_lt : nbp.lengthMask < 2 ^ 24 := by
  unfold Nbpcb.lengthMask
  split <;> decide

theorem mFixhdr_eq (m : Chain) : mFixhdr m = (bytes m).length := by
  rw [mFixhdr, bytes, List.length_flatten]

theorem nbSethdr_message (len : Nat) :
    nbSethdr nbp nbSsnMessage len = putNetworkWord (len % (nbp.lengthMask + 1)) := by
  rw [nbSethdr, lengthMask_mod, nbSsnMessage, Nat.zero_shiftLeft, Nat.or_zero]

theorem length_putNetworkWord (word : Nat) : (putNetworkWord word).length = 4 := by
  rw [putNetworkWord, List.length_reverse, length_toLe]

theorem getNetworkWord_put {word : Nat} (small : word < 2 ^ 32) : getNetworkWord (putNetworkWord word) = word := by
  rw [getNetworkWord, putNetworkWord, List.reverse_reverse]
  exact ofLe_toLe_of_lt small

theorem readHeader_length {len : Nat} (small : len ≤ nbp.lengthMask) :
    readHeader nbp (putNetworkWord len) = .ok (nbSsnMessage, len) := by
  have bound := lengthMask_lt nbp
  have word : getNetworkWord (putNetworkWord len) = len := getNetworkWord_put (by omega)
  have message : len >>> 24 = 0 := by
    rw [Nat.shiftRight_eq_div_pow]
    omega
  have mustBeZero : nbp.netbios = true → len >>> 16 &&& 0xFE = 0 := by
    intro netbios
    rw [Nbpcb.lengthMask, if_pos netbios, smbMaxpktlen] at small
    have bit : len >>> 16 = 0 ∨ len >>> 16 = 1 := by
      rw [Nat.shiftRight_eq_div_pow]
      omega
    rcases bit with zero | one
    · rw [zero]
      rfl
    · rw [one]
      rfl
  unfold readHeader
  dsimp only
  rw [word, message, if_neg fun bad => bad.2 (mustBeZero bad.1), Nat.zero_and, if_pos (.inl (.head _)), lengthMask_mod,
    Nat.mod_eq_of_lt (Nat.lt_succ_of_le small)]
  rfl

theorem recvHeader_parts {parts : List Bytes} (present : ∀ part ∈ parts, part ≠ []) {got : Bytes}
    (whole : (got ++ parts.flatten).length = 4) (waitTime : Bool) :
    recvHeader nbp (parts.map .data) waitTime got = some (.ok (got ++ parts.flatten)) := by
  induction parts generalizing got with
  | nil =>
    rw [List.flatten_nil, List.append_nil] at whole ⊢
    rw [List.map_nil, recvHeader, if_pos whole]
  | cons part later ih =>
    have some := present part List.mem_cons_self
    have length := List.length_pos_iff.mpr some
    rw [List.flatten_cons, ← List.append_assoc] at whole ⊢
    have lengths := whole
    rw [List.length_append, List.length_append] at lengths
    rw [List.map_cons, recvHeader, if_neg (by omega),
      if_neg (by rintro (none | more) <;> [exact some none; omega])]
    exact ih (fun other member => present other (List.mem_cons_of_mem _ member)) whole

variable {nbp : Nbpcb}

theorem smbNbstSend_ok {prepended : Bool} {m0 : Chain} (session : nbp.session = true)
    (room : prepended = true) : smbNbstSend nbp prepended m0 =
      .ok (putNetworkWord ((bytes m0).length % 2 ^ 32 % (nbp.lengthMask + 1)) ++ bytes m0) := by
  unfold smbNbstSend
  rw [if_neg (not_not.mpr session), if_neg (not_not.mpr room)]
  dsimp only
  rw [nbSethdr_message, mFixhdr_eq, bytes_cons, List.length_append, List.length_replicate, Nat.add_sub_cancel_left]

theorem framed_of_le {message : Bytes} (small : message.length ≤ nbp.lengthMask) :
    Framed nbp (putNetworkWord message.length ++ message) message where
  behind := List.drop_left' (length_putNetworkWord _)
  length := by
    intro parts present whole waitTime
    rw [List.take_left' (length_putNetworkWord _)] at whole
    have length : ([] ++ parts.flatten).length = 4 := by rw [List.nil_append, whole, length_putNetworkWord]
    rw [nbssnRecvhdr, recvHeader_parts nbp present length, List.nil_append, whole]
    exact congrArg some (readHeader_length nbp small)

theorem sendsFramed_of_error {prepended : Bool} {m0 : Chain} {e : Errno}
    (refuses : smbNbstSend nbp prepended m0 = .error e) : SendsFramed nbp prepended m0 where
  framed := by
    intro wire sent
    rw [refuses] at sent
    cases sent
  refused := fun _ => ⟨e, refuses⟩

/-- A message is sent with the right length, or refused, just when it is not too long for the header or there is
nothing to send it on. -/
theorem smbNbstSend_framed_iff (nbp : Nbpcb) (prepended : Bool) (m0 : Chain) :
    SendsFramed nbp prepended m0 ↔
      (nbp.session = true → prepended = true → (bytes m0).length ≤ nbp.lengthMask) := by
  constructor
  · intro holds session room
    apply Nat.not_lt.mp
    intro long
    obtain ⟨e, failed⟩ := holds.refused long
    rw [smbNbstSend_ok session room] at failed
    cases failed
  · intro fits
    by_cases session : nbp.session = true
    · by_cases room : prepended = true
      · have small := fits session room
        have bound := lengthMask_lt nbp
        have sends := @smbNbstSend_ok nbp prepended m0 session room
        rw [Nat.mod_eq_of_lt (a := (bytes m0).length) (by omega), Nat.mod_eq_of_lt (Nat.lt_succ_of_le small)] at sends
        refine ⟨fun wire sent => ?_, fun long => absurd small (Nat.not_le.mpr long)⟩
        rw [sends] at sent
        cases sent
        exact framed_of_le small
      · have refuses : smbNbstSend nbp prepended m0 = .error .enobufs := by
          rw [smbNbstSend, if_neg (not_not.mpr session), if_pos room]
        exact sendsFramed_of_error refuses
    · have refuses : smbNbstSend nbp prepended m0 = .error .enotconn := by rw [smbNbstSend, if_pos session]
      exact sendsFramed_of_error refuses

/-- On a NetBIOS session a message of 2 ^ 17 bytes is sent, with the length 0 in front of it. -/
theorem smbNbstSend_drops_length :
    let nbp : Nbpcb := ⟨true, true, true, true⟩
    let message : Bytes := List.replicate (2 ^ 17) 7
    smbNbstSend nbp true [message] = .ok ([0, 0, 0, 0] ++ message) ∧
      readHeader nbp [0, 0, 0, 0] = .ok (nbSsnMessage, 0) ∧ ¬SendsFramed nbp true [message] := by
  intro nbp message
  have length : (bytes [message]).length = 2 ^ 17 := by
    rw [bytes_cons, bytes_nil, List.append_nil]
    exact List.length_replicate
  have sends : smbNbstSend nbp true [message] = .ok ([0, 0, 0, 0] ++ message) := by
    rw [smbNbstSend_ok rfl rfl, length, show putNetworkWord _ = [0, 0, 0, 0] by decide, bytes_cons, bytes_nil,
      List.append_nil]
  refine ⟨sends, by decide, fun holds => ?_⟩
  obtain ⟨e, failed⟩ := holds.refused (by rw [length]; decide)
  rw [sends] at failed
  cases failed

end SmbClient.Transport
