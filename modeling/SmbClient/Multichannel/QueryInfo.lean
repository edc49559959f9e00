import SmbClient.Lib.Buffer
import SmbClient.Lib.Traced
import SmbClient.Mbuf.Chain
import SmbClient.Multichannel.Table

/-! The bytes of the server's answer to a query of its interfaces, and which of them are read. -/

namespace SmbClient.Multichannel
open SmbClient.Lib SmbClient.Lib.Traced SmbClient.Mbuf

structure Access where
  place : Nat
  size : Nat
  deriving DecidableEq, Repr

def Access.Inside (buf : Bytes) (access : Access) : Prop := access.place + access.size ≤ buf.length

abbrev Scanner := Traced Access Errno

def safeBufferGetAndAdvance (width : Nat) (buf : Bytes) (pos : Nat) : Scanner (Bytes × Nat) :=
  if ((buf.length : Int) - pos) % 2 ^ 32 < width then fail .einval
  else do
    emit ⟨pos, width⟩
    pure (slice buf pos width, pos + width)

def smb2McSafeBufferGetAndAdvance16 := safeBufferGetAndAdvance 2
def smb2McSafeBufferGetAndAdvance32 := safeBufferGetAndAdvance 4
def smb2McSafeBufferGetAndAdvance64 := safeBufferGetAndAdvance 8
def smb2McSafeBufferGetAndAdvanceIn6Addr := safeBufferGetAndAdvance 16

def ipv4Family : Nat := 0x0002
def ipv6Family : Nat := 0x0017
def ifCapRssCapable : Nat := 0x01

def parseInterface (buf : Bytes) (pos : Nat) : Scanner (Nat × Option NetworkNicInfo) := do
  let (nextOffset, pos) ← smb2McSafeBufferGetAndAdvance32 buf pos
  let (nicIndex, pos) ← smb2McSafeBufferGetAndAdvance32 buf pos
  let (nicCaps, pos) ← smb2McSafeBufferGetAndAdvance32 buf pos
  let (_reserved, pos) ← smb2McSafeBufferGetAndAdvance32 buf pos
  let (linkSpeed, pos) ← smb2McSafeBufferGetAndAdvance64 buf pos
  let (family, pos) ← smb2McSafeBufferGetAndAdvance16 buf pos
  let info (addr : SockAddr) : NetworkNicInfo :=
    { nicIndex := ofLe nicIndex
      linkSpeed := ofLe linkSpeed
      rssCapable := ofLe nicCaps % (2 * ifCapRssCapable) = ifCapRssCapable
      addr }
  if ofLe family = ipv4Family then do
    let (_port, pos) ← smb2McSafeBufferGetAndAdvance16 buf pos
    let (addr, _) ← smb2McSafeBufferGetAndAdvance32 buf pos
    pure (ofLe nextOffset, some (info ⟨.inet, addr⟩))
  else if ofLe family = ipv6Family then do
    let (_port, pos) ← smb2McSafeBufferGetAndAdvance16 buf pos
    let (_flowInfo, pos) ← smb2McSafeBufferGetAndAdvance32 buf pos
    let (addr, pos) ← smb2McSafeBufferGetAndAdvanceIn6Addr buf pos
    let (_scopeId, _) ← smb2McSafeBufferGetAndAdvance32 buf pos
    pure (ofLe nextOffset, some (info ⟨.inet6, addr⟩))
  else pure (ofLe nextOffset, none)

structure Scan where
  pos : Nat := 0
  more : Bool := true
  infos : List NetworkNicInfo := []
  deriving DecidableEq, Repr

def scanInterface (buf : Bytes) (s : Scan) : Scanner Scan :=
  if s.pos > buf.length then fail .einval
  else do
    let (nextOffset, info) ← parseInterface buf s.pos
    pure ⟨s.pos + nextOffset, nextOffset ≠ 0, s.infos ++ info.toList⟩

def scanInterfaces (buf : Bytes) (fuel : Nat) : Scanner Scan := loop Scan.more (scanInterface buf) fuel {}

def Table.queryInfoResponse (t : Table) (serverInfoBuffer : Option Bytes) : Table × Option Errno :=
  match serverInfoBuffer with
  | none => (t, some .einval)
  | some buf =>
    match (scanInterfaces buf (buf.length + 2)).result with
    | .error e => (t, some e)
    | .ok s => (t.smb2McQueryInfoResponseEvent s.infos, none)

/-- Bytes that are taken in are an event of the table. -/
theorem Table.queryInfoResponse_step (t : Table) (serverInfoBuffer : Option Bytes) :
    (t.queryInfoResponse serverInfoBuffer).1 = t ∨
      ∃ infos, t.step (.queryInfoResponseEvent infos) = some (t.queryInfoResponse serverInfoBuffer).1 := by
  unfold queryInfoResponse
  split
  · exact .inl rfl
  · split
    · exact .inl rfl
    · exact .inr ⟨_, rfl⟩

/-! ## Reads -/

section
variable {buf : Bytes} {width pos : Nat}

theorem inside_safeBufferGetAndAdvance (within : pos ≤ buf.length) :
    AllLogged (Access.Inside buf) (safeBufferGetAndAdvance width buf pos) := by
  unfold safeBufferGetAndAdvance
  split
  · simp
  · rename_i enough
    simp only [allLogged_bind, allLogged_emit, allLogged_pure, implies_true, and_true]
    change pos + width ≤ buf.length
    omega

theorem safeBufferGetAndAdvance_ok {data : Bytes} {next : Nat} (within : pos ≤ buf.length)
    (read : (safeBufferGetAndAdvance width buf pos).result = .ok (data, next)) : next = pos + width ∧ next ≤ buf.length := by
  unfold safeBufferGetAndAdvance at read
  split at read
  · cases read
  · rename_i enough
    cases read
    exact ⟨rfl, by omega⟩

theorem inside_field {α : Type} {f : Bytes × Nat → Scanner α} (within : pos ≤ buf.length)
    (rest : ∀ data, pos + width ≤ buf.length → AllLogged (Access.Inside buf) (f (data, pos + width))) :
    AllLogged (Access.Inside buf) (safeBufferGetAndAdvance width buf pos >>= f) := by
  rw [allLogged_bind]
  refine ⟨inside_safeBufferGetAndAdvance within, fun (data, next) read => ?_⟩
  obtain ⟨rfl, inside⟩ := safeBufferGetAndAdvance_ok within read
  exact rest data inside

theorem inside_parseInterface (within : pos ≤ buf.length) :
    AllLogged (Access.Inside buf) (parseInterface buf pos) := by
  unfold parseInterface
  apply inside_field within
  intro nextOffset within
  apply inside_field within
  intro nicIndex within
  apply inside_field within
  intro nicCaps within
  apply inside_field within
  intro reserved within
  apply inside_field within
  intro linkSpeed within
  apply inside_field within
  intro family within
  dsimp only
  split
  · apply inside_field within
    intro port within
    apply inside_field within
    intro addr within
    simp
  · split
    · apply inside_field within
      intro port within
      apply inside_field within
      intro flowInfo within
      apply inside_field within
      intro addr within
      apply inside_field within
      intro scopeId within
      simp
    · simp

theorem inside_scanInterface (buf : Bytes) (s : Scan) : AllLogged (Access.Inside buf) (scanInterface buf s) := by
  unfold scanInterface
  split
  · simp
  · rename_i within
    rw [allLogged_bind]
    refine ⟨inside_parseInterface (Nat.le_of_not_gt within), fun _ _ => ?_⟩
    simp

/-! ## Turns -/

theorem parseInterface_ok {r : Nat × Option NetworkNicInfo} (within : pos ≤ buf.length)
    (parsed : (parseInterface buf pos).result = .ok r) : pos < buf.length := by
  unfold parseInterface at parsed
  obtain ⟨⟨nextOffset, next⟩, read, -⟩ := result_bind_eq_ok.mp parsed
  obtain ⟨after, inside⟩ := safeBufferGetAndAdvance_ok within read
  omega

def Scan.left (buf : Bytes) (s : Scan) : Nat := if s.more then max 1 (buf.length + 1 - s.pos) else 0

theorem scanInterface_shrinks (buf : Bytes) : Shrinks Scan.more (scanInterface buf) (Scan.left buf) := by
  intro s next more taken
  unfold scanInterface at taken
  split at taken
  · cases taken
  · rename_i within
    obtain ⟨⟨nextOffset, info⟩, parsed, ended⟩ := result_bind_eq_ok.mp taken
    have inside := parseInterface_ok (Nat.le_of_not_gt within) parsed
    cases ended
    simp only [Scan.left, more, if_true]
    split
    · rename_i further
      have advances : nextOffset ≠ 0 := by simpa using further
      omega
    · omega

end

/-- Whatever the answer holds, its entries are gone through in no more turns than it has bytes, and one, and only bytes of it are
read. -/
theorem scanInterfaces_inside (buf : Bytes) :
    (∀ fuel, turns Scan.more (scanInterface buf) fuel {} ≤ buf.length + 1) ∧
      (∀ s, (scanInterfaces buf (buf.length + 2)).result = .ok s → s.more = false) ∧
      AllLogged (Access.Inside buf) (scanInterfaces buf (buf.length + 2)) := by
  have shrinks := scanInterface_shrinks buf
  have start : Scan.left buf {} = buf.length + 1 := by simp [Scan.left]
  have enough : Scan.left buf {} < buf.length + 2 := start ▸ Nat.lt_succ_self _
  refine ⟨fun fuel => ?_, fun s ended => loop_done shrinks enough ended, ?_⟩
  · rw [← start]
    apply turns_le shrinks
    intro s more
    simp [Scan.left, more]
  · rw [scanInterfaces, allLogged_loop_iff shrinks enough]
    exact fun s _ => inside_scanInterface buf s

end SmbClient.Multichannel
