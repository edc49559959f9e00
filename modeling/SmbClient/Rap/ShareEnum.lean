import SmbClient.Lib.Traced
import SmbClient.Mbuf.Chain

/-! Which bytes the entry walk of `smb_rap_request` touches in the answer to `RapNetShareEnum`. -/

namespace SmbClient.Rap
open SmbClient.Lib SmbClient.Lib.Traced SmbClient.Mbuf

def maxRapShareBuffer : Nat := 0xffe0

/-- The receive buffer and what is behind it. -/
abbrev Memory := Nat → UInt8

def strtoul (digits : List Char) : Nat := digits.foldl (fun n d => 10 * n + (d.toNat - '0'.toNat)) 0

def fieldLen : Char → Option Nat
  | 'B' => some 1
  | 'W' => some 2
  | 'D' | 'O' | 'z' => some 4
  | _ => none

def smbRapParserpdata : List Char → Except Errno (Nat × List Char)
  | [] => .error .einval
  | c :: s =>
    match fieldLen c, s.takeWhile Char.isDigit with
    | none, _ => .error .einval
    | some len, [] => .ok (len, s)
    | some len, digits => .ok (len * strtoul digits, s.dropWhile Char.isDigit)

abbrev Walker := Traced Nat Errno

/-- The four bytes at `dp` are read and rewritten. -/
def relocate (conv : Nat) (memory : Memory) (dp : Nat) : Walker Memory := do
  emit dp
  let old := ofLe ((List.range 4).map fun i => memory (dp + i))
  let new := toLe 4 ((old % 2 ^ 16 + 2 ^ 32 - conv) % 2 ^ 32)
  pure fun i => if dp ≤ i then new[i - dp]?.getD (memory i) else memory i

def walkEntry (conv : Nat) : Nat → List Char → Memory × Nat → Walker (Memory × Nat)
  | fuel + 1, ptype :: p, (memory, dp) =>
    match smbRapParserpdata (ptype :: p) with
    | .error _ => fail .ebadrpc
    | .ok (dlen, rest) => do
      let memory ← if ptype = 'z' then relocate conv memory dp else pure memory
      walkEntry conv fuel rest (memory, dp + dlen)
  | _, _, s => pure s

def walkEntries (conv : Nat) (sdata : List Char) : Nat → Memory × Nat → Walker (Memory × Nat)
  | 0, s => pure s
  | entries + 1, s => walkEntry conv sdata.length sdata s >>= walkEntries conv sdata entries

structure Reply where
  result : UInt16
  conv : UInt16
  entries : UInt16
  data : Bytes
  fits : data.length ≤ maxRapShareBuffer

def smbRapRequest (sdata : List Char) (reply : Reply) (rcvbuf : Memory) : Walker (UInt16 × Memory) := do
  let received : Memory := fun i => reply.data[i]?.getD (rcvbuf i)
  let (memory, _) ← walkEntries reply.conv.toNat sdata reply.entries.toNat (received, 0)
  -- the walk is made whatever the result is
  pure (reply.result, memory)

def rapNetShareEnum : Reply → Memory → Walker (UInt16 × Memory) := smbRapRequest ['B', '1', '3', 'B', 'W', 'z']

theorem walkEntry_shareInfo (conv : Nat) (memory : Memory) (dp : Nat) :
    ∃ after, walkEntry conv 6 ['B', '1', '3', 'B', 'W', 'z'] (memory, dp) = ⟨[dp + 16], .ok (after, dp + 20)⟩ :=
  ⟨_, rfl⟩

theorem allLogged_walkEntries (p : Nat → Prop) (conv entries : Nat) (memory : Memory) (dp : Nat) :
    AllLogged p (walkEntries conv ['B', '1', '3', 'B', 'W', 'z'] entries (memory, dp)) ↔
      ∀ k < entries, p (dp + 20 * k + 16) := by
  induction entries generalizing memory dp with
  | zero => simp [walkEntries]
  | succ entries ih =>
    obtain ⟨after, entry⟩ := walkEntry_shareInfo conv memory dp
    rw [walkEntries, show List.length _ = 6 from rfl, entry, allLogged_bind]
    constructor
    · rintro ⟨first, later⟩ k bound
      cases k with
      | zero => exact first _ List.mem_cons_self
      | succ k =>
        have place := (ih after (dp + 20)).mp (later _ rfl) k (Nat.lt_of_succ_lt_succ bound)
        rwa [show dp + 20 * (k + 1) + 16 = dp + 20 + 20 * k + 16 by omega]
    · intro all
      refine ⟨fun place member => ?_, fun next reached => ?_⟩
      · rw [List.mem_singleton.mp member]
        exact all 0 (Nat.succ_pos _)
      · cases reached
        refine (ih after (dp + 20)).mpr fun k bound => ?_
        rw [show dp + 20 + 20 * k + 16 = dp + 20 * (k + 1) + 16 by omega]
        exact all (k + 1) (Nat.succ_lt_succ bound)

theorem allLogged_rapNetShareEnum (p : Nat → Prop) (reply : Reply) (rcvbuf : Memory) :
    AllLogged p (rapNetShareEnum reply rcvbuf) ↔ ∀ k < reply.entries.toNat, p (20 * k + 16) := by
  unfold rapNetShareEnum smbRapRequest
  rw [allLogged_bind, allLogged_walkEntries]
  simp

/-- Only bytes of the buffer that the server has returned are touched just if there is room in them for as many entries
as it says. -/
theorem rapNetShareEnum_inside_iff (reply : Reply) (rcvbuf : Memory) :
    AllLogged (fun dp => dp + 4 ≤ maxRapShareBuffer ∧ dp + 4 ≤ reply.data.length) (rapNetShareEnum reply rcvbuf) ↔
      20 * reply.entries.toNat ≤ reply.data.length := by
  rw [allLogged_rapNetShareEnum]
  have fits := reply.fits
  constructor
  · intro inside
    by_contra short
    have last := (inside (reply.entries.toNat - 1) (by omega)).2
    omega
  · intro enough k bound
    omega

def fullReply : Reply := ⟨0, 0, 3276, List.replicate maxRapShareBuffer 0, List.length_replicate.le⟩

/-- The buffer is full, and the server says that there is one entry more. -/
theorem rapNetShareEnum_overruns :
    ¬AllLogged (· + 4 ≤ maxRapShareBuffer) (rapNetShareEnum fullReply fun _ => 0) := by
  rw [allLogged_rapNetShareEnum]
  intro inside
  exact absurd (inside 3275 (by decide)) (by decide)

end SmbClient.Rap
