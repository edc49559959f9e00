import SmbClient.Mbuf.ReadBack

/-! What `mb_put_uio` and `md_get_uio` move when the caller's buffer is shorter than the size they are asked for. -/

namespace SmbClient.Mbuf
open SmbClient.Lib

def MdChain.mdGetUioLoop : Chain → (pos size resid : Nat) → Bytes × (Chain × Nat) × Option Errno
  | [], pos, size, resid => ([], ([], pos), if size = 0 ∨ resid = 0 then none else some .ebadrpc)
  | m :: rest, pos, size, resid =>
    if size = 0 ∨ resid = 0 then ([], (m :: rest, pos), none)
    else
      let count := min (m.length - pos) size
      let moved := (m.drop pos).take (min count resid)
      if count = size ∨ resid ≤ count then (moved, (m :: rest, pos + count), none)
      else
        let r := MdChain.mdGetUioLoop rest 0 (size - count) (resid - count)
        (moved ++ r.1, r.2)

structure UioRead where
  moved : Bytes
  cursor : Chain × Nat
  len : Nat
  error : Option Errno
  deriving DecidableEq, Repr

def MdChain.mdGetUio (mdp : MdChain) (size resid : Nat) : UioRead :=
  let r := mdGetUioLoop mdp.cur mdp.pos size resid
  ⟨r.1, r.2.1, if r.2.2 = none then mdp.len + size else mdp.len, r.2.2⟩

structure UioRead.Exact (r : UioRead) (mdp : MdChain) (n : Nat) : Prop where
  moved : r.moved = mdp.rest.take n
  cursor : bytes (unreadFrom r.cursor.1 r.cursor.2) = mdp.rest.drop n
  len : r.len = mdp.len + n

theorem MdChain.mdGetUioLoop_ok (cur : Chain) (pos size resid : Nat) (enough : size ≤ resid)
    (ok : (mdGetUioLoop cur pos size resid).2.2 = none) :
    (mdGetUioLoop cur pos size resid).1 = (bytes (unreadFrom cur pos)).take size ∧
      bytes (unreadFrom (mdGetUioLoop cur pos size resid).2.1.1 (mdGetUioLoop cur pos size resid).2.1.2) =
        (bytes (unreadFrom cur pos)).drop size := by
  induction cur generalizing pos size resid with
  | nil => simp [mdGetUioLoop]
  | cons m rest ih =>
    rw [mdGetUioLoop] at ok ⊢
    split at ok
    next done =>
      have nothing : size = 0 := by omega
      simp [nothing]
    next more =>
      simp only [if_neg more, unreadFrom_cons, bytes_cons]
      dsimp only at ok
      split at ok
      next last =>
        have inside : size ≤ m.length - pos := by omega
        simp [Nat.min_eq_left enough, List.take_append_of_le_length, List.drop_append_of_le_length, inside]
      next further =>
        have used : min (m.length - pos) size = m.length - pos := by omega
        have part : (m.drop pos).take (min (m.length - pos) resid) = m.drop pos :=
          List.take_of_length_le (by rw [List.length_drop]; omega)
        simp only [used] at further ok ⊢
        obtain ⟨moved, left⟩ := ih 0 (size - (m.length - pos)) (resid - (m.length - pos)) (by omega) ok
        rw [unreadFrom_zero] at moved left
        have nothing : (m.drop pos).drop size = [] := List.drop_eq_nil_of_le (by rw [List.length_drop]; omega)
        have before : (m.drop pos).take size = m.drop pos := List.take_of_length_le (by rw [List.length_drop]; omega)
        rw [if_neg further]
        simp only [part, moved, left, List.take_append, List.drop_append, before, nothing, List.length_drop,
          List.nil_append, and_self]

/-- A transfer that succeeds is exact just if the caller has as many bytes as it asks for or, when they are put into a
message, they fill up an mbuf. -/
theorem uio_exact_iff (message : Message) (size : Nat) (src : Source) (allocs : List (Option Bytes)) (mdp : MdChain)
    (resid : Nat) :
    ((message.val.mbPutUio size src allocs).2 = none →
      (bytes (message.val.mbPutUio size src allocs).1.chain = bytes message.val.chain ++ src.data.take size ↔
        size ≤ src.data.length ∨ EndsMbuf message.val.mleft (rooms [] allocs) src.data.length)) ∧
      ((mdp.mdGetUio size resid).error = none →
        ((mdp.mdGetUio size resid).Exact mdp (min size resid) ↔ size ≤ resid)) := by
  constructor
  · intro ok
    obtain ⟨front, last, chain, mleft, ok, bytes⟩ := MbChain.bytes_mbPut message.property ok
    rw [← (fillLoop_ok mleft (List.forall_mem_nil _) (.inl rfl) ok).1, MbChain.mbPutUio, bytes, chain, List.append_assoc,
      List.append_right_inj]
  · intro ok
    constructor
    · intro exact
      have len := exact.len
      replace ok : (MdChain.mdGetUioLoop mdp.cur mdp.pos size resid).2.2 = none := ok
      simp only [MdChain.mdGetUio, if_pos ok] at len
      omega
    · intro enough
      obtain ⟨moved, left⟩ := MdChain.mdGetUioLoop_ok mdp.cur mdp.pos size resid enough ok
      rw [Nat.min_eq_left enough]
      exact ⟨moved, left, if_pos ok⟩

/-- Two bytes are to be moved as four: the message gets two bytes of the mbuf's old content with them, and the cursor
goes past two that nobody has got. -/
theorem uio_short :
    bytes ((mbInit [9, 9, 9, 9]).mbPutUio 4 ⟨[1, 2], none⟩ []).1.chain = [1, 2, 9, 9] ∧
      (mdInitm [[1, 2, 3, 4], [5]]).mdGetUio 4 2 = ⟨[1, 2], ([[1, 2, 3, 4], [5]], 4), 4, none⟩ := by
  decide +kernel

end SmbClient.Mbuf
