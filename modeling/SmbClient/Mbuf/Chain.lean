import SmbClient.Lib.LittleEndian

namespace SmbClient.Mbuf
open SmbClient.Lib

inductive Errno
  | enomem | einval | eio | e2big | enxio | eagain | ewouldblock | enotconn | etimedout
  | enetreset | enobufs | eauth | ebadrpc | erpcmismatch | estale | enotsup | enodata | efault | enoent | ealready | ebadf | eacces
  | eproto | enoattr | erange | efbig | eperm | epipe | enametoolong | ebusy
  deriving DecidableEq, Repr

abbrev Chain := List Bytes

def bytes (m : Chain) : Bytes := m.flatten

@[simp] theorem bytes_nil : bytes [] = [] := rfl

@[simp] theorem bytes_cons (m : Bytes) (rest : Chain) : bytes (m :: rest) = m ++ bytes rest := rfl

@[simp] theorem bytes_append (a b : Chain) : bytes (a ++ b) = bytes a ++ bytes b :=
  List.flatten_append

def mbufGetChainLen : Chain → Nat
  | [] => 0
  | m :: rest => m.length + mbufGetChainLen rest

theorem mbufGetChainLen_eq (m0 : Chain) : mbufGetChainLen m0 = (bytes m0).length := by
  induction m0 with
  | nil => rfl
  | cons m rest ih => simp [mbufGetChainLen, ih]

structure MbufKpi where
  split : Chain → Nat → Option (Chain × Chain)
  split_bytes : ∀ m n front back, split m n = some (front, back) →
    bytes front = (bytes m).take n ∧ bytes back = (bytes m).drop n ∧ n ≤ (bytes m).length
  split_succeeds : ∀ m n, n ≤ (bytes m).length → split m n ≠ none
  pullup : Chain → Nat → Option Chain
  pullup_bytes : ∀ m n m', pullup m n = some m' →
    bytes m' = bytes m ∧ n ≤ (m'.headD []).length
  pullup_succeeds : ∀ m n, n ≤ 64 → n ≤ (bytes m).length → pullup m n ≠ none

namespace MbufKpi

def copying : MbufKpi where
  split m n := if n ≤ (bytes m).length then some ([(bytes m).take n], [(bytes m).drop n]) else none
  split_bytes := by
    intro m n front back split
    by_cases fits : n ≤ (bytes m).length
    · rw [if_pos fits, Option.some.injEq, Prod.mk.injEq] at split
      obtain ⟨rfl, rfl⟩ := split
      exact ⟨by simp, by simp, fits⟩
    · simp [fits] at split
  split_succeeds := by
    intro m n fits
    simp [fits]
  pullup m n := if n ≤ (bytes m).length then some [bytes m] else none
  pullup_bytes := by
    intro m n m' pullup
    by_cases fits : n ≤ (bytes m).length
    · rw [if_pos fits, Option.some.injEq] at pullup
      subst pullup
      exact ⟨by simp, by simpa using fits⟩
    · simp [fits] at pullup
  pullup_succeeds := by
    intro m n _ fits
    simp [fits]

theorem pullup_head (kpi : MbufKpi) {m m' : Chain} {n : Nat} (pullup : kpi.pullup m n = some m') :
    (m'.headD []).take n = (bytes m).take n := by
  obtain ⟨same, fits⟩ := kpi.pullup_bytes m n m' pullup
  rw [← same]
  cases m' with
  | nil => simp
  | cons first rest =>
    have inside : n - first.length = 0 := Nat.sub_eq_zero_of_le fits
    simp [List.take_append, inside]

end MbufKpi

structure Kalloc where
  alloc : Nat → Option Bytes
  alloc_length : ∀ size buf, alloc size = some buf → buf.length = size

def Kalloc.zeroed : Kalloc where
  alloc size := some (List.replicate size 0)
  alloc_length size buf fresh := by
    rw [Option.some.injEq] at fresh
    rw [← fresh, List.length_replicate]

end SmbClient.Mbuf
