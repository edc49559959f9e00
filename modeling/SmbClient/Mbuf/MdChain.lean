import SmbClient.Mbuf.Chain

namespace SmbClient.Mbuf
open SmbClient.Lib

structure MdChain where
  top : Chain
  cur : Chain
  pos : Nat
  len : Nat
  pos_le : pos ≤ (cur.headD []).length
  deriving DecidableEq, Repr

def mdInitm (m : Chain) : MdChain := ⟨m, m, 0, 0, Nat.zero_le _⟩

def unreadFrom : Chain → Nat → Chain
  | [], _ => []
  | m :: rest, pos => m.drop pos :: rest

@[simp] theorem unreadFrom_nil (pos : Nat) : unreadFrom [] pos = [] := rfl

@[simp] theorem unreadFrom_cons (m : Bytes) (rest : Chain) (pos : Nat) :
    unreadFrom (m :: rest) pos = m.drop pos :: rest := rfl

@[simp] theorem unreadFrom_zero (m : Chain) : unreadFrom m 0 = m := by
  cases m <;> simp

namespace MdChain

def unread (mdp : MdChain) : Chain := unreadFrom mdp.cur mdp.pos

def rest (mdp : MdChain) : Bytes := bytes mdp.unread

end MdChain

@[simp] theorem rest_mdInitm (m : Chain) : (mdInitm m).rest = bytes m := by
  simp [mdInitm, MdChain.rest, MdChain.unread]

def mdGetMemLoop : Chain → Nat → Nat → Bytes × Chain × Nat
  | cur, pos, 0 => ([], cur, pos)
  | [], _, _ + 1 => ([], [], 0)
  | m :: rest, pos, size + 1 =>
    let count := m.length - pos
    if count < size + 1 then
      let r := mdGetMemLoop rest 0 (size + 1 - count)
      (m.drop pos ++ r.1, r.2)
    else ((m.drop pos).take (size + 1), m :: rest, pos + (size + 1))

theorem mdGetMemLoop_pos_le (cur : Chain) (pos size : Nat) (inside : pos ≤ (cur.headD []).length) :
    (mdGetMemLoop cur pos size).2.2 ≤ ((mdGetMemLoop cur pos size).2.1.headD []).length := by
  induction cur, pos, size using mdGetMemLoop.induct with
  | case1 cur pos => simpa [mdGetMemLoop] using inside
  | case2 pos size => simp [mdGetMemLoop]
  | case3 m rest pos size count short ih =>
    simpa [mdGetMemLoop, count, short] using ih (Nat.zero_le _)
  | case4 m rest pos size count long =>
    simp only [mdGetMemLoop, count, if_neg long, List.headD_cons]
    simp only [List.headD_cons] at inside
    omega

theorem mdGetMemLoop_spec (cur : Chain) (pos size : Nat) :
    (mdGetMemLoop cur pos size).1 = (bytes (unreadFrom cur pos)).take size ∧
      bytes (unreadFrom (mdGetMemLoop cur pos size).2.1 (mdGetMemLoop cur pos size).2.2) =
        (bytes (unreadFrom cur pos)).drop size := by
  induction cur, pos, size using mdGetMemLoop.induct with
  | case1 cur pos => simp [mdGetMemLoop]
  | case2 pos size => simp [mdGetMemLoop]
  | case3 m rest pos size count short ih =>
    replace short : m.length - pos < size + 1 := short
    have whole : (m.drop pos).take (size + 1) = m.drop pos :=
      List.take_of_length_le (by simp only [List.length_drop]; omega)
    have nothing : (m.drop pos).drop (size + 1) = [] :=
      List.drop_eq_nil_of_le (by simp only [List.length_drop]; omega)
    simp only [unreadFrom_zero] at ih
    simp only [mdGetMemLoop, if_pos short, unreadFrom_cons, bytes_cons, List.take_append,
      List.drop_append, whole, nothing, List.length_drop, List.nil_append]
    exact ⟨congrArg _ ih.1, ih.2⟩
  | case4 m rest pos size count long =>
    replace long : ¬m.length - pos < size + 1 := long
    have inside : size + 1 - (m.length - pos) = 0 := by omega
    simp only [mdGetMemLoop, if_neg long, unreadFrom_cons, bytes_cons, List.take_append, List.drop_append,
      List.length_drop, inside, List.take_zero, List.drop_zero, List.append_nil, List.drop_drop, and_self]

theorem mdGetMemLoop_add (cur : Chain) (pos a b : Nat) :
    (mdGetMemLoop cur pos (a + b)).2 =
      (mdGetMemLoop (mdGetMemLoop cur pos a).2.1 (mdGetMemLoop cur pos a).2.2 b).2 := by
  induction cur, pos, a using mdGetMemLoop.induct with
  | case1 cur pos => rw [mdGetMemLoop, Nat.zero_add]
  | case2 pos a =>
    rw [Nat.succ_add, mdGetMemLoop, mdGetMemLoop]
    cases b <;> rfl
  | case3 m rest pos a count short ih =>
    replace short : m.length - pos < a + 1 := short
    have more : m.length - pos < a + b + 1 := by omega
    have left : a + b + 1 - (m.length - pos) = a + 1 - (m.length - pos) + b := by omega
    rw [Nat.succ_add, mdGetMemLoop, mdGetMemLoop]
    dsimp only
    rw [if_pos more, if_pos short, left]
    exact ih
  | case4 m rest pos a count long =>
    replace long : ¬m.length - pos < a + 1 := long
    rw [Nat.succ_add, mdGetMemLoop, mdGetMemLoop]
    dsimp only
    rw [if_neg long]
    cases b with
    | zero => rw [if_neg long]; rfl
    | succ b =>
      dsimp only
      rw [mdGetMemLoop]
      dsimp only
      by_cases more : m.length - pos < a + (b + 1) + 1
      · have rest' : m.length - (pos + (a + 1)) < b + 1 := by omega
        have left : a + (b + 1) + 1 - (m.length - pos) = b + 1 - (m.length - (pos + (a + 1))) := by omega
        rw [if_pos more, if_pos rest', left]
      · rw [if_neg more, if_neg (by omega)]
        simp only [Prod.mk.injEq, true_and]
        omega

structure Fetch where
  target : Bytes
  error : Option Errno
  mdp : MdChain

def mdGetMem (mdp : MdChain) (size : Nat) : Fetch :=
  let r := mdGetMemLoop mdp.cur mdp.pos size
  let next (len : Nat) : MdChain :=
    ⟨mdp.top, r.2.1, r.2.2, len, mdGetMemLoop_pos_le mdp.cur mdp.pos size mdp.pos_le⟩
  if r.1.length < size then ⟨r.1, some .ebadrpc, next mdp.len⟩
  else ⟨r.1, none, next (mdp.len + size)⟩

theorem mdGetMem_target (mdp : MdChain) (size : Nat) :
    (mdGetMem mdp size).target = mdp.rest.take size := by
  have copied := (mdGetMemLoop_spec mdp.cur mdp.pos size).1
  simp only [mdGetMem]
  split <;> exact copied

theorem mdGetMem_rest (mdp : MdChain) (size : Nat) :
    (mdGetMem mdp size).mdp.rest = mdp.rest.drop size := by
  have left := (mdGetMemLoop_spec mdp.cur mdp.pos size).2
  simp only [mdGetMem]
  split <;> exact left

theorem mdGetMem_error (mdp : MdChain) (size : Nat) :
    (mdGetMem mdp size).error = if mdp.rest.length < size then some .ebadrpc else none := by
  have short : (mdGetMemLoop mdp.cur mdp.pos size).1.length < size ↔ mdp.rest.length < size := by
    rw [(mdGetMemLoop_spec mdp.cur mdp.pos size).1, List.length_take]
    unfold MdChain.rest MdChain.unread
    omega
  simp only [mdGetMem, short]
  split <;> rfl

variable {mdp : MdChain} {width value : Nat} {tail : Bytes}

theorem mdGetMem_mdp_of_le {size : Nat} (enough : size ≤ mdp.rest.length) :
    (mdGetMem mdp size).mdp = ⟨mdp.top, (mdGetMemLoop mdp.cur mdp.pos size).2.1,
      (mdGetMemLoop mdp.cur mdp.pos size).2.2, mdp.len + size, mdGetMemLoop_pos_le mdp.cur mdp.pos size mdp.pos_le⟩ := by
  have copied : ¬(mdGetMemLoop mdp.cur mdp.pos size).1.length < size := by
    rw [(mdGetMemLoop_spec mdp.cur mdp.pos size).1, List.length_take]
    unfold MdChain.rest MdChain.unread at enough
    omega
  simp only [mdGetMem, if_neg copied]

theorem mdGetMem_mdp_add {a b : Nat} (enough : a + b ≤ mdp.rest.length) :
    (mdGetMem (mdGetMem mdp a).mdp b).mdp = (mdGetMem mdp (a + b)).mdp := by
  have left : b ≤ (mdGetMem mdp a).mdp.rest.length := by
    rw [mdGetMem_rest, List.length_drop]
    omega
  rw [mdGetMem_mdp_of_le left, mdGetMem_mdp_of_le enough]
  simp only [mdGetMem_mdp_of_le (Nat.le_of_add_right_le enough), mdGetMemLoop_add, Nat.add_assoc]

def getMem (mdp : MdChain) (size : Nat) : Except Errno (Bytes × MdChain) :=
  let fetch := mdGetMem mdp size
  match fetch.error with
  | none => .ok (fetch.target, fetch.mdp)
  | some e => .error e

def getUintLe (mdp : MdChain) (width : Nat) : Except Errno (Nat × MdChain) :=
  (getMem mdp width).map fun fetched => (ofLe fetched.1, fetched.2)

def mdGetUint8 (mdp : MdChain) := getUintLe mdp 1
def mdGetUint16le (mdp : MdChain) := getUintLe mdp 2
def mdGetUint32le (mdp : MdChain) := getUintLe mdp 4
def mdGetUint64le (mdp : MdChain) := getUintLe mdp 8

def mdGetSize (mdp : MdChain) : Nat :=
  match mdp.cur with
  | [] => 0
  | m :: rest => m.length - mdp.pos + mbufGetChainLen rest

variable (mdp : MdChain) (size : Nat)

theorem mdGetSize_eq : mdGetSize mdp = mdp.rest.length := by
  unfold mdGetSize MdChain.rest MdChain.unread
  cases mdp.cur with
  | nil => rfl
  | cons m rest => simp [mbufGetChainLen_eq]

theorem getMem_eq : getMem mdp size =
    if size ≤ mdp.rest.length then .ok (mdp.rest.take size, (mdGetMem mdp size).mdp) else .error .ebadrpc := by
  simp only [getMem, mdGetMem_error, mdGetMem_target, ← Nat.not_lt]
  split_ifs <;> rfl

theorem getMem_ok (enough : size ≤ mdp.rest.length) :
    ∃ next, getMem mdp size = .ok (mdp.rest.take size, next) ∧ next.rest = mdp.rest.drop size :=
  ⟨_, (getMem_eq mdp size).trans (if_pos enough), mdGetMem_rest mdp size⟩

theorem getMem_short (short : mdp.rest.length < size) : getMem mdp size = .error .ebadrpc :=
  (getMem_eq mdp size).trans (if_neg (Nat.not_le_of_lt short))

theorem getMem_eq_ok {mdp} {next : MdChain} {size : Nat} {data : Bytes} (fetched : getMem mdp size = .ok (data, next)) :
    size ≤ mdp.rest.length ∧ data = mdp.rest.take size ∧ next.rest = mdp.rest.drop size := by
  rw [getMem_eq] at fetched
  split_ifs at fetched with enough
  cases fetched
  exact ⟨enough, rfl, mdGetMem_rest mdp size⟩

theorem getUintLe_eq (width : Nat) : getUintLe mdp width =
    if width ≤ mdp.rest.length then .ok (ofLe (mdp.rest.take width), (mdGetMem mdp width).mdp)
    else .error .ebadrpc := by
  rw [getUintLe, getMem_eq]
  split_ifs <;> rfl

theorem getUintLe_ok (width : Nat) (enough : width ≤ mdp.rest.length) :
    ∃ next, getUintLe mdp width = .ok (ofLe (mdp.rest.take width), next) ∧
      next.rest = mdp.rest.drop width :=
  ⟨_, (getUintLe_eq mdp width).trans (if_pos enough), mdGetMem_rest mdp width⟩

theorem getUintLe_eq_ok {mdp} {next : MdChain} (fetched : getUintLe mdp width = .ok (value, next)) :
    width ≤ mdp.rest.length ∧ value = ofLe (mdp.rest.take width) ∧
      next.rest = mdp.rest.drop width := by
  rw [getUintLe_eq] at fetched
  split_ifs at fetched with enough
  cases fetched
  exact ⟨enough, rfl, mdGetMem_rest mdp width⟩

theorem getMem_append {mdp} {data : Bytes} (rest : mdp.rest = data ++ tail) :
    ∃ next, getMem mdp data.length = .ok (data, next) ∧ next.rest = tail := by
  obtain ⟨next, fetched, left⟩ := getMem_ok mdp data.length (by simp [rest])
  rw [rest, List.take_left] at fetched
  rw [rest, List.drop_left] at left
  exact ⟨next, fetched, left⟩

theorem getUintLe_append {mdp} (rest : mdp.rest = toLe width value ++ tail) :
    ∃ next, getUintLe mdp width = .ok (value % 256 ^ width, next) ∧ next.rest = tail := by
  obtain ⟨next, fetched, left⟩ := getMem_append rest
  rw [length_toLe] at fetched
  exact ⟨next, by simp [getUintLe, fetched, Except.map, ofLe_toLe], left⟩

theorem getUintLe_toLe {mdp} (rest : mdp.rest = toLe width value ++ tail) (small : value < 256 ^ width) :
    ∃ next, getUintLe mdp width = .ok (value, next) ∧ next.rest = tail := by
  obtain ⟨next, fetched, left⟩ := getUintLe_append rest
  exact ⟨next, Nat.mod_eq_of_lt small ▸ fetched, left⟩

end SmbClient.Mbuf
