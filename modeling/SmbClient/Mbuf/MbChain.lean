import SmbClient.Mbuf.Chain
import SmbClient.Lib.Runs

/-! Messages that are being built: `struct mbchain` and the `mb_*` operations, with kernel memory that may run out
and user memory that may not be readable. -/

namespace SmbClient.Mbuf
open SmbClient.Lib

structure OpenMbuf where
  data : Bytes
  room : Bytes
  deriving DecidableEq, Repr

def mbufTrailingspace (m : OpenMbuf) : Nat := m.room.length

def OpenMbuf.fill (m : OpenMbuf) (cplen : Nat) (moved : Bytes) : OpenMbuf :=
  ⟨m.data ++ moved ++ (m.room.take cplen).drop moved.length, m.room.drop cplen⟩

structure MbChain where
  mbufs : List OpenMbuf
  cur : Nat
  mleft : Nat
  count : Nat := 0
  len : Nat := 0
  pkthdrLen : Nat := 0
  deriving DecidableEq, Repr

def MbChain.chain (mbp : MbChain) : Chain := mbp.mbufs.map OpenMbuf.data

def mbInitm (m : OpenMbuf) : MbChain := { mbufs := [m], cur := 0, mleft := mbufTrailingspace m }

def mbInit (room : Bytes) : MbChain := mbInitm ⟨[], room⟩

/-! ## Allocation -/

def smbMbufGetm : Nat → List (Option Bytes) → Option (List OpenMbuf) × List (Option Bytes)
  | _, [] => (none, [])
  | _, none :: allocs => (none, allocs)
  | len, some room :: allocs =>
    if len ≤ room.length then (some [⟨[], room⟩], allocs)
    else
      let rest := smbMbufGetm (len - room.length) allocs
      (rest.1.map (⟨[], room⟩ :: ·), rest.2)

theorem allocs_smbMbufGetm (len : Nat) (allocs : List (Option Bytes)) {mbufs : List OpenMbuf}
    (got : (smbMbufGetm len allocs).1 = some mbufs) :
    mbufs.map (some ·.room) ++ (smbMbufGetm len allocs).2 = allocs := by
  induction len, allocs using smbMbufGetm.induct generalizing mbufs with
  | case1 => cases got
  | case2 => cases got
  | case3 len room allocs fits =>
    simp only [smbMbufGetm, if_pos fits, Option.some.injEq] at got ⊢
    subst got
    rfl
  | case4 len room allocs short ih =>
    simp only [smbMbufGetm, if_neg short] at got ⊢
    obtain ⟨rest, gotRest, rfl⟩ := Option.map_eq_some_iff.mp got
    exact congrArg _ (ih gotRest)

/-! ## Copying -/

structure Source where
  data : Bytes
  fault : Option (Nat × Errno) := none
  deriving DecidableEq, Repr

def Source.move (src : Source) (n : Nat) : Except Errno (Bytes × Source) :=
  match src.fault with
  | none => .ok (src.data.take n, ⟨src.data.drop n, none⟩)
  | some (place, e) =>
    if place < min n src.data.length then .error e
    else .ok (src.data.take n, ⟨src.data.drop n, some (place - n, e)⟩)

structure Filled where
  passed : List OpenMbuf
  m : OpenMbuf
  after : List OpenMbuf
  mleft : Nat
  copied : Nat
  error : Option Errno
  deriving DecidableEq, Repr

def Filled.pass (m : OpenMbuf) (r : Filled) : Filled := { r with passed := m :: r.passed }

def Filled.plus (cplen : Nat) (r : Filled) : Filled := { r with copied := cplen + r.copied }

def fillLoop (size : Nat) (src : Source) (m : OpenMbuf) (mleft : Nat) (after : List OpenMbuf) (allocs : List (Option Bytes)) :
    Filled :=
  if size = 0 ∨ src.data.length = 0 then ⟨[], m, after, mleft, 0, none⟩
  else if mleft = 0 then
    match after with
    | next :: after => (fillLoop size src next (mbufTrailingspace next) after allocs).pass m
    | [] =>
      match _got : (smbMbufGetm size allocs).1 with
      | some (next :: after) =>
        (fillLoop size src next (mbufTrailingspace next) after (smbMbufGetm size allocs).2).pass m
      | _ => ⟨[], m, [], mleft, 0, some .enobufs⟩
  else
    let cplen := min mleft size
    match src.move cplen with
    | .error e => ⟨[], m, after, mleft, 0, some e⟩
    | .ok (moved, src) =>
      (fillLoop (size - cplen) src (m.fill cplen moved) (mleft - cplen) after allocs).plus cplen
  termination_by size + after.length + allocs.length
  decreasing_by
    · simp
    · have same := congrArg List.length (allocs_smbMbufGetm size allocs _got)
      simp only [List.length_append, List.length_map, List.length_cons, List.length_nil] at same ⊢
      omega
    · omega

/-! ## Numbers -/

inductive Width
  | w8 | w16 | w32 | w64
  deriving DecidableEq, Repr

def Width.size : Width → Nat
  | .w8 => 1
  | .w16 => 2
  | .w32 => 4
  | .w64 => 8

inductive Order
  | le | be
  deriving DecidableEq, Repr

def Order.encode (order : Order) (width : Width) (x : Nat) : Bytes :=
  match order with
  | .le => toLe width.size x
  | .be => (toLe width.size x).reverse

def Order.decode : Order → Bytes → Nat
  | .le, data => ofLe data
  | .be, data => ofLe data.reverse

theorem Order.length_encode (order : Order) (width : Width) (x : Nat) : (order.encode width x).length = width.size := by
  cases order <;> simp [encode]

theorem Order.decode_encode (order : Order) (width : Width) (x : Nat) :
    order.decode (order.encode width x) = x % 256 ^ width.size := by
  cases order <;> simp [encode, decode, ofLe_toLe]

namespace MbChain

variable (mbp : MbChain)

def mbPut (size : Nat) (src : Source) (allocs : List (Option Bytes)) : MbChain × Option Errno :=
  let m := mbp.mbufs.getD mbp.cur ⟨[], []⟩
  let r := fillLoop size src m mbp.mleft (mbp.mbufs.drop (mbp.cur + 1)) allocs
  let next :=
    { mbp with
      mbufs := mbp.mbufs.take mbp.cur ++ r.passed ++ r.m :: r.after
      count := mbp.count + r.copied
      len := mbp.len + r.copied }
  match r.error with
  -- `mb_cur` and `mb_mleft` are as before
  | some e => (next, some e)
  | none => ({ next with cur := mbp.cur + r.passed.length, mleft := r.mleft }, none)

def mbPutMem (data : Bytes) (allocs : List (Option Bytes)) : MbChain × Option Errno :=
  mbp.mbPut data.length { data } allocs

def mbPutUint (width : Width) (order : Order) (mbp : MbChain) (x : Nat) (allocs : List (Option Bytes)) :
    MbChain × Option Errno :=
  mbp.mbPutMem (order.encode width x) allocs

def mbPutUint8 := mbPutUint .w8 .le
def mbPutUint16le := mbPutUint .w16 .le
def mbPutUint16be := mbPutUint .w16 .be
def mbPutUint32le := mbPutUint .w32 .le
def mbPutUint32be := mbPutUint .w32 .be
def mbPutUint64le := mbPutUint .w64 .le
def mbPutUint64be := mbPutUint .w64 .be

def mbPutPadbyte (odd : Bool) (allocs : List (Option Bytes)) : MbChain × Option Errno :=
  if odd then mbp.mbPutMem [0] allocs else (mbp, none)

def mbPutUio (size : Nat) (src : Source) (allocs : List (Option Bytes)) : MbChain × Option Errno :=
  mbp.mbPut size src allocs

def advance (size : Nat) : MbChain :=
  { mbp with
    mbufs := mbp.mbufs.set mbp.cur ((mbp.mbufs.getD mbp.cur ⟨[], []⟩).fill size [])
    mleft := mbp.mleft - size
    count := mbp.count + size
    len := mbp.len + size }

def mbReserve (size : Nat) (alloc : Option Bytes) : Option MbChain :=
  if mbp.mleft < size then
    match alloc with
    | none => none
    | some room =>
      if room.length < size then none
      else some (advance { mbp with
        mbufs := mbp.mbufs.take (mbp.cur + 1) ++ [⟨[], room⟩]
        cur := mbp.cur + 1
        mleft := room.length } size)
  else some (mbp.advance size)

def mbPutMbuf (m : OpenMbuf) (rest : List OpenMbuf) : MbChain :=
  let added := ((m :: rest).map fun m => m.data.length).sum
  { mbp with
    mbufs := mbp.mbufs.take (mbp.cur + 1) ++ m :: rest
    cur := mbp.cur + 1 + rest.length
    mleft := mbufTrailingspace ((m :: rest).getLast (List.cons_ne_nil m rest))
    count := mbp.count + added
    len := mbp.len + added }

def mbFixhdr : MbChain :=
  { mbp with pkthdrLen := (mbp.mbufs.map fun m => m.data.length).sum }

end MbChain

end SmbClient.Mbuf
