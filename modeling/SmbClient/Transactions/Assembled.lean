import SmbClient.Transactions.Reply
import Mathlib.Algebra.Order.BigOperators.Group.List

/-!
What `smb_t2_reply` and `smb_nt_reply` have put together when they return success, against what the headers of the
messages declare.
-/

namespace SmbClient.Transactions
open SmbClient.Lib SmbClient.Mbuf

theorem bytes_mbufTrim (m : Chain) (n : Nat) : bytes (mbufTrim m n) = (bytes m).take n := by
  induction m generalizing n with
  | nil => simp [mbufTrim]
  | cons first rest ih => simp [mbufTrim, ih, List.take_append]

theorem slice_take_full {buf : Bytes} {off len n : Nat} (full : (slice (buf.take n) off len).length = len) :
    slice (buf.take n) off len = slice buf off len := by
  by_cases empty : len = 0
  · simp [slice, empty]
  · apply slice_take
    simp only [slice, List.length_take, List.length_drop] at full
    omega

section
variable {α β : Type}

theorem foldl_min_mem {totals : List Nat} {unset : Nat} (nonempty : totals ≠ [])
    (bounded : ∀ t ∈ totals, t ≤ unset) : totals.foldl min unset ∈ totals := by
  cases totals with
  | nil => exact absurd rfl nonempty
  | cons t rest =>
    rw [List.foldl_cons, Nat.min_eq_right (bounded t List.mem_cons_self)]
    exact List.min?_mem rfl

theorem foldl_min_le {totals : List Nat} {unset t : Nat} (member : t ∈ totals) : totals.foldl min unset ≤ t := by
  have least : (unset :: totals).min? = some (totals.foldl min unset) := rfl
  exact (List.min?_eq_some_iff.mp least).2 t (List.mem_cons_of_mem _ member)

theorem exists_of_forall₂ {R : α → β → Prop} {l : List α} {l' : List β} (related : List.Forall₂ R l l') {b : β}
    (member : b ∈ l') : ∃ a, R a b := by
  induction related with
  | nil => cases member
  | cons first _ ih =>
    rcases List.mem_cons.mp member with rfl | later
    · exact ⟨_, first⟩
    · exact ih later

end

/-! ## One piece -/

def Piece.content (top : Chain) (p : Piece) : Bytes := slice (bytes top) p.off p.count

def Piece.placed (top : Chain) (p : Piece) : Bytes := slice (bytes top) (p.off % 2 ^ 16) (p.count % 2 ^ 16)

variable {kpi : MbufKpi} {α : Type} {mdp : MdChain} {width p d : Nat} {r : Reply} {s : Assembly}

theorem place_ok {mtop left : Chain} {p : Piece} {mdTop after : Option Chain}
    (took : p.place kpi mtop mdTop = .ok (after, left)) :
    bytes (after.getD []) = bytes (mdTop.getD []) ++ p.placed mtop ∧ (p.placed mtop).length = p.count % 2 ^ 16 ∧
      ∃ n, bytes left = (bytes mtop).take n := by
  unfold Piece.place at took
  split at took
  · unfold smbT2Placedata at took
    split at took
    · cases took
    · rename_i front m0 split
      obtain ⟨frontBytes, back, -⟩ := kpi.split_bytes _ _ _ _ split
      dsimp only at took
      rw [mbufGetChainLen_eq] at took
      split_ifs at took with long short more
      · cases took
        rw [back, List.length_drop] at more
        refine ⟨?_, ?_, _, frontBytes⟩
        · simp [bytes_mbufTrim, back, Piece.placed, slice]
        · simp only [Piece.placed, slice, List.length_take, List.length_drop]
          omega
      · cases took
        have same : (bytes m0).length = p.count % 2 ^ 16 := by omega
        have placed : p.placed mtop = bytes m0 := by
          rw [back] at same ⊢
          exact List.take_of_length_le (Nat.le_of_eq same)
        rw [placed]
        exact ⟨by simp, same, _, frontBytes⟩
  · rename_i none
    cases took
    have zero : p.count = 0 := Decidable.not_not.mp none
    exact ⟨by simp [Piece.placed, slice, zero], by simp [Piece.placed, slice, zero], _, List.take_length.symm⟩

theorem placed_of_take {mtop top : Chain} {p : Piece} {n : Nat} (front : bytes mtop = (bytes top).take n)
    (full : (p.placed mtop).length = p.count % 2 ^ 16) : p.placed mtop = p.placed top := by
  unfold Piece.placed at full ⊢
  rw [front] at full ⊢
  exact slice_take_full full

/-! ## The parameters and the data -/

def Loop.Declares (l : Loop) (r : Reply) (f : Fragment) : Prop := ∃ p d, l.fragment r p d = .ok f

/-- The counts are added up in numbers that have room for every total. -/
structure Loop.Counts (l : Loop) : Prop where
  add_le : ∀ a b, l.add a b ≤ a + b
  add_eq : ∀ a b, a + b ≤ l.unset → l.add a b = a + b
  total_le : ∀ {r f}, l.Declares r f → f.totpcount ≤ l.unset ∧ f.totdcount ≤ l.unset

structure Side where
  piece : Fragment → Piece
  total : Fragment → Nat
  part : Assembly → Part

def params : Side := ⟨Fragment.param, Fragment.totpcount, Assembly.param⟩
def datas : Side := ⟨Fragment.data, Fragment.totdcount, Assembly.data⟩

namespace Side
variable (side : Side) (fs : List Fragment) (s : Assembly)

def assembled : Bytes := bytes ((side.part s).mdTop.getD [])

def content (f : Fragment) : Bytes := (side.piece f).content f.top

def placed (f : Fragment) : Bytes := (side.piece f).placed f.top

def count (f : Fragment) : Nat := (side.piece f).count

def sum : Nat := (fs.map side.count).sum

/-- The chain has the total that was declared (the least one, where the messages differ), and is made of the
fragments in order, each of them whole. -/
structure Assembled : Prop where
  total : ∀ total, (s.read.map side.total).min? = some total → (side.assembled s).length = total
  concat : side.assembled s = (s.read.map side.content).flatten
  whole : ∀ f ∈ s.read, (side.content f).length = side.count f

/-- The counts fit in 16 bits, and the bytes that an offset leads to are found at its low 16 bits as well. -/
def Narrow : Prop := ∀ f ∈ fs, side.count f < 2 ^ 16 ∧
  slice (bytes f.top) ((side.piece f).off % 2 ^ 16) (side.count f) = side.content f

def Within : Prop := ∀ f ∈ fs, side.sum fs ≤ side.total f

def Reached : Prop := ∃ f ∈ fs, side.total f ≤ side.sum fs

instance : Decidable (side.Narrow fs) := inferInstanceAs (Decidable (∀ f ∈ fs, _))
instance : Decidable (side.Within fs) := inferInstanceAs (Decidable (∀ f ∈ fs, _))

/-- What every turn of the loops keeps. -/
structure Kept (l : Loop) : Prop where
  assembled : side.assembled s = (s.read.map side.placed).flatten
  full : ∀ f ∈ s.read, (side.placed f).length = side.count f % 2 ^ 16
  total : (side.part s).total = (s.read.map side.total).foldl min l.unset
  got : (side.part s).got ≤ side.sum s.read
  counted : side.sum s.read ≤ l.unset → (side.part s).got = side.sum s.read

variable {side s} {l : Loop}

theorem length_flatten_content (whole : ∀ f ∈ s.read, (side.content f).length = side.count f) :
    (s.read.map side.content).flatten.length = side.sum s.read := by
  rw [List.length_flatten, List.map_map, sum]
  exact congrArg List.sum (List.map_congr_left whole)

theorem Kept.whole (kept : side.Kept s l) (narrow : side.Narrow s.read) :
    side.assembled s = (s.read.map side.content).flatten ∧ ∀ f ∈ s.read, (side.content f).length = side.count f := by
  have same (f) (member : f ∈ s.read) : side.placed f = side.content f := by
    obtain ⟨small, found⟩ := narrow f member
    rw [← found]
    exact congrArg _ (Nat.mod_eq_of_lt small)
  refine ⟨?_, ?_⟩
  · rw [kept.assembled, List.map_congr_left same]
  · intro f member
    rw [← same f member, kept.full f member]
    exact Nat.mod_eq_of_lt (narrow f member).1

theorem Kept.done (kept : side.Kept s l) (narrow : side.Narrow s.read) (within : side.Within s.read)
    (reached : s.read ≠ [] → side.Reached s.read) : side.Assembled s := by
  obtain ⟨concat, whole⟩ := kept.whole narrow
  refine ⟨fun total least => ?_, concat, whole⟩
  rw [concat, length_flatten_content whole]
  obtain ⟨lowest, below⟩ := List.min?_eq_some_iff.mp least
  obtain ⟨f, member, same⟩ := List.mem_map.mp lowest
  obtain ⟨g, member', enough⟩ := reached (List.ne_nil_of_mem member)
  have upper := within f member
  have lower := below _ (List.mem_map_of_mem member')
  omega

section
variable (kept : side.Kept s l) (bounded : ∀ f ∈ s.read, side.total f ≤ l.unset)
include kept bounded

theorem Kept.reached (complete : (side.part s).total ≤ (side.part s).got) (nonempty : s.read ≠ []) :
    side.Reached s.read := by
  have least : (s.read.map side.total).foldl min l.unset ∈ s.read.map side.total := by
    apply foldl_min_mem
    · simpa using nonempty
    · simpa using bounded
  obtain ⟨f, member, same⟩ := List.mem_map.mp least
  refine ⟨f, member, ?_⟩
  rw [same, ← kept.total]
  exact Nat.le_trans complete kept.got

/-- Counts that do not come to more than the totals do not overflow. -/
theorem Kept.complete (within : side.Within s.read) (reached : side.Reached s.read) :
    (side.part s).total ≤ (side.part s).got := by
  obtain ⟨f, member, enough⟩ := reached
  rw [kept.counted (Nat.le_trans (within f member) (bounded f member)), kept.total]
  exact Nat.le_trans (foldl_min_le (List.mem_map_of_mem member)) enough

end

theorem Kept.append {next : Assembly} {f : Fragment} (counts : l.Counts) (kept : side.Kept s l)
    (read : next.read = s.read ++ [f]) (assembled : side.assembled next = side.assembled s ++ side.placed f)
    (full : (side.placed f).length = side.count f % 2 ^ 16)
    (total : (side.part next).total = min (side.part s).total (side.total f))
    (got : (side.part next).got = l.add (side.part s).got (side.count f)) : side.Kept next l := by
  have sum : side.sum next.read = side.sum s.read + side.count f := by simp [Side.sum, read]
  refine ⟨by simp [assembled, kept.assembled, read], fun g member => ?_, by simp [total, kept.total, read], ?_, ?_⟩
  · rw [read, List.mem_append, List.mem_singleton] at member
    rcases member with before | rfl
    · exact kept.full g before
    · exact full
  · rw [sum, got]
    exact Nat.le_trans (counts.add_le _ _) (Nat.add_le_add_right kept.got _)
  · rw [sum, got]
    intro small
    rw [kept.counted (by omega), counts.add_eq _ _ small]

theorem Kept.of_eq {next : Assembly} (kept : side.Kept s l) (read : next.read = s.read)
    (part : side.part next = side.part s) : side.Kept next l where
  assembled := by simpa only [Side.assembled, read, part] using kept.assembled
  full := by simpa only [read] using kept.full
  total := by simpa only [read, part] using kept.total
  got := by simpa only [read, part] using kept.got
  counted := by simpa only [read, part] using kept.counted

end Side

/-! ## The loops -/

section
variable (fs : List Fragment)

def Narrow : Prop := params.Narrow fs ∧ datas.Narrow fs

/-- The counts of the fragments come to no more than the totals. -/
def Within : Prop := params.Within fs ∧ datas.Within fs

/-- They come to as much as the totals. -/
def Reached : Prop := params.Reached fs ∧ datas.Reached fs

instance : Decidable (Narrow fs) := inferInstanceAs (Decidable (_ ∧ _))
instance : Decidable (Within fs) := inferInstanceAs (Decidable (_ ∧ _))

end

def Assembly.Assembled (s : Assembly) : Prop := params.Assembled s ∧ datas.Assembled s

namespace Loop
variable (l : Loop) (replies : List Reply)

/-- The first replies have the fragments `fs`, and the totals are not reached before the last of them. -/
structure Transaction (fs : List Fragment) : Prop where
  declared : List.Forall₂ l.Declares (replies.take fs.length) fs
  unfinished : ∀ n, 0 < n → n < fs.length → ¬Reached (fs.take n)

/-- With the fragment that reaches the totals the counts do not go beyond them. -/
def AddsUp : Prop := ∀ fs, l.Transaction replies fs → Reached fs → Within fs

end Loop

structure Inv (l : Loop) (before : List Reply) (s : Assembly) : Prop where
  param : params.Kept s l
  data : datas.Kept s l
  declared : List.Forall₂ l.Declares before s.read

section
variable {l : Loop} {kpi : MbufKpi} {s next last : Assembly} {r : Reply} {f : Fragment} {before : List Reply}

theorem Inv.start (l : Loop) : Inv l [] l.start where
  param := ⟨rfl, nofun, rfl, Nat.le_refl 0, fun _ => rfl⟩
  data := ⟨rfl, nofun, rfl, Nat.le_refl 0, fun _ => rfl⟩
  declared := .nil

theorem Inv.of_eq (inv : Inv l before s) (read : next.read = s.read) (param : next.param = s.param)
    (data : next.data = s.data) : Inv l before next :=
  ⟨inv.param.of_eq read param, inv.data.of_eq read data, by rw [read]; exact inv.declared⟩

theorem turn_read (took : l.turn kpi s f = (none, next)) : next.read = s.read ++ [f] := by
  unfold Loop.turn at took
  split at took
  · cases took
  · split at took
    · cases took
    · cases took
      rfl

theorem Inv.turn (counts : l.Counts) (inv : Inv l before s) (declares : l.Declares r f)
    (took : l.turn kpi s f = (none, next)) : Inv l (before ++ [r]) next := by
  have read := turn_read took
  unfold Loop.turn at took
  split at took
  · cases took
  · rename_i rdata mtop placedData
    obtain ⟨dataBytes, dataFull, n, front⟩ := place_ok placedData
    split at took
    · cases took
    · rename_i rparam left placedParam
      obtain ⟨paramBytes, paramFull, -⟩ := place_ok placedParam
      rw [placed_of_take front paramFull] at paramBytes paramFull
      cases took
      exact ⟨inv.param.append counts read paramBytes paramFull rfl rfl,
        inv.data.append counts read dataBytes dataFull rfl rfl,
        List.rel_append inv.declared (.cons declares .nil)⟩

theorem message_cases (l : Loop) (kpi : MbufKpi) (s : Assembly) (r : Reply) :
    match l.message kpi s r with
    | .done none last =>
      (∃ p d, l.fragment r p d = .error none) ∧ last = s ∨
      ∃ f next, l.Declares r f ∧ l.turn kpi s f = (none, next) ∧ next.complete ∧
        last = { next with allRecv := true }
    | .done (some _) _ => True
    | .more next => ∃ f, l.Declares r f ∧ l.turn kpi s f = (none, next) ∧ ¬next.complete := by
  unfold Loop.message
  cases parsed : l.fragment r s.param.got s.data.got with
  | error error2 =>
    cases error2 with
    | none => exact .inl ⟨⟨_, _, parsed⟩, rfl⟩
    | some e => trivial
  | ok f =>
    dsimp only
    cases took : l.turn kpi s f with
    | mk error2 next =>
      cases error2 with
      | some e => trivial
      | none =>
        by_cases complete : next.complete = true
        · simp only [if_pos complete]
          exact .inr ⟨f, next, ⟨_, _, parsed⟩, took, complete, rfl⟩
        · simp only [if_neg complete]
          by_cases multi : l.multipacket = true
          · simp only [if_pos multi]
            exact ⟨f, ⟨_, _, parsed⟩, took, complete⟩
          · simp only [if_neg multi]

theorem Inv.done (inv : Inv l before s) (narrow : Narrow s.read) (within : Within s.read)
    (reached : s.read ≠ [] → Reached s.read) : s.Assembled :=
  ⟨inv.param.done narrow.1 within.1 fun nonempty => (reached nonempty).1,
    inv.data.done narrow.2 within.2 fun nonempty => (reached nonempty).2⟩

section
variable (counts : l.Counts) (inv : Inv l before s)
include counts inv

theorem Inv.total_le : (∀ f ∈ s.read, f.totpcount ≤ l.unset) ∧ ∀ f ∈ s.read, f.totdcount ≤ l.unset := by
  have declared (f) (member : f ∈ s.read) : f.totpcount ≤ l.unset ∧ f.totdcount ≤ l.unset := by
    obtain ⟨r, declares⟩ := exists_of_forall₂ inv.declared member
    exact counts.total_le declares
  exact ⟨fun f member => (declared f member).1, fun f member => (declared f member).2⟩

theorem Inv.reached (complete : s.complete = true) (nonempty : s.read ≠ []) : Reached s.read := by
  simp only [Assembly.complete, Bool.and_eq_true, decide_eq_true_eq] at complete
  obtain ⟨param, data⟩ := inv.total_le counts
  exact ⟨inv.param.reached param complete.1 nonempty, inv.data.reached data complete.2 nonempty⟩

theorem Inv.complete (within : Within s.read) (reached : Reached s.read) : s.complete = true := by
  obtain ⟨param, data⟩ := inv.total_le counts
  simp only [Assembly.complete, Bool.and_eq_true, decide_eq_true_eq]
  exact ⟨inv.param.complete param within.1 reached.1, inv.data.complete data within.2 reached.2⟩

end

/-- The transaction goes on behind the fragments that were read. -/
structure Pending (l : Loop) (replies : List Reply) (fs : List Fragment) : Prop where
  transaction : l.Transaction replies fs
  unreached : fs ≠ [] → ¬Reached fs

theorem Pending.append {replies : List Reply} {fs : List Fragment} (pending : Pending l replies fs)
    (declared : List.Forall₂ l.Declares (replies.take (fs ++ [f]).length) (fs ++ [f])) :
    l.Transaction replies (fs ++ [f]) := by
  refine ⟨declared, fun n positive less reached => ?_⟩
  rw [List.length_append, List.length_singleton, Nat.lt_succ_iff] at less
  rw [List.take_append_of_le_length less] at reached
  obtain before | rfl := Nat.lt_or_eq_of_le less
  · exact pending.transaction.unfinished n positive before reached
  · rw [List.take_length] at reached
    exact pending.unreached (List.ne_nil_of_length_pos positive) reached

theorem collect_success (counts : l.Counts) {all before replies : List Reply} {error : Option Errno}
    (addsUp : l.AddsUp all) (split : all = before ++ replies) (inv : Inv l before s) (pending : Pending l all s.read)
    (done : l.collect kpi error s replies = (none, last)) :
    (∃ before, Inv l before last) ∧ l.Transaction all last.read ∧
      (Reached last.read ∨ ∃ r, all[last.read.length]? = some r ∧ ∃ p d, l.fragment r p d = .error none) := by
  induction replies generalizing error s before with
  | nil => cases done
  | cons r replies ih =>
    rw [Loop.collect] at done
    dsimp only at done
    split at done
    · rename_i failed
      exact absurd (congrArg Prod.fst done) failed.1
    · have noted : Inv l before { s with moreData := s.moreData || r.moreData } := inv.of_eq rfl rfl rfl
      have index : before.length = s.read.length := inv.declared.length_eq
      -- the fragment of this message goes on with the transaction
      have goes {f next} (declares : l.Declares r f)
          (took : l.turn kpi { s with moreData := s.moreData || r.moreData } f = (none, next)) :
          Inv l (before ++ [r]) next ∧ l.Transaction all next.read := by
        have turned := noted.turn counts declares took
        refine ⟨turned, ?_⟩
        have read := turn_read took
        change next.read = s.read ++ [f] at read
        have declared := turned.declared
        have front : all.take next.read.length = before ++ [r] := by
          rw [split, List.append_cons before, ← declared.length_eq, List.take_left]
        rw [← front, read] at declared
        exact read ▸ pending.append declared
      have cases := message_cases l kpi { s with moreData := s.moreData || r.moreData } r
      split at done
      · rename_i error2 ended message
        rw [message] at cases
        obtain ⟨none, rfl⟩ := Prod.mk.inj done
        obtain ⟨-, rfl⟩ := Option.or_eq_none_iff.mp none
        rcases cases with ⟨empty, rfl⟩ | ⟨f, next, declares, took, complete, rfl⟩
        · refine ⟨⟨before, noted⟩, pending.transaction, .inr ⟨r, ?_, empty⟩⟩
          rw [split, ← index, List.getElem?_append_right (Nat.le_refl _), Nat.sub_self]
          rfl
        · obtain ⟨turned, transaction⟩ := goes declares took
          have reached : Reached next.read := turned.reached counts complete (by simp [turn_read took])
          exact ⟨⟨_, turned.of_eq rfl rfl rfl⟩, transaction, .inl reached⟩
      · rename_i next message
        rw [message] at cases
        obtain ⟨f, declares, took, incomplete⟩ := cases
        obtain ⟨turned, transaction⟩ := goes declares took
        refine ih (by rw [split, List.append_cons]) turned ⟨transaction, fun _ reached => ?_⟩ done
        exact incomplete (turned.complete counts (addsUp _ transaction reached) reached)

end

/-! ## The words of the two kinds -/

/-- A message without words that says the buffer was too small. -/
def Reply.Empty (r : Reply) : Prop := ∃ wc mdp, mdGetUint8 r.mdp = .ok (wc, mdp) ∧ EmptyOverflow r wc

theorem stopping_eq_ok {x : Except Errno α} {a : α} : stopping x = .ok a ↔ x = .ok a := by
  cases x <;> simp [stopping]

theorem stopping_ne (x : Except Errno α) : stopping x ≠ .error none := by
  cases x <;> simp [stopping]

theorem except_bind_eq_error {ε β : Type} {x : Except ε α} {f : α → Except ε β} {e : ε} :
    (x >>= f) = .error e ↔ x = .error e ∨ ∃ a, x = .ok a ∧ f a = .error e := by
  cases x <;> simp

theorem getUintLe_lt {next : MdChain} {value : Nat} (fetched : getUintLe mdp width = .ok (value, next)) :
    value < 256 ^ width := by
  obtain ⟨enough, rfl, -⟩ := getUintLe_eq_ok fetched
  have below := ofLe_lt (mdp.rest.take width)
  rwa [List.length_take, Nat.min_eq_left enough] at below

theorem uintOr_lt {old : Nat} (small : old < 256 ^ width) :
    (uintOr mdp width old).1 < 256 ^ width := by
  unfold uintOr
  split
  · rename_i fetched read
    exact getUintLe_lt read
  · exact small

def Piece.Bounded (bound : Nat) (p : Piece) : Prop := p.count < bound ∧ p.off < bound

theorem pieceFields_bounded {got : Nat} {next : MdChain} {p : Piece}
    (read : pieceFields width got mdp = .ok (p, next)) : p.Bounded (256 ^ width) := by
  simp only [pieceFields, except_bind_eq_ok, stopping_eq_ok] at read
  obtain ⟨⟨count, mdp1⟩, first, ⟨off, mdp2⟩, second, ⟨disp, mdp3⟩, -, placed⟩ := read
  dsimp only at placed
  split at placed
  · cases placed
  · cases placed
    exact ⟨getUintLe_lt first, getUintLe_lt second⟩

theorem pieceFields_ne {got : Nat} : pieceFields width got mdp ≠ .error none := by
  intro failed
  simp only [pieceFields, except_bind_eq_error, stopping_ne, false_or] at failed
  obtain ⟨_, -, _, -, _, -, failed⟩ := failed
  split at failed <;> cases failed

structure Fragment.Bounded (bound : Nat) (f : Fragment) : Prop where
  totpcount : f.totpcount < bound
  totdcount : f.totdcount < bound
  param : f.param.Bounded bound
  data : f.data.Bounded bound

theorem Fragment.Bounded.total_le {bound : Nat} {f : Fragment} (bounded : f.Bounded bound) :
    f.totpcount ≤ bound - 1 ∧ f.totdcount ≤ bound - 1 :=
  ⟨Nat.le_sub_one_of_lt bounded.totpcount, Nat.le_sub_one_of_lt bounded.totdcount⟩

theorem t2Fragment_bounded {f : Fragment} (parsed : t2Fragment r p d = .ok f) :
    f.Bounded (2 ^ 16) := by
  simp only [t2Fragment, except_bind_eq_ok, stopping_eq_ok] at parsed
  obtain ⟨⟨wc, mdp⟩, -, parsed⟩ := parsed
  dsimp only at parsed
  split_ifs at parsed
  simp only [except_bind_eq_ok, stopping_eq_ok] at parsed
  obtain ⟨⟨totpcount, mdp1⟩, first, _, -, ⟨param, mdp2⟩, second, ⟨data, mdp3⟩, third, -, -, made⟩ := parsed
  cases made
  exact ⟨getUintLe_lt first, uintOr_lt (getUintLe_lt first), pieceFields_bounded second, pieceFields_bounded third⟩

theorem t2Fragment_empty (stopped : t2Fragment r p d = .error none) : r.Empty := by
  simp only [t2Fragment, except_bind_eq_error, stopping_eq_ok, stopping_ne, false_or] at stopped
  obtain ⟨⟨wc, mdp⟩, read, stopped⟩ := stopped
  by_cases empty : EmptyOverflow r wc
  · exact ⟨wc, mdp, read, empty⟩
  · dsimp only at stopped
    rw [if_neg empty] at stopped
    split at stopped
    · cases stopped
    · simp [except_bind_eq_error, stopping_ne, pieceFields_ne, pure, Except.pure] at stopped

theorem ntFragment_bounded {f : Fragment} (parsed : ntFragment r p d = .ok f) :
    f.Bounded (2 ^ 32) := by
  simp only [ntFragment, except_bind_eq_ok, stopping_eq_ok] at parsed
  obtain ⟨⟨wc, mdp⟩, -, parsed⟩ := parsed
  dsimp only at parsed
  split_ifs at parsed
  simp only [except_bind_eq_ok, stopping_eq_ok] at parsed
  obtain ⟨⟨totpcount, mdp1⟩, first, ⟨totdcount, mdp2⟩, second, ⟨param, mdp3⟩, third, ⟨data, mdp4⟩, fourth, -, -, made⟩ :=
    parsed
  cases made
  exact ⟨getUintLe_lt first, getUintLe_lt second, pieceFields_bounded third, pieceFields_bounded fourth⟩

theorem ntFragment_ne : ntFragment r p d ≠ .error none := by
  intro stopped
  simp only [ntFragment, except_bind_eq_error, stopping_ne, false_or] at stopped
  obtain ⟨⟨wc, mdp⟩, -, stopped⟩ := stopped
  dsimp only at stopped
  split at stopped
  · cases stopped
  · simp [except_bind_eq_error, stopping_ne, pieceFields_ne, pure, Except.pure] at stopped

/-! ## What has been put together -/

theorem t2Loop_counts : t2Loop.Counts where
  add_le _ _ := Nat.le_refl _
  add_eq _ _ _ := rfl
  total_le := fun ⟨_, _, parsed⟩ => (t2Fragment_bounded parsed).total_le

theorem ntLoop_counts (multipacket : Bool) : (ntLoop multipacket).Counts where
  add_le _ _ := Nat.mod_le _ _
  add_eq _ _ small := Nat.mod_eq_of_lt (Nat.lt_succ_of_le small)
  total_le := fun ⟨_, _, parsed⟩ => (ntFragment_bounded parsed).total_le

theorem Pending.start (l : Loop) (replies : List Reply) : Pending l replies [] :=
  ⟨⟨.nil, fun _ _ => nofun⟩, fun some' => absurd rfl some'⟩

theorem t2Loop_narrow {before : List Reply} (inv : Inv t2Loop before s) : Narrow s.read := by
  have bounded (f) (member : f ∈ s.read) : f.Bounded (2 ^ 16) := by
    obtain ⟨r, p, d, parsed⟩ := exists_of_forall₂ inv.declared member
    exact t2Fragment_bounded parsed
  have narrow {side : Side} (small : ∀ f ∈ s.read, (side.piece f).Bounded (2 ^ 16)) : side.Narrow s.read := by
    intro f member
    refine ⟨(small f member).1, ?_⟩
    rw [Nat.mod_eq_of_lt (small f member).2]
    rfl
  exact ⟨narrow fun f member => (bounded f member).param, narrow fun f member => (bounded f member).data⟩

/-- No message without words ends the transaction before the totals are reached. -/
def NotCutOff (replies : List Reply) : Prop :=
  ∀ fs r, t2Loop.Transaction replies fs → replies[fs.length]? = some r → r.Empty → fs ≠ [] → Reached fs

def NarrowAll (multipacket : Bool) (replies : List Reply) : Prop :=
  ∀ fs, (ntLoop multipacket).Transaction replies fs → Reached fs → Narrow fs

def replyOf (words : Bytes) : Reply := { mdp := skip (mdInitm [List.replicate 32 0 ++ words]) 32 }

def t2Message (totdcount dcount ddisp : Nat) (data : Bytes) : Reply :=
  replyOf ([10] ++ toLe 2 0 ++ toLe 2 totdcount ++ toLe 2 0 ++ (toLe 2 0 ++ toLe 2 55 ++ toLe 2 0) ++
    (toLe 2 dcount ++ toLe 2 55 ++ toLe 2 ddisp) ++ [0, 0] ++ toLe 2 data.length ++ data)

def ntMessage (totdcount dcount ddisp : Nat) (data : Bytes) : Reply :=
  replyOf ([18] ++ [0, 0, 0] ++ toLe 4 0 ++ toLe 4 totdcount ++ (toLe 4 0 ++ toLe 4 71 ++ toLe 4 0) ++
    (toLe 4 dcount ++ toLe 4 71 ++ toLe 4 ddisp) ++ [0] ++ toLe 2 data.length ++ data)

example : (smbT2Reply .copying [t2Message 5 3 0 [1, 2, 3], t2Message 5 2 3 [4, 5]]).2.data.mdTop.map bytes =
    some [1, 2, 3, 4, 5] := by
  decide +kernel

section
variable {l : Loop} {r : Reply} {f : Fragment}

theorem transaction_single (only : ∀ g, l.Declares r g → g = f) {fs : List Fragment}
    (transaction : l.Transaction [r] fs) (reached : Reached fs) : fs = [f] := by
  obtain ⟨g, member, -⟩ := reached.1
  have length := transaction.declared.length_eq
  have positive := List.length_pos_of_mem member
  rw [List.length_take, List.length_singleton] at length
  obtain ⟨h, rfl⟩ : ∃ h, fs = [h] := List.length_eq_one_iff.mp (by omega)
  obtain _ | ⟨declares, -⟩ := transaction.declared
  rw [only h declares]

end

end SmbClient.Transactions
