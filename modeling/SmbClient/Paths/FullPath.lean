import SmbClient.Paths.Fphelp

namespace SmbClient.Paths
open SmbClient.Lib
open SmbClient.Mbuf (Errno)

def wireName (convert : Bytes → Except Errno Bytes) (name : Bytes) : Except Errno Bytes :=
  if name = [] then .ok [] else convert name

def joined (usingUnicode : Bool) : (addSlash : Bool) → List Bytes → Bytes
  | _, [] => []
  | addSlash, wire :: rest =>
    (if addSlash then Message.slash usingUnicode else []) ++ wire ++ joined usingUnicode true rest

def startPath (smp : Smbmount) (usingUnicode : Bool) : Bytes :=
  match smp.networkPath with
  | none => []
  | some networkPath => (if smp.smb2 then [] else Message.slash usingUnicode) ++ networkPath

def startsWithSlash (smp : Smbmount) : Bool := smp.networkPath.isSome || !smp.smb2

def Appends (mbp next : Message) (data : Bytes) : Prop :=
  next.written = mbp.written ++ data ∧ next.lenp = mbp.lenp.map (· + data.length)

def Wires (convert : Bytes → Except Errno Bytes) : List Smbnode → List Bytes → Prop :=
  List.Forall₂ fun np wire => wireName convert np.nName = .ok wire

/-- What the caller gets: no store outside the lock stack, every vnode back once, and the whole path if there is
no error; whatever becomes of the names' puts, as long as Unicode text starts at an even address. -/
def PathPut (start : Puts) (smp : Smbmount) (mbp : Message) (lineage : Lineage) (usingUnicode : Bool) : Prop :=
  ∀ (puts : Puts) (convert : Bytes → Except Errno Bytes), (usingUnicode = true → ∀ k, puts.odd k = false) →
    let result := smbFphelp start puts convert smp mbp lineage usingUnicode
    result.lockStack.length ≤ smbfsMaxpathcomp + 1 ∧ result.put.Perm result.got ∧
      (result.error = none → ∃ wires, Wires convert lineage.components wires ∧
        Appends mbp result.mbp
          (startPath smp usingUnicode ++ joined usingUnicode (startsWithSlash smp) wires))

/-- None of the puts of the start path fails. -/
def StartPathFits (start : Puts) (smp : Smbmount) (mbp : Message) : Prop :=
  ∀ networkPath, smp.networkPath = some networkPath →
    (smp.smb2 = false → start.failed mbp.done = none) ∧
      (networkPath ≠ [] → start.failed (mbp.done + if smp.smb2 then 0 else 1) = none)

theorem Appends.refl (mbp : Message) : Appends mbp mbp [] := by
  refine ⟨(List.append_nil _).symm, ?_⟩
  cases mbp.lenp <;> rfl

theorem Appends.trans {a b c : Message} {x y : Bytes} (first : Appends a b x) (second : Appends b c y) :
    Appends a c (x ++ y) := by
  constructor
  · rw [second.1, first.1, List.append_assoc]
  · rw [second.2, first.2, Option.map_map, List.length_append]
    congr 1
    funext n
    exact Nat.add_assoc n x.length y.length

theorem Message.length_slash_pos (usingUnicode : Bool) : 0 < (Message.slash usingUnicode).length := by
  cases usingUnicode <;> exact Nat.succ_pos _

variable {puts start : Puts} {mbp : Message} {data : Bytes} {smp : Smbmount} {lineage : Lineage}

theorem Message.putCounted_none (room : data ≠ [] → puts.failed mbp.done = none) :
    (mbp.putCounted puts data).2 = none ∧ Appends mbp (mbp.putCounted puts data).1 data := by
  unfold Message.putCounted Message.mbPutMem
  by_cases empty : data = []
  · subst empty
    exact ⟨rfl, (List.append_nil _).symm, rfl⟩
  · simp only [if_neg empty, room empty, true_and]
    exact ⟨rfl, rfl⟩

theorem Message.putCounted_some (present : data ≠ []) {e : Errno} {n : Nat}
    (fails : puts.failed mbp.done = some (e, n)) :
    (mbp.putCounted puts data).2 = some e ∧
      (mbp.putCounted puts data).1.written.length < mbp.written.length + data.length := by
  have positive := List.length_pos_iff.mpr present
  simp only [Message.putCounted, Message.mbPutMem, if_neg present, fails, List.length_append, List.length_take,
    List.length_dropLast, true_and]
  omega

theorem Message.putCounted_ok {next : Message}
    (ok : mbp.putCounted puts data = (next, none)) : Appends mbp next data := by
  by_cases room : data ≠ [] → puts.failed mbp.done = none
  · have appends := (Message.putCounted_none room).2
    rwa [ok] at appends
  · obtain ⟨present, fails⟩ := Classical.not_imp.mp room
    obtain ⟨⟨e, n⟩, failed⟩ := Option.ne_none_iff_exists'.mp fails
    have error := (Message.putCounted_some present failed).1
    rw [ok] at error
    cases error

theorem Message.done_putCounted (puts : Puts) (mbp : Message) (present : data ≠ []) :
    (mbp.putCounted puts data).1.done = mbp.done + 1 := by
  unfold Message.putCounted Message.mbPutMem
  rw [if_neg present]
  cases puts.failed mbp.done <;> rfl

theorem Message.slash_ne_nil (usingUnicode : Bool) : Message.slash usingUnicode ≠ [] :=
  List.ne_nil_of_length_pos (Message.length_slash_pos usingUnicode)

theorem putStartPath_slash (start : Puts) (smp : Smbmount) (usingUnicode : Bool) (mbp : Message) :
    (putStartPath start smp usingUnicode mbp).2.2 = startsWithSlash smp := by
  unfold putStartPath startsWithSlash
  split
  next none => simp [none]
  next path some =>
    rw [some]
    split <;> rfl

theorem putStartPath_path {networkPath : Bytes} (path : smp.networkPath = some networkPath)
    (usingUnicode : Bool) (mbp : Message) :
    let result := putStartPath start smp usingUnicode mbp
    (StartPathFits start smp mbp → result.2.1 = none ∧ Appends mbp result.1 (startPath smp usingUnicode)) ∧
      (¬StartPathFits start smp mbp → result.2.1.isSome = true ∧
        result.1.written.length < mbp.written.length + (startPath smp usingUnicode).length) := by
  have fits_iff : StartPathFits start smp mbp ↔ (smp.smb2 = false → start.failed mbp.done = none) ∧
      (networkPath ≠ [] → start.failed (mbp.done + if smp.smb2 then 0 else 1) = none) := by
    simp [StartPathFits, path]
  have putPath : ∀ (from' : Message) (k : Nat), from'.done = mbp.done + k →
      ((networkPath ≠ [] → start.failed (mbp.done + k) = none) →
        (from'.putCounted start networkPath).2 = none ∧ Appends from' (from'.putCounted start networkPath).1 networkPath) ∧
      (¬(networkPath ≠ [] → start.failed (mbp.done + k) = none) →
        (from'.putCounted start networkPath).2.isSome = true ∧
          (from'.putCounted start networkPath).1.written.length < from'.written.length + networkPath.length) := by
    intro from' k done
    rw [← done]
    refine ⟨Message.putCounted_none, fun short => ?_⟩
    obtain ⟨present, fails⟩ := Classical.not_imp.mp short
    obtain ⟨⟨e, n⟩, failed⟩ := Option.ne_none_iff_exists'.mp fails
    obtain ⟨error, less⟩ := Message.putCounted_some present failed
    exact ⟨by rw [error]; rfl, less⟩
  rw [fits_iff]
  cases smb2 : smp.smb2 with
  | true =>
    have puts := putPath mbp 0 rfl
    simpa only [putStartPath, startPath, path, smb2, if_true, List.nil_append, reduceCtorEq, false_implies, true_and]
      using puts
  | false =>
    cases failed : start.failed mbp.done with
    | none =>
      obtain ⟨fine, slash⟩ := Message.putCounted_none fun _ : Message.slash usingUnicode ≠ [] => failed
      have done := Message.done_putCounted start mbp (Message.slash_ne_nil usingUnicode)
      have puts := putPath _ 1 done
      simp only [putStartPath, startPath, path, smb2, Bool.false_eq_true, if_false, Message.putSlash]
      generalize mbp.putCounted start (Message.slash usingUnicode) = put at fine slash puts ⊢
      obtain ⟨next, error⟩ := put
      subst fine
      simp only [forall_const, true_and]
      refine ⟨fun room => ⟨(puts.1 room).1, slash.trans (puts.1 room).2⟩, fun short => ⟨(puts.2 short).1, ?_⟩⟩
      have less := (puts.2 short).2
      have size := congrArg List.length slash.1
      simp only [List.length_append] at less size ⊢
      omega
    | some fault =>
      obtain ⟨e, n⟩ := fault
      obtain ⟨error, less⟩ := Message.putCounted_some (Message.slash_ne_nil usingUnicode) failed
      simp only [putStartPath, startPath, path, smb2, Bool.false_eq_true, if_false, Message.putSlash]
      generalize mbp.putCounted start (Message.slash usingUnicode) = put at error less ⊢
      obtain ⟨next, error'⟩ := put
      subst error
      simp only [reduceCtorEq, forall_const, false_and, false_implies, not_false_eq_true, Option.isSome_some, true_and,
        List.length_append]
      dsimp only at less
      omega

section Names
variable {puts : Puts} {convert : Bytes → Except Errno Bytes} {usingUnicode : Bool}

theorem Message.smbPutDmem_ok (aligned : usingUnicode = true → ∀ k, puts.odd k = false) {mbp next : Message}
    {src : Bytes} (ok : mbp.smbPutDmem puts convert usingUnicode src = (next, none)) :
    ∃ wire, wireName convert src = .ok wire ∧ Appends mbp next wire := by
  unfold Message.smbPutDmem at ok
  unfold wireName
  split at ok
  next empty =>
    cases ok
    exact ⟨[], if_pos empty, Appends.refl _⟩
  next present =>
    have even : (usingUnicode && puts.odd mbp.done) = false := by
      cases unicode : usingUnicode with
      | false => rfl
      | true => exact aligned unicode mbp.done
    split at ok
    · cases ok
    next utf16Str converted =>
      rw [even] at ok
      exact ⟨utf16Str, by rw [if_neg present, converted], Message.putCounted_ok ok⟩

theorem putNames_ok (aligned : usingUnicode = true → ∀ k, puts.odd k = false) {nodes : List Smbnode} {mbp next : Message}
    {addSlash : Bool} {error : Option Errno} (ok : putNames puts convert usingUnicode mbp addSlash error nodes = (next, none)) :
    ∃ wires, Wires convert nodes wires ∧ Appends mbp next (joined usingUnicode addSlash wires) := by
  induction nodes generalizing mbp addSlash error with
  | nil =>
    cases ok
    exact ⟨[], .nil, Appends.refl _⟩
  | cons np rest ih =>
    rw [putNames] at ok
    have slashed : ∀ {between : Message}, (if addSlash then mbp.putSlash puts usingUnicode else (mbp, error)) =
        (between, none) → Appends mbp between (if addSlash then Message.slash usingUnicode else []) := by
      intro between put
      cases addSlash with
      | true => exact Message.putCounted_ok put
      | false =>
        cases put
        exact Appends.refl mbp
    split at ok
    · cases ok
    next between put =>
      split at ok
      · cases ok
      next named dmem =>
        obtain ⟨wire, converted, name⟩ := Message.smbPutDmem_ok aligned dmem
        obtain ⟨wires, later, appended⟩ := ih ok
        refine ⟨wire :: wires, .cons converted later, ?_⟩
        exact ((slashed put).trans name).trans appended

end Names

theorem putNames_none (usingUnicode : Bool) {nodes : List Smbnode} {addSlash : Bool} {error : Option Errno}
    (forgets : error = none ∨ addSlash = true ∧ nodes ≠ []) :
    (putNames {} .ok usingUnicode mbp addSlash error nodes).2 = none := by
  have fine : ∀ (mbp : Message) (data : Bytes), (mbp.putCounted {} data).2 = none := fun mbp data =>
    (Message.putCounted_none fun _ => rfl).1
  induction nodes generalizing mbp addSlash error with
  | nil =>
    rcases forgets with none | ⟨_, more⟩
    · exact none
    · exact absurd rfl more
  | cons np rest ih =>
    have slashed : (if addSlash then mbp.putSlash {} usingUnicode else (mbp, error)).2 = none := by
      cases addSlash with
      | true => exact fine mbp _
      | false => simpa using forgets
    have named : ∀ mbp : Message, (mbp.smbPutDmem {} .ok usingUnicode np.nName).2 = none := by
      intro mbp
      unfold Message.smbPutDmem
      split
      · rfl
      · simpa using fine mbp np.nName
    rw [putNames]
    split
    next failed => simp [failed] at slashed
    next between put =>
      split
      next failed => simpa [failed] using named between
      next => exact ih (.inl rfl)

theorem Lineage.walk_fits (fits : lineage.components.length ≤ smbfsMaxpathcomp) :
    lineage.walk.2 = (if lineage.missing then some .enoent else none) ∧
      lineage.walk.1.npstack.reverse = lineage.components := by
  rw [lineage.length_components] at fits
  unfold Lineage.walk Lineage.components Lineage.upwards
  cases stream : lineage.isStream with
  | false =>
    simp only [stream, Bool.false_and, Bool.false_eq_true, if_false] at fits ⊢
    rw [climb_fits (by dsimp only; omega)]
    exact ⟨rfl, rfl⟩
  | true =>
    cases ancestors : lineage.ancestors with
    | nil => cases lineage.missing <;> exact ⟨rfl, rfl⟩
    | cons parent rest =>
      simp only [stream, ancestors, List.isEmpty_cons, Bool.not_false, Bool.and_self, if_true, List.length_cons,
        Nat.add_sub_cancel] at fits ⊢
      rw [climb_fits (by dsimp only; omega)]
      exact ⟨rfl, rfl⟩

theorem Lineage.walk_balanced (lineage : Lineage) :
    (lineage.walk.1.put ++ lineage.walk.1.lockStack.tail.map Smbnode.nVnode).Perm lineage.walk.1.got := by
  unfold Lineage.walk
  split
  · split
    · exact climb_balanced (List.cons_ne_nil _ _) (List.Perm.refl _)
    · split <;> exact List.Perm.refl _
  · exact climb_balanced (List.cons_ne_nil _ _) (List.Perm.refl _)

theorem smbFphelp_of_walk (fits : lineage.components.length ≤ smbfsMaxpathcomp)
    (found : lineage.missing = false) (start puts : Puts) (convert : Bytes → Except Errno Bytes) (smp : Smbmount)
    (mbp : Message) (usingUnicode : Bool) :
    ((smbFphelp start puts convert smp mbp lineage usingUnicode).mbp,
        (smbFphelp start puts convert smp mbp lineage usingUnicode).error) =
      putNames puts convert usingUnicode (putStartPath start smp usingUnicode mbp).1 (startsWithSlash smp)
        (putStartPath start smp usingUnicode mbp).2.1 lineage.components := by
  obtain ⟨fine, stack⟩ := Lineage.walk_fits fits
  simp only [found, Bool.false_eq_true, if_false] at fine
  simp only [smbFphelp, fine, stack, putStartPath_slash]

theorem wires_unique {convert : Bytes → Except Errno Bytes} {nodes : List Smbnode} {one other : List Bytes}
    (first : Wires convert nodes one) (second : Wires convert nodes other) : one = other := by
  induction first generalizing other with
  | nil => cases second; rfl
  | cons head _ ih =>
    cases second with
    | cons head' tail' =>
      rw [head, Except.ok.injEq] at head'
      rw [head', ih tail']

theorem putStartPath_fits (fits : StartPathFits start smp mbp) (usingUnicode : Bool) :
    (putStartPath start smp usingUnicode mbp).2.1 = none ∧
      Appends mbp (putStartPath start smp usingUnicode mbp).1 (startPath smp usingUnicode) := by
  cases path : smp.networkPath with
  | none =>
    simp only [putStartPath, startPath, path, true_and]
    exact Appends.refl mbp
  | some networkPath => exact (putStartPath_path path usingUnicode mbp).1 fits

theorem not_pathPut_of_short {usingUnicode : Bool}
    (short : ¬StartPathFits start smp mbp) (named : lineage.components ≠ []) (found : lineage.missing = false)
    (fits : lineage.components.length ≤ smbfsMaxpathcomp) : ¬PathPut start smp mbp lineage usingUnicode := by
  intro put
  obtain ⟨networkPath, path⟩ : ∃ networkPath, smp.networkPath = some networkPath := by
    by_contra none
    exact short fun networkPath path => absurd ⟨networkPath, path⟩ none
  have less := ((putStartPath_path path usingUnicode mbp).2 short).2
  have slash : startsWithSlash smp = true := by simp [startsWithSlash, path]
  have result := smbFphelp_of_walk fits found start {} .ok smp mbp usingUnicode
  have forgotten := @putNames_none (putStartPath start smp usingUnicode mbp).1 usingUnicode lineage.components
    (startsWithSlash smp) (putStartPath start smp usingUnicode mbp).2.1 (.inr ⟨slash, named⟩)
  obtain ⟨_, _, appended⟩ := put {} .ok fun _ _ => rfl
  have success : (smbFphelp start {} .ok smp mbp lineage usingUnicode).error = none :=
    (congrArg Prod.snd result).trans forgotten
  obtain ⟨wires, converted, whole⟩ := appended success
  rw [success] at result
  obtain ⟨wires', converted', names⟩ := putNames_ok (fun _ _ => rfl) result.symm
  rw [wires_unique converted' converted] at names
  have size := congrArg List.length names.1
  rw [whole.1] at size
  simp only [List.length_append] at size
  omega

/-- The path is put just when no store is outside and an error of the start path's puts is not forgotten. -/
theorem smbFphelp_pathPut_iff (start : Puts) (smp : Smbmount) (mbp : Message) (lineage : Lineage) (usingUnicode : Bool) :
    PathPut start smp mbp lineage usingUnicode ↔
      (lineage.isStream = true → lineage.ancestors.length ≤ smbfsMaxpathcomp) ∧
        (StartPathFits start smp mbp ∨ lineage.components = [] ∨ lineage.missing = true ∨
          smbfsMaxpathcomp < lineage.components.length) := by
  constructor
  · intro put
    refine ⟨lineage.length_lockStack_le_iff.mp (put {} .ok fun _ _ => rfl).1, ?_⟩
    by_contra none
    simp only [not_or, Bool.not_eq_true, Nat.not_lt] at none
    obtain ⟨short, named, found, fits⟩ := none
    exact not_pathPut_of_short short named found fits put
  · intro ⟨inside, kept⟩ puts convert aligned
    refine ⟨lineage.length_lockStack_le_iff.mpr inside, lineage.walk_balanced, fun success => ?_⟩
    -- without an error the walk came to the root
    have fits : lineage.components.length ≤ smbfsMaxpathcomp := by
      by_contra many
      simp [smbFphelp, Lineage.walk_too_many (Nat.lt_of_not_le many)] at success
    have found : lineage.missing = false := by
      rw [← Bool.not_eq_true]
      intro missing
      simp [smbFphelp, Lineage.walk_fits fits, missing] at success
    have result := smbFphelp_of_walk fits found start puts convert smp mbp usingUnicode
    rw [success] at result
    have startFits : StartPathFits start smp mbp := by
      by_contra short
      have empty : lineage.components = [] := by
        rcases kept with fit | empty | missing | many
        · exact absurd fit short
        · exact empty
        · rw [found] at missing
          cases missing
        · exact absurd fits (Nat.not_le.mpr many)
      obtain ⟨networkPath, path⟩ : ∃ networkPath, smp.networkPath = some networkPath := by
        by_contra none
        exact short fun networkPath path => absurd ⟨networkPath, path⟩ none
      have failed := ((putStartPath_path path usingUnicode mbp).2 short).1
      rw [empty, putNames, Prod.mk.injEq] at result
      rw [← result.2] at failed
      cases failed
    obtain ⟨_, started⟩ := putStartPath_fits startFits usingUnicode
    obtain ⟨wires, converted, names⟩ := putNames_ok aligned result.symm
    exact ⟨wires, converted, started.trans names⟩

/-- The put of the start path fails, the name still fits, and the path of another file is put. -/
theorem smbFphelp_loses_start :
    let start : Puts := { failed := fun _ => some (.enobufs, 0) }
    let convert : Bytes → Except Errno Bytes := fun name => .ok (name.flatMap fun c => [c, 0])
    let lineage : Lineage := ⟨⟨1, [102]⟩, false, [⟨2, []⟩], false⟩
    let result := smbFphelp start {} convert ⟨some [100, 0, 105, 0, 114, 0], true⟩ {} lineage true
    result.error = none ∧ result.mbp.written = [92, 0, 102, 0] := by
  decide

end SmbClient.Paths
