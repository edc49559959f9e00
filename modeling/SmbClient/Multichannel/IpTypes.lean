import SmbClient.Multichannel.Table

/-! The address families that an interface is marked with, over the history of its addresses. -/

namespace SmbClient.Multichannel
open SmbClient.Lib Table

/-- An address has as many bytes as its family says. -/
def SockAddr.Sized (addr : SockAddr) : Prop :=
  match addr.family with
  | .inet => addr.ip.length = 4
  | .inet6 => addr.ip.length = 16
  | .other => True

abbrev SizedAddr := {addr : SockAddr // addr.Sized}

theorem family_eq_of_cmp {x y : SockAddr} (sizedX : x.Sized) (sizedY : y.Sized) (equal : smb2McSockaddrCmp x y = true) :
    x.family = y.family ∧ x.family ≠ .other := by
  simp only [smb2McSockaddrCmp, Bool.and_eq_true, bne_iff_ne, ne_eq, beq_iff_eq] at equal
  obtain ⟨⟨knownX, knownY⟩, ip⟩ := equal
  unfold SockAddr.Sized at sizedX sizedY
  rw [ip] at sizedX
  refine ⟨?_, knownX⟩
  cases familyX : x.family <;> cases familyY : y.family <;> simp_all

namespace Nic

def Has (nic : Nic) (family : Family) : Prop := ∃ addr ∈ nic.addrList, addr.family = family

instance (nic : Nic) (family : Family) : Decidable (nic.Has family) := inferInstanceAs (Decidable (∃ _ ∈ _, _))

/-- The type bits are those of the addresses. -/
structure Typed (nic : Nic) : Prop where
  ipv4 : nic.ipv4 = true ↔ nic.Has .inet
  ipv6 : nic.ipv6 = true ↔ nic.Has .inet6

/-- No address lacks its type bit. -/
structure Covered (nic : Nic) : Prop where
  sized : ∀ addr ∈ nic.addrList, addr.Sized
  ipv4 : nic.Has .inet → nic.ipv4 = true
  ipv6 : nic.Has .inet6 → nic.ipv6 = true

structure Given (nic : Nic) (addrs : List SockAddr) (next : Nic) : Prop where
  covered : next.Covered
  ipv4 : next.ipv4 = true ↔ nic.ipv4 = true ∨ ∃ addr ∈ addrs, addr.family = .inet
  ipv6 : next.ipv6 = true ↔ nic.ipv6 = true ∨ ∃ addr ∈ addrs, addr.family ≠ .inet
  has : ∀ family, family ≠ .other → (next.Has family ↔ nic.Has family ∨ ∃ addr ∈ addrs, addr.family = family)

end Nic

variable {nic next : Nic}

theorem given_updateInfoWithIp (covered : nic.Covered) {addr : SockAddr} (sized : addr.Sized) :
    nic.Given [addr] (smb2McUpdateInfoWithIp nic addr).1 := by
  unfold smb2McUpdateInfoWithIp
  split
  · rename_i belongs
    obtain ⟨old, member, equal⟩ := List.any_eq_true.mp belongs
    obtain ⟨family, known⟩ := family_eq_of_cmp (covered.sized old member) sized equal
    have has : nic.Has addr.family := ⟨old, member, family⟩
    refine ⟨covered, ?_, ?_, fun kind _ => ?_⟩
    · simp only [List.mem_singleton, exists_eq_left, iff_self_or]
      exact fun inet => covered.ipv4 (inet ▸ has)
    · simp only [List.mem_singleton, exists_eq_left, iff_self_or]
      intro notInet
      cases kind : addr.family with
      | inet => exact absurd kind notInet
      | inet6 => exact covered.ipv6 (kind ▸ has)
      | other => exact absurd (family.trans kind) known
    · simp only [List.mem_singleton, exists_eq_left, iff_self_or]
      exact fun same => same ▸ has
  · have has (family : Family) : Nic.Has { nic with
        ipv4 := nic.ipv4 || addr.family == .inet
        ipv6 := nic.ipv6 || addr.family != .inet
        addrList := nic.addrList ++ [addr] } family ↔ nic.Has family ∨ addr.family = family := by
      simp [Nic.Has, or_and_right, exists_or]
    refine ⟨⟨?_, ?_, ?_⟩, ?_, ?_, fun family _ => ?_⟩
    · intro other member
      rcases List.mem_append.mp member with before | last
      · exact covered.sized other before
      · exact List.mem_singleton.mp last ▸ sized
    · rw [has]
      rintro (before | last)
      · simp [covered.ipv4 before]
      · simp [last]
    · rw [has]
      rintro (before | last)
      · simp [covered.ipv6 before]
      · simp [last]
    · simp
    · simp
    · simpa using has family

theorem Nic.Given.cons {middle : Nic} {addr : SockAddr} {addrs : List SockAddr} (first : nic.Given [addr] middle)
    (rest : middle.Given addrs next) : nic.Given (addr :: addrs) next where
  covered := rest.covered
  ipv4 := by
    rw [rest.ipv4, first.ipv4, or_assoc]
    simp
  ipv6 := by
    rw [rest.ipv6, first.ipv6, or_assoc]
    simp
  has family known := by
    rw [rest.has family known, first.has family known, or_assoc]
    simp

section
variable (covered : nic.Covered)
include covered

theorem given_foldl {addrs : List SockAddr} (sized : ∀ addr ∈ addrs, addr.Sized) (changed : Bool) :
    nic.Given addrs (addrs.foldl (fun (nic, changed) addr =>
      let updated := smb2McUpdateInfoWithIp nic addr
      (updated.1, changed || updated.2)) (nic, changed)).1 := by
  induction addrs generalizing nic changed with
  | nil => exact ⟨covered, by simp, by simp, by simp⟩
  | cons addr addrs ih =>
    have first := given_updateInfoWithIp covered (sized addr List.mem_cons_self)
    exact first.cons (ih first.covered (fun other member => sized other (List.mem_cons_of_mem _ member)) _)

/-! ## Histories -/

inductive AddrEvent
  | updateInfoWithIp (addr : SizedAddr)
  | updateIpList (new : List SizedAddr)

def AddrEvent.step (nic : Nic) : AddrEvent → Option Nic
  | .updateInfoWithIp addr => some (smb2McUpdateInfoWithIp nic addr.val).1
  | .updateIpList new => some (smb2McUpdateIpList nic { addrList := new.map Subtype.val }).1

/-- An update keeps an address of each family there is one of, and an address of neither family comes where there is
one of the second. -/
def AddrEvent.KeepsFamilies (nic : Nic) : AddrEvent → Prop
  | .updateInfoWithIp addr => addr.val.family = .other → nic.Has .inet6
  | .updateIpList new =>
    (nic.Has .inet → ∃ addr ∈ new, addr.val.family = .inet) ∧
      (nic.Has .inet6 ∨ (∃ addr ∈ new, addr.val.family = .other) → ∃ addr ∈ new, addr.val.family = .inet6)

theorem typed_updateInfoWithIp (typed : nic.Typed) (addr : SizedAddr) :
    (smb2McUpdateInfoWithIp nic addr.val).1.Typed ↔ (addr.val.family = .other → nic.Has .inet6) := by
  have given := given_updateInfoWithIp covered addr.property
  have ipv4 := given.ipv4.trans (or_congr_left typed.ipv4)
  have ipv6 := given.ipv6.trans (or_congr_left typed.ipv6)
  have inet := given.has .inet (by decide)
  have inet6 := given.has .inet6 (by decide)
  simp only [List.mem_singleton, exists_eq_left] at ipv4 ipv6 inet inet6
  constructor
  · intro now isOther
    have has := now.ipv6.mp (ipv6.mpr (.inr (by simp [isOther])))
    exact (inet6.mp has).resolve_right (by simp [isOther])
  · intro keeps
    refine ⟨ipv4.trans inet.symm, ipv6.trans (Iff.trans ?_ inet6.symm)⟩
    cases kind : addr.val.family with
    | inet => simp
    | inet6 => simp
    | other => simp [keeps kind]

theorem given_updateIpList (new : List SizedAddr) :
    (smb2McUpdateIpList nic { addrList := new.map Subtype.val }).1.Covered ∧
    ((smb2McUpdateIpList nic { addrList := new.map Subtype.val }).1.ipv4 = true ↔
      nic.ipv4 = true ∨ ∃ addr ∈ new, addr.val.family = .inet) ∧
    ((smb2McUpdateIpList nic { addrList := new.map Subtype.val }).1.ipv6 = true ↔
      nic.ipv6 = true ∨ ∃ addr ∈ new, addr.val.family ≠ .inet) ∧
    ∀ family, family ≠ .other → ((smb2McUpdateIpList nic { addrList := new.map Subtype.val }).1.Has family ↔
      ∃ addr ∈ new, addr.val.family = family) := by
  let listed (addr : SockAddr) : Bool := (new.map Subtype.val).any fun addr' => smb2McSockaddrCmp addr' addr
  let kept : Nic := { nic with addrList := nic.addrList.filter listed }
  have before {family : Family} (has : kept.Has family) : nic.Has family := by
    obtain ⟨addr, member, same⟩ := has
    exact ⟨addr, List.mem_of_mem_filter member, same⟩
  have keptCovered : kept.Covered :=
    ⟨fun addr member => covered.sized addr (List.mem_of_mem_filter member), fun has => covered.ipv4 (before has),
      fun has => covered.ipv6 (before has)⟩
  have matched {family : Family} (has : kept.Has family) : ∃ addr ∈ new, addr.val.family = family := by
    obtain ⟨addr, member, same⟩ := has
    obtain ⟨old, found⟩ := List.mem_filter.mp member
    obtain ⟨addr', member', equal⟩ := List.any_eq_true.mp found
    obtain ⟨sized, member, rfl⟩ := List.mem_map.mp member'
    exact ⟨sized, member, (family_eq_of_cmp sized.property (covered.sized addr old) equal).1.trans same⟩
  have sized : ∀ addr ∈ new.map Subtype.val, addr.Sized := by
    intro addr member
    obtain ⟨sized, -, rfl⟩ := List.mem_map.mp member
    exact sized.property
  have given := given_foldl keptCovered sized (kept.addrList.length != nic.addrList.length)
  refine ⟨given.covered, ?_, ?_, fun family known => ?_⟩
  · exact given.ipv4.trans (by simp [kept])
  · exact given.ipv6.trans (by simp [kept])
  · refine (given.has family known).trans ?_
    constructor
    · rintro (has | added)
      · exact matched has
      · simpa using added
    · intro added
      exact .inr (by simpa using added)

theorem typed_updateIpList (typed : nic.Typed) (new : List SizedAddr) :
    (smb2McUpdateIpList nic { addrList := new.map Subtype.val }).1.Typed ↔
      AddrEvent.KeepsFamilies nic (.updateIpList new) := by
  obtain ⟨-, ipv4, ipv6, has⟩ := given_updateIpList covered new
  rw [typed.ipv4] at ipv4
  rw [typed.ipv6] at ipv6
  constructor
  · intro now
    refine ⟨fun inet => (has .inet (by decide)).mp (now.ipv4.mp (ipv4.mpr (.inl inet))), fun needs => ?_⟩
    refine (has .inet6 (by decide)).mp (now.ipv6.mp (ipv6.mpr (needs.imp_right ?_)))
    rintro ⟨addr, member, isOther⟩
    exact ⟨addr, member, by simp [isOther]⟩
  · rintro ⟨keepsInet, keepsInet6⟩
    refine ⟨ipv4.trans (Iff.trans ?_ (has .inet (by decide)).symm), ipv6.trans (Iff.trans ?_ (has .inet6 (by decide)).symm)⟩
    · exact ⟨fun either => either.elim keepsInet fun added => added, .inr⟩
    · constructor
      · rintro (before | ⟨addr, member, notInet⟩)
        · exact keepsInet6 (.inl before)
        · cases kind : addr.val.family with
          | inet => exact absurd kind notInet
          | inet6 => exact ⟨addr, member, kind⟩
          | other => exact keepsInet6 (.inr ⟨addr, member, kind⟩)
      · rintro ⟨addr, member, inet6⟩
        exact .inr ⟨addr, member, by simp [inet6]⟩

theorem covered_step {event : AddrEvent} (taken : event.step nic = some next) : next.Covered := by
  cases event with
  | updateInfoWithIp addr =>
    cases taken
    exact (given_updateInfoWithIp covered addr.property).covered
  | updateIpList new =>
    cases taken
    exact (given_updateIpList covered new).1

theorem typed_step_iff (typed : nic.Typed) {event : AddrEvent}
    (taken : event.step nic = some next) : next.Typed ↔ event.KeepsFamilies nic := by
  cases event with
  | updateInfoWithIp addr =>
    cases taken
    exact typed_updateInfoWithIp covered typed addr
  | updateIpList new =>
    cases taken
    exact typed_updateIpList covered typed new

end

def Nic.SharesVersion (client server : Nic) : Bool := client.ipv4 && server.ipv4 || client.ipv6 && server.ipv6

theorem sharesVersion_iff {client server : Nic} (typedClient : client.Typed) (typedServer : server.Typed) :
    client.SharesVersion server = true ↔
      ∃ family, family ≠ .other ∧ client.Has family ∧ server.Has family := by
  simp only [Nic.SharesVersion, Bool.or_eq_true, Bool.and_eq_true, typedClient.ipv4, typedServer.ipv4, typedClient.ipv6,
    typedServer.ipv6]
  constructor
  · rintro (inet | inet6)
    · exact ⟨.inet, by decide, inet⟩
    · exact ⟨.inet6, by decide, inet6⟩
  · rintro ⟨family, known, both⟩
    cases family with
    | inet => exact .inl both
    | inet6 => exact .inr both
    | other => exact absurd rfl known

/-- The type bits of an interface are right throughout its history just if no update takes the last address of a family
away; and while they are, interfaces share a version of IP for `smb2_mc_update_con_list` just if they share one. -/
theorem typed_throughout_iff (events : List AddrEvent) :
    (Throughout AddrEvent.step Nic.Typed {} events ↔ AllSteps AddrEvent.step AddrEvent.KeepsFamilies {} events) ∧
    ∀ client server : Nic, client.Typed → server.Typed → (client.SharesVersion server = true ↔
      ∃ family, family ≠ .other ∧ client.Has family ∧ server.Has family) := by
  refine ⟨?_, fun client server => sharesVersion_iff⟩
  have empty (family : Family) : ¬Nic.Has {} family := by
    rintro ⟨_, member, _⟩
    cases member
  have start : Nic.Covered {} ∧ Nic.Typed {} := by
    refine ⟨⟨nofun, ?_, ?_⟩, ⟨?_, ?_⟩⟩
    all_goals simp [empty]
  refine @throughout_iff _ _ AddrEvent.step Nic.Typed (fun nic => nic.Covered ∧ nic.Typed) _ ?_ ?_ ?_ ?_ _ start events
  · exact fun nic both => both.2
  · intro nic event next both keeps taken
    exact ⟨covered_step both.1 taken, (typed_step_iff both.1 both.2 taken).mpr keeps⟩
  · intro nic event next both taken typed
    exact (typed_step_iff both.1 both.2 taken).mp typed
  · intro nic event refused
    cases event <;> cases refused

/-- The only address of the first family goes away, and its type bit stays. -/
theorem ipv4_stays : ∃ next, run AddrEvent.step {} [.updateInfoWithIp ⟨⟨.inet, [10, 0, 0, 1]⟩, rfl⟩,
      .updateIpList [⟨⟨.inet6, [0, 0, 0, 0, 0, 0, 0, 0, 0, 0, 0, 0, 0, 0, 0, 1]⟩, rfl⟩]] = some next ∧
    next.ipv4 = true ∧ ¬next.Has .inet := by
  refine ⟨_, rfl, ?_⟩
  decide

end SmbClient.Multichannel
