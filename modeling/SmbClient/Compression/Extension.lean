import SmbClient.Lib.LittleEndian

namespace SmbClient.Compression
open SmbClient.Lib

def cString (text : String) : Bytes := text.toList.map fun c => UInt8.ofNat c.toNat

def tolower (c : UInt8) : UInt8 := if 65 ≤ c ∧ c ≤ 90 then c + 32 else c

def strncasecmp : Bytes → Bytes → Nat → Int
  | _, _, 0 => 0
  | s1, s2, n + 1 =>
    let c1 := s1.headD 0
    let c2 := s2.headD 0
    if tolower c1 ≠ tolower c2 then (tolower c1).toNat - (tolower c2).toNat
    else if c1 = 0 then 0
    else strncasecmp s1.tail s2.tail n

def smbCompressionExcludeList : List Bytes :=
  ["7z", "aa3", "aac", "aes", "asf", "avchd", "avi", "bik", "bsf", "bz", "bz2", "bzip", "bzip2", "chm", "cpgz",
   "cr2", "divx", "dng", "docm", "docx", "dotm", "dotx", "emz", "epub", "f4v", "flv", "gif", "gpg", "graffle", "gz",
   "gzip", "hdmov", "heic", "heif", "hxs", "j2c", "jar", "jpeg", "jpg", "lzma", "m4a", "m4a", "m4v", "mint", "mkv",
   "mov", "mp2", "mp3", "mp4", "mpa", "mpe", "mpeg", "mpg", "mpq", "mshc", "msi", "mts", "nef", "odp", "ods", "odt",
   "opus", "otp", "ots", "ott", "pack", "pages", "png", "pptm", "pptx", "pspimage", "qt", "ra", "rar", "rpm", "sea",
   "sit", "tgz", "tif", "tiff", "vob", "war", "wav", "webarchive", "webm", "webp", "wma", "wmv", "wtv", "wv", "xlsb",
   "xlsm", "xlsx", "xps", "xz", "zip", "zstd"].map cString

def smbBsearch (list : List Bytes) (compar : Bytes → Int) : (turns base lim : Nat) → Option Bytes
  | 0, _, _ => none
  | turns + 1, base, lim =>
    if lim = 0 then none
    else
      match list[base + lim >>> 1]? with
      | none => none
      | some p =>
        if compar p = 0 then some p
        else if compar p > 0 then smbBsearch list compar turns (base + lim >>> 1 + 1) ((lim - 1) >>> 1)
        else smbBsearch list compar turns base (lim >>> 1)

def smbCmp (a b : Bytes) : Int := strncasecmp a b b.length

def smbCompressionExcluded (extension : Bytes) : Option Bytes :=
  smbBsearch smbCompressionExcludeList (smbCmp extension) smbCompressionExcludeList.length 0
    smbCompressionExcludeList.length

def smbCheckUserList (extension : Bytes) (list : List Bytes) : Option Bytes :=
  list.find? fun entry => extension.length = entry.length && strncasecmp extension entry entry.length = 0

structure Name where
  nName : Bytes
  noZero : 0 ∉ nName
  behind : Bytes := []

def Name.stringAt (name : Name) (offset : Nat) : Bytes :=
  ((name.nName ++ 0 :: name.behind).drop offset).takeWhile (· ≠ 0)

structure Mount where
  smb3OrLater : Bool
  serverCompressionAlgorithmsMap : Nat
  compressionInclude : List Bytes
  compressionExclude : List Bytes

structure Decision where
  compressionAllowed : Bool
  fromDefault : Option Bytes := none
  fromUser : Option Bytes := none
  deriving DecidableEq

def lastDot : (offset : Nat) → Option Nat → Bytes → Option Nat
  | _, nameExt, [] => nameExt
  | offset, nameExt, c :: rest => lastDot (offset + 1) (if c = 46 then some offset else nameExt) rest

def Mount.checkLists (smp : Mount) (nameExt : Bytes) : Decision :=
  match smbCompressionExcluded nameExt with
  | some entry =>
    let fromUser := smbCheckUserList nameExt smp.compressionInclude
    { compressionAllowed := fromUser.isSome, fromDefault := some entry, fromUser }
  | none =>
    let fromUser := smbCheckUserList nameExt smp.compressionExclude
    { compressionAllowed := !fromUser.isSome, fromUser }

def smbCompressionAllowed (smp : Mount) (isRegular : Bool) (name : Name) : Decision :=
  if !isRegular then { compressionAllowed := false }
  else if name.nName.length = 0 then { compressionAllowed := false }
  else if !smp.smb3OrLater || smp.serverCompressionAlgorithmsMap = 0 then { compressionAllowed := false }
  else if name.nName.length ≤ 3 || name.nName.head? = some 46 then { compressionAllowed := true }
  else
    match lastDot 0 none name.nName with
    | none => { compressionAllowed := true }
    -- the second comparison with NULL has already moved the pointer over the dot
    | some nameExt => smp.checkLists (name.stringAt (nameExt + 1 + 1))

def SameText (a b : Bytes) : Prop := a.map tolower = b.map tolower

instance (a b : Bytes) : Decidable (SameText a b) := inferInstanceAs (Decidable (_ = _))

def textAfterLastDot : Bytes → Option Bytes
  | [] => none
  | c :: rest =>
    match textAfterLastDot rest with
    | some text => some text
    | none => if c = 46 then some rest else none

def FoundExactly (extension : Option Bytes) (list : List Bytes) (found : Option Bytes) : Prop :=
  (∀ entry, found = some entry → ∃ text, extension = some text ∧ SameText text entry) ∧
    ∀ text, extension = some text → (∃ entry ∈ list, SameText text entry) → found.isSome = true

def MatchesExtension (smp : Mount) (name : Name) (decision : Decision) : Prop :=
  FoundExactly (textAfterLastDot name.nName) smbCompressionExcludeList decision.fromDefault ∧
    FoundExactly (textAfterLastDot name.nName)
      (if decision.fromDefault.isSome then smp.compressionInclude else smp.compressionExclude) decision.fromUser

def Name.lookedUp (name : Name) : Bytes → Bytes
  | [] => name.behind.takeWhile (· ≠ 0)
  | _ :: rest => rest

/-- Neither the extension nor the text that is looked up for it is in a list. -/
def Unlisted (smp : Mount) (name : Name) (text : Bytes) : Prop :=
  smbCompressionExcluded (name.lookedUp text) = none ∧ (∀ entry ∈ smbCompressionExcludeList, ¬SameText text entry) ∧
    (SameText text (name.lookedUp text) ∨
      ∀ entry ∈ smp.compressionExclude, ¬SameText text entry ∧ ¬SameText (name.lookedUp text) entry)

theorem tolower_eq_zero {c : UInt8} (zero : tolower c = 0) : c = 0 := by
  unfold tolower at zero
  split at zero
  next upper =>
    have values := congrArg UInt8.toNat zero
    have low := UInt8.le_iff_toNat_le.mp upper.1
    have high := UInt8.le_iff_toNat_le.mp upper.2
    simp only [UInt8.toNat_add, UInt8.reduceToNat] at values low high
    omega
  next => exact zero

theorem strncasecmp_succ_eq_zero (s1 s2 : Bytes) (n : Nat) :
    strncasecmp s1 s2 (n + 1) = 0 ↔
      tolower (s1.headD 0) = tolower (s2.headD 0) ∧ (s1.headD 0 = 0 ∨ strncasecmp s1.tail s2.tail n = 0) := by
  rw [strncasecmp]
  generalize s1.headD 0 = c1
  generalize s2.headD 0 = c2
  split
  next differs =>
    have values : (tolower c1).toNat ≠ (tolower c2).toNat := fun same => differs (UInt8.toNat_inj.mp same)
    apply iff_of_false
    · omega
    · exact fun both => differs both.1
  next same =>
    rw [not_not] at same
    split
    next zero => exact iff_of_true rfl ⟨same, .inl zero⟩
    next more => simp [same, more]

theorem length_le_of_strncasecmp {s1 s2 : Bytes} (noZero : 0 ∉ s2) (same : strncasecmp s1 s2 s2.length = 0) :
    s2.length ≤ s1.length := by
  induction s2 generalizing s1 with
  | nil => exact Nat.zero_le _
  | cons c2 rest2 ih =>
    obtain ⟨first, later⟩ := not_or.mp (List.mem_cons.not.mp noZero)
    obtain ⟨equal, more⟩ := (strncasecmp_succ_eq_zero s1 (c2 :: rest2) rest2.length).mp same
    have present : s1.headD 0 ≠ 0 := by
      intro zero
      rw [zero] at equal
      exact first (tolower_eq_zero equal.symm).symm
    cases s1 with
    | nil => exact absurd rfl present
    | cons c1 rest1 => exact Nat.succ_le_succ (ih later (more.resolve_left present))

theorem strncasecmp_eq_zero_iff {s1 s2 : Bytes} (size : s1.length = s2.length) (noZero : 0 ∉ s1) :
    strncasecmp s1 s2 s2.length = 0 ↔ SameText s1 s2 := by
  induction s2 generalizing s1 with
  | nil =>
    cases List.length_eq_zero_iff.mp size
    simp [strncasecmp, SameText]
  | cons c2 rest2 ih =>
    cases s1 with
    | nil => cases size
    | cons c1 rest1 =>
      obtain ⟨first, later⟩ := not_or.mp (List.mem_cons.not.mp noZero)
      rw [List.length_cons, strncasecmp_succ_eq_zero, List.headD_cons, List.headD_cons, List.tail_cons,
        List.tail_cons, ih (Nat.succ.inj size) later, SameText, SameText, List.map_cons, List.map_cons, List.cons.injEq]
      simp [Ne.symm first]

theorem SameText.length_eq {a b : Bytes} (same : SameText a b) : a.length = b.length := by
  simpa using congrArg List.length same

variable {extension entry text : Bytes} {list : List Bytes} {name : Name}

theorem smbCheckUserList_eq_none_iff (noZero : 0 ∉ extension) (list : List Bytes) :
    smbCheckUserList extension list = none ↔ ∀ entry ∈ list, ¬SameText extension entry := by
  unfold smbCheckUserList
  simp only [List.find?_eq_none, Bool.and_eq_true, decide_eq_true_eq]
  apply forall₂_congr
  intro entry _
  apply not_congr
  constructor
  · exact fun both => (strncasecmp_eq_zero_iff both.1 noZero).mp both.2
  · exact fun same => ⟨same.length_eq, (strncasecmp_eq_zero_iff same.length_eq noZero).mpr same⟩

theorem sameText_of_smbCheckUserList (noZero : 0 ∉ extension)
    (found : smbCheckUserList extension list = some entry) : SameText extension entry := by
  have both := List.find?_some found
  simp only [Bool.and_eq_true, decide_eq_true_eq] at both
  exact (strncasecmp_eq_zero_iff both.1 noZero).mp both.2

theorem smbBsearch_some {compar : Bytes → Int} {turns base lim : Nat}
    (found : smbBsearch list compar turns base lim = some entry) : entry ∈ list ∧ compar entry = 0 := by
  induction turns generalizing base lim with
  | zero => cases found
  | succ turns ih =>
    rw [smbBsearch] at found
    split at found
    · cases found
    · split at found
      · cases found
      next p inside =>
        split at found
        next equal =>
          cases found
          exact ⟨List.mem_of_getElem? inside, equal⟩
        next => split at found <;> exact ih found

theorem smbBsearch_turns {compar : Bytes → Int} {turns lim : Nat} (enough : lim ≤ turns)
    (base more : Nat) : smbBsearch list compar (turns + more) base lim = smbBsearch list compar turns base lim := by
  induction turns generalizing base lim with
  | zero =>
    cases Nat.le_zero.mp enough
    cases more <;> simp [smbBsearch]
  | succ turns ih =>
    rw [Nat.add_right_comm, smbBsearch, smbBsearch]
    split
    · rfl
    next left =>
      have halves : lim >>> 1 ≤ turns ∧ (lim - 1) >>> 1 ≤ turns := by
        simp only [Nat.shiftRight_eq_div_pow, Nat.pow_one]
        omega
      simp only [ih halves.1, ih halves.2]

theorem smbCompressionExcludeList_plain : ∀ entry ∈ smbCompressionExcludeList, 0 ∉ entry ∧ entry ≠ [] := by
  decide +kernel

theorem smbCompressionExcluded_entry : ∀ entry ∈ smbCompressionExcludeList, (smbCompressionExcluded entry).isSome := by
  decide +kernel

theorem length_le_of_smbCompressionExcluded
    (found : smbCompressionExcluded extension = some entry) : entry ≠ [] ∧ entry.length ≤ extension.length := by
  obtain ⟨member, same⟩ := smbBsearch_some found
  obtain ⟨noZero, present⟩ := smbCompressionExcludeList_plain entry member
  exact ⟨present, length_le_of_strncasecmp noZero same⟩

theorem lastDot_of_none {name : Bytes} (undotted : textAfterLastDot name = none) (offset : Nat) (nameExt : Option Nat) :
    lastDot offset nameExt name = nameExt := by
  induction name generalizing offset nameExt with
  | nil => rfl
  | cons c rest ih =>
    rw [textAfterLastDot] at undotted
    cases later : textAfterLastDot rest with
    | some text => simp [later] at undotted
    | none =>
      simp only [later, ite_eq_right_iff, reduceCtorEq, imp_false] at undotted
      rw [lastDot, ih later, if_neg undotted]

theorem lastDot_of_some {name : Bytes} (dotted : textAfterLastDot name = some text) (offset : Nat)
    (nameExt : Option Nat) : ∃ before, name = before ++ 46 :: text ∧
      lastDot offset nameExt name = some (offset + before.length) := by
  induction name generalizing offset nameExt with
  | nil => cases dotted
  | cons c rest ih =>
    rw [textAfterLastDot] at dotted
    cases later : textAfterLastDot rest with
    | some found =>
      simp only [later, Option.some.injEq] at dotted
      subst dotted
      obtain ⟨before, split, last⟩ := ih later (offset + 1) (if c = 46 then some offset else nameExt)
      refine ⟨c :: before, by rw [split, List.cons_append], ?_⟩
      rw [lastDot, last, List.length_cons, Nat.add_assoc, Nat.add_comm 1]
    | none =>
      simp only [later, Option.ite_none_right_eq_some, Option.some.injEq] at dotted
      obtain ⟨rfl, rfl⟩ := dotted
      exact ⟨[], rfl, by rw [lastDot, lastDot_of_none later]; rfl⟩

theorem takeWhile_terminated (noZero : 0 ∉ text) (behind : Bytes) :
    (text ++ 0 :: behind).takeWhile (· ≠ 0) = text := by
  rw [List.takeWhile_append_of_pos]
  · simp
  · intro c member
    simpa using ne_of_mem_of_not_mem member noZero

theorem Name.stringAt_lookedUp {before : Bytes} (split : name.nName = before ++ 46 :: text) :
    name.stringAt (before.length + 1 + 1) = name.lookedUp text := by
  have noZero := name.noZero
  rw [split] at noZero
  unfold Name.stringAt
  rw [split]
  cases text with
  | nil =>
    have memory : before ++ [46] ++ 0 :: name.behind = before ++ [46, 0] ++ name.behind := by simp
    rw [memory, List.drop_left' (by simp), Name.lookedUp]
  | cons c rest =>
    have memory : before ++ 46 :: c :: rest ++ 0 :: name.behind = before ++ [46, c] ++ (rest ++ 0 :: name.behind) := by
      simp
    rw [memory, List.drop_left' (by simp), takeWhile_terminated (by simp_all), Name.lookedUp]

theorem Name.noZero_lookedUp {before : Bytes} (split : name.nName = before ++ 46 :: text) :
    0 ∉ name.lookedUp text := by
  have noZero := name.noZero
  rw [split] at noZero
  cases text with
  | nil =>
    intro member
    have nonzero := List.all_eq_true.mp List.all_takeWhile 0 member
    simp at nonzero
  | cons c rest => simp_all [Name.lookedUp]

theorem Name.not_sameText_lookedUp (name : Name) (size : entry.length ≤ (name.lookedUp text).length)
    (present : entry ≠ []) : ¬SameText text entry := by
  intro same
  have length := same.length_eq
  cases text with
  | nil => exact present (List.length_eq_zero_iff.mp length.symm)
  | cons c rest =>
    simp only [Name.lookedUp, List.length_cons] at size length
    omega

theorem foundExactly_none_iff :
    FoundExactly (some extension) list none ↔ ∀ entry ∈ list, ¬SameText extension entry := by
  simp [FoundExactly]

theorem foundExactly_default_iff (name : Name) (text : Bytes) :
    FoundExactly (some text) smbCompressionExcludeList (smbCompressionExcluded (name.lookedUp text)) ↔
      smbCompressionExcluded (name.lookedUp text) = none ∧ ∀ entry ∈ smbCompressionExcludeList, ¬SameText text entry := by
  cases search : smbCompressionExcluded (name.lookedUp text) with
  | none => simp [foundExactly_none_iff]
  | some entry =>
    obtain ⟨present, size⟩ := length_le_of_smbCompressionExcluded search
    apply iff_of_false
    · intro exact'
      obtain ⟨_, ⟨⟩, same⟩ := exact'.1 entry rfl
      exact name.not_sameText_lookedUp size present same
    · simp

theorem foundExactly_user_iff (noZero : 0 ∉ name.lookedUp text) (list : List Bytes) :
    FoundExactly (some text) list (smbCheckUserList (name.lookedUp text) list) ↔
      (SameText text (name.lookedUp text) ∨
        ∀ entry ∈ list, ¬SameText text entry ∧ ¬SameText (name.lookedUp text) entry) := by
  cases search : smbCheckUserList (name.lookedUp text) list with
  | none =>
    have unlisted := (smbCheckUserList_eq_none_iff noZero list).mp search
    rw [foundExactly_none_iff]
    constructor
    · exact fun none => .inr fun entry member => ⟨none entry member, unlisted entry member⟩
    · rintro (both | none) entry member same
      · exact unlisted entry member (both.symm.trans same)
      · exact (none entry member).1 same
  | some entry =>
    have member := List.mem_of_find?_eq_some search
    have found := sameText_of_smbCheckUserList noZero search
    constructor
    · intro exact'
      obtain ⟨_, ⟨⟩, same⟩ := exact'.1 entry rfl
      exact .inl (same.trans found.symm)
    · rintro (both | none)
      · refine ⟨?_, fun _ _ _ => rfl⟩
        rintro _ ⟨⟩
        exact ⟨text, rfl, both.trans found⟩
      · exact absurd found (none entry member).2

@[simp] theorem Mount.checkLists_fromDefault (smp : Mount) (nameExt : Bytes) :
    (smp.checkLists nameExt).fromDefault = smbCompressionExcluded nameExt := by
  unfold Mount.checkLists
  split
  next found => exact found.symm
  next found => exact found.symm

theorem Mount.checkLists_fromUser {smp : Mount} {nameExt : Bytes} (unlisted : smbCompressionExcluded nameExt = none) :
    (smp.checkLists nameExt).fromUser = smbCheckUserList nameExt smp.compressionExclude := by
  simp [Mount.checkLists, unlisted]

theorem smbCompressionAllowed_of_supported {smp : Mount} (smb3 : smp.smb3OrLater = true)
    (algorithms : smp.serverCompressionAlgorithmsMap ≠ 0) (long : 3 < name.nName.length)
    (first : name.nName.head? ≠ some 46) :
    smbCompressionAllowed smp true name =
      match textAfterLastDot name.nName with
      | none => { compressionAllowed := true }
      | some text => smp.checkLists (name.lookedUp text) := by
  have filled : name.nName.length ≠ 0 := by omega
  have more : ¬name.nName.length ≤ 3 := by omega
  unfold smbCompressionAllowed
  simp only [Bool.not_true, Bool.false_eq_true, if_false, filled, smb3, algorithms, more, first, decide_false, Bool.or_self]
  cases dotted : textAfterLastDot name.nName with
  | none => rw [lastDot_of_none dotted]
  | some text =>
    obtain ⟨before, split, last⟩ := lastDot_of_some dotted 0 none
    rw [last, Nat.zero_add]
    exact congrArg smp.checkLists (Name.stringAt_lookedUp split)

/-- The entries found are those of the extension just when there is nothing to find. -/
theorem smbCompressionAllowed_exact_iff (smp : Mount) (name : Name) (smb3 : smp.smb3OrLater = true)
    (algorithms : smp.serverCompressionAlgorithmsMap ≠ 0) (long : 3 < name.nName.length)
    (first : name.nName.head? ≠ some 46) :
    MatchesExtension smp name (smbCompressionAllowed smp true name) ↔
      ∀ text, textAfterLastDot name.nName = some text → Unlisted smp name text := by
  rw [smbCompressionAllowed_of_supported smb3 algorithms long first]
  unfold MatchesExtension
  cases dotted : textAfterLastDot name.nName with
  | none => simp [FoundExactly]
  | some text =>
    obtain ⟨before, split, _⟩ := lastDot_of_some dotted 0 none
    have noZero := Name.noZero_lookedUp split
    simp only [Option.some.injEq, forall_eq', Mount.checkLists_fromDefault, foundExactly_default_iff, Unlisted]
    -- the include list is only looked at after a match in the default list, which is wrong already
    constructor
    · intro ⟨⟨unfound, unlisted⟩, user⟩
      rw [Mount.checkLists_fromUser unfound, unfound] at user
      exact ⟨unfound, unlisted, (foundExactly_user_iff noZero _).mp user⟩
    · intro ⟨unfound, unlisted, user⟩
      refine ⟨⟨unfound, unlisted⟩, ?_⟩
      rw [Mount.checkLists_fromUser unfound, unfound]
      exact (foundExactly_user_iff noZero _).mpr user

def plainMount : Mount :=
  { smb3OrLater := true, serverCompressionAlgorithmsMap := 1, compressionInclude := [], compressionExclude := [] }

theorem smbCompressionAllowed_exact_text :
    let name : Name := { nName := cString "notes.txt", noZero := by decide }
    3 < name.nName.length ∧ MatchesExtension plainMount name (smbCompressionAllowed plainMount true name) := by
  refine ⟨by decide, (smbCompressionAllowed_exact_iff _ _ rfl (by decide) (by decide) (by decide)).mpr ?_⟩
  intro text dotted
  cases dotted
  refine ⟨by decide +kernel, by decide +kernel, .inr (by simp [plainMount])⟩

/-- An archive is taken for compressible, and a file that only has an archive's extension behind its first
letter, and ahead of its last, is not. -/
theorem smbCompressionAllowed_skips_first :
    smbCompressionAllowed plainMount true { nName := cString "a.zip", noZero := by decide } =
        { compressionAllowed := true } ∧
      smbCompressionAllowed plainMount true { nName := cString "a.xzipx", noZero := by decide } =
        { compressionAllowed := false, fromDefault := some (cString "zip") } := by
  decide +kernel

end SmbClient.Compression
