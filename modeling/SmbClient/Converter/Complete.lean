import SmbClient.Converter.Whole

namespace SmbClient.Converter
open SmbClient.Lib
open SmbClient.Mbuf (Errno)
open Codec (even maxUnits Flags Network)

structure Texts where
  utf16 : (sfm : Bool) → Bytes → List UInt16
  utf8 : (sfm : Bool) → List UInt16 → Bytes
  cp437FromUcs2 : UInt16 → Option UInt8
  cp437ToUcs2 : UInt8 → UInt16
  utf16_nil : ∀ sfm, utf16 sfm [] = []
  utf8_nil : ∀ sfm, utf8 sfm [] = []
  utf8_grows : ∀ sfm units more, more ≠ [] → (utf8 sfm units).length < (utf8 sfm (units ++ more)).length

structure Texts.Governs (texts : Texts) (codec : Codec) : Prop where
  decodes : ∀ sfm text room units, codec.utf8Decodestr sfm text room = .ok units →
    units = texts.utf16 sfm text ∧ 2 * units.length ≤ room
  encodes : ∀ sfm units room text, codec.utf8Encodestr sfm units room = .ok text →
    text = texts.utf8 sfm units ∧ text.length ≤ room
  decodes_nil : ∀ sfm room, codec.utf8Decodestr sfm [] room = .ok []
  encodes_nil : ∀ sfm room, codec.utf8Encodestr sfm [] room = .ok []
  fromUcs2 : codec.cp437FromUcs2 = texts.cp437FromUcs2
  toUcs2 : codec.cp437ToUcs2 = texts.cp437ToUcs2

def Texts.codec (texts : Texts) : Codec :=
  { utf8Decodestr := fun sfm text room =>
      if 2 * (texts.utf16 sfm text).length ≤ room then .ok (texts.utf16 sfm text) else .error .enametoolong
    utf8Encodestr := fun sfm units room =>
      if (texts.utf8 sfm units).length ≤ room then .ok (texts.utf8 sfm units) else .error .enametoolong
    cp437FromUcs2 := texts.cp437FromUcs2
    cp437ToUcs2 := texts.cp437ToUcs2 }

theorem Texts.governs_codec (texts : Texts) : texts.Governs texts.codec where
  decodes sfm text room units ok := by
    simp only [Texts.codec] at ok
    split at ok
    next fits =>
      cases ok
      exact ⟨rfl, fits⟩
    next => cases ok
  encodes sfm units room text ok := by
    simp only [Texts.codec] at ok
    split at ok
    next fits =>
      cases ok
      exact ⟨rfl, fits⟩
    next => cases ok
  decodes_nil sfm room := by simp [Texts.codec, texts.utf16_nil]
  encodes_nil sfm room := by simp [Texts.codec, texts.utf8_nil]
  fromUcs2 := rfl
  toUcs2 := rfl

namespace Texts
variable (texts : Texts)

def characters (sfm : Bool) (component : Bytes) : List UInt16 :=
  texts.utf16 (sfm && !(component = [46] || component = [46, 46])) component

def toNetwork (sfm usingUnicode : Bool) (component : Bytes) : Bytes :=
  if usingUnicode then Codec.littleEndian (texts.characters sfm component)
  else texts.codec.ucs2ToCodepage (texts.characters sfm component)

def lead (path : Bytes) (ntwrkDelimiter : UInt8) (inflags : Flags) (usingUnicode : Bool) : Bytes :=
  if inflags.fullpathConversions ∧ path.headD 0 ≠ 47 then Codec.networkDelimiter usingUnicode ntwrkDelimiter else []

def networkPath (path : Bytes) (ntwrkDelimiter : UInt8) (inflags : Flags) (usingUnicode : Bool) : Bytes :=
  lead path ntwrkDelimiter inflags usingUnicode ++
    joined (texts.toNetwork inflags.sfmConversions usingUnicode) (Codec.networkDelimiter usingUnicode ntwrkDelimiter)
      (components 0 47 path)

def fromCodePage (sfm : Bool) (component : Bytes) : Bytes := texts.utf8 sfm (texts.codec.codepageToUcs2 component)

def fromCodePageHeld (sfm : Bool) (component : Bytes) : Bytes :=
  texts.utf8 sfm ((texts.codec.codepageToUcs2 component).take maxUnits)

def localPath (ntwrkDelimiter : UInt8) (sfm : Bool) : Network → Bytes
  | .utf16 units _ => joined (texts.utf8 sfm) [47] (components 0 (Codec.delimiterUnit ntwrkDelimiter) units)
  | .codePage bytes => joined (texts.fromCodePage sfm) [47] (components 0 ntwrkDelimiter bytes)

/-- Whichever components the converters refuse, a path that is returned is complete. -/
def WholeToNetwork (path : Bytes) (ntwrkLen : Nat) (ntwrkDelimiter : UInt8) (inflags : Flags) (usingUnicode : Bool) : Prop :=
  ∀ codec, texts.Governs codec → ∀ network,
    (codec.smbConvertPathToNetwork path ntwrkLen ntwrkDelimiter inflags usingUnicode).result = .ok network →
      network = texts.networkPath path ntwrkDelimiter inflags usingUnicode

def WholeToPath (network : Network) (pathLen : Nat) (ntwrkDelimiter : UInt8) (sfm : Bool) : Prop :=
  ∀ codec, texts.Governs codec → ∀ path,
    (codec.smbConvertNetworkToPath network pathLen ntwrkDelimiter sfm).result = .ok path →
      path = texts.localPath ntwrkDelimiter sfm network

end Texts

def LastFits {υ : Type} (f : List υ → Bytes) (separator : Bytes) (parts : List (List υ)) (room : Nat) : Prop :=
  ∀ front c, (parts = front ++ [c] ∨
      parts = front ++ [c, []] ∧ (room - (separated f separator front).length) % 2 = 1) →
    (separated f separator front).length < room → (f c).length ≤ even (room - (separated f separator front).length)

/-- With the code page: if the buffer holds the characters of each component, the last one fits. -/
def Texts.CutFree (texts : Texts) (path : Bytes) (ntwrkLen : Nat) (ntwrkDelimiter : UInt8) (inflags : Flags) : Prop :=
  (∀ c ∈ components 0 47 path, (texts.characters inflags.sfmConversions c).length ≤ 256) →
    LastFits (texts.toNetwork inflags.sfmConversions false) [ntwrkDelimiter] (components 0 47 path)
      (ntwrkLen - (Texts.lead path ntwrkDelimiter inflags false).length)

def EndsWhole {υ : Type} (p : List υ → Bytes) (held : List υ → Prop) (parts : List (List υ)) (room : Nat) : Prop :=
  ((joined p [47] parts).length ≤ room → ∀ c ∈ parts, held c) ∧
    ∀ front rest, parts = front ++ rest → rest ≠ [] → (separated p [47] front).length = room →
      (∀ c ∈ front, held c) ∧ rest = [[]]

def Texts.EndsWholeFrom (texts : Texts) (ntwrkDelimiter : UInt8) (sfm : Bool) (pathLen : Nat) : Network → Prop
  | .utf16 units _ =>
    EndsWhole (texts.utf8 sfm) (fun _ => True) (components 0 (Codec.delimiterUnit ntwrkDelimiter) units) pathLen
  | .codePage bytes =>
    EndsWhole (texts.fromCodePageHeld sfm) (fun c => c.length ≤ maxUnits) (components 0 ntwrkDelimiter bytes) pathLen

section EndsWhole
variable {υ : Type} {p f : List υ → Bytes} {held : List υ → Prop}

theorem joined_eq_nil {parts : List (List υ)} (present : parts ≠ []) (nonempty : ∀ c, f c = [] → c = [])
    (empty : joined f [47] parts = []) : parts = [[]] := by
  obtain ⟨component, rest, rfl⟩ := List.exists_cons_of_ne_nil present
  cases rest with
  | nil => rw [nonempty component empty]
  | cons next others => simp [joined] at empty

theorem endsWhole_iff [DecidableEq υ] {dirs : Direction υ → Prop} {parts : List (List υ)} {room : Nat} (present : parts ≠ [])
    (slash : ∀ dir, dirs dir → dir.separator = [47])
    (converts : ∀ dir, dirs dir → ∀ c resid text, dir.convert c resid = .ok text → text = p c ∧ text.length ≤ resid)
    {free : Direction υ} (member : dirs free)
    (settled : ∀ c resid, (p c).length ≤ resid → free.convert c resid = .ok (p c))
    (shrinks : ∀ c, (p c).length ≤ (f c).length) (whole : ∀ c, held c ↔ (p c).length = (f c).length)
    (same : ∀ c, held c → p c = f c) (nonempty : ∀ c, f c = [] → c = []) (nothing : f [] = []) :
    (∀ dir, dirs dir → ∀ out left, assemble dir parts [] room = .ok (out, left) → out = joined f [47] parts) ↔
      EndsWhole p held parts room := by
  constructor
  · intro complete
    have separator := slash free member
    have positive : 0 < free.separator.length := by rw [separator]; exact Nat.one_pos
    constructor
    · intro fits c known
      obtain ⟨left, ok⟩ : ∃ left, assemble free parts [] room = .ok ([] ++ joined p free.separator parts, left) :=
        assemble_joined settled positive present (separator ▸ fits)
      have equal := complete free member _ _ ok
      rw [List.nil_append, separator] at equal
      cases parts using List.reverseRecOn with
      | nil => exact absurd rfl present
      | append_singleton front last =>
        rw [joined_append p _ front (List.cons_ne_nil _ _), joined_append f _ front (List.cons_ne_nil _ _)] at equal
        have sizes := congrArg List.length equal
        have fronts := length_separated_le shrinks [47] front
        have lasts := shrinks last
        simp only [List.length_append, joined] at sizes
        rw [whole]
        rcases List.mem_append.mp known with inFront | isLast
        · exact fronts.2 (by omega) c inFront
        · rw [List.mem_singleton.mp isLast]
          omega
    · intro front rest split more used
      have ok := assemble_separated settled positive front more []
      rw [← split, separator, used] at ok
      have equal := complete free member _ _ ok
      rw [List.nil_append, split, joined_append f _ front more] at equal
      have sizes := congrArg List.length equal
      have fronts := length_separated_le shrinks [47] front
      rw [List.length_append] at sizes
      refine ⟨fun c known => (whole c).mpr (fronts.2 (by omega) c known), ?_⟩
      exact joined_eq_nil more nonempty (List.length_eq_zero_iff.mp (by omega))
  · rintro ⟨fits, stops⟩ dir known out left ok
    have separator := slash dir known
    rcases assemble_ok (converts dir known) present ok with ⟨_, text, size⟩ | ⟨front, rest, split, more, used, text, _⟩
    · rw [separator] at text size
      rw [text, List.nil_append, joined_congr fun c part => same c (fits size c part)]
    · rw [separator] at used text
      obtain ⟨heldFront, last⟩ := stops front rest split more used
      rw [text, List.nil_append, split, last, joined_append f _ front (List.cons_ne_nil _ _), joined, nothing,
        List.append_nil, separated_congr fun c part => same c (heldFront c part)]

end EndsWhole

theorem walk_returns_iff {υ : Type} [DecidableEq υ] {dir : Direction υ} (empty : ∀ resid, dir.convert [] resid = .ok [])
    (odd : Bool) (input : List υ) (resid : Nat) (out : Bytes) :
    (walk dir odd (input.length + 1) input [] resid).result.map Prod.fst = .ok out ↔
      ∃ left, assemble dir (components dir.nul dir.delimiter input) [] resid = .ok (out, left) := by
  rw [← walk_result empty odd (Nat.lt_succ_self input.length)]
  cases (walk dir odd (input.length + 1) input [] resid).result with
  | error e => simp [Except.map]
  | ok r => simp [Except.map]

section ToPath
variable (texts : Texts) (ntwrkDelimiter : UInt8) (sfm : Bool)

theorem Texts.eq_nil_of_utf8 {units : List UInt16} (empty : texts.utf8 sfm units = []) : units = [] := by
  by_contra present
  have grows := texts.utf8_grows sfm [] units present
  rw [List.nil_append, empty] at grows
  exact Nat.not_lt_zero _ grows

theorem Texts.wholeToPath_utf16_iff (units : List UInt16) (odd : Bool) (pathLen : Nat) :
    texts.WholeToPath (.utf16 units odd) pathLen ntwrkDelimiter sfm ↔
      texts.EndsWholeFrom ntwrkDelimiter sfm pathLen (.utf16 units odd) := by
  have ends := @endsWhole_iff UInt16 (texts.utf8 sfm) (texts.utf8 sfm) (fun _ => True) _
    (fun dir => ∃ codec, texts.Governs codec ∧ dir = codec.fromUtf16 ntwrkDelimiter sfm)
    (components 0 (Codec.delimiterUnit ntwrkDelimiter) units) pathLen (components_ne_nil units)
    (by rintro dir ⟨codec, _, rfl⟩; rfl)
    (by rintro dir ⟨codec, governs, rfl⟩; exact governs.encodes sfm)
    (texts.codec.fromUtf16 ntwrkDelimiter sfm) ⟨texts.codec, texts.governs_codec, rfl⟩
    (fun c resid fits => if_pos fits) (fun _ => Nat.le_refl _) (fun _ => iff_of_true trivial rfl) (fun _ _ => rfl)
    (fun _ => texts.eq_nil_of_utf8 sfm) (texts.utf8_nil sfm)
  rw [Texts.EndsWholeFrom, ← ends]
  constructor
  · rintro whole dir ⟨codec, governs, rfl⟩ out left ok
    exact whole codec governs out ((walk_returns_iff (governs.encodes_nil sfm) odd units pathLen out).mpr ⟨left, ok⟩)
  · intro whole codec governs path ok
    obtain ⟨left, ok⟩ := (walk_returns_iff (governs.encodes_nil sfm) odd units pathLen path).mp ok
    exact whole _ ⟨codec, governs, rfl⟩ path left ok

theorem Texts.length_fromCodePageHeld (c : Bytes) :
    (texts.fromCodePageHeld sfm c).length ≤ (texts.fromCodePage sfm c).length ∧
      (c.length ≤ maxUnits ↔ (texts.fromCodePageHeld sfm c).length = (texts.fromCodePage sfm c).length) ∧
      (c.length ≤ maxUnits → texts.fromCodePageHeld sfm c = texts.fromCodePage sfm c) := by
  have size : (texts.codec.codepageToUcs2 c).length = c.length := List.length_map ..
  by_cases short : c.length ≤ maxUnits
  · have same : texts.fromCodePageHeld sfm c = texts.fromCodePage sfm c := by
      rw [Texts.fromCodePageHeld, List.take_of_length_le (by omega), Texts.fromCodePage]
    rw [same]
    exact ⟨Nat.le_refl _, iff_of_true short rfl, fun _ => rfl⟩
  · have behind : (texts.codec.codepageToUcs2 c).drop maxUnits ≠ [] := by
      rw [ne_eq, List.drop_eq_nil_iff]
      omega
    have grows := texts.utf8_grows sfm ((texts.codec.codepageToUcs2 c).take maxUnits) _ behind
    rw [List.take_append_drop] at grows
    exact ⟨Nat.le_of_lt grows, iff_of_false short (Nat.ne_of_lt grows), fun held => absurd held short⟩

theorem Texts.wholeToPath_codePage_iff (bytes : Bytes) (pathLen : Nat) :
    texts.WholeToPath (.codePage bytes) pathLen ntwrkDelimiter sfm ↔
      texts.EndsWholeFrom ntwrkDelimiter sfm pathLen (.codePage bytes) := by
  have nonempty (c : Bytes) (empty : texts.fromCodePage sfm c = []) : c = [] := by
    simpa [Codec.codepageToUcs2] using texts.eq_nil_of_utf8 sfm empty
  have tables : ∀ codec, texts.Governs codec → ∀ c, codec.codepageToUcs2 c = texts.codec.codepageToUcs2 c := by
    intro codec governs c
    simp only [Codec.codepageToUcs2, governs.toUcs2, Texts.codec]
  have nothing : ∀ codec, texts.Governs codec → ∀ resid,
      (codec.fromCodePage ntwrkDelimiter sfm).convert [] resid = .ok [] := fun codec governs resid =>
    governs.encodes_nil sfm resid
  have ends := @endsWhole_iff UInt8 (texts.fromCodePageHeld sfm) (texts.fromCodePage sfm) (fun c => c.length ≤ maxUnits) _
    (fun dir => ∃ codec, texts.Governs codec ∧ dir = codec.fromCodePage ntwrkDelimiter sfm)
    (components 0 ntwrkDelimiter bytes) pathLen (components_ne_nil bytes)
    (by rintro dir ⟨codec, _, rfl⟩; rfl)
    (by
      rintro dir ⟨codec, governs, rfl⟩ c resid text ok
      have encoded := governs.encodes sfm _ _ _ ok
      rwa [tables codec governs] at encoded)
    (texts.codec.fromCodePage ntwrkDelimiter sfm) ⟨texts.codec, texts.governs_codec, rfl⟩
    (fun c resid fits => if_pos fits) (fun c => (texts.length_fromCodePageHeld sfm c).1)
    (fun c => (texts.length_fromCodePageHeld sfm c).2.1) (fun c => (texts.length_fromCodePageHeld sfm c).2.2)
    nonempty (texts.utf8_nil sfm)
  rw [Texts.EndsWholeFrom, ← ends]
  constructor
  · rintro whole dir ⟨codec, governs, rfl⟩ out left ok
    exact whole codec governs out ((walk_returns_iff (nothing codec governs) false bytes pathLen out).mpr ⟨left, ok⟩)
  · intro whole codec governs path ok
    obtain ⟨left, ok⟩ := (walk_returns_iff (nothing codec governs) false bytes pathLen path).mp ok
    exact whole _ ⟨codec, governs, rfl⟩ path left ok

end ToPath

section ToNetwork
variable {texts : Texts} {codec : Codec} {ntwrkDelimiter : UInt8} {sfm usingUnicode : Bool}

theorem Texts.Governs.toNetwork_nil (governs : texts.Governs codec) (resid : Nat) :
    (codec.toNetwork ntwrkDelimiter sfm usingUnicode).convert [] resid = .ok [] := by
  cases usingUnicode <;>
    simp [Codec.toNetwork, Codec.smbConvertToNetwork, governs.decodes_nil, Codec.littleEndian, Codec.ucs2ToCodepage]

theorem Texts.toNetwork_nil (texts : Texts) (sfm usingUnicode : Bool) : texts.toNetwork sfm usingUnicode [] = [] := by
  cases usingUnicode <;>
    simp [Texts.toNetwork, Texts.characters, texts.utf16_nil, Codec.littleEndian, Codec.ucs2ToCodepage]

theorem Texts.Governs.smbConvertPathToNetwork_ok_iff (governs : texts.Governs codec) (path : Bytes) (ntwrkLen : Nat)
    (inflags : Flags) (network : Bytes) :
    (codec.smbConvertPathToNetwork path ntwrkLen ntwrkDelimiter inflags usingUnicode).result = .ok network ↔
      (Texts.lead path ntwrkDelimiter inflags usingUnicode).length ≤ ntwrkLen ∧
        assemble (codec.toNetwork ntwrkDelimiter inflags.sfmConversions usingUnicode) (components 0 47 path)
          (Texts.lead path ntwrkDelimiter inflags usingUnicode)
          (ntwrkLen - (Texts.lead path ntwrkDelimiter inflags usingUnicode).length) = .ok (network, false) := by
  let dir := codec.toNetwork ntwrkDelimiter inflags.sfmConversions usingUnicode
  have empty : ∀ resid, dir.convert [] resid = .ok [] := governs.toNetwork_nil
  have result := fun lead room => walk_result empty false (Nat.lt_succ_self path.length) lead room
  have same : (if inflags.fullpathConversions ∧ path.headD 0 ≠ 47 then dir.separator else []) =
      Texts.lead path ntwrkDelimiter inflags usingUnicode := rfl
  unfold Codec.smbConvertPathToNetwork
  dsimp only
  rw [same]
  split
  next short => simp [Nat.not_le.mpr short]
  next room =>
    rw [and_iff_right (Nat.le_of_not_lt room)]
    have walked := result (Texts.lead path ntwrkDelimiter inflags usingUnicode)
      (ntwrkLen - (Texts.lead path ntwrkDelimiter inflags usingUnicode).length)
    refine Iff.trans ?_ (Iff.of_eq (congrArg (· = _) walked))
    dsimp only
    cases (walk dir false (path.length + 1) path _ _).result with
    | error e => simp [Except.map]
    | ok r =>
      obtain ⟨out, resid, left⟩ := r
      cases left with
      | none => simp [Except.map, leftOver]
      | some rest =>
        have zero : dir.nul = 0 := rfl
        simp only [Except.map, leftOver, zero, Except.ok.injEq, Prod.mk.injEq, decide_eq_false_iff_not, not_not]
        split
        next more => simp only [reduceCtorEq, more, and_false]
        next ended => simp only [Except.ok.injEq, not_not.mp ended, and_true]

theorem Codec.length_littleEndian (units : List UInt16) : (Codec.littleEndian units).length = 2 * units.length := by
  induction units with
  | nil => rfl
  | cons unit rest ih =>
    rw [Codec.littleEndian, List.flatMap_cons, List.length_append, ← Codec.littleEndian, ih, length_toLe,
      List.length_cons]
    omega

variable {c : Bytes}

theorem Texts.Governs.toUtf16 (governs : texts.Governs codec) {resid : Nat} {text : Bytes}
    (ok : (codec.toNetwork ntwrkDelimiter sfm true).convert c resid = .ok text) :
    text = texts.toNetwork sfm true c ∧ text.length ≤ resid := by
  simp only [Codec.toNetwork, Codec.smbConvertToNetwork, if_true] at ok
  split at ok
  · cases ok
  next units decoded =>
    obtain ⟨rfl, fits⟩ := governs.decodes _ _ _ _ decoded
    split at ok
    · cases ok
    · cases ok
      refine ⟨rfl, ?_⟩
      rw [Codec.length_littleEndian]
      exact Nat.le_trans fits (even_le resid)

theorem Texts.Governs.toCodePage (governs : texts.Governs codec) {resid : Nat} {text : Bytes}
    (ok : (codec.toNetwork ntwrkDelimiter sfm false).convert c resid = .ok text) :
    text = (texts.toNetwork sfm false c).take (even resid) ∧ (texts.characters sfm c).length ≤ 256 := by
  simp only [Codec.toNetwork, Codec.smbConvertToNetwork, Bool.false_eq_true, if_false] at ok
  split at ok
  · cases ok
  next units decoded =>
    obtain ⟨rfl, fits⟩ := governs.decodes _ _ _ _ decoded
    cases ok
    have tables : ∀ units, codec.ucs2ToCodepage units = texts.codec.ucs2ToCodepage units := by
      intro units
      simp only [Codec.ucs2ToCodepage, governs.fromUcs2, Texts.codec]
    refine ⟨by rw [tables]; rfl, ?_⟩
    unfold Texts.characters
    omega

theorem Texts.codec_toCodePage (held : (texts.characters sfm c).length ≤ 256) (resid : Nat) :
    (texts.codec.toNetwork ntwrkDelimiter sfm false).convert c resid =
      .ok ((texts.toNetwork sfm false c).take (even resid)) := by
  have fits : 2 * (texts.characters sfm c).length ≤ 512 := by omega
  unfold Texts.characters at fits
  simp only [Codec.toNetwork, Codec.smbConvertToNetwork, Bool.false_eq_true, if_false]
  rw [Texts.codec]
  dsimp only
  rw [if_pos fits]
  rfl

theorem Texts.wholeToNetwork_utf16 (texts : Texts) (path : Bytes) (ntwrkLen : Nat) (ntwrkDelimiter : UInt8)
    (inflags : Flags) : texts.WholeToNetwork path ntwrkLen ntwrkDelimiter inflags true := by
  intro codec governs network ok
  obtain ⟨_, assembled⟩ := (governs.smbConvertPathToNetwork_ok_iff path ntwrkLen inflags network).mp ok
  rcases assemble_ok (fun c resid text => governs.toUtf16) (components_ne_nil path) assembled with
    ⟨_, whole, _⟩ | ⟨front, rest, split, more, _, whole, last⟩
  · exact whole
  · have ended : rest = [[]] := by simpa using last
    rw [whole, Texts.networkPath, split, ended, joined_append _ _ front (List.cons_ne_nil _ _), joined,
      texts.toNetwork_nil, List.append_nil]
    rfl

theorem Texts.lastFits_of_whole {path : Bytes} {ntwrkLen : Nat} {ntwrkDelimiter : UInt8} {inflags : Flags}
    (whole : texts.WholeToNetwork path ntwrkLen ntwrkDelimiter inflags false) :
    texts.CutFree path ntwrkLen ntwrkDelimiter inflags := by
  intro held front c split room
  by_contra long
  have fits : (Texts.lead path ntwrkDelimiter inflags false).length ≤ ntwrkLen := by omega
  have settled : ∀ part ∈ front ++ [c], ∀ resid,
      (texts.codec.toNetwork ntwrkDelimiter inflags.sfmConversions false).convert part resid =
        .ok ((texts.toNetwork inflags.sfmConversions false part).take (even resid)) := by
    intro part member
    apply texts.codec_toCodePage
    apply held
    rcases split with last | ⟨last, _⟩
    · rwa [last]
    · rw [last]
      have more : front ++ [c, []] = front ++ [c] ++ [[]] := by simp
      exact more ▸ List.mem_append_left _ member
  obtain ⟨network, ok, less⟩ := assemble_short rfl settled (Texts.lead path ntwrkDelimiter inflags false) room
    (Nat.lt_of_not_le long) split (texts.toNetwork_nil _ _)
  have returned := whole texts.codec texts.governs_codec network
    ((texts.governs_codec.smbConvertPathToNetwork_ok_iff path ntwrkLen inflags network).mpr ⟨fits, ok⟩)
  rw [returned] at less
  exact Nat.lt_irrefl _ less

theorem Texts.wholeToNetwork_codePage_iff (texts : Texts) (path : Bytes) (ntwrkLen : Nat) (ntwrkDelimiter : UInt8)
    (inflags : Flags) :
    texts.WholeToNetwork path ntwrkLen ntwrkDelimiter inflags false ↔
      texts.CutFree path ntwrkLen ntwrkDelimiter inflags := by
  refine ⟨Texts.lastFits_of_whole, fun cutFree codec governs network ok => ?_⟩
  obtain ⟨_, assembled⟩ := (governs.smbConvertPathToNetwork_ok_iff path ntwrkLen inflags network).mp ok
  have held : ∀ c ∈ components 0 47 path, (texts.characters inflags.sfmConversions c).length ≤ 256 := by
    intro c member
    rcases assemble_converted assembled c member with rfl | ⟨room, text, converted⟩
    · simp [Texts.characters, texts.utf16_nil]
    · exact (governs.toCodePage converted).2
  have cuts : ∀ c resid text,
      (codec.toNetwork ntwrkDelimiter inflags.sfmConversions false).convert c resid = .ok text →
        text = (texts.toNetwork inflags.sfmConversions false c).take (even resid) :=
    fun c resid text converted => (governs.toCodePage converted).1
  rcases assemble_cut rfl cuts (texts.toNetwork_nil _ _) (components_ne_nil path) assembled with
    whole | ⟨front, c, split, room, short⟩
  · exact whole
  · exact absurd (cutFree held front c split room) (Nat.not_le.mpr short)

end ToNetwork

/-- What is returned is complete just when the end of the output does not hide the end of the path. -/
theorem convert_whole_iff (texts : Texts) (ntwrkDelimiter : UInt8) :
    (∀ path ntwrkLen inflags usingUnicode,
      texts.WholeToNetwork path ntwrkLen ntwrkDelimiter inflags usingUnicode ↔
        (usingUnicode = false → texts.CutFree path ntwrkLen ntwrkDelimiter inflags)) ∧
      ∀ network pathLen sfm,
        texts.WholeToPath network pathLen ntwrkDelimiter sfm ↔
          texts.EndsWholeFrom ntwrkDelimiter sfm pathLen network := by
  constructor
  · intro path ntwrkLen inflags usingUnicode
    cases usingUnicode with
    | true => exact iff_of_true (texts.wholeToNetwork_utf16 path ntwrkLen ntwrkDelimiter inflags) nofun
    | false =>
      rw [texts.wholeToNetwork_codePage_iff path ntwrkLen ntwrkDelimiter inflags]
      exact ⟨fun cutFree _ => cutFree, fun cutFree => cutFree rfl⟩
  · intro network pathLen sfm
    cases network with
    | utf16 units odd => exact texts.wholeToPath_utf16_iff ntwrkDelimiter sfm units odd pathLen
    | codePage bytes => exact texts.wholeToPath_codePage_iff ntwrkDelimiter sfm bytes pathLen

def asciiTexts : Texts :=
  { utf16 := fun _ text => text.map UInt8.toUInt16
    utf8 := fun _ units => units.map UInt16.toUInt8
    cp437FromUcs2 := fun _ => none
    cp437ToUcs2 := UInt8.toUInt16
    utf16_nil := fun _ => rfl
    utf8_nil := fun _ => rfl
    utf8_grows := fun _ units more present => by
      simpa using List.length_pos_iff.mpr present }

/-- The path a\b comes back as a/ from an output of two bytes, and abc as ab with the code page. -/
theorem convert_returns_cut :
    (asciiTexts.codec.smbConvertNetworkToPath (.utf16 [97, 92, 98] false) 2 92 false).result = .ok [97, 47] ∧
      asciiTexts.localPath 92 false (.utf16 [97, 92, 98] false) = [97, 47, 98] ∧
      (asciiTexts.codec.smbConvertPathToNetwork [97, 98, 99] 2 92 ⟨false, false⟩ false).result = .ok [97, 98] := by
  decide

end SmbClient.Converter
