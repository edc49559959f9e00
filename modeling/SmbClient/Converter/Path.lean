import SmbClient.Mbuf.Chain
import SmbClient.Lib.Tokens

namespace SmbClient.Converter
open SmbClient.Lib
open SmbClient.Mbuf (Errno)

structure Codec where
  utf8Decodestr : (sfm : Bool) → Bytes → (room : Nat) → Except Errno (List UInt16)
  utf8Encodestr : (sfm : Bool) → List UInt16 → (room : Nat) → Except Errno Bytes
  cp437FromUcs2 : UInt16 → Option UInt8
  cp437ToUcs2 : UInt8 → UInt16

namespace Codec

def littleEndian (units : List UInt16) : Bytes := units.flatMap fun unit => toLe 2 unit.toNat

def ucs2ToCodepage (codec : Codec) (src : List UInt16) : Bytes :=
  src.map fun character =>
    if character < 0x80 then character.toUInt8 else (codec.cp437FromUcs2 character).getD 95

def codepageToUcs2 (codec : Codec) (src : Bytes) : List UInt16 :=
  src.map fun byte => if byte < 0x80 then byte.toUInt16 else codec.cp437ToUcs2 byte

def even (room : Nat) : Nat := room - room % 2

def smbConvertToNetwork (codec : Codec) (sfm usingUnicode : Bool) (text : Bytes) (room : Nat) : Except Errno Bytes :=
  let outLeft := even room
  if usingUnicode then
    match codec.utf8Decodestr sfm text outLeft with
    | .error e => .error e
    | .ok units => if 2 * units.length > outLeft then .error .einval else .ok (littleEndian units)
  else
    match codec.utf8Decodestr sfm text 512 with
    | .error e => .error e
    -- what does not fit is left out
    | .ok units => .ok ((codec.ucs2ToCodepage units).take outLeft)

end Codec

structure Direction (υ : Type) where
  nul : υ
  delimiter : υ
  separator : Bytes
  convert : List υ → (room : Nat) → Except Errno Bytes

structure Walked (υ : Type) where
  input : List υ
  result : Except Errno (Bytes × Nat × Option (List υ))

def walk {υ : Type} [DecidableEq υ] (dir : Direction υ) (odd : Bool) :
    (turns : Nat) → (input : List υ) → (out : Bytes) → (resid : Nat) → Walked υ
  | 0, input, out, resid => ⟨input, .ok (out, resid, some input)⟩
  | turns + 1, input, out, resid =>
    if resid = 0 ∨ input = [] ∧ odd = false then ⟨input, .ok (out, resid, some input)⟩
    else
      match splitAtDelimiter dir.nul dir.delimiter input with
      | none =>
        match dir.convert (input.takeWhile (· ≠ dir.nul)) resid with
        | .error e => ⟨input, .error e⟩
        | .ok text => ⟨input, .ok (out ++ text, resid - text.length, none)⟩
      | some (component, rest) =>
        match dir.convert component resid with
        -- the delimiter has been taken out to end the component
        | .error e => ⟨component ++ dir.nul :: rest, .error e⟩
        | .ok text =>
          if resid - text.length < dir.separator.length then ⟨component ++ dir.delimiter :: rest, .error .e2big⟩
          else
            let walked := walk dir odd turns rest (out ++ text ++ dir.separator)
              (resid - text.length - dir.separator.length)
            ⟨component ++ dir.delimiter :: walked.input, walked.result⟩

structure Converted (ι : Type) where
  input : ι
  result : Except Errno Bytes

namespace Codec

def delimiterUnit (delimiter : UInt8) : UInt16 :=
  if delimiter < 0x80 then delimiter.toUInt16 else delimiter.toUInt16 + 0xFF00

def networkDelimiter (usingUnicode : Bool) (delimiter : UInt8) : Bytes :=
  if usingUnicode then toLe 2 (delimiterUnit delimiter).toNat else [delimiter]

def toNetwork (codec : Codec) (ntwrkDelimiter : UInt8) (sfm usingUnicode : Bool) : Direction UInt8 :=
  { nul := 0
    delimiter := 47
    separator := networkDelimiter usingUnicode ntwrkDelimiter
    convert := fun component =>
      codec.smbConvertToNetwork (sfm && !(component = [46] || component = [46, 46])) usingUnicode component }

structure Flags where
  sfmConversions : Bool
  fullpathConversions : Bool

def smbConvertPathToNetwork (codec : Codec) (path : Bytes) (ntwrkLen : Nat) (ntwrkDelimiter : UInt8) (inflags : Flags)
    (usingUnicode : Bool) : Converted Bytes :=
  let dir := codec.toNetwork ntwrkDelimiter inflags.sfmConversions usingUnicode
  let lead := if inflags.fullpathConversions ∧ path.headD 0 ≠ 47 then dir.separator else []
  if ntwrkLen < lead.length then ⟨path, .error .e2big⟩
  else
    let walked := walk dir false (path.length + 1) path lead (ntwrkLen - lead.length)
    ⟨walked.input,
      match walked.result with
      | .error e => .error e
      | .ok (network, _, none) => .ok network
      -- the entire path has not been parsed
      | .ok (network, _, some rest) => if rest.headD 0 ≠ 0 then .error .e2big else .ok network⟩

inductive Network
  | utf16 (units : List UInt16) (odd : Bool)
  | codePage (bytes : Bytes)

def maxUnits : Nat := 510

def fromUtf16 (codec : Codec) (ntwrkDelimiter : UInt8) (sfm : Bool) : Direction UInt16 :=
  { nul := 0
    delimiter := delimiterUnit ntwrkDelimiter
    separator := [47]
    convert := codec.utf8Encodestr sfm }

def fromCodePage (codec : Codec) (ntwrkDelimiter : UInt8) (sfm : Bool) : Direction UInt8 :=
  { nul := 0
    delimiter := ntwrkDelimiter
    separator := [47]
    convert := fun component => codec.utf8Encodestr sfm ((codec.codepageToUcs2 component).take maxUnits) }

def smbConvertNetworkToPath (codec : Codec) (network : Network) (pathLen : Nat) (ntwrkDelimiter : UInt8) (sfm : Bool) :
    Converted Network :=
  match network with
  | .utf16 units odd =>
    let walked := walk (codec.fromUtf16 ntwrkDelimiter sfm) odd (units.length + 1) units [] pathLen
    ⟨.utf16 walked.input odd, walked.result.map Prod.fst⟩
  | .codePage bytes =>
    let walked := walk (codec.fromCodePage ntwrkDelimiter sfm) false (bytes.length + 1) bytes [] pathLen
    ⟨.codePage walked.input, walked.result.map Prod.fst⟩

end Codec

/-- No component with another one behind it fails to convert into the room that is left when it is reached. -/
def InnerConvert {υ : Type} (dir : Direction υ) : List (List υ) → (resid : Nat) → Prop
  | component :: next :: rest, resid =>
    resid = 0 ∨ ∃ text, dir.convert component resid = .ok text ∧
      (resid - text.length < dir.separator.length ∨
        InnerConvert dir (next :: rest) (resid - text.length - dir.separator.length))
  | _, _ => True

theorem innerConvert_zero {υ : Type} (dir : Direction υ) (parts : List (List υ)) : InnerConvert dir parts 0 := by
  match parts with
  | [] => trivial
  | [_] => trivial
  | _ :: _ :: _ => exact .inl rfl

theorem walk_input_iff {υ : Type} [DecidableEq υ] (dir : Direction υ) (odd : Bool) {turns : Nat} {input : List υ}
    (enough : input.length < turns) (out : Bytes) (resid : Nat) :
    (walk dir odd turns input out resid).input = input ↔
      InnerConvert dir (components dir.nul dir.delimiter input) resid := by
  induction turns generalizing input out resid with
  | zero => exact absurd enough (Nat.not_lt_zero _)
  | succ turns ih =>
    rw [walk]
    split
    next stop =>
      rcases stop with full | ⟨ended, _⟩
      · exact iff_of_true rfl (full ▸ innerConvert_zero dir _)
      · exact iff_of_true rfl (ended ▸ trivial)
    next goes =>
      have room : resid ≠ 0 := fun full => goes (.inl full)
      split
      next unfound =>
        rw [components_of_none unfound]
        split <;> exact iff_of_true rfl trivial
      next component rest found =>
        obtain ⟨split, nonzero, parts⟩ := splitAtDelimiter_eq_some found
        obtain ⟨next, more, later⟩ := List.exists_cons_of_ne_nil (components_ne_nil rest)
        rw [parts, later, InnerConvert, ← later, split]
        split
        next e refused =>
          apply iff_of_false
          · simpa using Ne.symm nonzero
          · simp [room, refused]
        next text converted =>
          simp only [room, false_or, converted, Except.ok.injEq, exists_eq_left']
          split
          next short => exact iff_of_true rfl (.inl short)
          next fits =>
            have fewer : rest.length < turns := by
              have size := congrArg List.length split
              rw [List.length_append, List.length_cons] at size
              omega
            rw [List.append_right_inj, List.cons.injEq, ih fewer]
            simp [fits]

namespace Codec

def roomBehindLead (codec : Codec) (path : Bytes) (ntwrkLen : Nat) (ntwrkDelimiter : UInt8) (inflags : Flags)
    (usingUnicode : Bool) : Nat :=
  if inflags.fullpathConversions ∧ path.headD 0 ≠ 47 then
    ntwrkLen - (codec.toNetwork ntwrkDelimiter inflags.sfmConversions usingUnicode).separator.length
  else ntwrkLen

def InnerConvertFrom (codec : Codec) (pathLen : Nat) (ntwrkDelimiter : UInt8) (sfm : Bool) : Network → Prop
  | .utf16 units _ =>
    let dir := codec.fromUtf16 ntwrkDelimiter sfm
    InnerConvert dir (components dir.nul dir.delimiter units) pathLen
  | .codePage bytes =>
    let dir := codec.fromCodePage ntwrkDelimiter sfm
    InnerConvert dir (components dir.nul dir.delimiter bytes) pathLen

theorem smbConvertPathToNetwork_input_iff (codec : Codec) (path : Bytes) (ntwrkLen : Nat) (ntwrkDelimiter : UInt8)
    (inflags : Flags) (usingUnicode : Bool) :
    (codec.smbConvertPathToNetwork path ntwrkLen ntwrkDelimiter inflags usingUnicode).input = path ↔
      InnerConvert (codec.toNetwork ntwrkDelimiter inflags.sfmConversions usingUnicode) (components 0 47 path)
        (codec.roomBehindLead path ntwrkLen ntwrkDelimiter inflags usingUnicode) := by
  unfold smbConvertPathToNetwork roomBehindLead
  dsimp only
  by_cases full : inflags.fullpathConversions ∧ path.headD 0 ≠ 47
  · simp only [if_pos full]
    split
    next short =>
      rw [Nat.sub_eq_zero_of_le (Nat.le_of_lt short)]
      exact iff_of_true rfl (innerConvert_zero _ _)
    next => exact walk_input_iff _ false (Nat.lt_succ_self _) _ _
  · simp only [if_neg full, List.length_nil, Nat.not_lt_zero, if_false, Nat.sub_zero]
    exact walk_input_iff _ false (Nat.lt_succ_self _) _ _

theorem smbConvertNetworkToPath_input_iff (codec : Codec) (network : Network) (pathLen : Nat) (ntwrkDelimiter : UInt8)
    (sfm : Bool) :
    (codec.smbConvertNetworkToPath network pathLen ntwrkDelimiter sfm).input = network ↔
      codec.InnerConvertFrom pathLen ntwrkDelimiter sfm network := by
  cases network with
  | utf16 units odd =>
    rw [smbConvertNetworkToPath, Network.utf16.injEq, and_iff_left rfl]
    exact walk_input_iff _ odd (Nat.lt_succ_self _) _ _
  | codePage bytes =>
    rw [smbConvertNetworkToPath, Network.codePage.injEq]
    exact walk_input_iff _ false (Nat.lt_succ_self _) _ _

/-- The input comes back as it was just when no delimiter is taken out for a component that does not convert. -/
theorem convert_input_iff (codec : Codec) (ntwrkDelimiter : UInt8) :
    (∀ path ntwrkLen inflags usingUnicode,
      (codec.smbConvertPathToNetwork path ntwrkLen ntwrkDelimiter inflags usingUnicode).input = path ↔
        InnerConvert (codec.toNetwork ntwrkDelimiter inflags.sfmConversions usingUnicode) (components 0 47 path)
          (codec.roomBehindLead path ntwrkLen ntwrkDelimiter inflags usingUnicode)) ∧
      ∀ network pathLen sfm,
        (codec.smbConvertNetworkToPath network pathLen ntwrkDelimiter sfm).input = network ↔
          codec.InnerConvertFrom pathLen ntwrkDelimiter sfm network :=
  ⟨fun path ntwrkLen inflags usingUnicode =>
      codec.smbConvertPathToNetwork_input_iff path ntwrkLen ntwrkDelimiter inflags usingUnicode,
    fun network pathLen sfm => codec.smbConvertNetworkToPath_input_iff network pathLen ntwrkDelimiter sfm⟩

def asciiCodec : Codec :=
  { utf8Decodestr := fun _ text room =>
      if 2 * text.length ≤ room then .ok (text.map UInt8.toUInt16) else .error .enametoolong
    utf8Encodestr := fun _ units room =>
      if units.length ≤ room then .ok (units.map UInt16.toUInt8) else .error .enametoolong
    cp437FromUcs2 := fun _ => none
    cp437ToUcs2 := UInt8.toUInt16 }

/-- The path ab/c does not fit into two bytes, and is left with a zero in place of the slash. -/
theorem smbConvertPathToNetwork_drops_slash :
    (asciiCodec.smbConvertPathToNetwork [97, 98, 47, 99] 2 92 ⟨false, false⟩ true).input = [97, 98, 0, 99] := by
  decide

end Codec

end SmbClient.Converter
