import SmbClient.Mbuf.Chain

namespace SmbClient.Compression
open SmbClient.Lib SmbClient.Mbuf

inductive Method
  | lznt1 | lz77 | lz77Huffman
  deriving DecidableEq, Repr

inductive Algorithm
  | none
  | patternV1
  | codec (method : Method)
  deriving DecidableEq, Repr

def Algorithm.wire : Algorithm → Nat
  | none => 0
  | codec .lznt1 => 1
  | codec .lz77 => 2
  | codec .lz77Huffman => 3
  | patternV1 => 4

def Algorithm.ofWire : Nat → Option Algorithm
  | 0 => some none
  | 1 => some (codec .lznt1)
  | 2 => some (codec .lz77)
  | 3 => some (codec .lz77Huffman)
  | 4 => some patternV1
  | _ => Option.none

@[simp] theorem Algorithm.ofWire_wire (algorithm : Algorithm) : ofWire algorithm.wire = some algorithm := by
  cases algorithm with
  | codec method => cases method <;> rfl
  | none | patternV1 => rfl

theorem Algorithm.wire_lt (algorithm : Algorithm) : algorithm.wire < 256 ^ 2 := by
  cases algorithm with
  | codec method => cases method <;> decide
  | none | patternV1 => decide

structure Codec where
  encodeScratch : Method → Nat
  decodeScratch : Method → Nat
  encode : Method → (source : Bytes) → (room : Nat) → Bytes
  decode : Method → (source : Bytes) → (room : Nat) → Bytes
  encode_fits : ∀ method source room, (encode method source room).length ≤ room
  decode_fits : ∀ method source room, (decode method source room).length ≤ room

namespace Codec

def Inverts (codec : Codec) : Prop :=
  ∀ method source room, codec.encode method source room ≠ [] →
    codec.decode method (codec.encode method source room) source.length = source

def scratch (kalloc : Kalloc) (size : Nat) : Except Errno Unit :=
  if size = 0 then .ok ()
  else
    match kalloc.alloc size with
    | none => .error .enomem
    | some _ => .ok ()

def smb2CompressData (codec : Codec) (kalloc : Kalloc) (method : Method) (data : Bytes) (compressLen : Nat) :
    Except Errno Bytes :=
  (scratch kalloc (codec.encodeScratch method)).map fun _ => codec.encode method data compressLen

def smb2DecompressData (codec : Codec) (kalloc : Kalloc) (method : Method) (compressed : Bytes) (dataLen : Nat) :
    Except Errno Bytes :=
  match scratch kalloc (codec.decodeScratch method) with
  | .error e => .error e
  | .ok () =>
    match codec.decode method compressed dataLen with
    | [] => .error .einval
    | data => .ok data

def repeating : Codec where
  encodeScratch _ := 0
  decodeScratch _ := 0
  encode _ source room :=
    match source with
    | [] => []
    | b :: rest => if 0 < room ∧ rest.all (· == b) then [b] else []
  decode _ source room :=
    match source with
    | [] => []
    | b :: _ => List.replicate room b
  encode_fits := by
    intro method source room
    cases source with
    | nil => exact Nat.zero_le _
    | cons b rest =>
      dsimp only
      split
      · rename_i usable
        exact usable.1
      · exact Nat.zero_le _
  decode_fits := by
    intro method source room
    cases source with
    | nil => exact Nat.zero_le _
    | cons b rest => simp

theorem repeating_inverts : repeating.Inverts := by
  intro method source room encoded
  cases source with
  | nil => exact absurd rfl encoded
  | cons b rest =>
    by_cases usable : 0 < room ∧ rest.all (· == b)
    · have same : rest = List.replicate rest.length b := by
        rw [List.eq_replicate_iff]
        refine ⟨rfl, fun c member => ?_⟩
        simpa using List.all_eq_true.mp usable.2 c member
      simp only [repeating, if_pos usable, List.length_cons, List.replicate_succ]
      exact congrArg _ same.symm
    · exact absurd (if_neg usable) encoded

end Codec

end SmbClient.Compression
