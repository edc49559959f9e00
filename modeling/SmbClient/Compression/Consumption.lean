import SmbClient.Compression.Decompress

/-!
What `smb2_rq_decompress_read` takes from a message and what it leaves to its caller.
-/

namespace SmbClient.Compression
open SmbClient.Lib SmbClient.Lib.Traced SmbClient.Mbuf SmbClient.Session

namespace Decoder
variable {d : Decoder} {s next : Progress}

/-- The turn at `s` uses up the header and as many bytes as its CompressedDataLength names. -/
def Exact (d : Decoder) (s : Progress) : Prop :=
  ∀ next, (d.pass s).result = .ok next → s.mdp.rest.length = next.mdp.rest.length + (8 + s.word)

theorem pass_rest (chained : d.chainedCompress = true) (ended : (d.pass s).result = .ok next) :
    s.mdp.rest.length = next.mdp.rest.length +
      (8 + if Algorithm.ofWire s.algorithm = some .patternV1 then 8 else s.word) := by
  obtain ⟨enough, mdp, left, ended⟩ := pass_eq_ok ended
  rw [if_pos chained] at ended
  obtain ⟨n, placed, used⟩ := payload_placed 0 ended.2
  have rest := used chained
  rw [left, List.length_drop] at rest
  omega

theorem exact_iff (chained : d.chainedCompress = true) (ended : (d.pass s).result = .ok next) :
    d.Exact s ↔ (Algorithm.ofWire s.algorithm = some .patternV1 → s.word = 8) := by
  have used := pass_rest chained ended
  constructor
  · intro exact pattern
    specialize exact next ended
    rw [if_pos pattern] at used
    omega
  · intro eight next' ended'
    rw [ended, Except.ok.injEq] at ended'
    subst ended'
    by_cases pattern : Algorithm.ofWire s.algorithm = some .patternV1
    · rw [if_pos pattern] at used
      rwa [eight pattern]
    · rwa [if_neg pattern] at used

def turnsFrom (d : Decoder) (s : Progress) : List Progress := entered d.unfinished d.pass (mdGetSize s.mdp + 1) s

theorem turnsFrom_eq_cons (more : d.unfinished s = true) : ∃ later, d.turnsFrom s = s :: later := by
  rw [turnsFrom, entered, if_pos more]
  split
  · exact ⟨_, rfl⟩
  · exact ⟨[], rfl⟩

theorem loop_out {fuel : Nat} {last : Progress} (ended : (loop d.unfinished d.pass fuel s).result = .ok last) :
    last.out.length + s.currentDecompressedDataSize = s.out.length + last.currentDecompressedDataSize +
      ((entered d.unfinished d.pass fuel s).map d.offsetBytes).sum := by
  induction fuel generalizing s with
  | zero =>
    cases ended
    simp [entered]
  | succ fuel ih =>
    rw [loop] at ended
    rw [entered]
    by_cases more : d.unfinished s = true
    · rw [if_pos more, result_bind_eq_ok] at ended
      obtain ⟨next, taken, ended⟩ := ended
      obtain ⟨n, out, current, -, -⟩ := pass_placed taken
      have later := ih ended
      simp only [if_pos more, taken, List.map_cons, List.sum_cons]
      omega
    · rw [if_neg more] at ended
      cases ended
      simp [more]

theorem loop_passes {fuel : Nat} {last t : Progress} (ended : (loop d.unfinished d.pass fuel s).result = .ok last)
    (visited : t ∈ entered d.unfinished d.pass fuel s) : ∃ next, (d.pass t).result = .ok next := by
  induction fuel generalizing s with
  | zero => cases visited
  | succ fuel ih =>
    rw [loop] at ended
    rw [entered] at visited
    by_cases more : d.unfinished s = true
    · rw [if_pos more, result_bind_eq_ok] at ended
      obtain ⟨next, taken, ended⟩ := ended
      simp only [if_pos more, taken, List.mem_cons] at visited
      cases visited with
      | inl here => exact here ▸ ⟨next, taken⟩
      | inr later => exact ih ended later
    · simp [more] at visited

theorem decompress_eq_ok {out : Bytes} (ended : (d.decompress s).result = .ok out) :
    ∃ last, (loop d.unfinished d.pass (mdGetSize s.mdp + 1) s).result = .ok last ∧
      last.currentDecompressedDataSize = d.originalCompressedSegmentSize ∧ last.out = out := by
  unfold decompress at ended
  rw [result_bind_eq_ok] at ended
  obtain ⟨last, looped, ended⟩ := ended
  split at ended
  · cases ended
  · rename_i whole
    rw [result_pure, Except.ok.injEq] at ended
    exact ⟨last, looped, Decidable.not_not.mp whole, ended⟩

theorem turns_unread (fuel : Nat) (s : Progress) :
    turns d.unfinished d.pass fuel s ≤ s.mdp.rest.length + 1 := by
  have shrinks : Shrinks d.unfinished d.pass (fun s => s.mdp.rest.length + 1) :=
    fun s next more taken => Nat.succ_lt_succ (pass_shrinks s next more taken)
  exact turns_le shrinks (fun _ _ => Nat.succ_pos _) fuel s

end Decoder

section Caller
variable (codec : Codec) (kalloc : Kalloc) (compressionLog : Bool) (sessionp : SmbSession) (m : Chain)

def decompressRead : Chain × Except Errno Unit :=
  match (smb2RqDecompressRead codec kalloc compressionLog sessionp m).result with
  | .ok (some out) => ([out], .ok ())
  | .ok none => (m, .ok ())
  | .error error => (m, .error error)

/-- The call succeeds on a message whose payloads are read from `start` on, and leaves the chain `after`. -/
structure Decompressed (d : Decoder) (start : Progress) (after : Chain) : Prop where
  smb3 : sessionp.dialect.smb3OrLater = true
  map : sessionp.serverCompressionAlgorithmsMap ≠ 0
  started : decompressStart codec kalloc compressionLog sessionp m = .ok (d, start)
  success : decompressRead codec kalloc compressionLog sessionp m = (after, .ok ())

def originalSize : Nat := ofLe (slice (bytes m) 4 4)

/-- The Offset in the one header of a message in the nonchained form. -/
def headerOffset : Nat := ofLe (slice (bytes m) 12 4)

structure Accounts : Prop where
  size : ∀ d start after, Decompressed codec kalloc compressionLog sessionp m d start after →
    (bytes after).length = originalSize m + if sessionp.compressionChainingOff then headerOffset m else 0
  consumed : ∀ d start after, Decompressed codec kalloc compressionLog sessionp m d start after →
    sessionp.compressionChainingOff = false → ∀ t ∈ d.turnsFrom start, d.Exact t
  unchanged : ∀ error, (decompressRead codec kalloc compressionLog sessionp m).2 = .error error →
    (decompressRead codec kalloc compressionLog sessionp m).1 = m
  ends : ∀ d start, decompressStart codec kalloc compressionLog sessionp m = .ok (d, start) →
    ∀ fuel, turns d.unfinished d.pass fuel start ≤ (bytes m).length

variable {codec kalloc compressionLog sessionp m} {d : Decoder} {start : Progress} {after : Chain}

theorem decompressStart_fields (started : decompressStart codec kalloc compressionLog sessionp m = .ok (d, start)) :
    8 ≤ (bytes m).length ∧ start.mdp.rest = (bytes m).drop 8 ∧ start.out = [] ∧
      start.currentDecompressedDataSize = 0 ∧ d.originalCompressedSegmentSize = originalSize m ∧
      d.chainedCompress = !sessionp.compressionChainingOff := by
  simp only [decompressStart, except_bind_eq_ok] at started
  obtain ⟨⟨protocolId, mdp⟩, first, ⟨size, mdp'⟩, second, started⟩ := started
  obtain ⟨four, -, left⟩ := getUintLe_eq_ok first
  obtain ⟨eight, value, left'⟩ := getUintLe_eq_ok second
  dsimp only at started left left' value
  split at started
  · cases started
  · split at started
    · cases started
    · simp only [Except.ok.injEq, Prod.mk.injEq] at started
      obtain ⟨rfl, rfl⟩ := started
      rw [rest_mdInitm] at left four
      rw [left, List.length_drop] at eight
      refine ⟨by omega, ?_, rfl, rfl, ?_, rfl⟩
      · rw [left', left, List.drop_drop]
      · rw [value, left]
        rfl

theorem Decompressed.decompress (done : Decompressed codec kalloc compressionLog sessionp m d start after) :
    (d.decompress start).result = .ok (bytes after) := by
  have success := done.success
  simp only [decompressRead, smb2RqDecompressRead, done.smb3, done.map, Bool.not_true, decide_false, Bool.or_false,
    Bool.false_eq_true, if_false, result_bind, result_lift, result_pure, done.started, except_ok_bind] at success
  cases ended : (d.decompress start).result with
  | error error => simp [ended] at success
  | ok out =>
    simp only [ended, except_ok_bind, Prod.mk.injEq] at success
    simp [← success.1, bytes]

theorem Decompressed.result (done : Decompressed codec kalloc compressionLog sessionp m d start after) :
    (smb2RqDecompressRead codec kalloc compressionLog sessionp m).result = .ok (some (bytes after)) := by
  simp [smb2RqDecompressRead, done.smb3, done.map, result_bind, result_lift, done.started, done.decompress]

theorem decompressed_of_result (smb3 : sessionp.dialect.smb3OrLater = true)
    (map : sessionp.serverCompressionAlgorithmsMap ≠ 0) {out : Bytes}
    (ended : (smb2RqDecompressRead codec kalloc compressionLog sessionp m).result = .ok (some out)) :
    ∃ d start, Decompressed codec kalloc compressionLog sessionp m d start [out] := by
  have success : decompressRead codec kalloc compressionLog sessionp m = ([out], .ok ()) := by
    rw [decompressRead, ended]
  cases started : decompressStart codec kalloc compressionLog sessionp m with
  | error error => simp [smb2RqDecompressRead, smb3, map, result_bind, result_lift, started] at ended
  | ok set => exact ⟨set.1, set.2, smb3, map, started, success⟩

section
variable (done : Decompressed codec kalloc compressionLog sessionp m d start after)
include done

theorem Decompressed.length :
    (bytes after).length = originalSize m + ((d.turnsFrom start).map d.offsetBytes).sum := by
  obtain ⟨last, looped, whole, out⟩ := Decoder.decompress_eq_ok done.decompress
  obtain ⟨-, -, empty, zero, declared, -⟩ := decompressStart_fields done.started
  have grown := Decoder.loop_out looped
  rw [zero, empty, List.length_nil, whole, declared, out] at grown
  unfold Decoder.turnsFrom
  omega

theorem Decompressed.size : (bytes after).length = originalSize m +
      if sessionp.compressionChainingOff then ((d.turnsFrom start).map Progress.word).sum else 0 := by
  obtain ⟨-, -, -, -, -, chained⟩ := decompressStart_fields done.started
  rw [done.length]
  unfold Decoder.offsetBytes
  cases off : sessionp.compressionChainingOff with
  | true => simp [chained, off]
  | false => simp [chained, off]

-- The loop reads a header in each of its turns, although the nonchained form has only the first one.
theorem Decompressed.offsets : ((d.turnsFrom start).map Progress.word).sum = headerOffset m ↔
      (originalSize m = 0 → headerOffset m = 0) ∧ ∀ t ∈ (d.turnsFrom start).tail, t.word = 0 := by
  obtain ⟨-, rest, -, zero, declared, -⟩ := decompressStart_fields done.started
  have first : start.word = headerOffset m := by
    rw [Progress.word, headerOffset, rest, slice, slice, List.drop_drop]
  by_cases more : d.unfinished start = true
  · have some' : originalSize m ≠ 0 := by
      simp only [Decoder.unfinished, zero, declared, decide_eq_true_eq] at more
      omega
    obtain ⟨later, turns⟩ := Decoder.turnsFrom_eq_cons more
    simp [turns, first, some', List.sum_eq_zero_iff_forall_eq_nat]
  · have none' : originalSize m = 0 := by
      simp only [Decoder.unfinished, zero, declared, decide_eq_true_eq] at more
      omega
    simp [Decoder.turnsFrom, entered, more, none', eq_comm]

theorem Decompressed.passes {t : Progress} (visited : t ∈ d.turnsFrom start) :
    ∃ next, (d.pass t).result = .ok next := by
  obtain ⟨last, looped, -, -⟩ := Decoder.decompress_eq_ok done.decompress
  exact Decoder.loop_passes looped visited

end

theorem decompressRead_unchanged {error : Errno}
    (failed : (decompressRead codec kalloc compressionLog sessionp m).2 = .error error) :
    (decompressRead codec kalloc compressionLog sessionp m).1 = m := by
  unfold decompressRead at failed ⊢
  split at failed <;> simp_all

end Caller

theorem decompressRead_accounts_iff (codec : Codec) (kalloc : Kalloc) (compressionLog : Bool)
    (sessionp : SmbSession) (m : Chain) :
    Accounts codec kalloc compressionLog sessionp m ↔
      ∀ d start after, Decompressed codec kalloc compressionLog sessionp m d start after →
        (sessionp.compressionChainingOff = true →
          (originalSize m = 0 → headerOffset m = 0) ∧ ∀ t ∈ (d.turnsFrom start).tail, t.word = 0) ∧
        (sessionp.compressionChainingOff = false → ∀ t ∈ d.turnsFrom start,
          Algorithm.ofWire t.algorithm = some .patternV1 → t.word = 8) := by
  have exact_at (d start after) (done : Decompressed codec kalloc compressionLog sessionp m d start after)
      (chaining : sessionp.compressionChainingOff = false) (t) (visited : t ∈ d.turnsFrom start) :
      d.Exact t ↔ (Algorithm.ofWire t.algorithm = some .patternV1 → t.word = 8) := by
    obtain ⟨next, passed⟩ := done.passes visited
    obtain ⟨-, -, -, -, -, chained⟩ := decompressStart_fields done.started
    apply Decoder.exact_iff _ passed
    rw [chained, chaining]
    rfl
  constructor
  · intro accounts d start after done
    constructor
    · intro off
      have size := accounts.size d start after done
      rw [done.size, if_pos off, if_pos off] at size
      exact done.offsets.mp (Nat.add_left_cancel size)
    · intro chaining t visited
      apply (exact_at d start after done chaining t visited).mp
      exact accounts.consumed d start after done chaining t visited
  · intro regular
    refine ⟨?_, ?_, fun error => decompressRead_unchanged, ?_⟩
    · intro d start after done
      rw [done.size]
      split
      · rename_i off
        rw [done.offsets.mpr ((regular d start after done).1 off)]
      · rfl
    · intro d start after done chaining t visited
      apply (exact_at d start after done chaining t visited).mpr
      exact (regular d start after done).2 chaining t visited
    · intro d start started fuel
      obtain ⟨long, rest, -⟩ := decompressStart_fields started
      have few := Decoder.turns_unread (d := d) fuel start
      rw [rest, List.length_drop] at few
      omega

def longPattern : Bytes :=
  [0xfc, 0x53, 0x4d, 0x42] ++ toLe 4 3 ++ (toLe 2 4 ++ toLe 2 0 ++ toLe 4 16 ++ [0x61, 0, 0, 0] ++ toLe 4 3 ++
    List.replicate 8 0)

theorem decompressRead_longPattern :
    (decompressRead .repeating .zeroed false compressingSession [longPattern]) = ([[0x61, 0x61, 0x61]], .ok ()) ∧
      ¬Accounts .repeating .zeroed false compressingSession [longPattern] := by
  refine ⟨by decide +kernel, fun accounts => ?_⟩
  have done : Decompressed .repeating .zeroed false compressingSession [longPattern] _ _ _ :=
    ⟨rfl, by decide, rfl, rfl⟩
  have used := accounts.consumed _ _ _ done rfl _ List.mem_cons_self _ rfl
  revert used
  decide +kernel

end SmbClient.Compression
