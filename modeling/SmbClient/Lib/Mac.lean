import SmbClient.Lib.LittleEndian

namespace SmbClient.Lib
variable {α : Type}

/-- A streaming digest: cutting its input into several calls does not change it. -/
structure Digest (α : Type) where
  Ctx : Type
  update : Ctx → List α → Ctx
  update_nil : ∀ ctx, update ctx [] = ctx
  update_append : ∀ ctx a b, update ctx (a ++ b) = update (update ctx a) b

/-- The first `n` elements, one call for each non-empty segment, with the segments that are left;
`none` when they run out before. -/
def Digest.feed (d : Digest α) : d.Ctx → List (List α) → Nat → Option (d.Ctx × List (List α))
  | ctx, segs, 0 => some (ctx, segs)
  | _, [], _ + 1 => none
  | ctx, seg :: rest, n + 1 =>
    if seg.length = 0 then d.feed ctx rest (n + 1)
    else if seg.length < n + 1 then d.feed (d.update ctx seg) rest (n + 1 - seg.length)
    else some (d.update ctx (seg.take (n + 1)), seg.drop (n + 1) :: rest)

section
variable (d : Digest α) (ctx : d.Ctx) (segs : List (List α))

theorem Digest.feed_ok (n : Nat) (enough : n ≤ segs.flatten.length) :
    ∃ rest, d.feed ctx segs n = some (d.update ctx (segs.flatten.take n), rest) ∧
      rest.flatten = segs.flatten.drop n := by
  induction ctx, segs, n using Digest.feed.induct with
  | case1 ctx segs => exact ⟨segs, by simp [feed, d.update_nil], rfl⟩
  | case2 ctx n => simp at enough
  | case3 ctx seg rest n empty ih =>
    obtain rfl := List.eq_nil_of_length_eq_zero empty
    simpa [feed] using ih (by simpa using enough)
  | case4 ctx seg rest n nonempty short ih =>
    rw [List.flatten_cons, List.length_append] at enough
    obtain ⟨left, fed, same⟩ := ih (by omega)
    have whole : seg.take (n + 1) = seg := List.take_of_length_le (Nat.le_of_lt short)
    have gone : seg.drop (n + 1) = [] := List.drop_eq_nil_of_le (Nat.le_of_lt short)
    refine ⟨left, ?_, ?_⟩
    · rw [feed, if_neg nonempty, if_pos short, fed, List.flatten_cons, List.take_append, whole,
        d.update_append]
    · rw [same, List.flatten_cons, List.drop_append, gone, List.nil_append]
  | case5 ctx seg rest n nonempty long =>
    have inside : n + 1 - seg.length = 0 := by omega
    refine ⟨seg.drop (n + 1) :: rest, ?_, ?_⟩
    · rw [feed, if_neg nonempty, if_neg long, List.flatten_cons, List.take_append, inside,
        List.take_zero, List.append_nil]
    · rw [List.flatten_cons, List.flatten_cons, List.drop_append, inside, List.drop_zero]

theorem Digest.feed_short (n : Nat) (short : segs.flatten.length < n) : d.feed ctx segs n = none := by
  induction ctx, segs, n using Digest.feed.induct with
  | case1 ctx segs => simp at short
  | case2 ctx n => rfl
  | case3 ctx seg rest n empty ih =>
    obtain rfl := List.eq_nil_of_length_eq_zero empty
    simpa [feed] using ih (by simpa using short)
  | case4 ctx seg rest n nonempty few ih =>
    rw [List.flatten_cons, List.length_append] at short
    rw [feed, if_neg nonempty, if_pos few, ih (by omega)]
  | case5 ctx seg rest n nonempty long =>
    rw [List.flatten_cons, List.length_append] at short
    omega

def Digest.feedAll (d : Digest α) (ctx : d.Ctx) : List (List α) → d.Ctx
  | [] => ctx
  | seg :: rest => d.feedAll (if 0 < seg.length then d.update ctx seg else ctx) rest

theorem Digest.feedAll_eq : d.feedAll ctx segs = d.update ctx segs.flatten := by
  induction segs generalizing ctx with
  | nil => rw [feedAll, List.flatten_nil, d.update_nil]
  | cons seg rest ih =>
    rw [feedAll, ih, List.flatten_cons, d.update_append]
    by_cases some : 0 < seg.length
    · rw [if_pos some]
    · obtain rfl := List.eq_nil_of_length_eq_zero (Nat.eq_zero_of_not_pos some)
      rw [if_neg some, d.update_nil]

end

def Digest.unit : Digest α where
  Ctx := Unit
  update _ _ := ()
  update_nil _ := rfl
  update_append _ _ _ := rfl

def Digest.recorder : Digest α where
  Ctx := List α
  update ctx data := ctx ++ data
  update_nil ctx := List.append_nil ctx
  update_append ctx a b := (List.append_assoc ctx a b).symm

/-- A streaming digest whose calls report success. -/
structure Absorber (α : Type) where
  Ctx : Type
  absorb : Ctx → List α → Option Ctx
  absorb_append : ∀ ctx a b, absorb ctx (a ++ b) = (absorb ctx a).bind (absorb · b)

/-- One call for each segment until `n` elements have been given or no segment is left; without
a limit when `n` is zero from the start. -/
def Absorber.feedUpTo (d : Absorber α) (ctx : d.Ctx) : List (List α) → Nat → Option d.Ctx
  | [], _ => some ctx
  | seg :: rest, n =>
    let data := if 0 < n ∧ n < seg.length then seg.take n else seg
    (d.absorb ctx data).bind fun next =>
      if 0 < n ∧ n - data.length = 0 then some next else d.feedUpTo next rest (n - data.length)

section
variable (d : Absorber α) (ctx : d.Ctx) (seg : List α) (rest : List (List α))

theorem Absorber.feedUpTo_within {n : Nat} (limited : 0 < n) (within : n ≤ seg.length) :
    d.feedUpTo ctx (seg :: rest) n = d.absorb ctx (seg.take n) := by
  have data : (if 0 < n ∧ n < seg.length then seg.take n else seg) = seg.take n := by
    by_cases exact : n = seg.length
    · rw [if_neg (by omega), exact, List.take_length]
    · rw [if_pos ⟨limited, by omega⟩]
  have done : 0 < n ∧ n - (seg.take n).length = 0 := by
    rw [List.length_take]
    omega
  simp only [feedUpTo, data, if_pos done]
  exact Option.bind_fun_some _

theorem Absorber.feedUpTo_beyond {n : Nat} (beyond : seg.length < n) : d.feedUpTo ctx (seg :: rest) n =
      (d.absorb ctx seg).bind fun next => d.feedUpTo next rest (n - seg.length) := by
  have data : (if 0 < n ∧ n < seg.length then seg.take n else seg) = seg := if_neg (by omega)
  have more : ¬(0 < n ∧ n - seg.length = 0) := by omega
  simp only [feedUpTo, data, if_neg more]

theorem Absorber.feedUpTo_eq (n : Nat) (limited : 0 < n) :
    d.feedUpTo ctx (seg :: rest) n = d.absorb ctx ((seg :: rest).flatten.take n) := by
  induction rest generalizing ctx seg n with
  | nil =>
    by_cases within : n ≤ seg.length
    · rw [d.feedUpTo_within ctx seg [] limited within]
      simp
    · have whole : seg.take n = seg := List.take_of_length_le (by omega)
      rw [d.feedUpTo_beyond ctx seg [] (by omega)]
      simp [feedUpTo, whole]
  | cons second rest ih =>
    rw [List.flatten_cons, List.take_append]
    by_cases within : n ≤ seg.length
    · rw [d.feedUpTo_within ctx seg _ limited within, Nat.sub_eq_zero_of_le within, List.take_zero,
        List.append_nil]
    · rw [d.feedUpTo_beyond ctx seg _ (by omega), List.take_of_length_le (by omega : seg.length ≤ n),
        d.absorb_append]
      congr 1
      funext next
      exact ih next second (n - seg.length) (by omega)

end

def Absorber.recorder : Absorber α where
  Ctx := List α
  absorb ctx data := some (ctx ++ data)
  absorb_append ctx a b := by simp

/-- A keyed message authentication code over a library that reports success. -/
structure Mac where
  absorber : Absorber UInt8
  init : (key iv : Bytes) → Option absorber.Ctx
  final : absorber.Ctx → Option Bytes
  final_length : ∀ ctx mac, final ctx = some mac → mac.length = 16

def Mac.compute (mac : Mac) (key iv data : Bytes) : Option Bytes :=
  (mac.init key iv).bind fun ctx => (mac.absorber.absorb ctx data).bind mac.final

def checksum (parts : Bytes) : Bytes :=
  toLe 16 (parts.foldl (fun sum byte => sum * 257 + byte.toNat + 1) 0)

theorem length_checksum (parts : Bytes) : (checksum parts).length = 16 := length_toLe 16 _

/-- `checksum` over key, vector and message: the laws of `Mac` can be met. -/
def Mac.checksum : Mac where
  absorber := .recorder
  init key iv := some (key ++ iv)
  final ctx := some (Lib.checksum ctx)
  final_length ctx mac result := by
    rw [Option.some.injEq] at result
    exact result ▸ length_checksum _

end SmbClient.Lib
