
namespace SmbClient.Lib
variable {α : Type}

def slice (buf : List α) (off len : Nat) : List α := (buf.drop off).take len

/-- `data` written over `buf` from offset `off` on. -/
def overwrite (buf : List α) (off : Nat) (data : List α) : List α :=
  buf.take off ++ data ++ buf.drop (off + data.length)

theorem slice_append_right (a b : List α) (off len : Nat) (past : a.length ≤ off) :
    slice (a ++ b) off len = slice b (off - a.length) len := by
  simp [slice, List.drop_append, List.drop_eq_nil_of_le past]

theorem slice_append_left (a b : List α) (len : Nat) (exact : a.length = len) :
    slice (a ++ b) 0 len = a := by
  subst exact
  simp [slice]

variable {buf data a b : List α} {off n : Nat}

theorem slice_take {len : Nat} (inside : off + len ≤ n) :
    slice (buf.take n) off len = slice buf off len := by
  simp only [slice, List.drop_take, List.take_take]
  rw [Nat.min_eq_left (by omega)]

theorem length_overwrite (fits : off + data.length ≤ buf.length) :
    (overwrite buf off data).length = buf.length := by
  simp only [overwrite, List.length_append, List.length_take, List.length_drop]
  omega

@[simp] theorem overwrite_nil (buf : List α) (off : Nat) : overwrite buf off [] = buf := by
  simp [overwrite]

theorem overwrite_append_right (past : a.length ≤ off) :
    overwrite (a ++ b) off data = a ++ overwrite b (off - a.length) data := by
  have gone : a.drop (off + data.length) = [] := List.drop_eq_nil_of_le (by omega)
  have shift : off + data.length - a.length = off - a.length + data.length := by omega
  simp [overwrite, List.take_append, List.drop_append, List.take_of_length_le past, gone, shift]

theorem overwrite_append_left {old c : List α} (same : old.length = data.length) :
    overwrite (old ++ c) 0 data = data ++ c := by
  simp [overwrite, ← same]

theorem overwrite_append_inside (inside : off + data.length ≤ a.length) :
    overwrite (a ++ b) off data = overwrite a off data ++ b := by
  have front : off - a.length = 0 := by omega
  have back : off + data.length - a.length = 0 := by omega
  simp [overwrite, List.take_append, List.drop_append, front, back]

theorem overwrite_append_across {first second : List α} (meets : off + first.length = a.length) :
    overwrite (a ++ b) off (first ++ second) = overwrite a off first ++ overwrite b 0 second := by
  have front : off - a.length = 0 := by omega
  have gone : a.drop (off + (first.length + second.length)) = [] := List.drop_eq_nil_of_le (by omega)
  have back : off + (first.length + second.length) - a.length = second.length := by omega
  simp [overwrite, List.take_append, List.drop_append, front, gone, back, meets]

theorem overwrite_overwrite_next (fits : off + a.length ≤ buf.length) :
    overwrite (overwrite buf off a) (off + a.length) b = overwrite buf off (a ++ b) := by
  have front : (buf.take off ++ a).length = off + a.length := by
    rw [List.length_append, List.length_take, Nat.min_eq_left (by omega)]
  have kept : (buf.take off ++ a).take (off + a.length) = buf.take off ++ a :=
    List.take_of_length_le (Nat.le_of_eq front)
  have gone : (buf.take off ++ a).drop (off + a.length + b.length) = [] :=
    List.drop_eq_nil_of_le (by omega)
  unfold overwrite
  rw [List.take_append_of_le_length (Nat.le_of_eq front.symm), kept, List.drop_append, gone, front,
    Nat.add_sub_cancel_left, List.drop_drop, List.length_append, Nat.add_assoc]
  simp

theorem drop_overwrite (inside : off ≤ buf.length)
    (after : off + data.length ≤ n) : (overwrite buf off data).drop n = buf.drop n := by
  have front : (buf.take off ++ data).length = off + data.length := by
    rw [List.length_append, List.length_take, Nat.min_eq_left inside]
  rw [overwrite, List.drop_append, List.drop_eq_nil_of_le (by omega), front, List.drop_drop,
    List.nil_append, Nat.add_sub_cancel' after]

theorem slice_overwrite_after {off' len : Nat} (inside : off ≤ buf.length)
    (after : off + data.length ≤ off') : slice (overwrite buf off data) off' len = slice buf off' len := by
  rw [slice, drop_overwrite inside after, slice]

theorem slice_overwrite_same (inside : off ≤ buf.length) :
    slice (overwrite buf off data) off data.length = data := by
  have front : (buf.take off).length = off := by
    rw [List.length_take, Nat.min_eq_left inside]
  rw [slice, overwrite, List.append_assoc, List.drop_append, List.drop_eq_nil_of_le (by omega), front]
  simp

theorem take_overwrite (before : n ≤ off) (inside : off ≤ buf.length) :
    (overwrite buf off data).take n = buf.take n := by
  have front : n - (buf.take off).length = 0 := by
    rw [List.length_take, Nat.min_eq_left inside]
    omega
  rw [overwrite, List.append_assoc, List.take_append, front, List.take_take, Nat.min_eq_left before]
  simp

variable (buf : List α) (off : Nat) (segs : List (List α))

theorem take_overwrite_zero (buf data : List α) : (overwrite buf 0 data).take data.length = data := by
  simp [overwrite]

/-- `data` cut where the segments of `segs` end. -/
def recut : List (List α) → List α → List (List α)
  | [], _ => []
  | seg :: rest, data => data.take seg.length :: recut rest (data.drop seg.length)

theorem recut_flatten (data : List α) : (recut segs data).flatten = data.take segs.flatten.length := by
  induction segs generalizing data with
  | nil => simp [recut]
  | cons seg rest ih =>
    simp only [recut, List.flatten_cons, ih, List.length_append, List.take_add]

theorem recut_append (data extra : List α)
    (enough : segs.flatten.length ≤ data.length) : recut segs (data ++ extra) = recut segs data := by
  induction segs generalizing data with
  | nil => rfl
  | cons seg rest ih =>
    rw [List.flatten_cons, List.length_append] at enough
    have left : rest.flatten.length ≤ (data.drop seg.length).length := by
      rw [List.length_drop]
      omega
    simp only [recut, List.drop_append, List.take_append]
    rw [Nat.sub_eq_zero_of_le (by omega)]
    simpa using ih (data.drop seg.length) left

/-- Copies the segments one after the other into `buf` from `off` on, stopping at the first
non-empty one that does not fit; the second component says whether all were copied. -/
def gather (buf : List α) (off : Nat) : List (List α) → List α × Bool
  | [] => (buf, true)
  | seg :: rest =>
    if seg.length = 0 then gather buf off rest
    else if off + seg.length ≤ buf.length then
      gather (overwrite buf off seg) (off + seg.length) rest
    else (buf, false)

theorem gather_fits (fits : off + segs.flatten.length ≤ buf.length) :
    gather buf off segs = (overwrite buf off segs.flatten, true) := by
  induction segs generalizing buf off with
  | nil => simp [gather]
  | cons seg rest ih =>
    rw [List.flatten_cons, List.length_append] at fits
    by_cases empty : seg.length = 0
    · obtain rfl := List.eq_nil_of_length_eq_zero empty
      simpa [gather] using ih buf off (by simpa using fits)
    · have inside : off + seg.length ≤ buf.length := by omega
      have same : (overwrite buf off seg).length = buf.length := length_overwrite inside
      rw [gather, if_neg empty, if_pos inside, ih _ _ (by omega), overwrite_overwrite_next inside,
        List.flatten_cons]

/-- Copies `buf` from `off` on back over the segments, with the same bound as `gather`. -/
def scatter (buf : List α) (off : Nat) : List (List α) → Option (List (List α))
  | [] => some []
  | seg :: rest =>
    if seg.length = 0 then (scatter buf off rest).map (seg :: ·)
    else if off + seg.length ≤ buf.length then
      (scatter buf (off + seg.length) rest).map (slice buf off seg.length :: ·)
    else none

theorem scatter_eq (fits : off + segs.flatten.length ≤ buf.length) :
    scatter buf off segs = some (recut segs (buf.drop off)) := by
  induction segs generalizing off with
  | nil => rfl
  | cons seg rest ih =>
    rw [List.flatten_cons, List.length_append] at fits
    by_cases empty : seg.length = 0
    · obtain rfl := List.eq_nil_of_length_eq_zero empty
      simp only [List.length_nil, Nat.zero_add] at fits
      simp [scatter, recut, ih off fits]
    · rw [scatter, if_neg empty, if_pos (by omega), ih _ (by omega), recut, List.drop_drop]
      rfl

end SmbClient.Lib
