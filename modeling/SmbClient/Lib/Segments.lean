import SmbClient.Lib.Buffer

namespace SmbClient.Lib
variable {α : Type}

/-- Sets `n` elements to `value`, from offset `off` of the first segment on. -/
def fillRun (value : α) : List (List α) → Nat → Nat → Option (List (List α))
  | segs, _, 0 => some segs
  | [], _, _ + 1 => none
  | seg :: rest, off, n + 1 =>
    let count := min (n + 1) (seg.length - off)
    (fillRun value rest 0 (n + 1 - count)).map (overwrite seg off (List.replicate count value) :: ·)

/-- Sets `n` elements to `value`, from offset `off` of the whole string on. -/
def fillAt (value : α) : List (List α) → Nat → Nat → Option (List (List α))
  | [], _, _ => none
  | seg :: rest, off, n =>
    if off < seg.length then fillRun value (seg :: rest) off n
    else (fillAt value rest (off - seg.length) n).map (seg :: ·)

theorem fillRun_flatten (value : α) (segs : List (List α)) (off n : Nat) (inside : off ≤ (segs.headD []).length) :
    (fillRun value segs off n).map List.flatten =
      if off + n ≤ segs.flatten.length then
        some (overwrite segs.flatten off (List.replicate n value))
      else none := by
  induction segs, off, n using fillRun.induct with
  | case1 segs off =>
    have within : off + 0 ≤ segs.flatten.length := by
      cases segs with
      | nil => exact inside
      | cons seg rest =>
        rw [List.flatten_cons, List.length_append]
        exact Nat.le_add_right_of_le inside
    rw [if_pos within]
    simp [fillRun]
  | case2 off n =>
    have outside : ¬off + (n + 1) ≤ ([] : List (List α)).flatten.length := Nat.not_succ_le_zero _
    rw [if_neg outside]
    rfl
  | case3 seg rest off n count ih =>
    replace inside : off ≤ seg.length := inside
    have tail := ih (Nat.zero_le _)
    have size : count = min (n + 1) (seg.length - off) := rfl
    have step : (fillRun value (seg :: rest) off (n + 1)).map List.flatten =
        ((fillRun value rest 0 (n + 1 - count)).map List.flatten).map
          (overwrite seg off (List.replicate count value) ++ ·) := by
      simp only [fillRun, ← size, Option.map_map]
      rfl
    rw [step, tail, List.flatten_cons, List.length_append]
    by_cases fits : n + 1 ≤ seg.length - off
    · have all : count = n + 1 := by omega
      rw [if_pos (by omega), if_pos (by omega), all, Nat.sub_self,
        overwrite_append_inside (by rw [List.length_replicate]; omega)]
      simp
    · have part : off + (List.replicate count value).length = seg.length := by
        rw [List.length_replicate]
        omega
      have split : List.replicate (n + 1) value =
          List.replicate count value ++ List.replicate (n + 1 - count) value := by
        rw [List.replicate_append_replicate, Nat.add_sub_cancel' (by omega)]
      by_cases enough : 0 + (n + 1 - count) ≤ rest.flatten.length
      · rw [if_pos enough, if_pos (by omega), split, overwrite_append_across part]
        rfl
      · rw [if_neg enough, if_neg (by omega)]
        rfl

theorem fillAt_flatten (value : α) (segs : List (List α)) (off n : Nat) (some' : 0 < n) :
    (fillAt value segs off n).map List.flatten =
      if off + n ≤ segs.flatten.length then
        some (overwrite segs.flatten off (List.replicate n value))
      else none := by
  induction segs generalizing off with
  | nil =>
    have outside : ¬off + n ≤ ([] : List (List α)).flatten.length := by
      rw [List.flatten_nil, List.length_nil]
      omega
    rw [if_neg outside]
    rfl
  | cons seg rest ih =>
    by_cases here : off < seg.length
    · rw [fillAt, if_pos here]
      exact fillRun_flatten value (seg :: rest) off n (Nat.le_of_lt here)
    · have step : (fillAt value (seg :: rest) off n).map List.flatten =
          ((fillAt value rest (off - seg.length) n).map List.flatten).map (seg ++ ·) := by
        rw [fillAt, if_neg here, Option.map_map, Option.map_map]
        rfl
      rw [step, ih, List.flatten_cons, List.length_append]
      by_cases enough : off - seg.length + n ≤ rest.flatten.length
      · rw [if_pos enough, if_pos (by omega), overwrite_append_right (by omega)]
        rfl
      · rw [if_neg enough, if_neg (by omega)]
        rfl

end SmbClient.Lib
