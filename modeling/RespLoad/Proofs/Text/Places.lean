import RespLoad.Proofs.Text.Decode

/-!
# Decoding by places

The decoder as a walk along the places of a byte string, in which every octet is asked for by its place
and asking behind the end fails. The walk never fails: it finds the segments of the decoder
(`segmentsFrom?_eq`). That it ends is because no segment is empty.
-/
namespace RespLoad.Utf8

/-- How many octets from a place on fall into the ranges, one after the other. Where the string ends,
so does the count. -/
def matchedAt? (s : Bytes) : List OctetRange → Nat → Option Nat
  | [], _ => some 0
  | range :: ranges, place =>
    if s.length ≤ place then some 0
    else match s[place]? with
      | none => none
      | some b =>
        if range.contains b then (matchedAt? s ranges (place + 1)).map (· + 1) else some 0

/-- So many octets from a place on. -/
def octetsAt? (s : Bytes) (place : Nat) : Nat → Option Bytes
  | 0 => some []
  | count + 1 =>
    match s[place]? with
    | none => none
    | some b => (octetsAt? s (place + 1) count).map (b :: ·)

/-- The segment that starts at a place. -/
def segmentAt? (s : Bytes) (place : Nat) : Option Segment :=
  match s[place]? with
  | none => none
  | some lead =>
    match trail? lead with
    | none => (octetsAt? s place 1).map .stray
    | some ranges =>
      match matchedAt? s ranges (place + 1) with
      | none => none
      | some count =>
        (octetsAt? s place (count + 1)).map
          (if count = ranges.length then .scalar else .stray)

theorem octets_ne_nil_of_octetsAt? {s octets : Bytes} {place count : Nat}
    (h : octetsAt? s place (count + 1) = some octets) : octets ≠ [] := by
  rw [octetsAt?] at h
  split at h
  · cases h
  · obtain ⟨more, _, rfl⟩ := Option.map_eq_some_iff.mp h
    exact List.cons_ne_nil _ _

/-- The walk always advances. -/
theorem octets_ne_nil_of_segmentAt? {s : Bytes} {place : Nat} {segment : Segment}
    (h : segmentAt? s place = some segment) : segment.octets ≠ [] := by
  unfold segmentAt? at h
  split at h
  · cases h
  split at h
  · obtain ⟨octets, ho, rfl⟩ := Option.map_eq_some_iff.mp h
    exact octets_ne_nil_of_octetsAt? ho
  split at h
  · cases h
  · obtain ⟨octets, ho, rfl⟩ := Option.map_eq_some_iff.mp h
    split <;> exact octets_ne_nil_of_octetsAt? ho

/-- The segments from a place on. -/
def segmentsFrom? (s : Bytes) (place : Nat) : Option (List Segment) :=
  if s.length ≤ place then some []
  else match _here : segmentAt? s place with
    | none => none
    | some segment => (segmentsFrom? s (place + segment.octets.length)).map (segment :: ·)
termination_by s.length - place
decreasing_by
  have := List.length_pos_iff.mpr (octets_ne_nil_of_segmentAt? _here)
  omega

theorem matchedAt?_eq (s : Bytes) (ranges : List OctetRange) (place : Nat) :
    matchedAt? s ranges place = some (matched ranges (s.drop place)) := by
  induction ranges generalizing place with
  | nil => rfl
  | cons range ranges ih =>
    by_cases hend : s.length ≤ place
    · rw [matchedAt?, if_pos hend, List.drop_eq_nil_of_le hend]
      rfl
    · have hlt : place < s.length := Nat.lt_of_not_le hend
      rw [matchedAt?, if_neg hend, List.getElem?_eq_getElem hlt, List.drop_eq_getElem_cons hlt,
        matched]
      dsimp only
      split
      · rw [ih, Option.map_some]
      · rfl

theorem octetsAt?_eq {s : Bytes} {place count : Nat} (h : place + count ≤ s.length) :
    octetsAt? s place count = some ((s.drop place).take count) := by
  induction count generalizing place with
  | zero => rfl
  | succ count ih =>
    have hlt : place < s.length := by omega
    rw [octetsAt?, List.getElem?_eq_getElem hlt, List.drop_eq_getElem_cons hlt,
      List.take_succ_cons]
    dsimp only
    rw [ih (by omega), Option.map_some]

theorem matched_le (ranges : List OctetRange) (s : Bytes) :
    matched ranges s ≤ ranges.length ∧ matched ranges s ≤ s.length := by
  fun_induction matched ranges s with
  | case1 range ranges b rest hb ih =>
    simp only [List.length_cons]
    omega
  | case2 range ranges b rest hb => exact ⟨Nat.zero_le _, Nat.zero_le _⟩
  | case3 ranges s _ => exact ⟨Nat.zero_le _, Nat.zero_le _⟩

theorem trailLength_le (lead : UInt8) (rest : Bytes) : trailLength lead rest ≤ rest.length := by
  unfold trailLength
  split
  · exact Nat.zero_le _
  · exact (matched_le _ rest).2

/-- Before the end, the segment at a place is found without looking behind the end. -/
theorem segmentAt?_eq {s : Bytes} {place : Nat} (h : place < s.length) :
    segmentAt? s place = some (segment s[place] (s.drop (place + 1))) := by
  have hcons := List.drop_eq_getElem_cons h
  cases ht : trail? s[place] with
  | none =>
    simp only [segmentAt?, List.getElem?_eq_getElem h, segment, trailLength, ht]
    rw [octetsAt?_eq (by omega), hcons, List.take_succ_cons, Option.map_some]
  | some ranges =>
    have hle := (matched_le ranges (s.drop (place + 1))).2
    rw [List.length_drop] at hle
    simp only [segmentAt?, List.getElem?_eq_getElem h, segment, trailLength, ht, matchedAt?_eq]
    rw [octetsAt?_eq (by omega), hcons, List.take_succ_cons, Option.map_some]
    split <;> rfl

/-- The walk from a place finds the segments of what stands from there on. -/
theorem segmentsFrom?_eq (s : Bytes) (place : Nat) :
    segmentsFrom? s place = some (segments (s.drop place)) := by
  fun_induction segmentsFrom? s place with
  | case1 place hend => rw [List.drop_eq_nil_of_le hend, segments]
  | case2 place hend hnone =>
    rw [segmentAt?_eq (Nat.lt_of_not_le hend)] at hnone
    cases hnone
  | case3 place hend found hfound ih =>
    have hlt : place < s.length := Nat.lt_of_not_le hend
    obtain rfl := Option.some.inj ((segmentAt?_eq hlt).symm.trans hfound)
    have hlength := congrArg List.length (segment_octets s[place] (s.drop (place + 1)))
    rw [List.length_cons, List.length_take_of_le (trailLength_le _ _)] at hlength
    rw [ih, hlength, List.drop_eq_getElem_cons hlt, segments, Option.map_some, List.drop_drop]
    congr 4
    omega

end RespLoad.Utf8
