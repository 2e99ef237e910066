import Mathlib.Tactic.ByContra
import RespLoad.Proofs.Text.WellFormed
import RespLoad.Reply

/-!
# What decoding keeps

The decoder finds a well-formed sequence wherever one begins (`segments_append`), and what it passes
on is a well-formed sequence or the replacement character, which is one. So its text is well-formed,
a well-formed text passes unchanged, and decoding twice is decoding once.
-/
namespace RespLoad

namespace Utf8

theorem exists_row_of_trail? {lead : UInt8} {ranges : List OctetRange}
    (h : trail? lead = some ranges) :
    ∃ first, first :: ranges ∈ table ∧ first.contains lead = true := by
  have hall : ∀ n < 256, ∀ found, trail? (UInt8.ofNat n) = some found →
      table.any (fun row => row.tail == found &&
        row.head?.any fun first => first.contains (UInt8.ofNat n)) = true := by
    decide +kernel
  have hrow := hall lead.toNat lead.toNat_lt ranges
  rw [UInt8.ofNat_toNat, List.any_eq_true] at hrow
  obtain ⟨row, hm, hr⟩ := hrow h
  cases row with
  | nil => exact absurd hm (by decide)
  | cons first more =>
    simp only [List.tail_cons, List.head?_cons, Option.any_some, Bool.and_eq_true, beq_iff_eq] at hr
    exact ⟨first, hr.1 ▸ hm, hr.2⟩

theorem trail?_of_mem_table {lead : UInt8} {first : OctetRange} {ranges : List OctetRange}
    (hm : first :: ranges ∈ table) (hc : first.contains lead = true) :
    trail? lead = some ranges := by
  have hall : ∀ row ∈ table, ∀ n < 256, row.head?.any (·.contains (UInt8.ofNat n)) = true →
      trail? (UInt8.ofNat n) = some row.tail := by
    decide +kernel
  have h := hall _ hm lead.toNat lead.toNat_lt
  rw [UInt8.ofNat_toNat] at h
  exact h hc

theorem matched_append {ranges : List OctetRange} {octets : Bytes} (h : Fits ranges octets)
    (rest : Bytes) : matched ranges (octets ++ rest) = ranges.length := by
  induction h with
  | nil => simp [matched]
  | cons hb _ ih => rw [List.cons_append, matched, if_pos hb, ih, List.length_cons]

theorem fits_take_of_matched {ranges : List OctetRange} {s : Bytes}
    (h : matched ranges s = ranges.length) : Fits ranges (s.take ranges.length) := by
  fun_induction matched ranges s with
  | case1 range ranges b rest hb ih =>
    rw [List.length_cons, Nat.add_right_cancel_iff] at h
    exact .cons hb (ih h)
  | case2 range ranges b rest hb =>
    rw [List.length_cons] at h
    omega
  | case3 ranges s hne =>
    obtain rfl : ranges = [] := List.eq_nil_of_length_eq_zero h.symm
    exact .nil

theorem segment_octets (lead : UInt8) (rest : Bytes) :
    (segment lead rest).octets = lead :: rest.take (trailLength lead rest) := by
  unfold segment
  split
  · rfl
  · dsimp only
    split <;> rfl

theorem flatMap_octets_segments (s : Bytes) : (segments s).flatMap Segment.octets = s := by
  fun_induction segments s with
  | case1 => rfl
  | case2 lead rest ih =>
    rw [List.flatMap_cons, segment_octets, ih, List.cons_append, List.take_append_drop]

theorem isSequence_of_segment {lead : UInt8} {rest octets : Bytes}
    (h : segment lead rest = .scalar octets) : IsSequence octets := by
  cases ht : trail? lead with
  | none => simp only [segment, ht] at h; cases h
  | some ranges =>
    obtain ⟨first, hm, hc⟩ := exists_row_of_trail? ht
    simp only [segment, trailLength, ht] at h
    by_cases hl : matched ranges rest = ranges.length
    · rw [if_pos hl, hl] at h
      cases h
      exact ⟨_, hm, .cons hc (fits_take_of_matched hl)⟩
    · rw [if_neg hl] at h
      cases h

theorem isSequence_of_mem_segments {s octets : Bytes} (h : .scalar octets ∈ segments s) :
    IsSequence octets := by
  fun_induction segments s with
  | case1 => cases h
  | case2 lead rest ih =>
    rcases List.mem_cons.mp h with hs | hr
    · exact isSequence_of_segment hs.symm
    · exact ih hr

/-- Where a sequence begins, the decoder takes it whole and nothing else. -/
theorem segments_append {octets : Bytes} (h : IsSequence octets) (rest : Bytes) :
    segments (octets ++ rest) = .scalar octets :: segments rest := by
  obtain ⟨row, hm, hfits⟩ := h
  cases hfits with
  | nil => exact absurd hm (by decide)
  | @cons first lead ranges trail hc htrail =>
    have ht := trail?_of_mem_table hm hc
    have hl : trail.length = ranges.length := htrail.length_eq.symm
    have hn : trailLength lead (trail ++ rest) = trail.length := by
      simp only [trailLength, ht, matched_append htrail rest, hl]
    rw [List.cons_append, segments, segment, hn, List.take_left, List.drop_left]
    simp only [ht, if_pos hl]

theorem isLossy_of_wellFormed {s : Bytes} (h : WellFormed s) : isLossy s = false := by
  induction h with
  | nil => rw [isLossy, segments]; rfl
  | append hs _ ih =>
    rw [isLossy, segments_append hs, List.any_cons]
    exact ih

theorem eq_scalar_of_not_stray {segment : Segment} (h : segment.isStray = false) :
    segment = .scalar segment.octets := by
  cases segment with
  | scalar octets => rfl
  | stray octets => cases h

theorem decode_of_not_lossy {s : Bytes} (h : isLossy s = false) : decode s = s := by
  rw [isLossy, List.any_eq_false] at h
  have hd : ∀ segment ∈ segments s, segment.decoded = segment.octets := by
    intro segment hs
    rw [eq_scalar_of_not_stray (Bool.eq_false_iff.mpr (h segment hs))]
    rfl
  rw [decode, List.flatMap_congr hd]
  exact flatMap_octets_segments s

theorem isSequence_replacement : IsSequence replacement := by
  refine ⟨_, List.mem_of_getElem? (i := 5) rfl, ?_⟩
  exact .cons rfl (.cons rfl (.cons rfl .nil))

/-- Every piece of the text is a sequence: one that was there, or the replacement character. -/
theorem wellFormed_decode (s : Bytes) : WellFormed (decode s) := by
  rw [decode, List.flatMap_def]
  apply wellFormed_flatten
  intro piece hp
  obtain ⟨segment, hs, rfl⟩ := List.mem_map.mp hp
  cases segment with
  | scalar octets => exact isSequence_of_mem_segments hs
  | stray octets => exact isSequence_replacement

theorem isLossy_eq_false_iff {s : Bytes} : isLossy s = false ↔ WellFormed s := by
  constructor
  · intro h
    have hd := wellFormed_decode s
    rwa [decode_of_not_lossy h] at hd
  · exact isLossy_of_wellFormed

instance (s : Bytes) : Decidable (WellFormed s) := decidable_of_iff _ isLossy_eq_false_iff

theorem decode_eq_self_iff {s : Bytes} : decode s = s ↔ WellFormed s := by
  constructor
  · intro h
    have hd := wellFormed_decode s
    rwa [h] at hd
  · exact fun h => decode_of_not_lossy (isLossy_of_wellFormed h)

/-- An octet of the ASCII range is a segment of its own, so a stray piece starts above it. -/
theorem high_of_stray {lead : UInt8} {rest : Bytes} (h : (segment lead rest).isStray = true) :
    0x80 ≤ lead := by
  by_contra hlow
  have ht : trail? lead = some [] := if_pos (UInt8.not_le.mp hlow)
  rw [segment, ht] at h
  simp [trailLength, ht, matched, Segment.isStray] at h

end Utf8

namespace ReplyKind

theorem ofBytes_of_high {lead : UInt8} (h : 0x80 ≤ lead) (rest : Bytes) :
    ofBytes (lead :: rest) = .unknown := by
  have hne : ∀ b : UInt8, b < 0x80 → ¬ lead = b := by
    rintro b hb rfl
    exact absurd h (UInt8.not_le.mpr hb)
  rw [ofBytes, if_neg (hne 43 (by decide)), if_neg (hne 45 (by decide)),
    if_neg (hne 58 (by decide)), if_neg (hne 36 (by decide)), if_neg (hne 42 (by decide))]

/-- The first byte tells the kind, and decoding changes it only where it is no ASCII character. -/
theorem ofBytes_decode (s : Bytes) : ofBytes (Utf8.decode s) = ofBytes s := by
  cases s with
  | nil => rw [Utf8.decode, Utf8.segments]; rfl
  | cons lead rest =>
    rw [Utf8.decode, Utf8.segments, List.flatMap_cons]
    cases hs : Utf8.segment lead rest with
    | scalar octets =>
      have ho := Utf8.segment_octets lead rest
      rw [hs] at ho
      obtain rfl : octets = _ := ho
      rfl
    | stray octets =>
      have hh := Utf8.high_of_stray (by rw [hs]; rfl)
      rw [ofBytes_of_high hh rest]
      rfl

end ReplyKind

/-- The text of a reply is well-formed: it encodes a succession of scalar values. A reply is
unchanged exactly where it was well-formed, which is where nothing is reported as replaced, and its
text reads again as itself and as the same kind of reply. -/
theorem Reply.decode_text (bytes : Bytes) :
    let reply := Reply.decode bytes
    let again := Reply.decode reply.text
    Utf8.WellFormed reply.text ∧
      (∃ chars : List Char, reply.text = chars.flatMap String.utf8EncodeChar) ∧
      (reply.lossy = false ↔ reply.text = bytes) ∧
      (reply.text = bytes ↔ Utf8.WellFormed bytes) ∧
      again.text = reply.text ∧ again.lossy = false ∧ again.kind = reply.kind := by
  intro reply again
  have hw : Utf8.WellFormed reply.text := Utf8.wellFormed_decode bytes
  refine ⟨hw, Utf8.wellFormed_iff_chars.mp hw, ?_, Utf8.decode_eq_self_iff, ?_, ?_, ?_⟩
  · exact Utf8.isLossy_eq_false_iff.trans Utf8.decode_eq_self_iff.symm
  · exact Utf8.decode_eq_self_iff.mpr hw
  · exact Utf8.isLossy_of_wellFormed hw
  · exact ReplyKind.ofBytes_decode bytes

end RespLoad
