import RespLoad.Proofs.Text.Places

/-!
# Decoding is local

A byte string may be cut in front of any byte that continues no sequence, and the two parts decoded
apart. To the left of such a cut an unfinished sequence stops at the end of the string, or at the byte
behind the cut if the parts are decoded together, and both count the same octets as its start
(`matched_append_of_boundary`). Nothing is said of cuts in front of a continuation octet.
-/
namespace RespLoad

namespace Utf8

/-- The string is empty or begins with an octet that continues no sequence. -/
def IsBoundary (s : Bytes) : Prop := ∀ first ∈ s.head?, ¬ (0x80 ≤ first ∧ first ≤ 0xBF)

/-- Whatever the lead octet, only octets of the continuation range may follow. -/
theorem continues_of_trail? {lead b : UInt8} {ranges : List OctetRange} {range : OctetRange}
    (h : trail? lead = some ranges) (hr : range ∈ ranges) (hb : range.contains b = true) :
    0x80 ≤ b ∧ b ≤ 0xBF := by
  obtain ⟨first, hm, _⟩ := exists_row_of_trail? h
  have hall : ∀ row ∈ table, ∀ range ∈ row.tail,
      0x80 ≤ range.first ∧ range.last ≤ 0xBF := by decide
  obtain ⟨hlow, hhigh⟩ := hall _ hm range hr
  simp only [OctetRange.contains, Bool.and_eq_true, decide_eq_true_eq] at hb
  exact ⟨UInt8.le_trans hlow hb.1, UInt8.le_trans hb.2 hhigh⟩

/-- Octets are counted up to the end of the string or to a boundary, which is the same. -/
theorem matched_append_of_boundary {ranges : List OctetRange}
    (hranges : ∀ range ∈ ranges, ∀ b, range.contains b = true → 0x80 ≤ b ∧ b ≤ 0xBF) (s : Bytes)
    {behind : Bytes} (hb : IsBoundary behind) :
    matched ranges (s ++ behind) = matched ranges s := by
  induction ranges generalizing s with
  | nil => simp only [matched]
  | cons range ranges ih =>
    obtain ⟨hrange, hmore⟩ := List.forall_mem_cons.mp hranges
    cases s with
    | cons x s => rw [List.cons_append, matched, matched, ih hmore]
    | nil =>
      cases behind with
      | nil => rfl
      | cons y behind =>
        have hy : ¬ range.contains y = true := fun h => hb y rfl (hrange y h)
        simp only [List.nil_append, matched, if_neg hy]

theorem trailLength_append (lead : UInt8) (rest : Bytes) {behind : Bytes}
    (hb : IsBoundary behind) : trailLength lead (rest ++ behind) = trailLength lead rest := by
  unfold trailLength
  cases ht : trail? lead with
  | none => rfl
  | some ranges =>
    exact matched_append_of_boundary (fun range hr b => continues_of_trail? ht hr) rest hb

theorem segment_append (lead : UInt8) (rest : Bytes) {behind : Bytes} (hb : IsBoundary behind) :
    segment lead (rest ++ behind) = segment lead rest := by
  unfold segment
  rw [trailLength_append lead rest hb, List.take_append_of_le_length (trailLength_le lead rest)]

/-- No segment reaches over a boundary. -/
theorem segments_append_of_boundary (s : Bytes) {behind : Bytes} (hb : IsBoundary behind) :
    segments (s ++ behind) = segments s ++ segments behind := by
  fun_induction segments s with
  | case1 => rfl
  | case2 lead rest ih =>
    rw [List.cons_append, segments, segment_append lead rest hb, trailLength_append lead rest hb,
      List.drop_append_of_le_length (trailLength_le lead rest), ih, List.cons_append]

end Utf8

/-- Decoding is local: in front of a byte that continues no sequence the parts of a string are decoded
as if they stood alone, also where the first ends in the middle of a sequence. -/
theorem Reply.decode_append_of_boundary (a : Bytes) {b : Bytes} (h : Utf8.IsBoundary b) :
    (Reply.decode (a ++ b)).text = (Reply.decode a).text ++ (Reply.decode b).text ∧
      ((Reply.decode (a ++ b)).lossy = true ↔
        (Reply.decode a).lossy = true ∨ (Reply.decode b).lossy = true) := by
  have hsegments := Utf8.segments_append_of_boundary a h
  constructor
  · simp only [Reply.decode, Utf8.decode, hsegments, List.flatMap_append]
  · simp only [Reply.decode, Utf8.isLossy, hsegments, List.any_append, Bool.or_eq_true]

/-- Two octets of a euro sign in front of a plus sign. -/
theorem Reply.decode_append_of_boundary_truncated :
    let a : Bytes := [0x2B, 0xE2, 0x82]
    let b : Bytes := [0x2B, 0xC3, 0xA9]
    Utf8.IsBoundary b ∧ (Reply.decode (a ++ b)).text = 0x2B :: Utf8.replacement ++ b ∧
      (Reply.decode (a ++ b)).lossy = true := by
  intro a b
  have hb : Utf8.IsBoundary b := by
    intro first hf
    obtain rfl : 0x2B = first := Option.some.inj hf
    decide
  have hfirst : Reply.decode a = ⟨0x2B :: Utf8.replacement, .simpleString, true⟩ := by cbv
  have hsecond : Reply.decode b = ⟨b, .simpleString, false⟩ := by cbv
  obtain ⟨htext, hlossy⟩ := Reply.decode_append_of_boundary a hb
  rw [hfirst, hsecond] at htext hlossy
  exact ⟨hb, htext, hlossy.mpr (Or.inl rfl)⟩

end RespLoad
