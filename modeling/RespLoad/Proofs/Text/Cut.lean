import RespLoad.Proofs.Text.Locality
import RespLoad.Proofs.Text.Subparts

/-!
# Cutting text

What is left of a well-formed text when bytes are cut off its end. In front of a byte that continues no
sequence a cut leaves a well-formed text, and nowhere else (`wellFormed_take_iff`). A cut within a character
leaves the start of it, of three bytes at most, behind characters that are whole. Line ends are characters
of their own, so all of them can go.
-/
namespace RespLoad.Utf8

instance (s : Bytes) : Decidable (IsBoundary s) :=
  inferInstanceAs (Decidable (∀ first ∈ s.head?, ¬ (0x80 ≤ first ∧ first ≤ 0xBF)))

theorem isLossy_append_of_boundary (a : Bytes) {b : Bytes} (h : IsBoundary b) :
    isLossy (a ++ b) = (isLossy a || isLossy b) := by
  rw [isLossy, segments_append_of_boundary a h, List.any_append, isLossy, isLossy]

theorem wellFormed_append_of_boundary (a : Bytes) {b : Bytes} (h : IsBoundary b) :
    WellFormed (a ++ b) ↔ WellFormed a ∧ WellFormed b := by
  rw [← isLossy_eq_false_iff, isLossy_append_of_boundary a h, Bool.or_eq_false_iff,
    isLossy_eq_false_iff, isLossy_eq_false_iff]

/-- Behind whole characters stands what would stand there alone. -/
theorem wellFormed_append_iff {a : Bytes} (ha : WellFormed a) (b : Bytes) :
    WellFormed (a ++ b) ↔ WellFormed b := by
  induction ha with
  | nil => exact Iff.rfl
  | @append octets rest hs _ ih =>
    rw [List.append_assoc, ← ih, ← isLossy_eq_false_iff, isLossy, segments_append hs, List.any_cons,
      ← isLossy_eq_false_iff]
    exact Iff.rfl

theorem isBoundary_of_isSequence {octets : Bytes} (h : IsSequence octets) (rest : Bytes) :
    IsBoundary (octets ++ rest) := by
  obtain ⟨row, hrow, hfits⟩ := h
  have hall : ∀ row ∈ table, ∀ range ∈ row.head?, range.last < 0x80 ∨ 0xBF < range.first := by decide
  cases hfits with
  | nil => exact absurd hrow (by decide)
  | @cons range lead ranges trail hlead _ =>
    rintro first hfirst ⟨hlow, hhigh⟩
    obtain rfl : lead = first := Option.some.inj hfirst
    obtain ⟨hrange, hrange'⟩ := contains_iff.mp hlead
    rcases hall _ hrow range rfl with h | h
    · exact absurd hlow (UInt8.not_le.mpr (UInt8.lt_of_le_of_lt hrange' h))
    · exact absurd hhigh (UInt8.not_le.mpr (UInt8.lt_of_lt_of_le h hrange))

theorem isBoundary_of_wellFormed {s : Bytes} (h : WellFormed s) : IsBoundary s := by
  cases h with
  | nil => exact fun first hfirst => by cases hfirst
  | append hs _ => exact isBoundary_of_isSequence hs _

/-- A well-formed text may be cut in front of a byte that continues no sequence, and nowhere else. -/
theorem wellFormed_take_iff {s : Bytes} (h : WellFormed s) (k : Nat) :
    WellFormed (s.take k) ↔ IsBoundary (s.drop k) := by
  rw [← List.take_append_drop k s] at h
  constructor
  · exact fun htake => isBoundary_of_wellFormed ((wellFormed_append_iff htake _).mp h)
  · exact fun hboundary => ((wellFormed_append_of_boundary _ hboundary).mp h).1

theorem IsUnfinished.length_le {octets : Bytes} (h : IsUnfinished octets) : octets.length ≤ 3 := by
  obtain ⟨-, c, hstart, hne⟩ := h
  have hle := hstart.length_le
  have hlt : octets.length ≠ (String.utf8EncodeChar c).length := fun he => hne (hstart.eq_of_length he)
  have hfour := c.utf8Size_le_four
  rw [String.length_utf8EncodeChar] at hle hlt
  omega

/-- A cut leaves whole characters, and behind them at most the start of one more. -/
theorem exists_take_eq {s : Bytes} (h : WellFormed s) (k : Nat) :
    ∃ whole rest, s.take k = whole ++ rest ∧ WellFormed whole ∧ (rest = [] ∨ IsUnfinished rest) := by
  induction h generalizing k with
  | nil => exact ⟨[], [], List.take_nil, .nil, Or.inl rfl⟩
  | @append octets behind hs _ ih =>
    by_cases hk : k < octets.length
    · -- The cut is within the first character, or in front of it.
      obtain ⟨c, rfl⟩ := exists_char_of_isSequence hs
      refine ⟨[], _, rfl, .nil, ?_⟩
      rw [List.take_append_of_le_length (Nat.le_of_lt hk)]
      by_cases hnil : (String.utf8EncodeChar c).take k = []
      · exact Or.inl hnil
      · refine Or.inr ⟨hnil, c, List.take_prefix _ _, fun he => ?_⟩
        have hlength := congrArg List.length he
        rw [List.length_take_of_le (Nat.le_of_lt hk)] at hlength
        omega
    · obtain ⟨whole, rest, htake, hwhole, hrest⟩ := ih (k - octets.length)
      refine ⟨octets ++ whole, rest, ?_, .append hs hwhole, hrest⟩
      rw [List.take_append, List.take_of_length_le (Nat.le_of_not_lt hk), htake, List.append_assoc]

/-- Characters of the ASCII range may be cut off the end. -/
theorem wellFormed_dropTail {s : Bytes} (h : WellFormed s) {p : UInt8 → Bool}
    (hp : ∀ b, p b = true → b < 0x80) : WellFormed (Bytes.dropTail p s) := by
  have hsplit : Bytes.dropTail p s ++ (s.reverse.takeWhile p).reverse = s := by
    rw [Bytes.dropTail, ← List.reverse_append, List.takeWhile_append_dropWhile, List.reverse_reverse]
  have hboundary : IsBoundary (s.reverse.takeWhile p).reverse := by
    rintro first hfirst ⟨hlow, -⟩
    have hmem := List.mem_reverse.mp (List.mem_of_mem_head? hfirst)
    exact absurd hlow (UInt8.not_le.mpr (hp first (List.all_eq_true.mp List.all_takeWhile first hmem)))
  rw [← hsplit] at h
  exact ((wellFormed_append_of_boundary _ hboundary).mp h).1

end RespLoad.Utf8
