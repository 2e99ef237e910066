import Mathlib.Data.List.Forall2
import RespLoad.Text.Utf8

/-!
# Well-formed UTF-8

The table of well-formed byte sequences of the Unicode standard, row by row, and byte strings made
of such sequences. The table is stated apart from the decoder. Its rows are exactly the encodings of
the scalar values (`wellFormed_iff_chars`), so there is no overlong form, no surrogate and nothing
above the last code point among them.
-/
namespace RespLoad.Utf8

/-- The rows of the table of well-formed sequences, with the range of each octet. -/
def table : List (List OctetRange) :=
  [[⟨0x00, 0x7F⟩],
    [⟨0xC2, 0xDF⟩, ⟨0x80, 0xBF⟩],
    [⟨0xE0, 0xE0⟩, ⟨0xA0, 0xBF⟩, ⟨0x80, 0xBF⟩],
    [⟨0xE1, 0xEC⟩, ⟨0x80, 0xBF⟩, ⟨0x80, 0xBF⟩],
    [⟨0xED, 0xED⟩, ⟨0x80, 0x9F⟩, ⟨0x80, 0xBF⟩],
    [⟨0xEE, 0xEF⟩, ⟨0x80, 0xBF⟩, ⟨0x80, 0xBF⟩],
    [⟨0xF0, 0xF0⟩, ⟨0x90, 0xBF⟩, ⟨0x80, 0xBF⟩, ⟨0x80, 0xBF⟩],
    [⟨0xF1, 0xF3⟩, ⟨0x80, 0xBF⟩, ⟨0x80, 0xBF⟩, ⟨0x80, 0xBF⟩],
    [⟨0xF4, 0xF4⟩, ⟨0x80, 0x8F⟩, ⟨0x80, 0xBF⟩, ⟨0x80, 0xBF⟩]]

/-- Octets that fall into the ranges, one for each. -/
def Fits (ranges : List OctetRange) (octets : Bytes) : Prop :=
  List.Forall₂ (fun range b => range.contains b = true) ranges octets

/-- The sequence of octets of one scalar value. -/
def IsSequence (octets : Bytes) : Prop := ∃ row ∈ table, Fits row octets

/-- Sequences of scalar values one behind the other. -/
inductive WellFormed : Bytes → Prop
  | nil : WellFormed []
  | append {octets rest : Bytes} (hs : IsSequence octets) (hr : WellFormed rest) :
      WellFormed (octets ++ rest)

theorem wellFormed_flatten {pieces : List Bytes} (h : ∀ piece ∈ pieces, IsSequence piece) :
    WellFormed pieces.flatten := by
  induction pieces with
  | nil => exact .nil
  | cons piece more ih =>
    obtain ⟨hp, hm⟩ := List.forall_mem_cons.mp h
    exact .append hp (ih hm)

theorem contains_iff {range : OctetRange} {b : UInt8} :
    range.contains b = true ↔ range.first.toNat ≤ b.toNat ∧ b.toNat ≤ range.last.toNat := by
  simp only [OctetRange.contains, Bool.and_eq_true, decide_eq_true_eq, UInt8.le_iff_toNat_le]

theorem isSequence_encodeChar (c : Char) : IsSequence (String.utf8EncodeChar c) := by
  have hv : c.val.toNat < 0xD800 ∨ (0xDFFF < c.val.toNat ∧ c.val.toNat < 0x110000) := c.valid
  unfold String.utf8EncodeChar
  generalize c.val.toNat = v at hv
  dsimp only
  split
  · refine ⟨_, List.mem_of_getElem? (i := 0) rfl, ?_⟩
    simp [Fits, contains_iff]; omega
  split
  · refine ⟨_, List.mem_of_getElem? (i := 1) rfl, ?_⟩
    simp [Fits, contains_iff]; omega
  split
  · rcases (by omega : v < 0x1000 ∨ (0x1000 ≤ v ∧ v < 0xD000) ∨ (0xD000 ≤ v ∧ v < 0xD800) ∨
      0xE000 ≤ v) with h | h | h | h
    · refine ⟨_, List.mem_of_getElem? (i := 2) rfl, ?_⟩
      simp [Fits, contains_iff]; omega
    · refine ⟨_, List.mem_of_getElem? (i := 3) rfl, ?_⟩
      simp [Fits, contains_iff]; omega
    · refine ⟨_, List.mem_of_getElem? (i := 4) rfl, ?_⟩
      simp [Fits, contains_iff]; omega
    · refine ⟨_, List.mem_of_getElem? (i := 5) rfl, ?_⟩
      simp [Fits, contains_iff]; omega
  · rcases (by omega : v < 0x40000 ∨ (0x40000 ≤ v ∧ v < 0x100000) ∨ 0x100000 ≤ v) with h | h | h
    · refine ⟨_, List.mem_of_getElem? (i := 6) rfl, ?_⟩
      simp [Fits, contains_iff]; omega
    · refine ⟨_, List.mem_of_getElem? (i := 7) rfl, ?_⟩
      simp [Fits, contains_iff]; omega
    · refine ⟨_, List.mem_of_getElem? (i := 8) rfl, ?_⟩
      simp [Fits, contains_iff]; omega

theorem exists_char {v : Nat} (h : v.isValidChar) : ∃ c : Char, c.val.toNat = v :=
  ⟨Char.ofNatAux v h, rfl⟩

theorem ofNat_eq_octet {n : Nat} {b : UInt8} (h : n = b.toNat) : UInt8.ofNat n = b := by
  rw [h, UInt8.ofNat_toNat]

theorem exists_char_one {a : UInt8} (ha : a.toNat ≤ 0x7F) :
    ∃ c : Char, String.utf8EncodeChar c = [a] := by
  obtain ⟨c, hc⟩ := exists_char (v := a.toNat) (Or.inl (by omega))
  refine ⟨c, ?_⟩
  unfold String.utf8EncodeChar
  simp only [hc]
  rw [if_pos ha, UInt8.ofNat_toNat]

theorem exists_char_two {a b : UInt8} (ha : 0xC2 ≤ a.toNat ∧ a.toNat ≤ 0xDF)
    (hb : 0x80 ≤ b.toNat ∧ b.toNat ≤ 0xBF) : ∃ c : Char, String.utf8EncodeChar c = [a, b] := by
  obtain ⟨c, hc⟩ := exists_char (v := (a.toNat - 0xC0) * 64 + (b.toNat - 0x80)) (Or.inl (by omega))
  refine ⟨c, ?_⟩
  unfold String.utf8EncodeChar
  simp only [hc]
  rw [if_neg (by omega), if_pos (by omega), ofNat_eq_octet (b := a) (by omega),
    ofNat_eq_octet (b := b) (by omega)]

/-- Three octets, provided that the value needs them and is no surrogate. -/
theorem exists_char_three {a b d : UInt8} (ha : 0xE0 ≤ a.toNat ∧ a.toNat ≤ 0xEF)
    (hb : 0x80 ≤ b.toNat ∧ b.toNat ≤ 0xBF) (hd : 0x80 ≤ d.toNat ∧ d.toNat ≤ 0xBF)
    (hl : a.toNat = 0xE0 → 0xA0 ≤ b.toNat) (hs : a.toNat = 0xED → b.toNat ≤ 0x9F) :
    ∃ c : Char, String.utf8EncodeChar c = [a, b, d] := by
  obtain ⟨c, hc⟩ := exists_char
    (v := (a.toNat - 0xE0) * 4096 + (b.toNat - 0x80) * 64 + (d.toNat - 0x80))
    (by unfold Nat.isValidChar; omega)
  refine ⟨c, ?_⟩
  unfold String.utf8EncodeChar
  simp only [hc]
  rw [if_neg (by omega), if_neg (by omega), if_pos (by omega), ofNat_eq_octet (b := a) (by omega),
    ofNat_eq_octet (b := b) (by omega), ofNat_eq_octet (b := d) (by omega)]

theorem exists_char_four {a b d e : UInt8} (ha : 0xF0 ≤ a.toNat ∧ a.toNat ≤ 0xF4)
    (hb : 0x80 ≤ b.toNat ∧ b.toNat ≤ 0xBF) (hd : 0x80 ≤ d.toNat ∧ d.toNat ≤ 0xBF)
    (he : 0x80 ≤ e.toNat ∧ e.toNat ≤ 0xBF) (hl : a.toNat = 0xF0 → 0x90 ≤ b.toNat)
    (hu : a.toNat = 0xF4 → b.toNat ≤ 0x8F) :
    ∃ c : Char, String.utf8EncodeChar c = [a, b, d, e] := by
  obtain ⟨c, hc⟩ := exists_char
    (v := (a.toNat - 0xF0) * 262144 + (b.toNat - 0x80) * 4096 + (d.toNat - 0x80) * 64 +
      (e.toNat - 0x80)) (by unfold Nat.isValidChar; omega)
  refine ⟨c, ?_⟩
  unfold String.utf8EncodeChar
  simp only [hc]
  rw [if_neg (by omega), if_neg (by omega), if_neg (by omega), ofNat_eq_octet (b := a) (by omega),
    ofNat_eq_octet (b := b) (by omega), ofNat_eq_octet (b := d) (by omega),
    ofNat_eq_octet (b := e) (by omega)]

theorem exists_char_of_isSequence {octets : Bytes} (h : IsSequence octets) :
    ∃ c : Char, String.utf8EncodeChar c = octets := by
  obtain ⟨row, hrow, hfits⟩ := h
  simp only [table, List.mem_cons, List.not_mem_nil, or_false] at hrow
  rcases hrow with rfl | rfl | rfl | rfl | rfl | rfl | rfl | rfl | rfl
  all_goals
    simp only [Fits, List.forall₂_cons_left_iff, List.forall₂_nil_left_iff, contains_iff,
      UInt8.toNat_ofNat, Nat.reducePow, Nat.reduceMod] at hfits
  · obtain ⟨a, _, ha, rfl, rfl⟩ := hfits
    exact exists_char_one ha.2
  · obtain ⟨a, _, ha, ⟨b, _, hb, rfl, rfl⟩, rfl⟩ := hfits
    exact exists_char_two ha hb
  iterate 4
    · obtain ⟨a, _, ha, ⟨b, _, hb, ⟨d, _, hd, rfl, rfl⟩, rfl⟩, rfl⟩ := hfits
      exact exists_char_three (by omega) (by omega) hd (by omega) (by omega)
  iterate 3
    · obtain ⟨a, _, ha, ⟨b, _, hb, ⟨d, _, hd, ⟨e, _, he, rfl, rfl⟩, rfl⟩, rfl⟩, rfl⟩ := hfits
      exact exists_char_four (by omega) (by omega) hd he (by omega) (by omega)

/-- Well-formed bytes are those that encode a text. -/
theorem wellFormed_iff_chars {s : Bytes} :
    WellFormed s ↔ ∃ chars : List Char, s = chars.flatMap String.utf8EncodeChar := by
  constructor
  · intro h
    induction h with
    | nil => exact ⟨[], rfl⟩
    | append hs _ ih =>
      obtain ⟨c, rfl⟩ := exists_char_of_isSequence hs
      obtain ⟨chars, rfl⟩ := ih
      exact ⟨c :: chars, rfl⟩
  · rintro ⟨chars, rfl⟩
    induction chars with
    | nil => exact .nil
    | cons c chars ih => exact .append (isSequence_encodeChar c) ih

end RespLoad.Utf8
