import RespLoad.Proofs.Text.Places

/-!
# Maximal subparts

The standard says how ill-formed bytes are to be replaced: where no encoded scalar value stands, the
longest start of one that stands there is replaced as a whole, and failing that one byte. `Front` says
this of a single place, without the decoder and its table, and `Segmented` of a whole string. Each
string has exactly one segmentation, and the decoder reads it piece by piece. A second decoder, which
goes by places and fails where it would read behind the end, shows that the bytes at hand suffice.
-/
namespace RespLoad

namespace Utf8

section Pieces

/-- A start of the encoding of a scalar value, neither empty nor the whole of it. -/
def IsUnfinished (octets : Bytes) : Prop :=
  octets ≠ [] ∧ ∃ c : Char, octets <+: String.utf8EncodeChar c ∧ octets ≠ String.utf8EncodeChar c

/-- A piece of a byte string by what stands there. -/
inductive Piece where
  /-- An encoded scalar value. -/
  | scalar (c : Char)
  /-- The start of an encoding that does not go on. -/
  | unfinished (octets : Bytes)
  /-- A byte that starts no encoding. -/
  | lone (b : UInt8)
  deriving Repr, DecidableEq

namespace Piece

def octets : Piece → Bytes
  | .scalar c => String.utf8EncodeChar c
  | .unfinished octets => octets
  | .lone b => [b]

/-- What the piece reads as: all that is no scalar value reads as one U+FFFD. -/
def text : Piece → Bytes
  | .scalar c => String.utf8EncodeChar c
  | .unfinished _ | .lone _ => [0xEF, 0xBF, 0xBD]

def isReplaced : Piece → Bool
  | .scalar _ => false
  | .unfinished _ | .lone _ => true

/-- The piece as the decoder has it, which does not tell the replaced ones apart. -/
def segment : Piece → Segment
  | .scalar c => .scalar (String.utf8EncodeChar c)
  | .unfinished octets => .stray octets
  | .lone b => .stray [b]

theorem octets_segment (piece : Piece) : piece.segment.octets = piece.octets := by
  cases piece <;> rfl

theorem decoded_segment (piece : Piece) : piece.segment.decoded = piece.text := by
  cases piece <;> rfl

theorem isStray_segment (piece : Piece) : piece.segment.isStray = piece.isReplaced := by
  cases piece <;> rfl

end Piece

/-- Some scalar value is encoded at the front. -/
def BeginsScalar (s : Bytes) : Prop := ∃ c : Char, String.utf8EncodeChar c <+: s

/-- The piece that stands at the front of `s`. -/
inductive Front (s : Bytes) : Piece → Prop
  | scalar {c : Char} (hc : String.utf8EncodeChar c <+: s) : Front s (.scalar c)
  | unfinished {octets : Bytes} (hnone : ¬ BeginsScalar s) (ho : IsUnfinished octets)
      (hs : octets <+: s)
      (hlongest : ∀ other, IsUnfinished other → other <+: s → other.length ≤ octets.length) :
      Front s (.unfinished octets)
  | lone {b : UInt8} (hnone : ¬ BeginsScalar s) (hs : [b] <+: s)
      (hno : ∀ other, IsUnfinished other → ¬ other <+: s) : Front s (.lone b)

/-- A byte string cut into pieces from left to right, each the one that stands at its place. -/
inductive Segmented : Bytes → List Piece → Prop
  | nil : Segmented [] []
  | cons {s rest : Bytes} {piece : Piece} {more : List Piece} (hf : Front s piece)
      (hs : s = piece.octets ++ rest) (hr : Segmented rest more) : Segmented s (piece :: more)

theorem Front.isPrefix {s : Bytes} {piece : Piece} (h : Front s piece) :
    piece.octets <+: s := by
  cases h with
  | scalar hc => exact hc
  | unfinished _ _ hs _ => exact hs
  | lone _ hs _ => exact hs

theorem Front.octets_ne_nil {s : Bytes} {piece : Piece} (h : Front s piece) :
    piece.octets ≠ [] := by
  cases h with
  | scalar hc => exact String.utf8EncodeChar_ne_nil
  | unfinished _ ho _ _ => exact ho.1
  | lone _ _ _ => exact List.cons_ne_nil _ _

end Pieces

section Uniqueness

/-- No encoding is a start of another, so at most one begins at a place. -/
theorem scalar_unique {s : Bytes} {c d : Char} (hc : String.utf8EncodeChar c <+: s)
    (hd : String.utf8EncodeChar d <+: s) : c = d := by
  obtain ⟨after, rfl⟩ := hc
  obtain ⟨behind, hb⟩ := hd
  -- Reading one character off the front gives back whichever was encoded there.
  have hread := congrArg (fun s => s.toByteArray.utf8DecodeChar? 0) hb
  simp only [List.toByteArray_append, ByteArray.utf8DecodeChar?_utf8EncodeChar_append] at hread
  exact (Option.some.inj hread).symm

theorem Front.unique {s : Bytes} {a b : Piece} (ha : Front s a) (hb : Front s b) : a = b := by
  cases ha with
  | @scalar c hc =>
    cases hb with
    | scalar hd => rw [scalar_unique hc hd]
    | unfinished hnone _ _ _ => exact absurd ⟨c, hc⟩ hnone
    | lone hnone _ _ => exact absurd ⟨c, hc⟩ hnone
  | @unfinished octets hnone ho hs hlongest =>
    cases hb with
    | @scalar d hd => exact absurd ⟨d, hd⟩ hnone
    | @unfinished others _ ho' hs' hlongest' =>
      have hlength : octets.length = others.length :=
        Nat.le_antisymm (hlongest' octets ho hs) (hlongest others ho' hs')
      have hstarts : octets <+: others :=
        List.prefix_of_prefix_length_le hs hs' (Nat.le_of_eq hlength)
      rw [hstarts.eq_of_length hlength]
    | lone _ _ hno => exact absurd hs (hno octets ho)
  | @lone x hnone hs hno =>
    cases hb with
    | @scalar d hd => exact absurd ⟨d, hd⟩ hnone
    | @unfinished others _ ho hs' _ => exact absurd hs' (hno others ho)
    | @lone y _ hs' _ =>
      have hstarts : [x] <+: [y] := List.prefix_of_prefix_length_le hs hs' (Nat.le_refl 1)
      rw [List.singleton_inj.mp (hstarts.eq_of_length rfl)]

theorem Segmented.unique {s : Bytes} {a b : List Piece} (ha : Segmented s a)
    (hb : Segmented s b) : a = b := by
  induction ha generalizing b with
  | nil =>
    cases hb with
    | nil => rfl
    | cons hf _ _ => exact absurd (List.prefix_nil.mp hf.isPrefix) hf.octets_ne_nil
  | @cons s rest piece more hf hs _ ih =>
    cases hb with
    | nil => exact absurd (List.prefix_nil.mp hf.isPrefix) hf.octets_ne_nil
    | @cons _ rest' piece' more' hf' hs' hr' =>
      obtain rfl := hf.unique hf'
      obtain rfl : rest = rest' := List.append_cancel_left (hs.symm.trans hs')
      rw [ih hr']

end Uniqueness

section Existence

/-- Behind a lead octet, the octets of an encoding fall into the ranges of that lead octet. -/
theorem trail?_of_encoding {c : Char} {lead : UInt8} {trail : Bytes}
    (h : String.utf8EncodeChar c = lead :: trail) :
    ∃ ranges, trail? lead = some ranges ∧ Fits ranges trail := by
  obtain ⟨row, hm, hfits⟩ := isSequence_encodeChar c
  rw [h] at hfits
  cases hfits with
  | @cons first _ ranges _ hc htrail => exact ⟨ranges, trail?_of_mem_table hm hc, htrail⟩

/-- Octets with which both an encoding and a byte string go on are counted as matching. -/
theorem length_le_matched {ranges : List OctetRange} {trail start s : Bytes}
    (hf : Fits ranges trail) (ht : start <+: trail) (hs : start <+: s) :
    start.length ≤ matched ranges s := by
  induction hf generalizing start s with
  | nil => rw [List.prefix_nil.mp ht]; exact Nat.zero_le _
  | @cons range b ranges trail hb _ ih =>
    cases start with
    | nil => exact Nat.zero_le _
    | cons x start =>
      obtain ⟨rfl, hstart⟩ := List.cons_prefix_cons.mp ht
      obtain ⟨rest, rfl⟩ := hs
      rw [List.cons_append, matched, if_pos hb, List.length_cons]
      exact Nat.succ_le_succ (ih hstart (List.prefix_append start rest))

theorem fits_firsts {ranges : List OctetRange}
    (hne : ∀ range ∈ ranges, range.contains range.first = true) :
    Fits ranges (ranges.map OctetRange.first) := by
  rw [Fits, List.forall₂_map_right_iff, List.forall₂_same]
  exact hne

/-- Octets that match so far can be continued to match all of the ranges. -/
theorem fits_completed {ranges : List OctetRange}
    (hne : ∀ range ∈ ranges, range.contains range.first = true) (s : Bytes) :
    ∃ more, Fits ranges (s.take (matched ranges s) ++ more) := by
  fun_induction matched ranges s with
  | case1 range ranges b rest hb ih =>
    obtain ⟨more, hmore⟩ := ih (List.forall_mem_cons.mp hne).2
    exact ⟨more, .cons hb hmore⟩
  -- Where the string goes on otherwise or ends, any octets in the ranges complete it.
  | case2 range ranges b rest hb => exact ⟨_, fits_firsts hne⟩
  | case3 ranges s _ => exact ⟨_, fits_firsts hne⟩

theorem contains_first_of_trail? {lead : UInt8} {ranges : List OctetRange}
    (h : trail? lead = some ranges) : ∀ range ∈ ranges, range.contains range.first = true := by
  obtain ⟨first, hm, _⟩ := exists_row_of_trail? h
  have hall : ∀ row ∈ table, ∀ range ∈ row, range.contains range.first = true := by decide
  exact fun range hr => hall _ hm range (List.mem_cons_of_mem first hr)

theorem isSequence_of_trail? {lead : UInt8} {ranges : List OctetRange} {trail : Bytes}
    (h : trail? lead = some ranges) (hf : Fits ranges trail) : IsSequence (lead :: trail) := by
  obtain ⟨first, hm, hc⟩ := exists_row_of_trail? h
  exact ⟨_, hm, .cons hc hf⟩

/-- An encoding at the front matches all ranges of its lead octet. -/
theorem length_le_of_beginsScalar {lead : UInt8} {rest : Bytes}
    (h : BeginsScalar (lead :: rest)) :
    ∃ ranges, trail? lead = some ranges ∧ ranges.length ≤ matched ranges rest := by
  obtain ⟨c, hc⟩ := h
  obtain ⟨b, trail, hencode⟩ := List.exists_cons_of_ne_nil (String.utf8EncodeChar_ne_nil (c := c))
  rw [hencode] at hc
  obtain ⟨rfl, hrest⟩ := List.cons_prefix_cons.mp hc
  obtain ⟨ranges, ht, hfits⟩ := trail?_of_encoding hencode
  refine ⟨ranges, ht, ?_⟩
  rw [hfits.length_eq]
  exact length_le_matched hfits (List.prefix_refl trail) hrest

/-- The start of an encoding at the front is no longer than the lead octet and what matches
behind it. -/
theorem length_le_of_isUnfinished {lead : UInt8} {rest octets : Bytes} (ho : IsUnfinished octets)
    (hs : octets <+: lead :: rest) :
    ∃ ranges, trail? lead = some ranges ∧ octets.length ≤ matched ranges rest + 1 := by
  obtain ⟨hne, c, hc, _⟩ := ho
  obtain ⟨b, start, rfl⟩ := List.exists_cons_of_ne_nil hne
  obtain ⟨rfl, hrest⟩ := List.cons_prefix_cons.mp hs
  obtain ⟨tail, hencode⟩ := hc
  obtain ⟨ranges, ht, hfits⟩ := trail?_of_encoding hencode.symm
  exact ⟨ranges, ht,
    Nat.succ_le_succ (length_le_matched hfits (List.prefix_append start tail) hrest)⟩

theorem isUnfinished_of_matched {lead : UInt8} {rest : Bytes} {ranges : List OctetRange}
    (ht : trail? lead = some ranges) (hl : matched ranges rest < ranges.length) :
    IsUnfinished (lead :: rest.take (matched ranges rest)) := by
  obtain ⟨more, hfits⟩ := fits_completed (contains_first_of_trail? ht) rest
  obtain ⟨c, hc⟩ := exists_char_of_isSequence (isSequence_of_trail? ht hfits)
  refine ⟨List.cons_ne_nil _ _, c, ?_, fun he => ?_⟩
  · rw [hc, ← List.cons_append]
    exact List.prefix_append _ _
  -- The encoding has an octet for each range, and not all ranges have been matched.
  · have hlength := congrArg List.length (he.trans hc)
    have htake := List.length_take_le (matched ranges rest) rest
    have hall := hfits.length_eq
    simp only [List.length_cons, List.length_append] at hlength hall
    omega

theorem front_lone {lead : UInt8} (ht : trail? lead = none) (rest : Bytes) :
    Front (lead :: rest) (.lone lead) := by
  refine .lone ?_ (List.prefix_append [lead] rest) ?_
  · intro h
    obtain ⟨ranges, hsome, _⟩ := length_le_of_beginsScalar h
    rw [ht] at hsome
    cases hsome
  · intro other ho hs
    obtain ⟨ranges, hsome, _⟩ := length_le_of_isUnfinished ho hs
    rw [ht] at hsome
    cases hsome

theorem front_unfinished {lead : UInt8} {rest : Bytes} {ranges : List OctetRange}
    (ht : trail? lead = some ranges) (hl : matched ranges rest < ranges.length) :
    Front (lead :: rest) (.unfinished (lead :: rest.take (matched ranges rest))) := by
  refine .unfinished ?_ (isUnfinished_of_matched ht hl) ?_ ?_
  · intro h
    obtain ⟨found, hsome, hle⟩ := length_le_of_beginsScalar h
    obtain rfl : found = ranges := Option.some.inj (hsome.symm.trans ht)
    exact absurd hle (Nat.not_le.mpr hl)
  · exact List.cons_prefix_cons.mpr ⟨rfl, List.take_prefix _ _⟩
  · intro other ho hs
    obtain ⟨found, hsome, hle⟩ := length_le_of_isUnfinished ho hs
    obtain rfl : found = ranges := Option.some.inj (hsome.symm.trans ht)
    rwa [List.length_cons, List.length_take_of_le (matched_le found rest).2]

/-- What the decoder takes off the front is the piece that stands there. -/
theorem front_segment (lead : UInt8) (rest : Bytes) :
    ∃ piece, Front (lead :: rest) piece ∧ piece.segment = segment lead rest := by
  cases ht : trail? lead with
  | none =>
    refine ⟨.lone lead, front_lone ht rest, ?_⟩
    simp only [segment, trailLength, ht, List.take_zero, Piece.segment]
  | some ranges =>
    by_cases hl : matched ranges rest = ranges.length
    · have hseq := isSequence_of_trail? ht (hl ▸ fits_take_of_matched hl)
      obtain ⟨c, hc⟩ := exists_char_of_isSequence hseq
      refine ⟨.scalar c, .scalar (hc ▸ ?_), ?_⟩
      · exact List.cons_prefix_cons.mpr ⟨rfl, List.take_prefix _ _⟩
      · simp only [segment, trailLength, ht, if_pos hl, Piece.segment, hc]
    · have hlt : matched ranges rest < ranges.length :=
        Nat.lt_of_le_of_ne (matched_le ranges rest).1 hl
      refine ⟨_, front_unfinished ht hlt, ?_⟩
      simp only [segment, trailLength, ht, if_neg hl, Piece.segment]

theorem exists_segmented (s : Bytes) :
    ∃ pieces, Segmented s pieces ∧ pieces.map Piece.segment = segments s := by
  fun_induction segments s with
  | case1 => exact ⟨[], .nil, rfl⟩
  | case2 lead rest ih =>
    obtain ⟨piece, hfront, hpiece⟩ := front_segment lead rest
    obtain ⟨more, hmore, hsegments⟩ := ih
    refine ⟨piece :: more, .cons hfront ?_ hmore, by rw [List.map_cons, hpiece, hsegments]⟩
    rw [← piece.octets_segment, hpiece, segment_octets, List.cons_append, List.take_append_drop]

theorem Segmented.flatMap_octets {s : Bytes} {pieces : List Piece} (h : Segmented s pieces) :
    pieces.flatMap Piece.octets = s := by
  induction h with
  | nil => rfl
  | cons _ hs _ ih => rw [List.flatMap_cons, ih, hs]

theorem Segmented.octets_ne_nil {s : Bytes} {pieces : List Piece} (h : Segmented s pieces) :
    [] ∉ pieces.map Piece.octets := by
  induction h with
  | nil => exact List.not_mem_nil
  | cons hf _ _ ih =>
    rw [List.map_cons, List.mem_cons, not_or]
    exact ⟨hf.octets_ne_nil.symm, ih⟩

/-- A replaced piece has at least one byte and reads as three. -/
theorem Piece.length_text_le {piece : Piece} (h : piece.octets ≠ []) :
    piece.text.length ≤ 3 * piece.octets.length := by
  have hpos := List.length_pos_iff.mpr h
  cases piece with
  | scalar c => exact Nat.le_mul_of_pos_left _ (by decide)
  | unfinished octets =>
    simp only [text, Piece.octets, List.length_cons, List.length_nil] at hpos ⊢
    omega
  | lone b => exact Nat.le_refl 3

theorem Segmented.length_text_le {s : Bytes} {pieces : List Piece} (h : Segmented s pieces) :
    (pieces.flatMap Piece.text).length ≤ 3 * s.length := by
  induction h with
  | nil => exact Nat.zero_le _
  | cons hf hs _ ih =>
    have hpiece := Piece.length_text_le hf.octets_ne_nil
    rw [hs, List.flatMap_cons, List.length_append, List.length_append]
    omega

end Existence

end Utf8

/-- Decoding replaces maximal subparts. A byte string has one segmentation into encoded scalar values,
longest starts of such encodings where none stands, and single bytes where not even one starts. The
text is the pieces in order, all but the scalar values as one U+FFFD each, and is lossy exactly if there
is such a piece. The pieces are what a walk finds that cannot read behind the end; none is empty,
together they are the string, and the text is at most three times as long. -/
theorem Reply.decode_maximal_subparts (bytes : Bytes) :
    ∃ pieces, (∀ others, Utf8.Segmented bytes others ↔ others = pieces) ∧
      (Reply.decode bytes).text = pieces.flatMap Utf8.Piece.text ∧
      ((Reply.decode bytes).lossy = true ↔ ∃ piece ∈ pieces, piece.isReplaced = true) ∧
      Utf8.segmentsFrom? bytes 0 = some (pieces.map Utf8.Piece.segment) ∧
      pieces.flatMap Utf8.Piece.octets = bytes ∧ [] ∉ pieces.map Utf8.Piece.octets ∧
      (Reply.decode bytes).text.length ≤ 3 * bytes.length := by
  obtain ⟨pieces, hpieces, hsegments⟩ := Utf8.exists_segmented bytes
  have htext : Utf8.decode bytes = pieces.flatMap Utf8.Piece.text := by
    rw [Utf8.decode, ← hsegments, List.flatMap_map]
    exact List.flatMap_congr fun piece _ => piece.decoded_segment
  have hlossy : Utf8.isLossy bytes = pieces.any Utf8.Piece.isReplaced := by
    rw [Utf8.isLossy, ← hsegments, List.any_map]
    exact congrArg pieces.any (funext Utf8.Piece.isStray_segment)
  refine ⟨pieces, fun others => ?_, htext, ?_, ?_, hpieces.flatMap_octets,
    hpieces.octets_ne_nil, ?_⟩
  · constructor
    · exact fun h => h.unique hpieces
    · rintro rfl
      exact hpieces
  · rw [Reply.decode, hlossy, List.any_eq_true]
  · rw [Utf8.segmentsFrom?_eq, List.drop_zero, hsegments]
  · rw [Reply.decode, htext]
    exact hpieces.length_text_le

/-- Starts of three, two and one octets are one character each, and so is each byte that starts
nothing. -/
example : (Reply.decode
      [0x61, 0xF1, 0x80, 0x80, 0xE1, 0x80, 0xC2, 0x62, 0x80, 0x63, 0x80, 0xBF, 0x64]).text =
    [0x61] ++ Utf8.replacement ++ Utf8.replacement ++ Utf8.replacement ++ [0x62] ++
      Utf8.replacement ++ [0x63] ++ Utf8.replacement ++ Utf8.replacement ++ [0x64] := by
  cbv

end RespLoad
