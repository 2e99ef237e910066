import Mathlib.Algebra.Order.Round
import Mathlib.Data.Rat.Floor
import Mathlib.Tactic.Linarith
import Mathlib.Tactic.Qify
import RespLoad.Number.Format
import RespLoad.Proofs.Number.Numeral
import RespLoad.Proofs.Number.Rounding

/-!
# Numbers in groups of three digits

The grouped format shows the integer nearest to a double, an exact half going away from zero. Commas stand in
front of every third digit counted from the end, so they can be taken out again: what is left is a numeral of
that integer, and doubles that round to different integers are shown differently. The sign of a double is not
the sign of the integer where the double rounds to zero. Magnitudes of 2 ^ 63 and more are not spoken of.
-/
namespace RespLoad

/-- The exact value of a finite double. -/
def Binary64.value? : Binary64 → Option ℚ
  | .finite negative significand exponent =>
    some (if negative then -((significand : ℚ) * (2 : ℚ) ^ exponent) else (significand : ℚ) * (2 : ℚ) ^ exponent)
  | .infinite _ | .nan _ => none

namespace Rounding

/-- The nearest integer, an exact half going away from zero. -/
def halfAway (v : ℚ) : ℤ := if v < 0 then -round (-v) else round v

theorem halfAway_of_nonneg {v : ℚ} (h : 0 ≤ v) : halfAway v = round v := if_neg (not_lt.mpr h)

theorem halfAway_neg_of_nonneg {v : ℚ} (h : 0 ≤ v) : halfAway (-v) = -round v := by
  rcases h.eq_or_lt with rfl | hpos
  · rw [neg_zero, halfAway_of_nonneg le_rfl, round_zero, neg_zero]
  · rw [halfAway, if_pos (neg_lt_zero.mpr hpos), neg_neg]

/-- Halves that go away from zero go up where there is no sign. -/
theorem divide_away (numerator : Nat) {denominator : Nat} (h : 0 < denominator) :
    (divide .away numerator denominator : ℤ) = round ((numerator : ℚ) / denominator) := by
  have hnear := isNearest_divide .away numerator h
  have hbelow := lt_of_le_of_ne hnear.below (hnear.away rfl)
  have habove := hnear.above
  generalize divide .away numerator denominator = rounded at *
  have hpos : (0 : ℚ) < denominator := Nat.cast_pos.mpr h
  qify at habove hbelow
  rw [eq_comm, round_eq_iff, Set.mem_Ico, le_div_iff₀ hpos, div_lt_iff₀ hpos, Int.cast_natCast]
  constructor <;> linarith

theorem toInteger_away (significand : Nat) (exponent : ℤ) :
    (toInteger .away significand exponent : ℤ) = round ((significand : ℚ) * (2 : ℚ) ^ exponent) := by
  cases exponent with
  | ofNat k =>
    have hwhole : (significand : ℚ) * (2 : ℚ) ^ Int.ofNat k = ((significand <<< k : ℕ) : ℚ) := by
      rw [Nat.shiftLeft_eq, Int.ofNat_eq_natCast, zpow_natCast]
      push_cast
      rfl
    rw [hwhole, round_natCast]
    rfl
  | negSucc k =>
    have hquotient : (significand : ℚ) * (2 : ℚ) ^ Int.negSucc k =
        (significand : ℚ) / ((1 <<< (k + 1) : ℕ) : ℚ) := by
      rw [Nat.one_shiftLeft, zpow_negSucc, div_eq_mul_inv]
      push_cast
      rfl
    rw [hquotient, ← divide_away _ (by rw [Nat.one_shiftLeft]; exact Nat.two_pow_pos _)]
    rfl

end Rounding

namespace Number

/-- The byte between two groups of digits. -/
def comma : UInt8 := 44

/-- Groups of digits: one to three digits in the first group and three in every other. -/
structure DigitGroups where
  first : Bytes
  others : List Bytes
  digits : ∀ group ∈ first :: others, ∀ b ∈ group, Bytes.isDigit b = true
  first_ne_nil : first ≠ []
  first_length : first.length ≤ 3
  others_length : ∀ group ∈ others, group.length = 3

namespace DigitGroups

/-- The groups with commas between them. -/
def text (groups : DigitGroups) : Bytes := [comma].intercalate (groups.first :: groups.others)

/-- The digits without the commas. -/
def joined (groups : DigitGroups) : Bytes := (groups.first :: groups.others).flatten

theorem length_joined (groups : DigitGroups) :
    groups.joined.length = groups.first.length + 3 * groups.others.length := by
  have hthrees : groups.others.map List.length = List.replicate groups.others.length 3 :=
    List.map_eq_replicate_iff.mpr groups.others_length
  rw [joined, List.flatten_cons, List.length_append, List.length_flatten, hthrees,
    List.sum_replicate_nat, Nat.mul_comm]

/-- One digit. -/
def single {d : UInt8} (hd : Bytes.isDigit d = true) : DigitGroups where
  first := [d]
  others := []
  digits := List.forall_mem_singleton.mpr (List.forall_mem_singleton.mpr hd)
  first_ne_nil := List.cons_ne_nil _ _
  first_length := by rw [List.length_singleton]; decide
  others_length := nofun

/-- One digit more in front, which has a group to itself. -/
def newGroup {d : UInt8} (hd : Bytes.isDigit d = true) (groups : DigitGroups)
    (h : groups.first.length = 3) : DigitGroups where
  first := [d]
  others := groups.first :: groups.others
  digits := List.forall_mem_cons.mpr ⟨List.forall_mem_singleton.mpr hd, groups.digits⟩
  first_ne_nil := List.cons_ne_nil _ _
  first_length := by rw [List.length_singleton]; decide
  others_length := List.forall_mem_cons.mpr ⟨h, groups.others_length⟩

/-- One digit more in the first group. -/
def extend {d : UInt8} (hd : Bytes.isDigit d = true) (groups : DigitGroups)
    (h : groups.first.length < 3) : DigitGroups where
  first := d :: groups.first
  others := groups.others
  digits := by
    obtain ⟨hfirst, hothers⟩ := List.forall_mem_cons.mp groups.digits
    exact List.forall_mem_cons.mpr ⟨List.forall_mem_cons.mpr ⟨hd, hfirst⟩, hothers⟩
  first_ne_nil := List.cons_ne_nil _ _
  first_length := h
  others_length := groups.others_length

theorem text_extend {d : UInt8} (hd : Bytes.isDigit d = true) (groups : DigitGroups)
    (h : groups.first.length < 3) : (groups.extend hd h).text = d :: groups.text := by
  change [comma].intercalate ((d :: groups.first) :: groups.others) =
    d :: [comma].intercalate (groups.first :: groups.others)
  cases groups.others with
  | nil => rfl
  | cons group more => rfl

end DigitGroups

theorem groupDigits_cons {d : UInt8} {rest : Bytes} (h : rest.length % 3 = 0) (hne : rest ≠ []) :
    groupDigits (d :: rest) = d :: comma :: groupDigits rest := by
  rw [groupDigits, if_pos ⟨h, hne⟩]
  rfl

theorem groupDigits_cons_of_mod {d : UInt8} {rest : Bytes} (h : rest.length % 3 ≠ 0) :
    groupDigits (d :: rest) = d :: groupDigits rest := by
  rw [groupDigits, if_neg fun hand => h hand.1]

/-- The digits come in groups. A digit opens a group if the digits behind it make whole groups, and else
it joins the first of them, which then has one or two digits. -/
theorem exists_groups {digits : Bytes} (hne : digits ≠ [])
    (hd : ∀ b ∈ digits, Bytes.isDigit b = true) :
    ∃ groups : DigitGroups, groups.joined = digits ∧ groups.text = groupDigits digits := by
  induction digits with
  | nil => exact absurd rfl hne
  | cons d rest ih =>
    obtain ⟨hfirst, hrest⟩ := List.forall_mem_cons.mp hd
    by_cases hnil : rest = []
    · subst hnil
      exact ⟨.single hfirst, rfl, rfl⟩
    obtain ⟨groups, hjoined, htext⟩ := ih hnil hrest
    have hlength := groups.length_joined
    have hsome := List.length_pos_iff.mpr groups.first_ne_nil
    have hshort := groups.first_length
    rw [hjoined] at hlength
    by_cases hwhole : rest.length % 3 = 0
    · refine ⟨groups.newGroup hfirst (by omega), congrArg (d :: ·) hjoined, ?_⟩
      rw [groupDigits_cons hwhole hnil, ← htext]
      rfl
    · refine ⟨groups.extend hfirst (by omega), congrArg (d :: ·) hjoined, ?_⟩
      rw [groupDigits_cons_of_mod hwhole, ← htext, DigitGroups.text_extend]

/-- Taking the commas out leaves the digits. -/
theorem filter_groupDigits {digits : Bytes} (hd : ∀ b ∈ digits, Bytes.isDigit b = true) :
    (groupDigits digits).filter (· ≠ comma) = digits := by
  have hne : ∀ b, Bytes.isDigit b = true → b ≠ comma := by
    rintro b hb rfl
    exact absurd hb (by decide)
  fun_induction groupDigits digits with
  | case1 => rfl
  | case2 d rest hwhole ih =>
    obtain ⟨hfirst, hrest⟩ := List.forall_mem_cons.mp hd
    rw [List.filter_cons_of_pos (by simpa using hne d hfirst), List.filter_cons_of_neg (by decide),
      ih hrest]
  | case3 d rest hpart ih =>
    obtain ⟨hfirst, hrest⟩ := List.forall_mem_cons.mp hd
    rw [List.filter_cons_of_pos (by simpa using hne d hfirst), ih hrest]

/-- The text shows the integer: a minus sign for a negative one, groups of digits without a leading zero
unless the integer is zero, and without the commas a numeral of it. -/
structure Shows (text : Bytes) (number : ℤ) : Prop where
  grouped : ∃ groups : DigitGroups,
    text = (if number < 0 then utf8 "-" else []) ++ groups.text ∧
      (groups.first.head? = some 48 → number = 0)
  numeral : Decimal.Numeral (text.filter (· ≠ comma)) number

theorem Shows.unique {text : Bytes} {a b : ℤ} (ha : Shows text a) (hb : Shows text b) : a = b :=
  ha.numeral.unique hb.numeral

/-- Writing an integer in groups shows it. -/
theorem shows_groupDigits (number : ℤ) :
    Shows ((if number < 0 then utf8 "-" else []) ++ groupDigits (Decimal.ofNat number.natAbs))
      number := by
  have hdigits : ∀ b ∈ Decimal.ofNat number.natAbs, Bytes.isDigit b = true :=
    Decimal.isDigit_of_mem_ofNat
  have hne := Decimal.ofNat_ne_nil number.natAbs
  have hvalue := Decimal.value_ofNat number.natAbs
  constructor
  · obtain ⟨groups, hjoined, htext⟩ := exists_groups hne hdigits
    refine ⟨groups, by rw [htext], fun hzero => ?_⟩
    have hhead : groups.joined.head? = some (Decimal.digit 0) := by
      rw [DigitGroups.joined, List.flatten_cons, List.head?_append, hzero]
      rfl
    exact Int.natAbs_eq_zero.mp (Decimal.eq_zero_of_head?_ofNat (hjoined ▸ hhead))
  · rw [List.filter_append, filter_groupDigits hdigits]
    split
    · have hsigned := Decimal.Numeral.signed hne hdigits
      rwa [hvalue, ← Int.eq_neg_natAbs_of_nonpos (by omega)] at hsigned
    · have hplain := Decimal.Numeral.plain hne hdigits
      rwa [hvalue, Int.natAbs_of_nonneg (by omega)] at hplain

/-- A magnitude below the greatest that is shown does not round to more. -/
theorem toInteger_away_le {significand : Nat} {exponent : ℤ}
    (h : (significand : ℚ) * (2 : ℚ) ^ exponent < 2 ^ 63) :
    Rounding.toInteger .away significand exponent ≤ maxGrouped := by
  have hround := round_le_add_half ((significand : ℚ) * (2 : ℚ) ^ exponent)
  rw [← Rounding.toInteger_away, Int.cast_natCast] at hround
  have hless : (Rounding.toInteger .away significand exponent : ℚ) < (2 ^ 63 + 1 : ℕ) := by
    push_cast
    linarith
  exact Nat.le_of_lt_succ (Nat.cast_lt.mp hless)

/-- A double is written as the integer that it rounds to. -/
theorem thousands_eq {x : Binary64} {v : ℚ} (hx : x.value? = some v) (hv : |v| < 2 ^ 63) :
    let number := Rounding.halfAway v
    thousands x =
      (if number < 0 then utf8 "-" else []) ++ groupDigits (Decimal.ofNat number.natAbs) := by
  cases x with
  | nan negative => cases hx
  | infinite negative => cases hx
  | finite negative significand exponent =>
    have hpos : 0 ≤ (significand : ℚ) * (2 : ℚ) ^ exponent :=
      mul_nonneg (Nat.cast_nonneg _) (zpow_nonneg zero_le_two _)
    have hmagnitude := Rounding.toInteger_away significand exponent
    obtain rfl := Option.some.inj hx
    cases negative with
    | false =>
      rw [if_neg Bool.false_ne_true, abs_of_nonneg hpos] at hv
      simp only [thousands, grouped, Nat.min_eq_left (toInteger_away_le hv),
        Rounding.halfAway_of_nonneg hpos, ← hmagnitude, Bool.false_and, Bool.false_eq_true, if_false,
        Int.natAbs_natCast, if_neg (Int.not_lt.mpr (Int.natCast_nonneg _)), List.nil_append]
    | true =>
      rw [if_pos rfl, abs_neg, abs_of_nonneg hpos] at hv
      simp only [thousands, grouped, Nat.min_eq_left (toInteger_away_le hv), if_true,
        Rounding.halfAway_neg_of_nonneg hpos, ← hmagnitude, Bool.true_and, Int.natAbs_neg,
        Int.natAbs_natCast, bne_iff_ne]
      -- What rounds to zero loses its sign.
      by_cases hzero : Rounding.toInteger .away significand exponent = 0
      · rw [if_neg (not_not.mpr hzero), hzero]
        rfl
      · rw [if_pos hzero, if_pos (by omega)]

/-- The grouped format is faithful: it shows the nearest integer, and doubles have the same text exactly if
they round to the same integer. -/
theorem thousands_shows {x y : Binary64} {v w : ℚ} (hx : x.value? = some v) (hv : |v| < 2 ^ 63)
    (hy : y.value? = some w) (hw : |w| < 2 ^ 63) :
    Shows (thousands x) (Rounding.halfAway v) ∧
      (thousands x = thousands y ↔ Rounding.halfAway v = Rounding.halfAway w) := by
  have hshows : Shows (thousands x) (Rounding.halfAway v) := by
    rw [thousands_eq hx hv]
    exact shows_groupDigits _
  refine ⟨hshows, fun h => ?_, fun h => ?_⟩
  · rw [h, thousands_eq hy hw] at hshows
    exact hshows.unique (shows_groupDigits _)
  · rw [thousands_eq hx hv, thousands_eq hy hw, h]

/-- The half above 1234567 goes away from zero, and so it does below zero. -/
theorem thousands_shows_halves :
    let x : Binary64 := .finite true 2469135 (-1)
    let y : Binary64 := .finite false 1 (-2)
    x.value? = some (-(2469135 / 2)) ∧ y.value? = some (1 / 4) ∧
      thousands x = utf8 "-1,234,568" ∧ Shows (thousands x) (-1234568) ∧
      thousands x ≠ thousands y := by
  intro x y
  have hx : x.value? = some (-(2469135 / 2)) := by decide +kernel
  have hy : y.value? = some (1 / 4) := by decide +kernel
  have hv : |(-(2469135 / 2) : ℚ)| < 2 ^ 63 := by decide +kernel
  have hw : |(1 / 4 : ℚ)| < 2 ^ 63 := by decide +kernel
  have hround : Rounding.halfAway (-(2469135 / 2)) = -1234568 ∧ Rounding.halfAway (1 / 4) = 0 := by
    decide +kernel
  obtain ⟨hshows, hsame⟩ := thousands_shows hx hv hy hw
  rw [hround.1] at hshows hsame
  rw [hround.2] at hsame
  exact ⟨hx, hy, by decide +kernel, hshows, fun h => absurd (hsame.mp h) (by decide)⟩

end Number

end RespLoad
