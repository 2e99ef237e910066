import Mathlib.Data.List.Induction
import RespLoad.Proofs.Number.Decimal

/-!
# Signed numerals

A numeral is digits behind an optional minus sign, so one number has many of them: zeros may stand in
front, and zero may have a sign. The signed reader accepts exactly the numerals within its limit, and of
all numerals of a natural number the one that is written for it is the shortest.
-/
namespace RespLoad

/-- The same bytes, or more of them. -/
def Bytes.SameOrLonger (a b : Bytes) : Prop := a = b ∨ a.length < b.length

theorem Bytes.SameOrLonger.append {a b c d : Bytes} (hab : a.SameOrLonger b)
    (hcd : c.SameOrLonger d) : (a ++ c).SameOrLonger (b ++ d) := by
  rcases hab with rfl | hab <;> rcases hcd with rfl | hcd
  · exact Or.inl rfl
  all_goals
    right
    rw [List.length_append, List.length_append]
    omega

theorem Bytes.SameOrLonger.length_le {a b : Bytes} (h : a.SameOrLonger b) :
    a.length ≤ b.length ∧ (a.length = b.length ↔ b = a) := by
  rcases h with rfl | h
  · exact ⟨Nat.le_refl _, iff_of_true rfl rfl⟩
  · refine ⟨Nat.le_of_lt h, iff_of_false (Nat.ne_of_lt h) ?_⟩
    rintro rfl
    exact Nat.lt_irrefl _ h

namespace Decimal

/-- The minus sign. -/
def minus : UInt8 := 45

/-- One or more digits behind an optional minus sign, and the number that they denote. -/
inductive Numeral : Bytes → Int → Prop
  | plain {digits : Bytes} (hne : digits ≠ []) (hd : ∀ b ∈ digits, Bytes.isDigit b = true) :
      Numeral digits (value digits)
  | signed {digits : Bytes} (hne : digits ≠ []) (hd : ∀ b ∈ digits, Bytes.isDigit b = true) :
      Numeral (minus :: digits) (-(value digits : Int))

theorem minus_not_mem {digits : Bytes} (hd : ∀ b ∈ digits, Bytes.isDigit b = true) :
    minus ∉ digits := fun h => absurd (hd _ h) (by decide)

/-- No byte of a numeral is a carriage return, so a numeral never holds a line end. -/
theorem Numeral.cr_not_mem {numeral : Bytes} {z : Int} (h : Numeral numeral z) :
    Bytes.cr ∉ numeral := by
  cases h with
  | plain hne hd => exact fun hm => absurd (hd _ hm) (by decide)
  | signed hne hd =>
    rw [List.mem_cons]
    rintro (hm | hm)
    · exact absurd hm (by decide)
    · exact absurd (hd _ hm) (by decide)

theorem read?_eq_some_of_digits {limit : Nat} {digits : Bytes} (hl : 9 ≤ limit)
    (hne : digits ≠ []) (hd : ∀ b ∈ digits, Bytes.isDigit b = true)
    (hle : value digits ≤ limit) : read? limit digits = some (value digits) :=
  (read?_eq_some_iff hl).mpr ⟨hne, hd, rfl, hle⟩

theorem readSigned?_minus (limit : Nat) (rest : Bytes) :
    readSigned? limit (minus :: rest) = (read? limit rest).map fun n => -Int.ofNat n := by
  simp only [readSigned?, minus, if_true]
  cases read? limit rest <;> rfl

theorem readSigned?_of_ne {limit : Nat} {b : UInt8} (hb : b ≠ minus) (rest : Bytes) :
    readSigned? limit (b :: rest) = (read? limit (b :: rest)).map Int.ofNat := by
  have hsign : ¬ b = 45 := hb
  rw [readSigned?, if_neg hsign]
  cases read? limit (b :: rest) <;> rfl

/-- The signed reader accepts exactly the numerals whose magnitude keeps to the limit. -/
theorem readSigned?_eq_some_iff {limit : Nat} {s : Bytes} {z : Int} (hl : 9 ≤ limit) :
    readSigned? limit s = some z ↔ Numeral s z ∧ z.natAbs ≤ limit := by
  constructor
  · intro h
    cases s with
    | nil => cases h
    | cons b rest =>
      by_cases hb : b = minus
      · subst hb
        rw [readSigned?_minus] at h
        obtain ⟨n, hr, rfl⟩ := Option.map_eq_some_iff.mp h
        obtain ⟨hne, hd, rfl, hle⟩ := (read?_eq_some_iff hl).mp hr
        refine ⟨.signed hne hd, ?_⟩
        rwa [Int.natAbs_neg]
      · rw [readSigned?_of_ne hb] at h
        obtain ⟨n, hr, rfl⟩ := Option.map_eq_some_iff.mp h
        obtain ⟨hne, hd, rfl, hle⟩ := (read?_eq_some_iff hl).mp hr
        exact ⟨.plain hne hd, hle⟩
  · rintro ⟨hn, hle⟩
    cases hn with
    | plain hne hd =>
      obtain ⟨b, rest, rfl⟩ := List.exists_cons_of_ne_nil hne
      have hb : b ≠ minus := fun hb => minus_not_mem hd (hb ▸ List.mem_cons_self)
      rw [readSigned?_of_ne hb, read?_eq_some_of_digits hl hne hd hle]
      rfl
    | signed hne hd =>
      rw [Int.natAbs_neg] at hle
      rw [readSigned?_minus, read?_eq_some_of_digits hl hne hd hle]
      rfl

/-- Bytes are a numeral of one number at most. -/
theorem Numeral.unique {s : Bytes} {a b : Int} (ha : Numeral s a) (hb : Numeral s b) : a = b := by
  have hread : ∀ z, Numeral s z → z.natAbs ≤ 9 + a.natAbs + b.natAbs →
      readSigned? (9 + a.natAbs + b.natAbs) s = some z :=
    fun z hz hle => (readSigned?_eq_some_iff (by omega)).mpr ⟨hz, hle⟩
  exact Option.some.inj ((hread a ha (by omega)).symm.trans (hread b hb (by omega)))

theorem digit_digitValue {b : UInt8} (h : Bytes.isDigit b = true) : digit (digitValue b) = b := by
  rw [digit, ← toNat_of_isDigit h, UInt8.ofNat_toNat]

theorem value_append_singleton (front : Bytes) (b : UInt8) :
    value (front ++ [b]) = value front * 10 + digitValue b := valueFrom_append 0 front [b]

/-- Digits are those written for their value, or there are more of them than it takes. The induction
takes the last digit off, as the writer does. -/
theorem sameOrLonger_digits {digits : Bytes} (hne : digits ≠ [])
    (hd : ∀ b ∈ digits, Bytes.isDigit b = true) :
    (ofNat (value digits)).SameOrLonger digits := by
  induction digits using List.reverseRecOn with
  | nil => exact absurd rfl hne
  | append_singleton front b ih =>
    obtain ⟨hfront, hlast⟩ := List.forall_mem_append.mp hd
    have hb : Bytes.isDigit b = true := hlast b List.mem_cons_self
    have hle := digitValue_le hb
    rw [value_append_singleton]
    by_cases hz : value front = 0
    · rw [hz, Nat.zero_mul, Nat.zero_add, ofNat_of_lt (by omega), digit_digitValue hb]
      cases front with
      | nil => exact Or.inl rfl
      | cons first others =>
        right
        simp only [List.length_append, List.length_cons, List.length_nil]
        omega
    · have hne' : front ≠ [] := by
        rintro rfl
        exact hz rfl
      have hq : (value front * 10 + digitValue b) / 10 = value front := by omega
      have hr : (value front * 10 + digitValue b) % 10 = digitValue b := by omega
      rw [ofNat_of_le (by omega), hq, hr, digit_digitValue hb]
      exact (ih hne' hfront).append (Or.inl rfl)

theorem Numeral.sameOrLonger {numeral : Bytes} {n : Nat} (h : Numeral numeral n) :
    (ofNat n).SameOrLonger numeral := by
  generalize hz : (n : Int) = z at h
  cases h with
  | plain hne hd =>
    obtain rfl := Int.ofNat.inj hz
    exact sameOrLonger_digits hne hd
  | @signed digits hne hd =>
    -- Only zero has a sign here, and its one digit is shorter than any digits with a sign.
    have h0 : n = 0 := by omega
    right
    rw [h0, ofNat_of_lt (by decide), List.length_singleton, List.length_cons]
    have hpos := List.length_pos_iff.mpr hne
    omega

end Decimal

end RespLoad
