import Mathlib.Algebra.Group.Nat.Defs
import Mathlib.Data.Nat.Init
import RespLoad.Number.Decimal

/-!
# Numerals and their values

`value` says what a string of digits denotes. The bounded reader accepts exactly the non-empty
strings of digits whose value keeps to the limit (`read?_eq_some_iff`), and what is written for a
number denotes that number (`value_ofNat`). Limits below nine are left out: the guard of the reader
subtracts a digit from the limit.
-/
namespace RespLoad.Decimal

/-- The value of further digits behind a value already read. -/
def valueFrom (start : Nat) (digits : Bytes) : Nat :=
  digits.foldl (fun value b => value * 10 + digitValue b) start

/-- The number that a string of digits denotes. -/
def value (digits : Bytes) : Nat := valueFrom 0 digits

theorem valueFrom_append (start : Nat) (front back : Bytes) :
    valueFrom start (front ++ back) = valueFrom (valueFrom start front) back :=
  List.foldl_append

theorem le_valueFrom (start : Nat) (digits : Bytes) : start ≤ valueFrom start digits := by
  induction digits generalizing start with
  | nil => exact Nat.le_refl _
  | cons b rest ih =>
    have h : start * 10 + digitValue b ≤ valueFrom start (b :: rest) := ih _
    omega

theorem isDigit_digit : ∀ d < 10, Bytes.isDigit (digit d) = true := by decide

theorem digitValue_digit : ∀ d < 10, digitValue (digit d) = d := by decide

theorem toNat_of_isDigit {b : UInt8} (h : Bytes.isDigit b = true) :
    b.toNat = 48 + digitValue b := by
  simp only [Bytes.isDigit, Bool.and_eq_true, decide_eq_true_eq, UInt8.le_iff_toNat_le] at h
  have h48 : (48 : UInt8).toNat = 48 := rfl
  unfold digitValue
  omega

theorem digitValue_le {b : UInt8} (h : Bytes.isDigit b = true) : digitValue b ≤ 9 := by
  simp only [Bytes.isDigit, Bool.and_eq_true, decide_eq_true_eq, UInt8.le_iff_toNat_le] at h
  have h57 : (57 : UInt8).toNat = 57 := rfl
  unfold digitValue
  omega

/-- The guard before a digit is taken in is the bound on the value after it. -/
theorem guard_iff {limit v d : Nat} (hd : d ≤ limit) :
    ¬ (limit - d) / 10 < v ↔ v * 10 + d ≤ limit := by
  rw [Nat.not_lt, Nat.le_div_iff_mul_le (by decide)]
  omega

theorem extend?_eq_some_iff {limit v n : Nat} {b : UInt8} (hl : 9 ≤ limit) :
    extend? limit v b = some n ↔
      Bytes.isDigit b = true ∧ n = v * 10 + digitValue b ∧ n ≤ limit := by
  unfold extend?
  by_cases hb : Bytes.isDigit b = true
  · have hd := digitValue_le hb
    have hg := guard_iff (v := v) (Nat.le_trans hd hl)
    rw [if_pos hb]
    by_cases ho : (limit - digitValue b) / 10 < v
    · rw [if_pos ho]
      have hn : ¬ v * 10 + digitValue b ≤ limit := fun h => hg.mpr h ho
      constructor
      · intro h; cases h
      · rintro ⟨_, rfl, hle⟩; exact absurd hle hn
    · rw [if_neg ho, Option.some.injEq]
      constructor
      · rintro rfl; exact ⟨hb, rfl, hg.mp ho⟩
      · rintro ⟨_, rfl, _⟩; rfl
  · rw [if_neg hb]
    constructor
    · intro h; cases h
    · rintro ⟨h, _⟩; exact absurd h hb

/-- Reading on from a value: every byte is a digit and the value in the end keeps to the limit. The
values on the way are bounded by the last one. -/
theorem foldlM_extend?_eq_some_iff {limit start n : Nat} {digits : Bytes} (hl : 9 ≤ limit)
    (hs : start ≤ limit) :
    digits.foldlM (extend? limit) start = some n ↔
      (∀ b ∈ digits, Bytes.isDigit b = true) ∧ valueFrom start digits = n ∧ n ≤ limit := by
  induction digits generalizing start with
  | nil =>
    simp only [List.foldlM_nil, valueFrom, List.foldl_nil, List.not_mem_nil, false_implies,
      implies_true, true_and]
    constructor
    · intro h; cases h; exact ⟨rfl, hs⟩
    · rintro ⟨rfl, _⟩; rfl
  | cons b rest ih =>
    have hv : valueFrom start (b :: rest) = valueFrom (start * 10 + digitValue b) rest := rfl
    rw [List.foldlM_cons, hv, List.forall_mem_cons]
    cases he : extend? limit start b with
    | none =>
      constructor
      · intro h; cases h
      · rintro ⟨⟨hb, _⟩, hn, hle⟩
        have hm := le_valueFrom (start * 10 + digitValue b) rest
        rw [(extend?_eq_some_iff hl).mpr ⟨hb, rfl, by omega⟩] at he
        cases he
    | some v =>
      obtain ⟨hb, rfl, hle⟩ := (extend?_eq_some_iff hl).mp he
      exact (ih hle).trans (by simp [hb])

/-- The reader accepts exactly the numerals within its limit. -/
theorem read?_eq_some_iff {limit n : Nat} {s : Bytes} (hl : 9 ≤ limit) :
    read? limit s = some n ↔
      s ≠ [] ∧ (∀ b ∈ s, Bytes.isDigit b = true) ∧ value s = n ∧ n ≤ limit := by
  unfold read?
  cases s with
  | nil => simp
  | cons b rest =>
    rw [if_neg (by simp), foldlM_extend?_eq_some_iff hl (Nat.zero_le _)]
    simp [value]

theorem ofNat_of_lt {n : Nat} (h : n < 10) : ofNat n = [digit n] := by
  rw [ofNat, if_pos h]

theorem ofNat_of_le {n : Nat} (h : 10 ≤ n) : ofNat n = ofNat (n / 10) ++ [digit (n % 10)] := by
  rw [ofNat, if_neg (by omega)]

theorem ofNat_ne_nil (n : Nat) : ofNat n ≠ [] := by
  rw [ofNat]
  split <;> simp

theorem isDigit_of_mem_ofNat {n : Nat} : ∀ b ∈ ofNat n, Bytes.isDigit b = true := by
  induction n using Nat.strong_induction_on with
  | _ n ih =>
    intro b hb
    by_cases h : n < 10
    · rw [ofNat_of_lt h, List.mem_singleton] at hb
      rw [hb]
      exact isDigit_digit n h
    · rw [ofNat_of_le (by omega), List.mem_append, List.mem_singleton] at hb
      rcases hb with hb | rfl
      · exact ih (n / 10) (by omega) b hb
      · exact isDigit_digit _ (by omega)

/-- Only zero is written with a zero in front. -/
theorem eq_zero_of_head?_ofNat {n : Nat} (h : (ofNat n).head? = some (digit 0)) : n = 0 := by
  induction n using Nat.strong_induction_on with
  | _ n ih =>
    by_cases hn : n < 10
    · rw [ofNat_of_lt hn, List.head?_singleton, Option.some.injEq] at h
      rw [← digitValue_digit n hn, h]
      rfl
    · obtain ⟨first, more, hq⟩ := List.exists_cons_of_ne_nil (ofNat_ne_nil (n / 10))
      rw [ofNat_of_le (by omega), hq] at h
      have := ih (n / 10) (by omega) (by rw [hq]; exact h)
      omega

theorem value_ofNat (n : Nat) : value (ofNat n) = n := by
  induction n using Nat.strong_induction_on with
  | _ n ih =>
    by_cases h : n < 10
    · rw [ofNat_of_lt h]
      simp [value, valueFrom, digitValue_digit n h]
    · have hq : valueFrom 0 (ofNat (n / 10)) = n / 10 := ih (n / 10) (by omega)
      rw [ofNat_of_le (by omega), value, valueFrom_append, hq]
      simp only [valueFrom, List.foldl_cons, List.foldl_nil]
      rw [digitValue_digit _ (by omega)]
      omega

theorem read?_ofNat {limit n : Nat} (hl : 9 ≤ limit) (hn : n ≤ limit) :
    read? limit (ofNat n) = some n :=
  (read?_eq_some_iff hl).mpr ⟨ofNat_ne_nil n, isDigit_of_mem_ofNat, value_ofNat n, hn⟩

/-- A numeral below a power of ten has at most as many digits as the exponent says. -/
theorem length_ofNat_le {n k : Nat} (h : n < 10 ^ (k + 1)) : (ofNat n).length ≤ k + 1 := by
  induction k generalizing n with
  | zero => rw [ofNat_of_lt (by simpa using h)]; simp
  | succ k ih =>
    by_cases h10 : n < 10
    · rw [ofNat_of_lt h10]; simp
    · have hq : n / 10 < 10 ^ (k + 1) := by
        rw [Nat.pow_succ] at h
        omega
      have hl := ih hq
      rw [ofNat_of_le (by omega), List.length_append, List.length_singleton]
      omega

/-- A numeral is no sign, so the signed reader takes it as it stands. -/
theorem readSigned?_ofNat {limit n : Nat} (hl : 9 ≤ limit) (hn : n ≤ limit) :
    readSigned? limit (ofNat n) = some (n : Int) := by
  have hr := read?_ofNat hl hn
  cases hs : ofNat n with
  | nil => exact absurd hs (ofNat_ne_nil n)
  | cons b rest =>
    have hb : b ≠ 45 := by
      rintro rfl
      exact absurd (isDigit_of_mem_ofNat 45 (hs ▸ List.mem_cons_self)) (by decide)
    rw [readSigned?, if_neg hb, ← hs, hr]
    rfl

end RespLoad.Decimal
