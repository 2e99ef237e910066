import Mathlib.Tactic.ByContra
import RespLoad.Proofs.Number.Decimal
import RespLoad.Wire.Frame

/-!
# What the scanners see

A scanner that answers has used up a front part of its buffer and has not looked behind it: with
more bytes behind the buffer it gives the same answer, and the new bytes stay behind the old rest
(`Stable`). Sequencing keeps this, so it holds of every scanner of the grammar once it holds of the
two that look at bytes, `line?` and `block`. The second part runs the scanners on what the encoder
writes; data that imitates framing is harmless because only lengths are consulted.
-/
namespace RespLoad

namespace Scan

variable {α β : Type}

/-- The answer of a scan with more bytes behind the buffer. -/
def extend (more : Bytes) : Scan α → Scan α
  | .incomplete => .incomplete
  | .malformed rest => .malformed (rest ++ more)
  | .complete value rest => .complete value (rest ++ more)

/-- An answer, once given, is not changed by bytes that arrive later. -/
def Stable (scanner : Bytes → Scan α) : Prop :=
  ∀ buffer more, scanner buffer ≠ .incomplete →
    scanner (buffer ++ more) = (scanner buffer).extend more

theorem stable_complete (value : α) : Stable (Scan.complete value) := fun _ _ _ => rfl

/-- Sequencing keeps stability: the second scanner starts where the first has stopped. -/
theorem Stable.andThen {scanner : Bytes → Scan α} {next : α → Bytes → Scan β}
    (hs : Stable scanner) (hn : ∀ value, Stable (next value)) :
    Stable fun buffer => (scanner buffer).andThen next := by
  intro buffer more h
  cases hb : scanner buffer with
  | incomplete =>
    simp only [hb, Scan.andThen] at h
    exact absurd rfl h
  | malformed rest =>
    have hm := hs buffer more (by simp [hb])
    simp only [hm, hb, extend, Scan.andThen]
  | complete value rest =>
    have hm := hs buffer more (by simp [hb])
    simp only [hb, Scan.andThen] at h
    simp only [hm, hb, extend, Scan.andThen]
    exact hn value rest more h

/-- A line ends at the first line end, wherever the buffer goes on. -/
theorem line?_eq_some {buffer line rest : Bytes} (h : line? buffer = some (line, rest)) :
    buffer = line ++ Bytes.crlf ++ rest ∧
      ∀ more, line? (buffer ++ more) = some (line, rest ++ more) := by
  fun_induction line? buffer generalizing line with
  | case1 a b tail hcrlf =>
    obtain ⟨rfl, rfl⟩ := hcrlf
    cases h
    exact ⟨rfl, fun more => rfl⟩
  | case2 a b tail hcrlf ih =>
    simp only [Option.map_eq_some_iff, Prod.exists, Prod.mk.injEq] at h
    obtain ⟨shorter, after, hline, rfl, rfl⟩ := h
    obtain ⟨hb, hm⟩ := ih hline
    refine ⟨by rw [hb]; rfl, fun more => ?_⟩
    have hc : b :: tail ++ more = b :: (tail ++ more) := rfl
    rw [List.cons_append, List.cons_append, line?, if_neg hcrlf, ← hc, hm more]
    rfl
  | case3 => cases h

theorem line?_append_crlf {line : Bytes} (h : Bytes.cr ∉ line) (rest : Bytes) :
    line? (line ++ Bytes.crlf ++ rest) = some (line, rest) := by
  induction line with
  | nil => rfl
  | cons a line ih =>
    obtain ⟨ha, hl⟩ := not_or.mp (mt List.mem_cons.mpr h)
    have hi := ih hl
    cases hs : line ++ Bytes.crlf ++ rest with
    | nil => rw [hs] at hi; cases hi
    | cons b tail =>
      have hne : ¬ (a = Bytes.cr ∧ b = Bytes.lf) := fun hc => ha hc.1.symm
      rw [List.cons_append, List.cons_append, hs, line?, if_neg hne, ← hs, hi]
      rfl

theorem stable_size : Stable size := by
  intro buffer more h
  cases hl : line? buffer with
  | none => simp [size, hl] at h
  | some pair =>
    obtain ⟨line, rest⟩ := pair
    simp only [size, hl, (line?_eq_some hl).2 more]
    split <;> rfl

theorem stable_block (length : Nat) : Stable (block length) := by
  intro buffer more h
  match hd : buffer.drop length with
  | [] => simp [block, hd] at h
  | [a] => simp [block, hd] at h
  | a :: b :: rest =>
    have hle : length ≤ buffer.length := by
      by_contra hlt
      rw [List.drop_eq_nil_of_le (by omega)] at hd
      cases hd
    have ht : (buffer ++ more).take length = buffer.take length :=
      List.take_append_of_le_length hle
    have hm : (buffer ++ more).drop length = a :: b :: (rest ++ more) := by
      rw [List.drop_append_of_le_length hle, hd]
      rfl
    simp only [block, hd, hm, ht]
    split <;> rfl

theorem stable_argument : Stable argument := by
  intro buffer more h
  cases buffer with
  | nil => exact absurd rfl h
  | cons b rest =>
    by_cases hb : b = Command.bulkMark
    · simp only [argument, if_pos hb, List.cons_append] at h ⊢
      exact stable_size.andThen stable_block rest more h
    · simp only [argument, if_neg hb, List.cons_append, extend]

theorem stable_arguments (count : Nat) : Stable (arguments count) := by
  induction count with
  | zero => exact stable_complete []
  | succ count ih =>
    exact stable_argument.andThen fun first =>
      ih.andThen fun others => stable_complete (first :: others)

theorem stable_request : Stable request := by
  intro buffer more h
  cases buffer with
  | nil => exact absurd rfl h
  | cons b rest =>
    by_cases hb : b = Command.arrayMark
    · simp only [request, if_pos hb, List.cons_append] at h ⊢
      exact stable_size.andThen stable_arguments rest more h
    · simp only [request, if_neg hb] at h
      exact absurd rfl h

/-- An answer about a count or length is given behind a line end, which takes two bytes. -/
theorem length_add_two_le_of_size {buffer rest : Bytes} (h : (size buffer).rest? = some rest) :
    rest.length + 2 ≤ buffer.length := by
  unfold size at h
  split at h
  · cases h
  · rename_i line after hline
    have hb := congrArg List.length (line?_eq_some hline).1
    simp only [List.length_append, Bytes.crlf, List.length_cons, List.length_nil] at hb
    split at h <;> cases h <;> omega

/-- An answer about a request uses up the array mark and a line end at least. -/
theorem length_add_three_le_of_request {buffer rest : Bytes}
    (h : (request buffer).rest? = some rest) : rest.length + 3 ≤ buffer.length := by
  cases buffer with
  | nil => cases h
  | cons b tail =>
    by_cases hb : b = Command.arrayMark
    · simp only [request, if_pos hb] at h
      have hs : ∀ r, (size tail).rest? = some r → r.length ≤ tail.length - 2 := fun r hr => by
        have h2 := length_add_two_le_of_size hr
        omega
      have ht : 2 ≤ tail.length := by
        cases hz : size tail with
        | incomplete => rw [hz] at h; cases h
        | malformed r =>
          have h2 := length_add_two_le_of_size (congrArg rest? hz)
          omega
        | complete v r =>
          have h2 := length_add_two_le_of_size (congrArg rest? hz)
          omega
      have hl := length_le_of_andThen _ hs (fun _ _ _ => length_le_of_arguments) h
      simp only [List.length_cons]
      omega
    · simp only [request, if_neg hb] at h
      cases h

end Scan

end RespLoad
