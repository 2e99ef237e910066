import RespLoad.Wire.Command

/-!
# Scanning requests

A scanner looks at the front of a buffer that may still grow. It answers `incomplete` when the bytes
at hand do not decide, `complete` with a value and the bytes behind it, or `malformed` with the bytes
behind the fault, where the next frame is looked for. The lemmas at the end say that an answer always
leaves fewer bytes than there were.
-/
namespace RespLoad

/-- What the front of a buffer holds. -/
inductive Scan (α : Type) where
  | incomplete
  | malformed (rest : Bytes)
  | complete (value : α) (rest : Bytes)
  deriving Repr, DecidableEq

namespace Scan

/-- Scans on behind a complete value. -/
def andThen {α β : Type} (scan : Scan α) (next : α → Bytes → Scan β) : Scan β :=
  match scan with
  | .incomplete => .incomplete
  | .malformed rest => .malformed rest
  | .complete value rest => next value rest

/-- The bytes behind an answer, if there is an answer. -/
def rest? {α : Type} : Scan α → Option Bytes
  | .incomplete => none
  | .malformed rest => some rest
  | .complete _ rest => some rest

/-- The line before the first line end, and the bytes behind that line end. -/
def line? : Bytes → Option (Bytes × Bytes)
  | a :: b :: rest =>
    if a = Bytes.cr ∧ b = Bytes.lf then some ([], rest)
    else (line? (b :: rest)).map fun (line, after) => (a :: line, after)
  | _ => none

/-- A count or length up to its line end: a numeral of at most `Decimal.maxInt32` in magnitude that
is not negative. -/
def size (buffer : Bytes) : Scan Nat :=
  match line? buffer with
  | none => .incomplete
  | some (line, rest) =>
    match Decimal.readSigned? Decimal.maxInt32 line with
    | some (.ofNat n) => .complete n rest
    | _ => .malformed rest

/-- Exactly `length` bytes of data and the line end behind them. -/
def block (length : Nat) (buffer : Bytes) : Scan Bytes :=
  match buffer.drop length with
  | a :: b :: rest =>
    if a = Bytes.cr ∧ b = Bytes.lf then .complete (buffer.take length) rest else .malformed rest
  | _ => .incomplete

/-- One bulk string. A byte other than the mark is left where it is. -/
def argument : Bytes → Scan Bytes
  | [] => .incomplete
  | b :: rest =>
    if b = Command.bulkMark then (size rest).andThen block else .malformed (b :: rest)

/-- So many bulk strings in a row. -/
def arguments : Nat → Bytes → Scan Command
  | 0, buffer => .complete [] buffer
  | count + 1, buffer =>
    (argument buffer).andThen fun first rest =>
      (arguments count rest).andThen fun others rest => .complete (first :: others) rest

/-- One request. A buffer that does not begin with the array mark never becomes one. -/
def request : Bytes → Scan Command
  | [] => .incomplete
  | b :: rest => if b = Command.arrayMark then (size rest).andThen arguments else .incomplete

theorem length_lt_of_line? {buffer line after : Bytes} (h : line? buffer = some (line, after)) :
    after.length < buffer.length := by
  fun_induction line? buffer generalizing line with
  | case1 a b rest hcrlf =>
    cases h
    simp only [List.length_cons]
    omega
  | case2 a b rest hcrlf ih =>
    simp only [Option.map_eq_some_iff, Prod.exists, Prod.mk.injEq] at h
    obtain ⟨shorter, rest', hline, rfl, rfl⟩ := h
    have := ih hline
    simp only [List.length_cons] at this ⊢
    omega
  | case3 => cases h

theorem length_lt_of_size {buffer rest : Bytes} (h : (size buffer).rest? = some rest) :
    rest.length < buffer.length := by
  unfold size at h
  split at h
  · cases h
  · rename_i line after hline
    have hlt := length_lt_of_line? hline
    split at h <;> cases h <;> exact hlt

theorem length_le_of_block {length : Nat} {buffer rest : Bytes}
    (h : (block length buffer).rest? = some rest) : rest.length ≤ buffer.length := by
  unfold block at h
  split at h
  · rename_i a b after hdrop
    have hlen := congrArg List.length hdrop
    simp only [List.length_drop, List.length_cons] at hlen
    split at h <;> cases h <;> omega
  · cases h

theorem length_le_of_andThen {α β : Type} {scan : Scan α} {next : α → Bytes → Scan β} {rest : Bytes}
    (bound : Nat) (hscan : ∀ r, scan.rest? = some r → r.length ≤ bound)
    (hnext : ∀ value r s, (next value r).rest? = some s → s.length ≤ r.length)
    (h : (scan.andThen next).rest? = some rest) : rest.length ≤ bound := by
  cases scan with
  | incomplete => cases h
  | malformed r => cases h; exact hscan _ rfl
  | complete value r => exact Nat.le_trans (hnext value r rest h) (hscan r rfl)

theorem length_le_of_argument {buffer rest : Bytes} (h : (argument buffer).rest? = some rest) :
    rest.length ≤ buffer.length := by
  unfold argument at h
  split at h
  · cases h
  · rename_i b tail
    split at h
    · refine length_le_of_andThen _ (fun r hr => ?_) (fun _ _ _ => length_le_of_block) h
      have := length_lt_of_size hr
      simp only [List.length_cons]
      omega
    · cases h
      exact Nat.le_refl _

theorem length_le_of_arguments {count : Nat} {buffer rest : Bytes}
    (h : (arguments count buffer).rest? = some rest) : rest.length ≤ buffer.length := by
  induction count generalizing buffer rest with
  | zero => cases h; exact Nat.le_refl _
  | succ count ih =>
    refine length_le_of_andThen _ (fun r => length_le_of_argument) (fun first r s hs => ?_) h
    exact length_le_of_andThen _ (fun t => ih) (fun _ _ _ h => by cases h; exact Nat.le_refl _) hs

/-- An answer uses up at least the array mark. -/
theorem length_lt_of_request {buffer rest : Bytes} (h : (request buffer).rest? = some rest) :
    rest.length < buffer.length := by
  unfold request at h
  split at h
  · cases h
  · rename_i b tail
    split at h
    · have := length_le_of_andThen tail.length
        (fun r hr => Nat.le_of_lt (length_lt_of_size hr)) (fun _ _ _ => length_le_of_arguments) h
      simp only [List.length_cons]
      omega
    · cases h

end Scan

end RespLoad
