import RespLoad.Proofs.Number.Numeral
import RespLoad.Proofs.Wire.RoundTrip

/-!
# The grammar of requests

What a frame of a command may look like (`IsFrame`), said without the scanner: the count and each length
may be written by any numeral of that number. The scanner accepts exactly these frames, whatever stands
behind them, and the frame that the encoder writes is the shortest of them. What becomes of bytes that
are no frame is not spoken of.
-/
namespace RespLoad

namespace Command

/-- A line that says how many: a mark, a numeral of the number, and a line end. -/
inductive IsSizeLine (marker : UInt8) (size : Nat) : Bytes → Prop
  | mk {numeral : Bytes} (hn : Decimal.Numeral numeral size) (hs : size ≤ Decimal.maxInt32) :
      IsSizeLine marker size (marker :: (numeral ++ Bytes.crlf))

/-- One bulk string for each argument: a line with its length, its bytes and a line end. -/
inductive AreBulkStrings : Command → Bytes → Prop
  | nil : AreBulkStrings [] []
  | cons {argument header more : Bytes} {others : Command}
      (hh : IsSizeLine bulkMark argument.length header) (hm : AreBulkStrings others more) :
      AreBulkStrings (argument :: others) (header ++ argument ++ Bytes.crlf ++ more)

/-- A frame of a command: a line with the number of arguments, and their bulk strings. -/
inductive IsFrame (command : Command) : Bytes → Prop
  | mk {header groups : Bytes} (hh : IsSizeLine arrayMark command.length header)
      (hg : AreBulkStrings command groups) : IsFrame command (header ++ groups)

theorem IsSizeLine.sameOrLonger {marker : UInt8} {size : Nat} {line : Bytes}
    (h : IsSizeLine marker size line) : (sizeLine marker size).SameOrLonger line := by
  cases h with
  | mk hn hs =>
    exact Bytes.SameOrLonger.append (a := [marker]) (Or.inl rfl) (hn.sameOrLonger.append (Or.inl rfl))

theorem AreBulkStrings.sameOrLonger {command : Command} {groups : Bytes}
    (h : AreBulkStrings command groups) :
    Bytes.SameOrLonger (command.flatMap encodeArgument) groups := by
  induction h with
  | nil => exact Or.inl rfl
  | cons hh hm ih =>
    exact ((hh.sameOrLonger.append (Or.inl rfl)).append (Or.inl rfl)).append ih

/-- No frame of a command is shorter than the one that is written for it, and none other is as
short. -/
theorem IsFrame.sameOrLonger {command : Command} {frame : Bytes} (h : IsFrame command frame) :
    command.encode.SameOrLonger frame := by
  cases h with
  | mk hh hg => exact hh.sameOrLonger.append hg.sameOrLonger

end Command

namespace Scan

open Command

theorem andThen_eq_complete_iff {α β : Type} {scan : Scan α} {next : α → Bytes → Scan β} {value : β}
    {rest : Bytes} :
    scan.andThen next = .complete value rest ↔
      ∃ first behind, scan = .complete first behind ∧ next first behind = .complete value rest := by
  cases scan with
  | incomplete => simp [andThen]
  | malformed behind => simp [andThen]
  | complete first behind => simp [andThen]

/-- A size is read from a numeral up to the first line end, which no numeral holds. -/
theorem size_eq_complete_iff {buffer rest : Bytes} {n : Nat} :
    size buffer = .complete n rest ↔ ∃ numeral, Decimal.Numeral numeral n ∧
      n ≤ Decimal.maxInt32 ∧ buffer = numeral ++ Bytes.crlf ++ rest := by
  have hlimit : 9 ≤ Decimal.maxInt32 := by decide
  constructor
  · intro h
    unfold size at h
    split at h
    · cases h
    · rename_i line after hline
      split at h
      · rename_i m hread
        cases h
        obtain ⟨hn, hle⟩ := (Decimal.readSigned?_eq_some_iff hlimit).mp hread
        exact ⟨line, hn, hle, (line?_eq_some hline).1⟩
      · cases h
  · rintro ⟨numeral, hn, hle, rfl⟩
    have hread : Decimal.readSigned? Decimal.maxInt32 numeral = some (Int.ofNat n) :=
      (Decimal.readSigned?_eq_some_iff hlimit).mpr ⟨hn, hle⟩
    unfold size
    rw [line?_append_crlf hn.cr_not_mem rest]
    simp only [hread]

theorem block_eq_complete_iff {length : Nat} {buffer data rest : Bytes} :
    block length buffer = .complete data rest ↔
      data.length = length ∧ buffer = data ++ Bytes.crlf ++ rest := by
  constructor
  · intro h
    unfold block at h
    split at h
    · rename_i a b behind hdrop
      split at h
      · rename_i hend
        obtain ⟨rfl, rfl⟩ := hend
        cases h
        have hlength := congrArg List.length hdrop
        simp only [List.length_drop, List.length_cons] at hlength
        refine ⟨List.length_take_of_le (by omega), ?_⟩
        calc buffer = buffer.take length ++ buffer.drop length := (List.take_append_drop _ _).symm
          _ = buffer.take length ++ Bytes.crlf ++ rest := by rw [hdrop, List.append_assoc]; rfl
      · cases h
    · cases h
  · rintro ⟨rfl, rfl⟩
    exact block_append data rest

theorem argument_eq_complete_iff {buffer data rest : Bytes} :
    argument buffer = .complete data rest ↔
      ∃ header, IsSizeLine bulkMark data.length header ∧
        buffer = header ++ data ++ Bytes.crlf ++ rest := by
  constructor
  · intro h
    unfold argument at h
    split at h
    · cases h
    · rename_i b tail
      split at h
      · rename_i hmark
        obtain ⟨n, behind, hsize, hblock⟩ := andThen_eq_complete_iff.mp h
        obtain ⟨rfl, rfl⟩ := block_eq_complete_iff.mp hblock
        obtain ⟨numeral, hn, hle, rfl⟩ := size_eq_complete_iff.mp hsize
        refine ⟨_, .mk hn hle, ?_⟩
        rw [hmark]
        simp only [List.cons_append, List.append_assoc]
      · cases h
  · rintro ⟨header, ⟨hn, hle⟩, rfl⟩
    simp only [List.cons_append, List.append_assoc, argument, if_true]
    refine andThen_eq_complete_iff.mpr ⟨_, _, size_eq_complete_iff.mpr ⟨_, hn, hle, ?_⟩,
      block_eq_complete_iff.mpr ⟨rfl, rfl⟩⟩
    simp only [List.append_assoc]

theorem arguments_eq_complete_iff {count : Nat} {buffer rest : Bytes} {command : Command} :
    arguments count buffer = .complete command rest ↔
      command.length = count ∧ ∃ groups, AreBulkStrings command groups ∧ buffer = groups ++ rest := by
  induction count generalizing buffer command with
  | zero =>
    constructor
    · intro h
      cases h
      exact ⟨rfl, [], .nil, rfl⟩
    · rintro ⟨hlength, groups, hgroups, rfl⟩
      obtain rfl := List.eq_nil_of_length_eq_zero hlength
      cases hgroups
      rfl
  | succ count ih =>
    rw [arguments, andThen_eq_complete_iff]
    constructor
    · rintro ⟨first, behind, hfirst, hmore⟩
      obtain ⟨others, last, hothers, hdone⟩ := andThen_eq_complete_iff.mp hmore
      cases hdone
      obtain ⟨header, hheader, rfl⟩ := argument_eq_complete_iff.mp hfirst
      obtain ⟨rfl, groups, hgroups, rfl⟩ := ih.mp hothers
      exact ⟨rfl, _, .cons hheader hgroups, (List.append_assoc _ _ _).symm⟩
    · rintro ⟨hlength, groups, hgroups, rfl⟩
      cases hgroups with
      | nil => cases hlength
      | @cons first header more others hheader hmore =>
        have hothers := ih.mpr ⟨Nat.succ.inj hlength, more, hmore, rfl⟩
        refine ⟨first, more ++ rest, argument_eq_complete_iff.mpr ⟨header, hheader, ?_⟩,
          andThen_eq_complete_iff.mpr ⟨others, rest, hothers, rfl⟩⟩
        exact List.append_assoc _ _ _

/-- The scanner reads a command exactly off the buffers that begin with a frame of it. -/
theorem request_eq_complete_iff {buffer rest : Bytes} {command : Command} :
    request buffer = .complete command rest ↔
      ∃ frame, IsFrame command frame ∧ buffer = frame ++ rest := by
  constructor
  · intro h
    unfold request at h
    split at h
    · cases h
    · rename_i b tail
      split at h
      · rename_i hmark
        obtain ⟨count, behind, hsize, harguments⟩ := andThen_eq_complete_iff.mp h
        obtain ⟨rfl, groups, hgroups, rfl⟩ := arguments_eq_complete_iff.mp harguments
        obtain ⟨numeral, hn, hle, rfl⟩ := size_eq_complete_iff.mp hsize
        refine ⟨_, .mk (.mk hn hle) hgroups, ?_⟩
        rw [hmark]
        simp only [List.cons_append, List.append_assoc]
      · cases h
  · rintro ⟨frame, ⟨⟨hn, hle⟩, hgroups⟩, rfl⟩
    simp only [List.cons_append, List.append_assoc, request, if_true]
    refine andThen_eq_complete_iff.mpr ⟨_, _, size_eq_complete_iff.mpr ⟨_, hn, hle, ?_⟩,
      arguments_eq_complete_iff.mpr ⟨rfl, _, hgroups, rfl⟩⟩
    simp only [List.append_assoc]

end Scan

namespace Frame

/-- A request is taken from a buffer exactly if it begins with a frame of that many bytes. -/
theorem take?_eq_request_iff {buffer : Bytes} {command : Command} {n : Nat} :
    take? buffer = some ⟨.request command, n⟩ ↔
      n ≤ buffer.length ∧ command.IsFrame (buffer.take n) := by
  constructor
  · intro h
    unfold take? at h
    split at h
    · cases h
    · cases h
    · rename_i found rest hscan
      cases h
      obtain ⟨frame, hframe, rfl⟩ := Scan.request_eq_complete_iff.mp hscan
      rw [List.length_append, Nat.add_sub_cancel, List.take_left]
      exact ⟨Nat.le_add_right _ _, hframe⟩
  · rintro ⟨hle, hframe⟩
    have hscan : Scan.request buffer = .complete command (buffer.drop n) :=
      Scan.request_eq_complete_iff.mpr ⟨_, hframe, (List.take_append_drop n buffer).symm⟩
    have hn : buffer.length - (buffer.drop n).length = n := by
      rw [List.length_drop]
      omega
    simp only [take?, hscan, hn]

/-- The parser accepts exactly its grammar. A frame at the front of a buffer is taken with its
arguments and its length. What is taken with other arguments than the mark of broken framing is a frame
of those arguments; it is at least as long as the frame that is written for them, and as long only if it
is that frame. -/
theorem take?_exact (buffer : Bytes) :
    (∀ (command : Command) (n : Nat), n ≤ buffer.length → command.IsFrame (buffer.take n) →
      ∃ taken, take? buffer = some taken ∧ taken.frame.arguments = command ∧
        taken.consumed = n) ∧
    ∀ taken, take? buffer = some taken → taken.frame.arguments ≠ malformedMark →
      let command := taken.frame.arguments
      let n := taken.consumed
      n ≤ buffer.length ∧ command.IsFrame (buffer.take n) ∧ command.encode.length ≤ n ∧
        (command.encode.length = n ↔ buffer.take n = command.encode) := by
  constructor
  · intro command n hle hframe
    exact ⟨_, take?_eq_request_iff.mpr ⟨hle, hframe⟩, rfl, rfl⟩
  · rintro ⟨frame, n⟩ h hmark
    cases frame with
    | malformed => exact absurd rfl hmark
    | request command =>
      obtain ⟨hle, hframe⟩ := take?_eq_request_iff.mp h
      have hlength := hframe.sameOrLonger.length_le
      rw [List.length_take_of_le hle] at hlength
      exact ⟨hle, hframe, hlength⟩

/-- A count with a zero in front and a length of minus zero make a frame of one empty argument, three
bytes longer than the one that is written for it. -/
theorem take?_exact_padded :
    let buffer := utf8 "*01\r\n$-0\r\n\r\n*1"
    (∃ taken, take? buffer = some taken ∧ taken.frame.arguments = [[]] ∧ taken.consumed = 12) ∧
      Command.IsFrame [[]] (buffer.take 12) ∧ buffer.take 12 ≠ Command.encode [[]] := by
  intro buffer
  have htaken : take? buffer = some ⟨.request [[]], 12⟩ := by decide +kernel
  have hlength : (Command.encode [[]]).length = 10 := by cbv
  obtain ⟨hread, htake⟩ := take?_exact buffer
  clear_value buffer
  obtain ⟨hle, hframe, _, hcanonical⟩ := htake _ htaken (by decide)
  refine ⟨hread [[]] 12 hle hframe, hframe, fun he => ?_⟩
  have hten : (Command.encode [[]]).length = 12 := hcanonical.mpr he
  rw [hlength] at hten
  exact absurd hten (by decide)

end Frame

end RespLoad
