import RespLoad.Proofs.Wire.Stream

/-!
# Commands survive the wire

The frame of a command is taken off the front of any buffer as exactly that command, whatever its
arguments hold and whatever follows, and no proper prefix of the frame is taken for anything. The
only conditions are the reader's bounds on counts and lengths.
-/
namespace RespLoad

/-- A command whose count and lengths the reader can represent. -/
structure Command.Fits (command : Command) : Prop where
  count : command.length ≤ Decimal.maxInt32
  lengths : ∀ argument ∈ command, argument.length ≤ Decimal.maxInt32

namespace Scan

theorem cr_not_mem_ofNat (n : Nat) : Bytes.cr ∉ Decimal.ofNat n := by
  intro h
  exact absurd (Decimal.isDigit_of_mem_ofNat _ h) (by decide)

theorem size_ofNat {n : Nat} (h : n ≤ Decimal.maxInt32) (rest : Bytes) :
    size (Decimal.ofNat n ++ Bytes.crlf ++ rest) = .complete n rest := by
  have hr : Decimal.readSigned? Decimal.maxInt32 (Decimal.ofNat n) = some (n : Int) :=
    Decimal.readSigned?_ofNat (by decide) h
  unfold size
  rw [line?_append_crlf (cr_not_mem_ofNat n) rest]
  simp only [hr]

/-- A block is found by its length alone; what the data looks like is not consulted. -/
theorem block_append (data rest : Bytes) :
    block data.length (data ++ Bytes.crlf ++ rest) = .complete data rest := by
  have hd : (data ++ Bytes.crlf ++ rest).drop data.length = Bytes.cr :: Bytes.lf :: rest := by
    rw [List.append_assoc]
    exact List.drop_left
  have ht : (data ++ Bytes.crlf ++ rest).take data.length = data := by
    rw [List.append_assoc]
    exact List.take_left
  unfold block
  rw [hd, ht]
  rfl

theorem argument_encodeArgument {data : Bytes} (h : data.length ≤ Decimal.maxInt32)
    (rest : Bytes) :
    argument (Command.encodeArgument data ++ rest) = .complete data rest := by
  have he : Command.encodeArgument data ++ rest =
      Command.bulkMark :: (Decimal.ofNat data.length ++ Bytes.crlf ++
        (data ++ Bytes.crlf ++ rest)) := by
    simp only [Command.encodeArgument, Command.sizeLine, List.cons_append, List.append_assoc]
  rw [he, argument, if_pos rfl, size_ofNat h]
  exact block_append data rest

theorem arguments_encode {command : Command}
    (h : ∀ argument ∈ command, argument.length ≤ Decimal.maxInt32) (rest : Bytes) :
    arguments command.length (command.flatMap Command.encodeArgument ++ rest) =
      .complete command rest := by
  induction command with
  | nil => rfl
  | cons first others ih =>
    obtain ⟨hf, ho⟩ := List.forall_mem_cons.mp h
    rw [List.length_cons, arguments, List.flatMap_cons, List.append_assoc,
      argument_encodeArgument hf]
    simp only [andThen, ih ho]

theorem request_encode {command : Command} (h : command.Fits) (rest : Bytes) :
    request (command.encode ++ rest) = .complete command rest := by
  have he : command.encode ++ rest =
      Command.arrayMark :: (Decimal.ofNat command.length ++ Bytes.crlf ++
        (command.flatMap Command.encodeArgument ++ rest)) := by
    simp only [Command.encode, Command.sizeLine, List.cons_append, List.append_assoc]
  rw [he, request, if_pos rfl, size_ofNat h.count]
  exact arguments_encode h.lengths rest

end Scan

namespace Frame

theorem take?_encode_append {command : Command} (h : command.Fits) (rest : Bytes) :
    take? (command.encode ++ rest) = some ⟨.request command, command.encode.length⟩ := by
  unfold take?
  rw [Scan.request_encode h rest]
  simp only [List.length_append, Nat.add_sub_cancel]

/-- A frame found in a part of the bytes would also be found in all of them, but would be too
short there. -/
theorem take?_of_proper_prefix {command : Command} (h : command.Fits) {start : Bytes}
    (hp : start <+: command.encode) (hne : start ≠ command.encode) : take? start = none := by
  obtain ⟨missing, hm⟩ := hp
  cases hs : take? start with
  | none => rfl
  | some taken =>
    have hw := take?_encode_append h []
    rw [List.append_nil, ← hm, take?_append missing hs, Option.some.injEq] at hw
    have hle := consumed_le hs
    simp only [hw, List.length_append] at hle
    have hz : missing = [] := List.eq_nil_of_length_eq_zero (by omega)
    rw [hz, List.append_nil] at hm
    exact absurd hm hne

/-- A command is read back from the front of every stream that begins with its frame, with nothing
of the rest used up, and no earlier cut of the frame yields anything. -/
theorem take?_encode (command : Command) (hcount : command.length ≤ Decimal.maxInt32)
    (hlengths : ∀ argument ∈ command, argument.length ≤ Decimal.maxInt32) :
    (∀ rest, take? (command.encode ++ rest) =
      some ⟨.request command, command.encode.length⟩) ∧
    (∀ start, start <+: command.encode → start ≠ command.encode → take? start = none) := by
  have h : command.Fits := ⟨hcount, hlengths⟩
  exact ⟨take?_encode_append h, fun start hp hne => take?_of_proper_prefix h hp hne⟩

/-- An argument that looks like a frame of its own, with a line end and a zero byte in it. -/
theorem take?_encode_imitation :
    let command : Command := [utf8 "SET", utf8 "*1\r\n$3\r\n", [0, 13, 10, 36]]
    (∀ rest, take? (command.encode ++ rest) = some ⟨.request command, 37⟩) ∧
      ∀ start, start <+: command.encode → start ≠ command.encode → take? start = none := by
  intro command
  have hl : command.encode.length = 37 := by cbv
  have h := take?_encode command (by decide) (by decide)
  exact ⟨fun rest => hl ▸ h.1 rest, h.2⟩

theorem takeAll_encode {commands : List Command} (h : ∀ command ∈ commands, command.Fits) :
    takeAll (commands.flatMap Command.encode) =
      (commands.map fun command => ⟨.request command, command.encode.length⟩, []) := by
  induction commands with
  | nil => exact takeAll_nil
  | cons command more ih =>
    obtain ⟨hf, hm⟩ := List.forall_mem_cons.mp h
    rw [List.flatMap_cons, takeAll_of_some (take?_encode_append hf _)]
    simp only [List.drop_left, ih hm, List.map_cons]

end Frame

end RespLoad
