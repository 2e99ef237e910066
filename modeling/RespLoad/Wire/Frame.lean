import RespLoad.Wire.Scan

/-!
# Frames in a received stream

A receiver appends what arrives to a buffer and takes frames off its front for as long as there is
one. A frame is a request or a piece of bytes that breaks the framing. Each frame uses up at least
one byte, so taking frames ends.
-/
namespace RespLoad

/-- What was found at the front of a buffer. -/
inductive Frame where
  | request (command : Command)
  | malformed
  deriving Repr, DecidableEq

namespace Frame

/-- The argument list that stands for bytes that break the framing. -/
def malformedMark : Command := [utf8 "__parse_error__"]

/-- The arguments that a receiver is handed. -/
def arguments : Frame → Command
  | .request command => command
  | .malformed => malformedMark

end Frame

/-- A frame and the number of bytes it takes from the front of the buffer. -/
structure Taken where
  frame : Frame
  consumed : Nat
  deriving Repr, DecidableEq

namespace Frame

/-- The frame at the front of a buffer, unless more bytes are needed to tell. -/
def take? (buffer : Bytes) : Option Taken :=
  match Scan.request buffer with
  | .incomplete => none
  | .malformed rest => some ⟨.malformed, buffer.length - rest.length⟩
  | .complete command rest => some ⟨.request command, buffer.length - rest.length⟩

theorem consumed_pos {buffer : Bytes} {taken : Taken} (h : take? buffer = some taken) :
    0 < taken.consumed := by
  unfold take? at h
  split at h
  · cases h
  all_goals
    rename_i hscan
    cases h
    have := Scan.length_lt_of_request (congrArg Scan.rest? hscan)
    simp only
    omega

theorem consumed_le {buffer : Bytes} {taken : Taken} (h : take? buffer = some taken) :
    taken.consumed ≤ buffer.length := by
  unfold take? at h
  split at h
  · cases h
  all_goals
    cases h
    exact Nat.sub_le _ _

/-- Takes frames off the front of a buffer until none is left; what remains is pending. -/
def takeAll (buffer : Bytes) : List Taken × Bytes :=
  match _front : take? buffer with
  | none => ([], buffer)
  | some taken =>
    let (more, pending) := takeAll (buffer.drop taken.consumed)
    (taken :: more, pending)
termination_by buffer.length
decreasing_by
  have := consumed_pos _front
  have := consumed_le _front
  simp only [List.length_drop]
  omega

/-- One arrival: the frames that a chunk completes and the bytes that stay pending. -/
def receive (pending chunk : Bytes) : List Taken × Bytes := takeAll (pending ++ chunk)

/-- The arrivals of successive chunks on a buffer that holds `pending`. -/
def receiveEach (pending : Bytes) : List Bytes → List (List Taken × Bytes)
  | [] => []
  | chunk :: more =>
    let arrival := receive pending chunk
    arrival :: receiveEach arrival.2 more

end Frame

end RespLoad
