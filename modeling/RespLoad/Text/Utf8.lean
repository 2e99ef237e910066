import RespLoad.Bytes

/-!
# Decoding UTF-8 with replacement

A byte string is cut from left to right into segments. A segment is the encoding of one scalar value,
or a stray piece: the longest start of an encoding found where no encoding is complete, or a single
byte that starts none. Which bytes may follow a lead byte is the table of well-formed sequences of
the Unicode standard. Each stray piece is read as one replacement character.
-/
namespace RespLoad.Utf8

/-- An inclusive range of octets. -/
structure OctetRange where
  first : UInt8
  last : UInt8
  deriving Repr, DecidableEq

def OctetRange.contains (range : OctetRange) (b : UInt8) : Bool := range.first ≤ b && b ≤ range.last

/-- The octets that continue a sequence. -/
def continuation : OctetRange := ⟨0x80, 0xBF⟩

/-- The ranges of the octets that follow a lead octet in a well-formed sequence, or nothing if no
sequence starts with it. -/
def trail? (lead : UInt8) : Option (List OctetRange) :=
  if lead < 0x80 then some []
  else if lead < 0xC2 then none
  else if lead ≤ 0xDF then some [continuation]
  else if lead = 0xE0 then some [⟨0xA0, 0xBF⟩, continuation]
  else if lead = 0xED then some [⟨0x80, 0x9F⟩, continuation]
  else if lead ≤ 0xEF then some [continuation, continuation]
  else if lead = 0xF0 then some [⟨0x90, 0xBF⟩, continuation, continuation]
  else if lead ≤ 0xF3 then some [continuation, continuation, continuation]
  else if lead = 0xF4 then some [⟨0x80, 0x8F⟩, continuation, continuation]
  else none

/-- How many octets at the front of `s` fall into the ranges, one after the other. -/
def matched : List OctetRange → Bytes → Nat
  | range :: ranges, b :: rest => if range.contains b then matched ranges rest + 1 else 0
  | _, _ => 0

/-- A piece of a byte string: one encoded scalar value, or octets that encode none. -/
inductive Segment where
  | scalar (octets : Bytes)
  | stray (octets : Bytes)
  deriving Repr, DecidableEq

namespace Segment

def octets : Segment → Bytes
  | .scalar octets => octets
  | .stray octets => octets

def isStray : Segment → Bool
  | .scalar _ => false
  | .stray _ => true

end Segment

/-- The number of octets behind `lead` that belong to its segment. -/
def trailLength (lead : UInt8) (rest : Bytes) : Nat :=
  match trail? lead with
  | none => 0
  | some ranges => matched ranges rest

/-- The segment that starts with `lead`. -/
def segment (lead : UInt8) (rest : Bytes) : Segment :=
  let octets := lead :: rest.take (trailLength lead rest)
  match trail? lead with
  | none => .stray octets
  | some ranges => if trailLength lead rest = ranges.length then .scalar octets else .stray octets

/-- Cuts a byte string into its segments. -/
def segments : Bytes → List Segment
  | [] => []
  | lead :: rest => segment lead rest :: segments (rest.drop (trailLength lead rest))
termination_by s => s.length
decreasing_by
  simp only [List.length_drop, List.length_cons]
  omega

/-- The replacement character U+FFFD. -/
def replacement : Bytes := [0xEF, 0xBF, 0xBD]

/-- A scalar value stands for itself, a stray piece reads as one replacement character. -/
def Segment.decoded : Segment → Bytes
  | .scalar octets => octets
  | .stray _ => replacement

/-- The text of a byte string, each stray piece replaced. -/
def decode (s : Bytes) : Bytes := (segments s).flatMap Segment.decoded

/-- Whether decoding replaces anything. -/
def isLossy (s : Bytes) : Bool := (segments s).any Segment.isStray

end RespLoad.Utf8
