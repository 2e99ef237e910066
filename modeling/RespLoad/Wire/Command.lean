import RespLoad.Number.Decimal

/-!
# Commands on the wire

A command is a list of arguments, each an arbitrary byte string. On the wire it is an array of bulk
strings: `*`, the number of arguments and a line end, then for each argument `$`, its length in
bytes, a line end, the bytes themselves and another line end. Lengths decide where an argument ends,
so its bytes need no quoting.
-/
namespace RespLoad

/-- The arguments of one request, the command's name first. -/
abbrev Command := List Bytes

namespace Command

/-- A count or length as the protocol writes it: a marker, the numeral and a line end. -/
def sizeLine (marker : UInt8) (size : Nat) : Bytes := marker :: (Decimal.ofNat size ++ Bytes.crlf)

/-- The mark in front of the number of arguments, an asterisk. -/
def arrayMark : UInt8 := 42

/-- The mark in front of an argument's length, a dollar sign. -/
def bulkMark : UInt8 := 36

/-- One argument as a bulk string. -/
def encodeArgument (argument : Bytes) : Bytes :=
  sizeLine bulkMark argument.length ++ argument ++ Bytes.crlf

/-- The frame of a command. -/
def encode (command : Command) : Bytes :=
  sizeLine arrayMark command.length ++ command.flatMap encodeArgument

end Command

end RespLoad
