/-!
# Byte strings

All that the load generator reads and writes is made of octets: wire frames, replies, command-line
words, configuration files, the report and the log. A text of the program is written once, as a
string, and is taken to its UTF-8 octets by `utf8`. The character classes below know ASCII only,
because each format that uses them is defined on ASCII.
-/
namespace RespLoad

/-- A string of octets, without any assumption about its encoding. -/
abbrev Bytes := List UInt8

/-- The UTF-8 octets of a text, character by character. -/
def utf8 (text : String) : Bytes := text.toList.flatMap String.utf8EncodeChar

namespace Bytes

def cr : UInt8 := 13

def lf : UInt8 := 10

/-- The line end of the wire protocol. -/
def crlf : Bytes := [cr, lf]

/-- Blank, tab, line feed, vertical tab, form feed or carriage return. -/
def isBlank (b : UInt8) : Bool := b == 32 || (9 ≤ b && b ≤ 13)

def isDigit (b : UInt8) : Bool := 48 ≤ b && b ≤ 57

/-- The capital form of an ASCII letter; every other byte stands for itself. -/
def upper (b : UInt8) : UInt8 := if 97 ≤ b && b ≤ 122 then b - 32 else b

def trimStart (s : Bytes) : Bytes := s.dropWhile isBlank

/-- Drops the longest tail whose bytes all satisfy `p`. -/
def dropTail (p : UInt8 → Bool) (s : Bytes) : Bytes := (s.reverse.dropWhile p).reverse

/-- Drops blanks at both ends. -/
def trim (s : Bytes) : Bytes := dropTail isBlank (trimStart s)

/-- The maximal non-empty runs of bytes that are no separator, in order. -/
def words (isSeparator : UInt8 → Bool) (s : Bytes) : List Bytes :=
  (s.splitOnP isSeparator).filter (!·.isEmpty)

/-- The lines of a file without their line feeds. A last line need not end in one, and a line feed
at the very end opens no further line. -/
def lines : Bytes → List Bytes
  | [] => []
  | b :: rest =>
    if b = lf then [] :: lines rest
    else match lines rest with
      | [] => [[b]]
      | line :: more => (b :: line) :: more

end Bytes

end RespLoad
