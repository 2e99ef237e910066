import RespLoad.Text.Utf8

/-!
# Replies

A reply is the bytes of one read. Its kind is told by the first byte alone, and its text is decoded
with replacement, so that whatever a server sends can be shown.
-/
namespace RespLoad

/-- The kinds of reply, told apart by the first byte. -/
inductive ReplyKind where
  | empty
  | simpleString
  | error
  | integer
  | bulkString
  | array
  | unknown
  deriving Repr, DecidableEq

namespace ReplyKind

/-- The kind of the reply that these bytes begin. -/
def ofBytes : Bytes → ReplyKind
  | [] => .empty
  | b :: _ =>
    if b = 43 then .simpleString
    else if b = 45 then .error
    else if b = 58 then .integer
    else if b = 36 then .bulkString
    else if b = 42 then .array
    else .unknown

def name : ReplyKind → Bytes
  | .empty => utf8 "empty"
  | .simpleString => utf8 "simple-string"
  | .error => utf8 "error"
  | .integer => utf8 "integer"
  | .bulkString => utf8 "bulk-string"
  | .array => utf8 "array"
  | .unknown => utf8 "unknown"

end ReplyKind

/-- A reply as it is shown: its text, its kind, and whether bytes were replaced in the text. -/
structure Reply where
  text : Bytes
  kind : ReplyKind
  lossy : Bool
  deriving Repr, DecidableEq

/-- Reads a reply from the bytes of one read. -/
def Reply.decode (bytes : Bytes) : Reply :=
  ⟨Utf8.decode bytes, ReplyKind.ofBytes bytes, Utf8.isLossy bytes⟩

end RespLoad
