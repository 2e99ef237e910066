import RespLoad.Wire.Command

/-!
# Operations

The four operations that are measured, their names, the command that each iteration of one sends,
and the lists of operations that a user writes.
-/
namespace RespLoad

/-- An operation to measure. -/
inductive Operation where
  | ping
  | set
  | get
  | del
  deriving Repr, DecidableEq

namespace Operation

def all : List Operation := [.ping, .set, .get, .del]

def name : Operation → Bytes
  | .ping => utf8 "PING"
  | .set => utf8 "SET"
  | .get => utf8 "GET"
  | .del => utf8 "DEL"

/-- The operation of this name; ASCII letters may be of either case. -/
def ofName? (name : Bytes) : Option Operation :=
  all.find? fun operation => operation.name == name.map Bytes.upper

/-- The number of distinct keys over which reading and deleting cycle. -/
def keyCycle : Nat := 1000

/-- The greatest number of iterations of one operation. -/
def maxIterations : Nat := 100000000

/-- The command of iteration `i`. Every write has a key of its own; reading and deleting go round
`keyCycle` keys. -/
def command (operation : Operation) (i : Nat) : Command :=
  match operation with
  | .ping => [utf8 "PING"]
  | .set => [utf8 "SET", utf8 "key" ++ Decimal.ofNat i, utf8 "value" ++ Decimal.ofNat i]
  | .get => [utf8 "GET", Decimal.ofNat (i % keyCycle)]
  | .del => [utf8 "DEL", Decimal.ofNat (i % keyCycle)]

/-- Why a list of operations was refused. -/
inductive ListError where
  | unknownName (word : Bytes)
  | noName
  deriving Repr, DecidableEq

def ListError.message : ListError → Bytes
  | .unknownName word =>
    utf8 "unknown operation '" ++ word ++ utf8 "' (expected PING, SET, GET or DEL)"
  | .noName => utf8 "operation list is empty"

/-- Commas and blanks separate the names of a list. -/
def isSeparator (b : UInt8) : Bool := b == 44 || Bytes.isBlank b

/-- The operations of the words, or the first word that names none. -/
def ofNames : List Bytes → Except ListError (List Operation)
  | [] => .ok []
  | word :: more =>
    match ofName? word with
    | none => .error (.unknownName word)
    | some operation => (ofNames more).map (operation :: ·)

/-- Reads a list of at least one name. -/
def parseList (text : Bytes) : Except ListError (List Operation) :=
  match Bytes.words isSeparator text with
  | [] => .error .noName
  | word :: more => ofNames (word :: more)

/-- The names of a list with commas between them. -/
def listText (operations : List Operation) : Bytes :=
  (utf8 ",").intercalate (operations.map name)

end Operation

end RespLoad
