import RespLoad.Settings.Directive

/-!
# Configuration files

A line holds one directive: a key, blanks and a value. A hash sign starts a comment, blanks at both
ends of key and value do not count, and a line without a key or without a value says nothing. Lines are
counted in a word of 32 bits.
-/
namespace RespLoad

/-- The files that can be read, by path. -/
abbrev Files := Bytes → Option Bytes

/-- Why a configuration file was not taken in. -/
inductive FileError where
  | cannotOpen (path : Bytes)
  | refused (path : Bytes) (line : Refusal Int32)
  deriving Repr, DecidableEq

def FileError.message : FileError → Bytes
  | .cannotOpen path => utf8 "cannot open config file '" ++ path ++ utf8 "'"
  | .refused path line =>
    path ++ utf8 ":" ++ Decimal.ofInt line.place.toInt ++ utf8 ": " ++ line.cause.message

namespace ConfigFile

/-- The hash sign. -/
def commentMark : UInt8 := 35

/-- The directive of a line. -/
def directive? (line : Bytes) : Option Directive :=
  let content := Bytes.trim (line.takeWhile (· != commentMark))
  let key := content.takeWhile (!Bytes.isBlank ·)
  let value := Bytes.trim (content.dropWhile (!Bytes.isBlank ·))
  if value.isEmpty then none else some ⟨key, value⟩

/-- The directives that lines hold, with the numbers of these lines. The counter stands at the line in
front of them. Where it is at its largest value it wraps. -/
def numbered (counter : Int32) : List (Option Directive) → List (Int32 × Directive)
  | [] => []
  | none :: more => numbered (counter + 1) more
  | some directive :: more => (counter + 1, directive) :: numbered (counter + 1) more

/-- The directives of a file with the numbers of their lines, the first line being line 1. -/
def directives (content : Bytes) : List (Int32 × Directive) :=
  numbered 0 ((Bytes.lines content).map directive?)

end ConfigFile

/-- Applies the directives of a file. Directives before a refused one stay in force. -/
def Settings.load (settings : Settings) (files : Files) (path : Bytes) :
    Settings × Option FileError :=
  match files path with
  | none => (settings, some (.cannotOpen path))
  | some content =>
    let (reached, refusal) := settings.applyEach (ConfigFile.directives content)
    (reached, refusal.map (.refused path))

end RespLoad
