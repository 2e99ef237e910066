import RespLoad.Settings.File

/-!
# The command line

The words behind the program's name are a sequence of items: a request for help, the strict switch, an
option with one word as its value, or the path of a configuration file. The flags are kept apart from
the settings, so that they can be applied after the file wherever the file stands among them.
-/
namespace RespLoad

/-- One item of a command line. -/
inductive Flag where
  | help
  | strict
  | option (key : Key) (value : Bytes)
  | config (path : Bytes)
  deriving Repr, DecidableEq

/-- Why a command line was refused. -/
inductive CommandLineError where
  | unexpectedArgument (word : Bytes)
  | unknownOption (word : Bytes)
  | missingValue (word : Bytes)
  deriving Repr, DecidableEq

def CommandLineError.message : CommandLineError → Bytes
  | .unexpectedArgument word => utf8 "unexpected argument: " ++ word
  | .unknownOption word => utf8 "unknown option: " ++ word
  | .missingValue word => utf8 "missing value for " ++ word

namespace Flag

/-- The flag that a word announces, waiting for its value. -/
def ofOption? (word : Bytes) : Except CommandLineError (Bytes → Flag) :=
  match (utf8 "--").isPrefixOf? word with
  | none => .error (.unexpectedArgument word)
  | some name =>
    if name = utf8 "config" then .ok .config
    else match Key.ofName? name with
      | none | some .strict => .error (.unknownOption word)
      | some key => .ok (.option key)

/-- Reads the words behind the program's name. -/
def ofWords : List Bytes → Except CommandLineError (List Flag)
  | [] => .ok []
  | word :: rest =>
    if word = utf8 "--help" ∨ word = utf8 "-h" then (ofWords rest).map (.help :: ·)
    else if word = utf8 "--strict" then (ofWords rest).map (.strict :: ·)
    else match ofOption? word with
      | .error cause => .error cause
      | .ok flag =>
        match rest with
        | [] => .error (.missingValue word)
        | value :: rest => (ofWords rest).map (flag value :: ·)

/-- The directive of a flag that changes a setting. -/
def directive? : Flag → Option Directive
  | .strict => some ⟨Key.strict.name, utf8 "yes"⟩
  | .option key value => some ⟨key.name, value⟩
  | .help | .config _ => none

/-- The path of a flag that names a configuration file. -/
def path? : Flag → Option Bytes
  | .config path => some path
  | _ => none

end Flag

/-- What a command line asks for. -/
structure CommandLine where
  /-- The path of the last configuration file named, empty if there is none. -/
  configPath : Bytes
  /-- The directives of the flags, in order. -/
  overrides : List Directive
  showHelp : Bool
  deriving Repr, DecidableEq

namespace CommandLine

def ofFlags (flags : List Flag) : CommandLine where
  configPath := (flags.filterMap Flag.path?).getLastD []
  overrides := flags.filterMap Flag.directive?
  showHelp := flags.contains .help

/-- Reads a command line whose first word, if any, is the program's name. -/
def parse (argv : List Bytes) : Except CommandLineError CommandLine :=
  (Flag.ofWords argv.tail).map ofFlags

end CommandLine

/-- Why settings could not be settled. -/
inductive ResolveError where
  | file (cause : FileError)
  | flag (refusal : Refusal Bytes)
  deriving Repr, DecidableEq

def ResolveError.message : ResolveError → Bytes
  | .file cause => cause.message
  | .flag refusal => utf8 "--" ++ refusal.place ++ utf8 ": " ++ refusal.cause.message

namespace Settings

/-- Applies the flags, each under the key it was given with. -/
def override (settings : Settings) (overrides : List Directive) : Settings × Option ResolveError :=
  let (reached, refusal) := settings.applyEach (overrides.map fun d => (d.key, d))
  (reached, refusal.map .flag)

/-- Applies the configuration file, if one is named, and then the flags, which win over it. -/
def resolve (settings : Settings) (files : Files) (commandLine : CommandLine) :
    Settings × Option ResolveError :=
  if commandLine.configPath.isEmpty then settings.override commandLine.overrides
  else match settings.load files commandLine.configPath with
    | (reached, some cause) => (reached, some (.file cause))
    | (reached, none) => reached.override commandLine.overrides

end Settings

end RespLoad
