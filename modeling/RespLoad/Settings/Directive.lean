import RespLoad.Log.Entry
import RespLoad.Settings.Basic

/-!
# Directives

A directive is a key and a value, as a configuration file and a command line have them. It is first
read into a typed change, without regard to any settings, and the change is then made. Accepting a
directive records its text; refusing one leaves the settings as they were. A key that is not known is
accepted and only recorded.
-/
namespace RespLoad

/-- A key and the text of its value. -/
structure Directive where
  key : Bytes
  value : Bytes
  deriving Repr, DecidableEq

/-- Why a directive was refused. -/
inductive DirectiveError where
  | emptyHost
  | badPort (value : Bytes)
  | badIterations (value : Bytes)
  | badOperations (cause : Operation.ListError)
  | badClients (value : Bytes)
  | badTimeout (value : Bytes)
  | badPolicy (value : Bytes)
  | badLogLevel (value : Bytes)
  | badStrict (value : Bytes)
  deriving Repr, DecidableEq

def DirectiveError.message : DirectiveError → Bytes
  | .emptyHost => utf8 "host must not be empty"
  | .badPort value => utf8 "invalid port '" ++ value ++ utf8 "'"
  | .badIterations value =>
    utf8 "iterations must be between 1 and " ++ Decimal.ofNat Operation.maxIterations ++
      utf8 ", got '" ++ value ++ utf8 "'"
  | .badOperations cause => cause.message
  | .badClients value => utf8 "clients must be between 1 and 4096, got '" ++ value ++ utf8 "'"
  | .badTimeout value => utf8 "invalid timeout-ms '" ++ value ++ utf8 "'"
  | .badPolicy value => utf8 "on-error must be 'abort' or 'continue', got '" ++ value ++ utf8 "'"
  | .badLogLevel value =>
    utf8 "loglevel must be error, warn, info or debug, got '" ++ value ++ utf8 "'"
  | .badStrict value => utf8 "strict must be yes or no, got '" ++ value ++ utf8 "'"

/-- The keys that change a setting. -/
inductive Key where
  | host
  | port
  | iterations
  | operations
  | clients
  | timeoutMs
  | onError
  | logLevel
  | strict
  | user
  | password
  deriving Repr, DecidableEq

namespace Key

def all : List Key :=
  [.host, .port, .iterations, .operations, .clients, .timeoutMs, .onError, .user, .password,
    .logLevel, .strict]

def name : Key → Bytes
  | .host => utf8 "host"
  | .port => utf8 "port"
  | .iterations => utf8 "iterations"
  | .operations => utf8 "operations"
  | .clients => utf8 "clients"
  | .timeoutMs => utf8 "timeout-ms"
  | .onError => utf8 "on-error"
  | .logLevel => utf8 "loglevel"
  | .strict => utf8 "strict"
  | .user => utf8 "user"
  | .password => utf8 "password"

def ofName? (name : Bytes) : Option Key := all.find? fun key => key.name == name

end Key

/-- A change of one setting to a value that is valid for it. -/
inductive Change where
  | host (host : Bytes)
  | port (port : Nat)
  | iterations (iterations : Nat)
  | operations (operations : List Operation)
  | clients (clients : Nat)
  | timeoutMs (timeoutMs : Nat)
  | onFailure (policy : FailurePolicy)
  | logLevel (name : Bytes)
  | strict (strict : Bool)
  | user (user : Bytes)
  | password (password : Bytes)
  deriving Repr, DecidableEq

namespace Change

/-- The settings after the change. -/
def applyTo (settings : Settings) : Change → Settings
  | .host value => { settings with host := value }
  | .port value => { settings with port := value }
  | .iterations value => { settings with iterations := value }
  | .operations value => { settings with operations := value }
  | .clients value => { settings with clients := value }
  | .timeoutMs value => { settings with timeoutMs := value }
  | .onFailure value => { settings with onFailure := value }
  | .logLevel value => { settings with logLevel := value }
  | .strict value => { settings with strict := value }
  | .user value => { settings with user := value }
  | .password value => { settings with password := value }

/-- `yes`, `1` and `true`, or `no`, `0` and `false`. -/
def readFlag? (value : Bytes) : Option Bool :=
  if value = utf8 "yes" ∨ value = utf8 "1" ∨ value = utf8 "true" then some true
  else if value = utf8 "no" ∨ value = utf8 "0" ∨ value = utf8 "false" then some false
  else none

def readPolicy? (value : Bytes) : Option FailurePolicy :=
  if value = utf8 "abort" then some .abort
  else if value = utf8 "continue" then some .proceed
  else none

/-- The change that a value makes under a key. -/
def read (key : Key) (value : Bytes) : Except DirectiveError Change :=
  match key with
  | .host => if value.isEmpty then .error .emptyHost else .ok (.host value)
  | .port => orError (.badPort value) ((Decimal.readBetween? 1 65535 value).map .port)
  | .iterations =>
    orError (.badIterations value)
      ((Decimal.readBetween? 1 Operation.maxIterations value).map .iterations)
  | .operations => ((Operation.parseList value).map .operations).mapError .badOperations
  | .clients => orError (.badClients value) ((Decimal.readBetween? 1 4096 value).map .clients)
  | .timeoutMs =>
    orError (.badTimeout value) ((Decimal.readBetween? 0 Decimal.maxInt32 value).map .timeoutMs)
  | .onError => orError (.badPolicy value) ((readPolicy? value).map .onFailure)
  | .logLevel => orError (.badLogLevel value) ((LogLevel.ofName? value).map fun _ => .logLevel value)
  | .strict => orError (.badStrict value) ((readFlag? value).map .strict)
  | .user => .ok (.user value)
  | .password => .ok (.password value)
where
  orError (cause : DirectiveError) : Option Change → Except DirectiveError Change
    | some change => .ok change
    | none => .error cause

end Change

/-- The change that a directive makes, none for an unknown key. Whether it is valid does not depend
on any settings. -/
def Directive.change? (directive : Directive) : Except DirectiveError (Option Change) :=
  match Key.ofName? directive.key with
  | none => .ok none
  | some key => (Change.read key directive.value).map some

namespace Settings

/-- Makes a change, if there is one, and records the directive. -/
def accept (settings : Settings) (directive : Directive) (change : Option Change) : Settings :=
  let changed := change.elim settings (Change.applyTo settings)
  { changed with raw := settings.raw.insert directive.key directive.value }

/-- The settings after a directive. -/
def apply (settings : Settings) (directive : Directive) : Except DirectiveError Settings :=
  directive.change?.map (settings.accept directive)

end Settings

/-- A directive that was refused, and where it was written. -/
structure Refusal (Place : Type) where
  place : Place
  cause : DirectiveError
  deriving Repr, DecidableEq

/-- Applies directives in order up to the first that is refused. The settings reached so far are
kept also then. -/
def Settings.applyEach {Place : Type} (settings : Settings) :
    List (Place × Directive) → Settings × Option (Refusal Place)
  | [] => (settings, none)
  | (place, directive) :: more =>
    match settings.apply directive with
    | .error cause => (settings, some ⟨place, cause⟩)
    | .ok next => next.applyEach more

end RespLoad
