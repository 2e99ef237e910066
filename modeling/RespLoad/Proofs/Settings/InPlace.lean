import RespLoad.Proofs.Settings.History

/-!
# Directives applied in place

Settings that are changed where they are, by readers that are handed the place that they fill. What has
been written stays written when the directive is refused later on. It makes no difference: every reader
writes when nothing can fail any more, so a refused directive leaves all settings as they were, and an
accepted one leaves what `Settings.apply` makes of them.
-/
namespace RespLoad

namespace InPlace

open MonadExcept (ofExcept)

variable {ε α σ : Type}

/-- Reads, and writes only then. -/
def commit (read : Except ε α) (write : α → σ → σ) : EStateM ε σ Unit := do
  modify (write (← ofExcept read))

/-- The reader writes to the place that it is handed only once, when it has read all. -/
def Yields (reader : EStateM ε α Unit) (read : Except ε α) : Prop :=
  reader = commit read fun value _ => value

/-- Reads into a place of its own, and hands on what is in it afterwards. -/
def apart (reader : EStateM ε α Unit) (place : α) : EStateM ε σ α := fun state =>
  match reader place with
  | .ok () value => .ok value state
  | .error cause _ => .error cause state

theorem Yields.apart_eq {reader : EStateM ε α Unit} {read : Except ε α} (h : Yields reader read)
    (place : α) : (apart reader place : EStateM ε σ α) = ofExcept read := by
  funext state
  rw [apart, h]
  cases read <;> rfl

/-- What is filled apart and handed on at last is written only once. -/
theorem yields_set_apart {reader : EStateM ε α Unit} {start : α} {read : Except ε α}
    (h : match read with
      | .ok value => reader start = .ok () value
      | .error cause => ∃ left, reader start = .error cause left) :
    Yields (do set (← apart reader start)) read := by
  funext state
  show EStateM.bind (apart reader start) set state = _
  rw [EStateM.bind, apart]
  cases read with
  | ok value =>
    have hread : reader start = .ok () value := h
    rw [hread]
    rfl
  | error cause =>
    obtain ⟨left, hleft⟩ := h
    rw [hleft]
    rfl

/-- What is not there cannot be read. -/
def orFail (read : Option α) : Except Unit α := read.elim (.error ()) .ok

/-- The digits of a word of 64 bits, behind those that have the value so far. -/
def digits (value : Nat) : Bytes → EStateM Unit Nat Unit
  | [] => set value
  | b :: rest => do
    if !Bytes.isDigit b then throw ()
    if (Decimal.maxWord64 - Decimal.digitValue b) / 10 < value then throw ()
    digits (value * 10 + Decimal.digitValue b) rest

def word (s : Bytes) : EStateM Unit Nat Unit := do
  if s.isEmpty then throw ()
  digits 0 s

/-- A number between two bounds. -/
def between (lo hi : Nat) (s : Bytes) : EStateM Unit Int Unit := do
  let value ← apart (word s) 0
  if value < lo ∨ hi < value then throw ()
  set (value : Int)

/-- `yes`, `1` and `true`, or `no`, `0` and `false`. -/
def switch (s : Bytes) : EStateM Unit Bool Unit := do
  if s = utf8 "yes" ∨ s = utf8 "1" ∨ s = utf8 "true" then set true
  else if s = utf8 "no" ∨ s = utf8 "0" ∨ s = utf8 "false" then set false
  else throw ()

/-- The operations of the words, behind those that were read before. -/
def names (before : List Operation) :
    List Bytes → EStateM Operation.ListError (List Operation) Unit
  | [] => if before.isEmpty then throw .noName else set before
  | word :: more =>
    match Operation.ofName? word with
    | none => throw (.unknownName word)
    | some operation => names (before ++ [operation]) more

theorem digits_yields (value : Nat) (s : Bytes) :
    Yields (digits value s) (orFail (s.foldlM (Decimal.extend? Decimal.maxWord64) value)) := by
  induction s generalizing value with
  | nil => rfl
  | cons b rest ih =>
    rw [List.foldlM_cons, Decimal.extend?, digits]
    by_cases hdigit : Bytes.isDigit b = true
    · rw [if_pos hdigit, hdigit]
      by_cases hlimit : (Decimal.maxWord64 - Decimal.digitValue b) / 10 < value
      · rw [if_pos hlimit, if_pos hlimit]
        rfl
      · rw [if_neg hlimit, if_neg hlimit]
        exact ih _
    · rw [if_neg hdigit, Bool.eq_false_iff.mpr hdigit]
      rfl

theorem word_yields (s : Bytes) :
    Yields (word s) (orFail (Decimal.read? Decimal.maxWord64 s)) := by
  rw [Decimal.read?, word]
  by_cases hempty : s.isEmpty = true
  · rw [if_pos hempty, if_pos hempty]
    rfl
  · rw [if_neg hempty, if_neg hempty]
    exact digits_yields 0 s

theorem readBetween?_of_read? {lo hi n : Nat} {s : Bytes}
    (h : Decimal.read? Decimal.maxWord64 s = some n) :
    Decimal.readBetween? lo hi s = if n < lo ∨ hi < n then none else some n := by
  have hbounds : (decide (lo ≤ n) && decide (n ≤ hi)) = true ↔ ¬(n < lo ∨ hi < n) := by
    simp only [Bool.and_eq_true, decide_eq_true_eq, not_or, Nat.not_lt]
  rw [Decimal.readBetween?, h, Option.filter_some]
  by_cases hout : n < lo ∨ hi < n
  · rw [if_pos hout, if_neg (mt hbounds.mp (not_not_intro hout))]
  · rw [if_neg hout, if_pos (hbounds.mpr hout)]

theorem between_yields (lo hi : Nat) (s : Bytes) :
    Yields (between lo hi s) (orFail ((Decimal.readBetween? lo hi s).map Nat.cast)) := by
  rw [between, (word_yields s).apart_eq]
  cases hread : Decimal.read? Decimal.maxWord64 s with
  | none =>
    rw [Decimal.readBetween?, hread]
    rfl
  | some n =>
    rw [readBetween?_of_read? hread]
    show (do
      if n < lo ∨ hi < n then throw ()
      set (n : Int) : EStateM Unit Int Unit) = _
    split <;> rfl

theorem switch_yields (s : Bytes) : Yields (switch s) (orFail (Change.readFlag? s)) := by
  rw [Change.readFlag?, switch]
  split
  · rfl
  · split <;> rfl

/-- A list has to hold an operation. -/
def notEmpty (operations : List Operation) : Except Operation.ListError (List Operation) :=
  if operations.isEmpty then .error .noName else .ok operations

theorem names_yields (before : List Operation) (words : List Bytes) : Yields (names before words)
    ((Operation.ofNames words).bind fun more => notEmpty (before ++ more)) := by
  induction words generalizing before with
  | nil =>
    show Yields _ (notEmpty (before ++ []))
    rw [names, List.append_nil, notEmpty]
    split <;> rfl
  | cons word words ih =>
    rw [names, Operation.ofNames]
    cases Operation.ofName? word with
    | none => rfl
    | some operation =>
      refine Eq.trans (ih (before ++ [operation])) ?_
      cases Operation.ofNames words with
      | error cause => rfl
      | ok more =>
        show commit (notEmpty (before ++ [operation] ++ more)) _ = _
        rw [List.append_assoc]
        rfl

theorem operationList_yields (s : Bytes) :
    Yields (names [] (Bytes.words Operation.isSeparator s)) (Operation.parseList s) := by
  refine Eq.trans (names_yields [] _) (congrArg (commit · _) ?_)
  rw [Operation.parseList]
  cases Bytes.words Operation.isSeparator s with
  | nil => rfl
  | cons word more =>
    show (Operation.ofNames (word :: more)).bind notEmpty = Operation.ofNames (word :: more)
    rw [Operation.ofNames]
    cases Operation.ofName? word with
    | none => rfl
    | some operation => cases Operation.ofNames more <;> rfl

/-- A setting that is handed to a reader. -/
structure Slot (α : Type) where
  get : Settings → α
  put : α → Settings → Settings
  put_get : ∀ settings, put (get settings) settings = settings

namespace Slot

def port : Slot Int := ⟨Settings.port, fun v s => { s with port := v }, fun _ => rfl⟩

def clients : Slot Int := ⟨Settings.clients, fun v s => { s with clients := v }, fun _ => rfl⟩

def timeoutMs : Slot Int := ⟨Settings.timeoutMs, fun v s => { s with timeoutMs := v }, fun _ => rfl⟩

def operations : Slot (List Operation) :=
  ⟨Settings.operations, fun v s => { s with operations := v }, fun _ => rfl⟩

def strict : Slot Bool := ⟨Settings.strict, fun v s => { s with strict := v }, fun _ => rfl⟩

/-- Hands a setting to a reader. Whatever the reader leaves in it is the setting afterwards. -/
def fill (slot : Slot α) (complaint : ε → DirectiveError) (reader : EStateM ε α Unit) :
    EStateM DirectiveError Settings Unit := fun settings =>
  match reader (slot.get settings) with
  | .ok () value => .ok () (slot.put value settings)
  | .error cause value => .error (complaint cause) (slot.put value settings)

theorem fill_eq (slot : Slot α) (complaint : ε → DirectiveError) {reader : EStateM ε α Unit}
    {read : Except ε α} (h : Yields reader read) :
    slot.fill complaint reader = commit (read.mapError complaint) slot.put := by
  funext settings
  rw [fill, h]
  cases read with
  | ok value => rfl
  | error cause => exact congrArg (EStateM.Result.error (complaint cause)) (slot.put_get settings)

end Slot

end InPlace

namespace Settings

open InPlace

/-- Changes the setting that a key names. -/
def assign (key : Key) (value : Bytes) : EStateM DirectiveError Settings Unit :=
  match key with
  | .host => do
    if value.isEmpty then throw .emptyHost
    modify ({ · with host := value })
  | .port => Slot.port.fill (fun _ => .badPort value) (between 1 65535 value)
  | .iterations => do
    let n ← (apart (word value) 0).adaptExcept fun _ => .badIterations value
    if n = 0 ∨ Operation.maxIterations < n then throw (.badIterations value)
    modify ({ · with iterations := n })
  | .operations =>
    Slot.operations.fill .badOperations (names [] (Bytes.words Operation.isSeparator value))
  | .clients => Slot.clients.fill (fun _ => .badClients value) (between 1 4096 value)
  | .timeoutMs =>
    Slot.timeoutMs.fill (fun _ => .badTimeout value) (between 0 Decimal.maxInt32 value)
  | .onError =>
    if value = utf8 "abort" then modify ({ · with onFailure := .abort })
    else if value = utf8 "continue" then modify ({ · with onFailure := .proceed })
    else throw (.badPolicy value)
  | .logLevel =>
    match LogLevel.ofName? value with
    | none => throw (.badLogLevel value)
    | some _ => modify ({ · with logLevel := value })
  | .strict => Slot.strict.fill (fun _ => .badStrict value) (switch value)
  | .user => modify ({ · with user := value })
  | .password => modify ({ · with password := value })

/-- Applies a directive in place, and records it at last. -/
def applyInPlace (directive : Directive) : EStateM DirectiveError Settings Unit := do
  match Key.ofName? directive.key with
  | none => pure ()
  | some key => assign key directive.value
  modify fun settings => { settings with raw := settings.raw.insert directive.key directive.value }

theorem assign_eq (key : Key) (value : Bytes) :
    assign key value =
      commit (Change.read key value) fun change settings => change.applyTo settings := by
  cases key with
  | host =>
    rw [assign, Change.read]
    by_cases hempty : value.isEmpty = true
    · rw [if_pos hempty, if_pos hempty]
      rfl
    · rw [if_neg hempty, if_neg hempty]
      rfl
  | port =>
    rw [assign, Slot.fill_eq _ _ (between_yields 1 65535 value), Change.read]
    cases Decimal.readBetween? 1 65535 value <;> rfl
  | iterations =>
    rw [assign, (word_yields value).apart_eq, Change.read]
    cases hread : Decimal.read? Decimal.maxWord64 value with
    | none =>
      rw [Decimal.readBetween?, hread]
      rfl
    | some n =>
      rw [readBetween?_of_read? hread]
      simp only [Nat.lt_one_iff]
      show (do
        if n = 0 ∨ Operation.maxIterations < n then throw (.badIterations value)
        modify ({ · with iterations := n }) : EStateM DirectiveError Settings Unit) = _
      split <;> rfl
  | operations =>
    rw [assign, Slot.fill_eq _ _ (operationList_yields value), Change.read]
    cases Operation.parseList value <;> rfl
  | clients =>
    rw [assign, Slot.fill_eq _ _ (between_yields 1 4096 value), Change.read]
    cases Decimal.readBetween? 1 4096 value <;> rfl
  | timeoutMs =>
    rw [assign, Slot.fill_eq _ _ (between_yields 0 Decimal.maxInt32 value), Change.read]
    cases Decimal.readBetween? 0 Decimal.maxInt32 value <;> rfl
  | onError =>
    rw [assign, Change.read, Change.readPolicy?]
    split
    · rfl
    · split <;> rfl
  | logLevel =>
    rw [assign, Change.read]
    cases LogLevel.ofName? value <;> rfl
  | strict =>
    rw [assign, Slot.fill_eq _ _ (switch_yields value), Change.read]
    cases Change.readFlag? value <;> rfl
  | user => rfl
  | password => rfl

theorem applyInPlace_eq (directive : Directive) : applyInPlace directive =
    commit directive.change? fun change settings => settings.accept directive change := by
  rw [applyInPlace, Directive.change?]
  cases Key.ofName? directive.key with
  | none => rfl
  | some key =>
    simp only [assign_eq]
    cases Change.read key directive.value with
    | error cause => rfl
    | ok change =>
      funext settings
      show EStateM.Result.ok () { change.applyTo settings with
        raw := (change.applyTo settings).raw.insert directive.key directive.value } = _
      rw [change.raw_applyTo]
      rfl

/-- Nothing is written of a directive that is refused. -/
theorem applyInPlace_eq_apply (settings : Settings) (directive : Directive) :
    applyInPlace directive settings = match settings.apply directive with
      | .ok after => .ok () after
      | .error cause => .error cause settings := by
  rw [applyInPlace_eq, apply]
  cases directive.change? <;> rfl

theorem apply_again {settings after : Settings} {directive : Directive}
    (h : settings.apply directive = .ok after) : after.apply directive = .ok after := by
  have htakes := takes_of_apply h
  have hraw : after.raw.get? directive.key = some directive.value := by
    rw [htakes.raw, Entries.get?_insert, if_pos rfl]
  obtain ⟨change, hc, -⟩ := apply_eq_ok_iff.mp h
  cases change with
  | some change =>
    exact apply_eq_self (htakes.own change.key (Directive.key_of_change? hc)) hraw
  | none =>
    refine apply_eq_ok_iff.mpr ⟨none, hc, ?_⟩
    rw [accept, Option.elim_none, Entries.insert_eq_self hraw]

/-- A directive that is refused leaves all settings and all recorded texts as they were. One that is
accepted changes only what its key names, and the text recorded for its key. A second time it changes
nothing. -/
theorem applyInPlace_only_own (settings : Settings) (directive : Directive) :
    (∀ cause left, applyInPlace directive settings = .error cause left →
      settings.apply directive = .error cause ∧
      (∀ key, left.field key = settings.field key) ∧ left.raw = settings.raw) ∧
    ∀ after, applyInPlace directive settings = .ok () after →
      settings.apply directive = .ok after ∧
      (∀ key, after.raw.get? key =
        if key = directive.key then some directive.value else settings.raw.get? key) ∧
      (∀ key : Key, key.name ≠ directive.key → after.field key = settings.field key) ∧
      ((∀ key : Key, key.name ≠ directive.key) → ∀ key, after.field key = settings.field key) ∧
      applyInPlace directive after = .ok () after := by
  rw [applyInPlace_eq_apply]
  cases hcall : settings.apply directive with
  | error own =>
    refine ⟨fun cause left h => ?_, nofun⟩
    cases h
    exact ⟨rfl, fun _ => rfl, rfl⟩
  | ok reached =>
    refine ⟨nofun, fun after h => ?_⟩
    cases h
    have htakes := takes_of_apply hcall
    refine ⟨rfl, fun key => ?_, htakes.kept, fun hnone key => htakes.kept key (hnone key), ?_⟩
    · rw [htakes.raw, Entries.get?_insert]
    · rw [applyInPlace_eq_apply, apply_again hcall]

/-- A list whose last name is wrong leaves the operations alone, and a number that is one more than a word
of 64 bits holds leaves the clients alone. A port is taken in, and nothing but the port. -/
theorem applyInPlace_only_own_wrong_last_name :
    let settings : Settings := { port := 7000 }
    let list : Directive := ⟨utf8 "operations", utf8 "ping, zap"⟩
    let number : Directive := ⟨utf8 "clients", utf8 "18446744073709551616"⟩
    let port : Directive := ⟨utf8 "port", utf8 "80"⟩
    (∃ cause left, applyInPlace list settings = .error cause left ∧
      cause.message = utf8 "unknown operation 'zap' (expected PING, SET, GET or DEL)" ∧
      left.operations = [.ping, .set, .get] ∧ left.raw = Entries.empty) ∧
    (∃ cause left, applyInPlace number settings = .error cause left ∧ left.clients = 1 ∧
      left.raw = Entries.empty) ∧
    ∃ after, applyInPlace port settings = .ok () after ∧ after.port = 80 ∧ after.clients = 1 ∧
      after.raw.get? (utf8 "port") = some (utf8 "80") ∧ after.raw.get? (utf8 "clients") = none ∧
      applyInPlace port after = .ok () after := by
  intro settings list number port
  obtain ⟨hlist, -⟩ := applyInPlace_only_own settings list
  obtain ⟨hnumber, -⟩ := applyInPlace_only_own settings number
  obtain ⟨-, hport⟩ := applyInPlace_only_own settings port
  have hcalls : settings.apply list = .error (.badOperations (.unknownName (utf8 "zap"))) ∧
      settings.apply number = .error (.badClients number.value) ∧
      settings.apply port = .ok (settings.accept port (some (.port 80))) := by decide +kernel
  have hzap := applyInPlace_eq_apply settings list
  have hlarge := applyInPlace_eq_apply settings number
  have htaken := applyInPlace_eq_apply settings port
  rw [hcalls.1] at hzap
  rw [hcalls.2.1] at hlarge
  rw [hcalls.2.2] at htaken
  obtain ⟨-, hoperations, hraw⟩ := hlist _ _ hzap
  obtain ⟨-, hclients, hraw'⟩ := hnumber _ _ hlarge
  obtain ⟨-, hrecorded, hkept, -, hagain⟩ := hport _ htaken
  exact ⟨⟨_, _, hzap, by decide +kernel, hoperations .operations, hraw⟩,
    ⟨_, _, hlarge, hclients .clients, hraw'⟩, _, htaken, rfl, hkept .clients (by decide),
    hrecorded port.key, hrecorded (utf8 "clients"), hagain⟩

end Settings

end RespLoad
