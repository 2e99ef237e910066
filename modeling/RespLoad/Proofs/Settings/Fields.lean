import RespLoad.Proofs.Settings.Entries
import RespLoad.Settings.Directive

/-!
# The setting of each key

Settings read key by key. A directive that is accepted settles the setting of its own key and the
recorded text of its key, and leaves everything else as it was (`Settings.Takes`). Whether it is
accepted does not depend on the settings.
-/
namespace RespLoad

namespace Key

/-- What the setting of a key can be. -/
def Value : Key → Type
  | .host | .logLevel | .user | .password => Bytes
  | .port | .clients | .timeoutMs => Int
  | .iterations => Nat
  | .operations => List Operation
  | .onError => FailurePolicy
  | .strict => Bool

theorem ofName?_name (key : Key) : ofName? key.name = some key := by
  cases key <;> decide

theorem ofName?_eq_some_iff {name : Bytes} {key : Key} :
    ofName? name = some key ↔ key.name = name := by
  constructor
  · intro h
    rw [ofName?] at h
    have hname := List.find?_some h
    exact beq_iff_eq.mp hname
  · rintro rfl
    exact ofName?_name key

theorem name_inj {a b : Key} : a.name = b.name ↔ a = b := by
  constructor
  · exact fun h => Option.some.inj ((ofName?_name a).symm.trans (ofName?_eq_some_iff.mpr h.symm))
  · rintro rfl
    rfl

end Key

namespace Settings

/-- The setting of a key. -/
def field (settings : Settings) : (key : Key) → key.Value
  | .host => settings.host
  | .port => settings.port
  | .iterations => settings.iterations
  | .operations => settings.operations
  | .clients => settings.clients
  | .timeoutMs => settings.timeoutMs
  | .onError => settings.onFailure
  | .logLevel => settings.logLevel
  | .strict => settings.strict
  | .user => settings.user
  | .password => settings.password

/-- Settings are what the keys are set to and what is recorded. -/
theorem ext_field {a b : Settings} (hf : ∀ key, a.field key = b.field key) (hr : a.raw = b.raw) :
    a = b := by
  have hhost : a.host = b.host := hf .host
  have hport : a.port = b.port := hf .port
  have hiterations : a.iterations = b.iterations := hf .iterations
  have hoperations : a.operations = b.operations := hf .operations
  have hclients : a.clients = b.clients := hf .clients
  have htimeout : a.timeoutMs = b.timeoutMs := hf .timeoutMs
  have hpolicy : a.onFailure = b.onFailure := hf .onError
  have hlevel : a.logLevel = b.logLevel := hf .logLevel
  have hstrict : a.strict = b.strict := hf .strict
  have huser : a.user = b.user := hf .user
  have hpassword : a.password = b.password := hf .password
  cases a
  cases b
  simp_all only

end Settings

namespace Change

/-- The key whose setting a change makes. -/
def key : Change → Key
  | .host _ => .host
  | .port _ => .port
  | .iterations _ => .iterations
  | .operations _ => .operations
  | .clients _ => .clients
  | .timeoutMs _ => .timeoutMs
  | .onFailure _ => .onError
  | .logLevel _ => .logLevel
  | .strict _ => .strict
  | .user _ => .user
  | .password _ => .password

/-- What a change sets its key to. -/
def value : (change : Change) → change.key.Value
  | .host value | .logLevel value | .user value | .password value => value
  | .port value | .clients value | .timeoutMs value => (value : Int)
  | .iterations value => value
  | .operations value => value
  | .onFailure value => value
  | .strict value => value

/-- The settings are what the change would make of them. -/
def HoldsIn (change : Change) (settings : Settings) : Prop :=
  settings.field change.key = change.value

theorem holdsIn_applyTo (change : Change) (settings : Settings) :
    change.HoldsIn (change.applyTo settings) := by
  cases change <;> rfl

theorem field_applyTo_of_ne {change : Change} {key : Key} (h : key ≠ change.key)
    (settings : Settings) : (change.applyTo settings).field key = settings.field key := by
  cases change <;> cases key <;> first | rfl | exact absurd rfl h

theorem raw_applyTo (change : Change) (settings : Settings) :
    (change.applyTo settings).raw = settings.raw := by
  cases change <;> rfl

theorem applyTo_eq_self {change : Change} {settings : Settings} (h : change.HoldsIn settings) :
    change.applyTo settings = settings := by
  refine Settings.ext_field (fun key => ?_) (raw_applyTo change settings)
  by_cases hk : key = change.key
  · subst hk
    exact (change.holdsIn_applyTo settings).trans h.symm
  · exact field_applyTo_of_ne hk settings

theorem eq_some_of_orError {cause : DirectiveError} {made : Option Change} {change : Change}
    (h : read.orError cause made = .ok change) : made = some change := by
  cases made with
  | none => cases h
  | some other => cases h; rfl

/-- How a value is read into a change, key by key. -/
inductive Reads : Key → Bytes → Change → Prop
  | host {value : Bytes} (h : value ≠ []) : Reads .host value (.host value)
  | port {value : Bytes} {port : Nat} (h : Decimal.readBetween? 1 65535 value = some port) :
      Reads .port value (.port port)
  | iterations {value : Bytes} {iterations : Nat}
      (h : Decimal.readBetween? 1 Operation.maxIterations value = some iterations) :
      Reads .iterations value (.iterations iterations)
  | operations {value : Bytes} {operations : List Operation}
      (h : Operation.parseList value = .ok operations) :
      Reads .operations value (.operations operations)
  | clients {value : Bytes} {clients : Nat} (h : Decimal.readBetween? 1 4096 value = some clients) :
      Reads .clients value (.clients clients)
  | timeoutMs {value : Bytes} {millis : Nat}
      (h : Decimal.readBetween? 0 Decimal.maxInt32 value = some millis) :
      Reads .timeoutMs value (.timeoutMs millis)
  | onError {value : Bytes} {policy : FailurePolicy} (h : readPolicy? value = some policy) :
      Reads .onError value (.onFailure policy)
  | logLevel {value : Bytes} {level : LogLevel} (h : LogLevel.ofName? value = some level) :
      Reads .logLevel value (.logLevel value)
  | strict {value : Bytes} {strict : Bool} (h : readFlag? value = some strict) :
      Reads .strict value (.strict strict)
  | user (value : Bytes) : Reads .user value (.user value)
  | password (value : Bytes) : Reads .password value (.password value)

theorem reads_of_read {key : Key} {value : Bytes} {change : Change}
    (h : read key value = .ok change) : Reads key value change := by
  cases key with
  | host =>
    simp only [read] at h
    split at h
    · cases h
    · rename_i hne
      cases h
      exact .host fun he => hne (List.isEmpty_iff.mpr he)
  | port =>
    obtain ⟨port, hp, rfl⟩ := Option.map_eq_some_iff.mp (eq_some_of_orError h)
    exact .port hp
  | iterations =>
    obtain ⟨iterations, hi, rfl⟩ := Option.map_eq_some_iff.mp (eq_some_of_orError h)
    exact .iterations hi
  | operations =>
    cases hl : Operation.parseList value with
    | error cause => simp only [read, hl] at h; cases h
    | ok operations =>
      simp only [read, hl] at h
      cases h
      exact .operations hl
  | clients =>
    obtain ⟨clients, hc, rfl⟩ := Option.map_eq_some_iff.mp (eq_some_of_orError h)
    exact .clients hc
  | timeoutMs =>
    obtain ⟨millis, hm, rfl⟩ := Option.map_eq_some_iff.mp (eq_some_of_orError h)
    exact .timeoutMs hm
  | onError =>
    obtain ⟨policy, hp, rfl⟩ := Option.map_eq_some_iff.mp (eq_some_of_orError h)
    exact .onError hp
  | logLevel =>
    obtain ⟨level, hl, rfl⟩ := Option.map_eq_some_iff.mp (eq_some_of_orError h)
    exact .logLevel hl
  | strict =>
    obtain ⟨strict, hs, rfl⟩ := Option.map_eq_some_iff.mp (eq_some_of_orError h)
    exact .strict hs
  | user => cases h; exact .user value
  | password => cases h; exact .password value

theorem key_of_read {key : Key} {value : Bytes} {change : Change}
    (h : read key value = .ok change) : change.key = key := by
  cases reads_of_read h <;> rfl

end Change

namespace Directive

variable {directive : Directive} {settings after : Settings}

/-- The directive is accepted, whatever the settings are. -/
def IsValid (directive : Directive) : Prop := ∃ change, directive.change? = .ok change

/-- The setting of the directive's key is the value that the directive gives it. -/
def InForce (directive : Directive) (settings : Settings) : Prop :=
  ∃ change, directive.change? = .ok (some change) ∧ change.HoldsIn settings

theorem change?_of_known {key : Key} (h : key.name = directive.key) :
    directive.change? = (Change.read key directive.value).map some := by
  rw [change?, Key.ofName?_eq_some_iff.mpr h]

theorem read_of_change? {change : Change} (h : directive.change? = .ok (some change)) :
    ∃ key : Key, key.name = directive.key ∧ Change.read key directive.value = .ok change := by
  unfold change? at h
  split at h
  · cases h
  · rename_i key hk
    cases hr : Change.read key directive.value with
    | error cause => rw [hr] at h; cases h
    | ok made =>
      rw [hr] at h
      cases h
      exact ⟨key, Key.ofName?_eq_some_iff.mp hk, hr⟩

theorem key_of_change? {change : Change} (h : directive.change? = .ok (some change)) :
    change.key.name = directive.key := by
  obtain ⟨key, hk, hr⟩ := read_of_change? h
  rw [Change.key_of_read hr, hk]

/-- A directive in force settles the setting of its key. -/
theorem InForce.field_eq {other : Settings} (h : directive.InForce settings)
    (ho : directive.InForce other) {key : Key} (hk : key.name = directive.key) :
    settings.field key = other.field key := by
  obtain ⟨change, hc, hset⟩ := h
  obtain ⟨change', hc', hset'⟩ := ho
  rw [hc, Except.ok.injEq, Option.some.injEq] at hc'
  subst hc'
  obtain rfl := Key.name_inj.mp (hk.trans (key_of_change? hc).symm)
  exact hset.trans hset'.symm

end Directive

namespace Settings

variable {directive : Directive} {settings after : Settings}

theorem apply_eq_ok_iff : settings.apply directive = .ok after ↔
    ∃ change, directive.change? = .ok change ∧ settings.accept directive change = after := by
  unfold apply
  cases directive.change? with
  | error cause => exact ⟨nofun, fun ⟨_, h, _⟩ => nomatch h⟩
  | ok change =>
    constructor
    · exact fun h => ⟨change, rfl, Except.ok.inj h⟩
    · rintro ⟨_, h, rfl⟩
      cases h
      rfl

theorem exists_apply_iff : (∃ after, settings.apply directive = .ok after) ↔ directive.IsValid := by
  simp only [apply_eq_ok_iff]
  exact ⟨fun ⟨_, change, hc, _⟩ => ⟨change, hc⟩, fun ⟨change, hc⟩ => ⟨_, change, hc, rfl⟩⟩

/-- All that an accepted directive makes of settings. -/
structure Takes (settings : Settings) (directive : Directive) (after : Settings) : Prop where
  raw : after.raw = settings.raw.insert directive.key directive.value
  own : ∀ key : Key, key.name = directive.key → directive.InForce after
  kept : ∀ key : Key, key.name ≠ directive.key → after.field key = settings.field key

theorem field_accept (settings : Settings) (directive : Directive) (change : Option Change)
    (key : Key) : (settings.accept directive change).field key =
      (change.elim settings (Change.applyTo settings)).field key := by
  cases key <;> rfl

theorem takes_of_apply (h : settings.apply directive = .ok after) :
    settings.Takes directive after := by
  obtain ⟨change, hc, rfl⟩ := apply_eq_ok_iff.mp h
  refine ⟨rfl, fun key hk => ?_, fun key hk => ?_⟩
  · rw [Directive.change?_of_known hk] at hc
    cases hr : Change.read key directive.value with
    | error cause => rw [hr] at hc; cases hc
    | ok made =>
      rw [hr] at hc
      cases hc
      refine ⟨made, by rw [Directive.change?_of_known hk, hr]; rfl, ?_⟩
      exact (field_accept settings directive (some made) made.key).trans
        (made.holdsIn_applyTo settings)
  · rw [field_accept]
    cases change with
    | none => rfl
    | some made =>
      refine Change.field_applyTo_of_ne (fun he => hk ?_) settings
      rw [he, Directive.key_of_change? hc]

end Settings

end RespLoad
