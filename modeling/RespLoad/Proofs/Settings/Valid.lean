import RespLoad.Proofs.Settings.History

/-!
# Valid settings

What can be said of settings wherever they come from. Every change that a directive can make keeps
settings valid, so files and flags do in any history of calls, and the settings of a run that goes ahead
are valid. What directives are refused for is not spoken of.
-/
namespace RespLoad

/-- Settings that a run can be made with. -/
structure Settings.Valid (settings : Settings) : Prop where
  host : settings.host ≠ []
  port : 1 ≤ settings.port ∧ settings.port ≤ 65535
  iterations : 1 ≤ settings.iterations ∧ settings.iterations ≤ Operation.maxIterations
  operations : settings.operations ≠ []
  clients : 1 ≤ settings.clients ∧ settings.clients ≤ 4096
  timeout : 0 ≤ settings.timeoutMs ∧ settings.timeoutMs ≤ Decimal.maxInt32
  logLevel : (LogLevel.ofName? settings.logLevel).isSome = true

theorem Decimal.bounds_of_readBetween? {lo hi n : Nat} {s : Bytes}
    (h : readBetween? lo hi s = some n) : lo ≤ n ∧ n ≤ hi := by
  have hp := (Option.filter_eq_some_iff.mp h).2
  simpa only [Bool.and_eq_true, decide_eq_true_eq] using hp

theorem Operation.ne_nil_of_parseList {text : Bytes} {operations : List Operation}
    (h : parseList text = .ok operations) : operations ≠ [] := by
  unfold parseList at h
  split at h
  · cases h
  · rename_i word more _
    rw [ofNames] at h
    split at h
    · cases h
    · cases hm : ofNames more with
      | error cause => rw [hm] at h; cases h
      | ok later =>
        rw [hm] at h
        cases h
        exact List.cons_ne_nil _ _

namespace Change

/-- The change keeps settings valid. -/
def KeepsValid (change : Change) : Prop :=
  ∀ settings : Settings, settings.Valid → (change.applyTo settings).Valid

/-- A value is only read into a change that keeps settings valid. -/
theorem keepsValid_of_read {key : Key} {value : Bytes} {change : Change}
    (h : read key value = .ok change) : change.KeepsValid := by
  intro settings hv
  cases reads_of_read h with
  | host hne => exact { hv with host := hne }
  | port hp =>
    obtain ⟨hlo, hhi⟩ := Decimal.bounds_of_readBetween? hp
    exact { hv with port := ⟨Int.ofNat_le.mpr hlo, Int.ofNat_le.mpr hhi⟩ }
  | iterations hi => exact { hv with iterations := Decimal.bounds_of_readBetween? hi }
  | operations hl => exact { hv with operations := Operation.ne_nil_of_parseList hl }
  | clients hc =>
    obtain ⟨hlo, hhi⟩ := Decimal.bounds_of_readBetween? hc
    exact { hv with clients := ⟨Int.ofNat_le.mpr hlo, Int.ofNat_le.mpr hhi⟩ }
  | timeoutMs hm =>
    obtain ⟨hlo, hhi⟩ := Decimal.bounds_of_readBetween? hm
    exact { hv with timeout := ⟨Int.ofNat_le.mpr hlo, Int.ofNat_le.mpr hhi⟩ }
  | logLevel hl => exact { hv with logLevel := Option.isSome_of_eq_some hl }
  | onError _ => exact { hv with }
  | strict _ => exact { hv with }
  | user => exact { hv with }
  | password => exact { hv with }

end Change

theorem Directive.keepsValid_of_change? {directive : Directive} {change : Change}
    (h : directive.change? = .ok (some change)) : change.KeepsValid := by
  obtain ⟨key, _, hr⟩ := directive.read_of_change? h
  exact Change.keepsValid_of_read hr

namespace Settings

theorem valid_default : Valid {} where
  host := by decide
  port := by decide
  iterations := by decide
  operations := by decide
  clients := by decide
  timeout := by decide
  logLevel := by decide

/-- What is recorded of a directive is no part of what makes settings valid. -/
theorem Valid.accept {settings : Settings} {directive : Directive} (hv : settings.Valid)
    {change : Option Change} (hc : ∀ made, change = some made → made.KeepsValid) :
    (settings.accept directive change).Valid := by
  cases change with
  | none => exact { hv with }
  | some made => exact { hc made rfl settings hv with }

theorem Valid.apply {settings after : Settings} {directive : Directive} (hv : settings.Valid)
    (h : settings.apply directive = .ok after) : after.Valid := by
  cases hc : directive.change? with
  | error cause => simp only [Settings.apply, hc] at h; cases h
  | ok change =>
    simp only [Settings.apply, hc] at h
    cases h
    exact hv.accept fun made hm => Directive.keepsValid_of_change? (hm ▸ hc)

theorem Valid.reached {settings reached : Settings} (hv : settings.Valid)
    (h : settings.Reaches reached) : reached.Valid :=
  h.keeps hv fun _ _ _ hbefore => hbefore.apply

/-- Settings stay valid also when they are refused part of the way. -/
theorem Valid.resolve {settings : Settings} (hv : settings.Valid) (files : Files)
    (commandLine : CommandLine) : (settings.resolve files commandLine).1.Valid :=
  hv.reached (settings.reaches_resolve files commandLine)

/-- The defaults are valid, and valid settings stay valid over every history of calls. If nothing was
recorded at first, what is recorded for a known key is a directive that is in force, and applying it
again changes nothing. -/
theorem afterCalls_valid_and_recorded (settings : Settings) (calls : List Call) :
    let reached := settings.afterCalls calls
    Valid {} ∧ (settings.Valid → reached.Valid) ∧
    (settings.raw = Entries.empty →
      ∀ (key : Key) (text : Bytes), reached.raw.get? key.name = some text →
        Directive.InForce ⟨key.name, text⟩ reached ∧
          reached.apply ⟨key.name, text⟩ = .ok reached) := by
  intro reached
  have hreached : settings.Reaches reached := settings.reaches_afterCalls calls
  refine ⟨valid_default, fun hv => hv.reached hreached, fun hempty key text hraw => ?_⟩
  have hrecorded : reached.Recorded :=
    hreached.keeps (recorded_of_raw_empty hempty) fun _ _ _ hbefore => hbefore.apply
  exact ⟨hrecorded key text hraw, apply_eq_self (hrecorded key text hraw) hraw⟩

/-- A port beyond all bounds is refused, a file is taken in as far as its third line, and the flags behind
a second file stop at an empty list. What was accepted before that stays in force. -/
theorem afterCalls_valid_and_recorded_refusals :
    let files : Files := fun path =>
      if path = utf8 "a" then some (utf8 "clients 5\nclients 6\nport 0\nclients 7\n")
      else if path = utf8 "b" then some (utf8 "port 80\nhost db\n")
      else none
    let calls : List Call := [.apply ⟨utf8 "port", utf8 "18446744073709551617"⟩,
      .load files (utf8 "a"), .load files (utf8 "c"),
      .resolve files ⟨utf8 "b", [⟨utf8 "port", utf8 "81"⟩, ⟨utf8 "operations", utf8 ",,"⟩,
        ⟨utf8 "host", utf8 "lost"⟩], false⟩]
    let reached := ({} : Settings).afterCalls calls
    reached.Valid ∧ reached.clients = 6 ∧ reached.port = 81 ∧ reached.host = utf8 "db" ∧
      reached.apply ⟨utf8 "clients", utf8 "6"⟩ = .ok reached ∧
      reached.apply ⟨utf8 "port", utf8 "81"⟩ = .ok reached := by
  intro files calls reached
  obtain ⟨hdefault, hvalid, hrecorded⟩ := afterCalls_valid_and_recorded {} calls
  refine ⟨hvalid hdefault, by decide +kernel, by decide +kernel, by decide +kernel, ?_, ?_⟩
  · exact (hrecorded rfl .clients (utf8 "6") (by decide +kernel)).2
  · exact (hrecorded rfl .port (utf8 "81") (by decide +kernel)).2

end Settings

end RespLoad
