import Mathlib.Logic.Relation
import RespLoad.Proofs.Settings.Fields
import RespLoad.Settings.CommandLine

/-!
# Settings over a history of calls

Settings may be changed by any number of calls, each of which may be refused at any point. Whatever is
refused, what is reached is reached by accepted directives only (`Settings.Reaches`), so what one
accepted directive keeps is kept by every history. The texts that are recorded for known keys keep
saying what the settings are. Which calls are refused is not spoken of.
-/
namespace RespLoad

namespace Settings

/-- A call that may change settings, with the files as they are then. -/
inductive Call where
  | apply (directive : Directive)
  | load (files : Files) (path : Bytes)
  | resolve (files : Files) (commandLine : CommandLine)

/-- The settings after a call, whether it went through or was refused. -/
def afterCall (settings : Settings) : Call → Settings
  | .apply directive => (settings.apply directive).toOption.getD settings
  | .load files path => (settings.load files path).1
  | .resolve files commandLine => (settings.resolve files commandLine).1

/-- The settings after calls made one after another. -/
def afterCalls (settings : Settings) (calls : List Call) : Settings := calls.foldl afterCall settings

/-- An accepted directive makes the one settings of the other. -/
def Accepts (settings after : Settings) : Prop :=
  ∃ directive, settings.apply directive = .ok after

/-- Settings that one accepted directive after another makes. -/
def Reaches : Settings → Settings → Prop := Relation.ReflTransGen Accepts

/-- What an accepted directive keeps is kept all the way. -/
theorem Reaches.keeps {P : Settings → Prop} {settings reached : Settings}
    (h : settings.Reaches reached) (hp : P settings)
    (hstep : ∀ (before after : Settings) (directive : Directive), P before →
      before.apply directive = .ok after → P after) : P reached := by
  induction h with
  | refl => exact hp
  | tail _ last ih =>
    obtain ⟨directive, hd⟩ := last
    exact hstep _ _ directive ih hd

theorem reaches_applyEach {Place : Type} (settings : Settings)
    (entries : List (Place × Directive)) : settings.Reaches (settings.applyEach entries).1 := by
  induction entries generalizing settings with
  | nil => exact .refl
  | cons entry more ih =>
    obtain ⟨place, directive⟩ := entry
    rw [applyEach]
    split
    · exact .refl
    · rename_i next hn
      exact .head ⟨directive, hn⟩ (ih next)

theorem reaches_load (settings : Settings) (files : Files) (path : Bytes) :
    settings.Reaches (settings.load files path).1 := by
  unfold load
  split
  · exact .refl
  · exact settings.reaches_applyEach _

theorem reaches_resolve (settings : Settings) (files : Files) (commandLine : CommandLine) :
    settings.Reaches (settings.resolve files commandLine).1 := by
  unfold resolve
  split
  · exact settings.reaches_applyEach _
  · have hload := settings.reaches_load files commandLine.configPath
    split
    · rename_i reached cause hr
      rwa [hr] at hload
    · rename_i reached hr
      rw [hr] at hload
      exact hload.trans (reached.reaches_applyEach _)

theorem reaches_afterCall (settings : Settings) (call : Call) :
    settings.Reaches (settings.afterCall call) := by
  cases call with
  | apply directive =>
    simp only [afterCall]
    cases h : settings.apply directive with
    | error cause => exact .refl
    | ok after => exact .single ⟨directive, h⟩
  | load files path => exact settings.reaches_load files path
  | resolve files commandLine => exact settings.reaches_resolve files commandLine

theorem reaches_afterCalls (settings : Settings) (calls : List Call) :
    settings.Reaches (settings.afterCalls calls) := by
  induction calls generalizing settings with
  | nil => exact .refl
  | cons call more ih => exact (settings.reaches_afterCall call).trans (ih _)

/-- The text recorded for a known key is the text of a directive in force. -/
def Recorded (settings : Settings) : Prop :=
  ∀ (key : Key) (text : Bytes), settings.raw.get? key.name = some text →
    Directive.InForce ⟨key.name, text⟩ settings

theorem recorded_of_raw_empty {settings : Settings} (h : settings.raw = Entries.empty) :
    settings.Recorded := by
  intro key text hraw
  rw [h, Entries.get?_empty] at hraw
  cases hraw

theorem Recorded.apply {settings after : Settings} {directive : Directive}
    (hr : settings.Recorded) (h : settings.apply directive = .ok after) : after.Recorded := by
  intro key text hraw
  have htakes := takes_of_apply h
  rw [htakes.raw, Entries.get?_insert] at hraw
  by_cases hk : key.name = directive.key
  · rw [if_pos hk, Option.some.injEq] at hraw
    have hown := htakes.own key hk
    rwa [hk, ← hraw]
  · rw [if_neg hk] at hraw
    obtain ⟨change, hc, hset⟩ := hr key text hraw
    have hkey : change.key.name = key.name := Directive.key_of_change? hc
    refine ⟨change, hc, (htakes.kept change.key ?_).trans hset⟩
    rwa [hkey]

/-- A directive that is in force and recorded changes nothing when it is applied again. -/
theorem apply_eq_self {settings : Settings} {directive : Directive}
    (h : directive.InForce settings) (hraw : settings.raw.get? directive.key = some directive.value) :
    settings.apply directive = .ok settings := by
  obtain ⟨change, hc, hset⟩ := h
  refine apply_eq_ok_iff.mpr ⟨some change, hc, ?_⟩
  rw [accept, Option.elim_some, Change.applyTo_eq_self hset, Entries.insert_eq_self hraw]

end Settings

end RespLoad
