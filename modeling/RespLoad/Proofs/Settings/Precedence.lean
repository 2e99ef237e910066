import RespLoad.Proofs.Settings.Fields
import RespLoad.Proofs.Settings.Flags

/-!
# Precedence of directives

What becomes of settings when the directives of a file and then those of the flags are applied. For each
key the last directive of the whole sequence decides, and the others leave no trace. So flags win over the
file, and neither the order of directives for different keys nor the place of the file among the flags
makes a difference. What is reached when a directive is refused is not spoken of.
-/
namespace RespLoad

namespace Directive

/-- The directives for a key, in order. -/
def forKey (name : Bytes) (directives : List Directive) : List Directive :=
  directives.filter fun directive => directive.key == name

def last? (name : Bytes) (directives : List Directive) : Option Directive :=
  (forKey name directives).getLast?

/-- The same directives in another order, in which those for one key stand as they stood. -/
def Reordered (a b : List Directive) : Prop := ∀ name, forKey name a = forKey name b

theorem last?_append (name : Bytes) (a b : List Directive) :
    last? name (a ++ b) = (last? name b).or (last? name a) := by
  rw [last?, forKey, List.filter_append, List.getLast?_append]
  rfl

theorem last?_singleton (name : Bytes) (directive : Directive) :
    last? name [directive] = if directive.key = name then some directive else none := by
  rw [last?, forKey, List.filter_singleton]
  by_cases h : directive.key = name
  · rw [if_pos h, beq_iff_eq.mpr h]
    rfl
  · rw [if_neg h, beq_eq_false_iff_ne.mpr h]
    rfl

theorem mem_of_last? {name : Bytes} {directives : List Directive} {directive : Directive}
    (h : last? name directives = some directive) :
    directive ∈ directives ∧ directive.key = name := by
  obtain ⟨hm, hk⟩ := List.mem_filter.mp (List.mem_of_getLast? h)
  exact ⟨hm, beq_iff_eq.mp hk⟩

/-- Only the keys that occur need to be looked at. -/
theorem reordered_iff {a b : List Directive} :
    Reordered a b ↔ ∀ directive ∈ a ++ b, forKey directive.key a = forKey directive.key b := by
  refine ⟨fun h directive _ => h directive.key, fun h name => ?_⟩
  by_cases hname : ∃ directive ∈ a ++ b, directive.key = name
  · obtain ⟨directive, hm, rfl⟩ := hname
    exact h directive hm
  · have hnone : ∀ directive ∈ a ++ b, ¬(directive.key == name) = true :=
      fun directive hm hk => hname ⟨directive, hm, beq_iff_eq.mp hk⟩
    obtain ⟨ha, hb⟩ := List.forall_mem_append.mp hnone
    rw [forKey, forKey, List.filter_eq_nil_iff.mpr ha, List.filter_eq_nil_iff.mpr hb]

instance (a b : List Directive) : Decidable (Reordered a b) :=
  decidable_of_iff _ reordered_iff.symm

namespace Reordered

variable {a b c d : List Directive}

theorem append (h : Reordered a b) (h' : Reordered c d) : Reordered (a ++ c) (b ++ d) := by
  intro name
  have hfront := h name
  have hback := h' name
  simp only [forKey, List.filter_append] at hfront hback ⊢
  rw [hfront, hback]

theorem last?_eq (h : Reordered a b) (name : Bytes) : last? name a = last? name b :=
  congrArg List.getLast? (h name)

theorem mem (h : Reordered a b) {directive : Directive} (hm : directive ∈ b) : directive ∈ a := by
  have hown : directive ∈ forKey directive.key b :=
    List.mem_filter.mpr ⟨hm, beq_self_eq_true directive.key⟩
  rw [← h] at hown
  exact (List.mem_filter.mp hown).1

end Reordered

end Directive

namespace Settings

/-- For every key the settings after a sequence of directives have what the last directive for it says,
or what they had before if there is none. The recorded texts include those of unknown keys. -/
structure Settles (settings : Settings) (directives : List Directive) (after : Settings) : Prop where
  raw : ∀ name, after.raw.get? name =
    ((Directive.last? name directives).map Directive.value).or (settings.raw.get? name)
  set : ∀ (key : Key) (directive : Directive),
    Directive.last? key.name directives = some directive → directive.InForce after
  kept : ∀ key : Key, Directive.last? key.name directives = none →
    after.field key = settings.field key

theorem Settles.refl (settings : Settings) : settings.Settles [] settings :=
  ⟨fun _ => rfl, fun _ _ => nofun, fun _ _ => rfl⟩

theorem Takes.settles {settings after : Settings} {directive : Directive}
    (h : settings.Takes directive after) : settings.Settles [directive] after := by
  constructor
  · intro name
    rw [h.raw, Entries.get?_insert, Directive.last?_singleton]
    by_cases hk : directive.key = name
    · rw [if_pos hk.symm, if_pos hk]
      rfl
    · rw [if_neg (Ne.symm hk), if_neg hk]
      rfl
  · intro key other hl
    obtain ⟨hm, hk⟩ := Directive.mem_of_last? hl
    obtain rfl := List.mem_singleton.mp hm
    exact h.own key hk.symm
  · intro key hl
    refine h.kept key fun hk => ?_
    rw [Directive.last?_singleton, if_pos hk.symm] at hl
    cases hl

/-- A directive stays in force while its key is not set again. -/
theorem Settles.inForce {settings after : Settings} {directives : List Directive}
    (h : settings.Settles directives after) {directive : Directive}
    (hd : directive.InForce settings) (hnone : Directive.last? directive.key directives = none) :
    directive.InForce after := by
  obtain ⟨change, hc, hset⟩ := hd
  refine ⟨change, hc, (h.kept change.key ?_).trans hset⟩
  rwa [Directive.key_of_change? hc]

theorem Settles.trans {first second third : Settings} {a b : List Directive}
    (h : first.Settles a second) (h' : second.Settles b third) :
    first.Settles (a ++ b) third := by
  constructor
  · intro name
    rw [h'.raw, h.raw, Directive.last?_append]
    cases Directive.last? name b <;> rfl
  · intro key directive hl
    rw [Directive.last?_append] at hl
    rcases Option.or_eq_some_iff.mp hl with hb | ⟨hb, ha⟩
    · exact h'.set key directive hb
    -- The last directive stands in the first part, and the second leaves its key alone.
    · refine h'.inForce (h.set key directive ha) ?_
      rwa [(Directive.mem_of_last? ha).2]
  · intro key hl
    rw [Directive.last?_append, Option.or_eq_none_iff] at hl
    exact (h'.kept key hl.1).trans (h.kept key hl.2)

/-- The later part of a sequence wins over the earlier one. -/
theorem Settles.of_append {settings after : Settings} {a b : List Directive}
    (h : settings.Settles (a ++ b) after) {name : Bytes} {directive : Directive}
    (hb : Directive.last? name b = some directive) :
    after.raw.get? name = some directive.value ∧
      ∀ key : Key, key.name = name → directive.InForce after := by
  have hl : Directive.last? name (a ++ b) = some directive := by
    rw [Directive.last?_append, hb]
    rfl
  refine ⟨by rw [h.raw, hl]; rfl, ?_⟩
  rintro key rfl
  exact h.set key directive hl

/-- What a sequence settles does not depend on the order of directives for different keys. -/
theorem Settles.unique {settings after other : Settings} {a b : List Directive}
    (h : settings.Settles a after) (h' : settings.Settles b other)
    (hab : Directive.Reordered a b) : after = other := by
  refine ext_field (fun key => ?_) (Entries.ext_get? fun name => ?_)
  · cases hl : Directive.last? key.name a with
    | some directive =>
      have hk := (Directive.mem_of_last? hl).2
      exact (h.set key directive hl).field_eq
        (h'.set key directive ((hab.last?_eq key.name).symm.trans hl)) hk.symm
    | none =>
      exact (h.kept key hl).trans
        (h'.kept key ((hab.last?_eq key.name).symm.trans hl)).symm
  · rw [h.raw, h'.raw, hab.last?_eq]

section ApplyEach

variable {Place : Type}

theorem settles_applyEach {settings after : Settings} {entries : List (Place × Directive)}
    (h : settings.applyEach entries = (after, none)) :
    settings.Settles (entries.map Prod.snd) after := by
  induction entries generalizing settings with
  | nil =>
    cases h
    exact .refl _
  | cons entry more ih =>
    obtain ⟨place, directive⟩ := entry
    rw [applyEach] at h
    split at h
    · cases h
    · rename_i next hn
      exact (takes_of_apply hn).settles.trans (ih h)

theorem applyEach_eq_none_iff (settings : Settings) (entries : List (Place × Directive)) :
    (settings.applyEach entries).2 = none ↔
      ∀ directive ∈ entries.map Prod.snd, directive.IsValid := by
  induction entries generalizing settings with
  | nil => exact iff_of_true rfl (List.forall_mem_nil _)
  | cons entry more ih =>
    obtain ⟨place, directive⟩ := entry
    have hfirst := @exists_apply_iff directive settings
    rw [applyEach, List.map_cons, List.forall_mem_cons, ← hfirst]
    split
    · rename_i cause hc
      refine iff_of_false nofun ?_
      rintro ⟨⟨after, ha⟩, _⟩
      rw [hc] at ha
      cases ha
    · rename_i next hn
      rw [ih next]
      exact (and_iff_right ⟨next, hn⟩).symm

end ApplyEach

end Settings

namespace CommandLine

/-- The directives of the file that is named, line by line. -/
def fileDirectives (commandLine : CommandLine) (files : Files) : List Directive :=
  if commandLine.configPath.isEmpty then []
  else match files commandLine.configPath with
    | none => []
    | some content => (ConfigFile.directives content).map Prod.snd

/-- All directives, those of the file before those of the flags. -/
def directives (commandLine : CommandLine) (files : Files) : List Directive :=
  commandLine.fileDirectives files ++ commandLine.overrides

/-- If a file is named, it can be read. -/
def FileIsReadable (commandLine : CommandLine) (files : Files) : Prop :=
  commandLine.configPath ≠ [] → (files commandLine.configPath).isSome = true

end CommandLine

namespace Settings

variable {settings after : Settings} {files : Files} {commandLine : CommandLine}

/-- A flag is applied under its own key. -/
theorem map_snd_flags (overrides : List Directive) :
    (overrides.map fun directive => (directive.key, directive)).map Prod.snd = overrides := by
  rw [List.map_map]
  exact List.map_id overrides

theorem override_eq_none_iff (settings : Settings) (overrides : List Directive) :
    (settings.override overrides).2 = none ↔ ∀ directive ∈ overrides, directive.IsValid := by
  have heach := settings.applyEach_eq_none_iff (overrides.map fun d => (d.key, d))
  rw [map_snd_flags] at heach
  rw [← heach]
  exact Option.map_eq_none_iff

theorem settles_override {overrides : List Directive}
    (h : settings.override overrides = (after, none)) : settings.Settles overrides after := by
  obtain ⟨rfl, hnone⟩ := Prod.mk.inj h
  have hsettles := settles_applyEach
    (Prod.ext rfl (Option.map_eq_none_iff.mp hnone) : settings.applyEach _ = (_, none))
  rwa [map_snd_flags] at hsettles

/-- A file that can be read is accepted when its directives are, and then they settle the settings. -/
theorem load_spec (settings : Settings) {path content : Bytes} (hfile : files path = some content) :
    ((settings.load files path).2 = none ↔
      ∀ directive ∈ (ConfigFile.directives content).map Prod.snd, directive.IsValid) ∧
    ((settings.load files path).2 = none →
      settings.Settles ((ConfigFile.directives content).map Prod.snd)
        (settings.load files path).1) := by
  simp only [load, hfile, Option.map_eq_none_iff]
  exact ⟨settings.applyEach_eq_none_iff _, fun h => settles_applyEach (Prod.ext rfl h)⟩

theorem resolve_spec (settings : Settings) (hfile : commandLine.FileIsReadable files) :
    ((settings.resolve files commandLine).2 = none ↔
      ∀ directive ∈ commandLine.directives files, directive.IsValid) ∧
    ((settings.resolve files commandLine).2 = none →
      settings.Settles (commandLine.directives files) (settings.resolve files commandLine).1) := by
  unfold resolve CommandLine.directives CommandLine.fileDirectives
  split
  · rw [List.nil_append]
    exact ⟨settings.override_eq_none_iff _, fun h => settles_override (Prod.ext rfl h)⟩
  · rename_i hpath
    obtain ⟨content, hcontent⟩ := Option.isSome_iff_exists.mp
      (hfile fun he => hpath (List.isEmpty_iff.mpr he))
    obtain ⟨hvalid, hsettles⟩ := settings.load_spec hcontent
    rw [hcontent, List.forall_mem_append, ← hvalid]
    split
    · rename_i reached cause hload
      rw [hload]
      exact ⟨iff_of_false nofun (fun h => nomatch h.1), nofun⟩
    · rename_i reached hload
      rw [hload] at hsettles ⊢
      refine ⟨(reached.override_eq_none_iff _).trans (and_iff_right rfl).symm, fun h => ?_⟩
      exact (hsettles rfl).trans (settles_override (Prod.ext rfl h))

/-- Settings are settled exactly when each directive of the file and each flag is valid by itself, and
whether it is does not depend on the settings. For every key the last directive decides, the flags
standing behind the file, and keys that none is for are left alone. So a flag wins wherever the file is
named among the flags, and directives for different keys may change places in the file and among the
flags. -/
theorem resolve_precedence (settings : Settings) (files : Files) (commandLine : CommandLine)
    (hfile : commandLine.FileIsReadable files) :
    let resolved := settings.resolve files commandLine
    (resolved.2 = none ↔ ∀ directive ∈ commandLine.directives files, directive.IsValid) ∧
    (∀ (directive : Directive) (other : Settings),
      (∃ after, other.apply directive = .ok after) ↔ directive.IsValid) ∧
    (resolved.2 = none →
      settings.Settles (commandLine.directives files) resolved.1 ∧
      (∀ (name : Bytes) (flag : Directive), Directive.last? name commandLine.overrides = some flag →
        resolved.1.raw.get? name = some flag.value ∧
          ∀ key : Key, key.name = name → flag.InForce resolved.1) ∧
      ∀ (others : Files) (other : CommandLine), other.FileIsReadable others →
        Directive.Reordered (commandLine.fileDirectives files) (other.fileDirectives others) →
        Directive.Reordered commandLine.overrides other.overrides →
          settings.resolve others other = (resolved.1, none)) ∧
    ∀ (program path : Bytes) (front middle back : List Bytes) (flags passed : List Flag),
      Flag.ofWords front = .ok flags → Flag.ofWords middle = .ok passed →
      (∀ flag ∈ passed, flag.path? = none) →
        CommandLine.parse (program :: (front ++ utf8 "--config" :: path :: (middle ++ back))) =
          CommandLine.parse (program :: (front ++ (middle ++ utf8 "--config" :: path :: back))) := by
  intro resolved
  obtain ⟨hvalid, hsettles⟩ := settings.resolve_spec hfile
  refine ⟨hvalid, fun directive other => exists_apply_iff, fun hnone => ⟨hsettles hnone, ?_, ?_⟩, ?_⟩
  · intro name flag hl
    exact (hsettles hnone).of_append hl
  · intro others other hothers hlines hflags
    have hsame : Directive.Reordered (commandLine.directives files) (other.directives others) :=
      hlines.append hflags
    obtain ⟨hvalid', hsettles'⟩ := settings.resolve_spec hothers
    have hnone' : (settings.resolve others other).2 = none :=
      hvalid'.mpr fun directive hm => hvalid.mp hnone directive (hsame.mem hm)
    exact Prod.ext ((hsettles hnone).unique (hsettles' hnone') hsame).symm hnone'
  · intro program path front middle back flags passed hfront hmiddle hpassed
    exact CommandLine.parse_config hfront hmiddle hpassed program path back

/-- A file sets the port twice, a list of operations and a key that is not known; the flags set the port,
the operations and the timeout. The file may be named at the end, its lines for different keys may change
places, and so may the flags. -/
theorem resolve_precedence_flags_over_file :
    let files : Files := fun path =>
      if path = utf8 "a" then
        some (utf8 "port 7000\noperations ping,set\nhost db # near\nport 7001\nzone 5\nzone 6\n")
      else if path = utf8 "b" then
        some (utf8 "zone 5\nhost db\nport 7000\nport 7001\nzone 6\noperations ping,set\n")
      else none
    let parsed := fun words : List String => CommandLine.parse (words.map utf8)
    let first : CommandLine := ⟨utf8 "a", [⟨utf8 "operations", utf8 "get"⟩,
      ⟨utf8 "port", utf8 "9"⟩, ⟨utf8 "timeout-ms", utf8 "70"⟩], false⟩
    let second : CommandLine := ⟨utf8 "b", [⟨utf8 "timeout-ms", utf8 "70"⟩,
      ⟨utf8 "operations", utf8 "get"⟩, ⟨utf8 "port", utf8 "9"⟩], false⟩
    let settings := (({} : Settings).resolve files first).1
    parsed ["resp-bench", "--operations", "get", "--config", "a", "--port", "9", "--timeout-ms", "70"] =
      .ok first ∧
    parsed ["resp-bench", "--operations", "get", "--port", "9", "--timeout-ms", "70", "--config", "a"] =
      .ok first ∧
    ({} : Settings).Settles (first.directives files) settings ∧
    ({} : Settings).resolve files second = (settings, none) ∧
    settings.host = utf8 "db" ∧ settings.operations = [.get] ∧
    settings.raw.get? (utf8 "port") = some (utf8 "9") ∧
    Directive.InForce ⟨utf8 "port", utf8 "9"⟩ settings := by
  intro files parsed first second settings
  have hopens : first.FileIsReadable files := fun _ => by decide +kernel
  obtain ⟨_, _, hsettled, hplace⟩ := resolve_precedence {} files first hopens
  have hnone : (({} : Settings).resolve files first).2 = none := by decide +kernel
  obtain ⟨hsettles, hflags, hreordered⟩ := hsettled hnone
  obtain ⟨hraw, hforce⟩ := hflags (utf8 "port") ⟨utf8 "port", utf8 "9"⟩ (by decide +kernel)
  have hfirst : parsed ["resp-bench", "--operations", "get", "--config", "a", "--port", "9",
      "--timeout-ms", "70"] = .ok first := by decide +kernel
  have hmoved := hplace (utf8 "resp-bench") (utf8 "a") (["--operations", "get"].map utf8)
    (["--port", "9", "--timeout-ms", "70"].map utf8) [] [.option .operations (utf8 "get")]
    [.option .port (utf8 "9"), .option .timeoutMs (utf8 "70")] (by decide +kernel)
    (by decide +kernel) (by decide +kernel)
  refine ⟨hfirst, hmoved.symm.trans hfirst, hsettles, ?_, by decide +kernel, by decide +kernel, hraw,
    hforce .port rfl⟩
  exact hreordered files second (fun _ => by decide +kernel) (by decide +kernel) (by decide +kernel)

end Settings

end RespLoad
