import LayeredConfig.Logging
import LayeredConfig.Proofs.SilentText
import Mathlib

/-!
# Loaded settings

Every setting has a variable that overrides it, a place in the settings document and a default. What
is loaded is told setting by setting, and it makes sense whatever the variables and the document
say.
-/

namespace LayeredConfig.Settings

/-- A computation in two steps succeeds if both do. -/
theorem bind_eq_ok_iff {ε α β : Type} {x : Except ε α} {next : α → Except ε β} {b : β} :
    x >>= next = .ok b ↔ ∃ a, x = .ok a ∧ next a = .ok b := by
  cases x with
  | error e => exact iff_of_false nofun nofun
  | ok a => exact ⟨fun h ↦ ⟨a, rfl, h⟩, fun ⟨_, ha, h⟩ ↦ Except.ok.inj ha ▸ h⟩

/-- A success is none of an error in other words. -/
theorem eq_ok_of_mapError {ε ε' α : Type} {x : Except ε α} {f : ε → ε'} {a : α}
    (h : x.mapError f = .ok a) : x = .ok a := by
  cases x with
  | error e => cases h
  | ok a' => exact congrArg Except.ok (Except.ok.inj h)

/-! ### Single settings -/

/-- A setting. -/
inductive Setting where
  | legacyPaths | mainPath | connectionsPath | readEnvironment | policy
  | historyEnabled | redactExports
  | logEnabled | logPath | logRotation
  deriving DecidableEq

/-- What a setting is set to. -/
inductive Given where
  | texts (texts : List String)
  | text (text : String)
  | flag (flag : Bool)
  | policy (policy : Policy)
  deriving DecidableEq

namespace Setting

/-- A setting among all settings. -/
def get (s : Settings) : Setting → Given
  | legacyPaths => .texts s.sources.legacyPaths
  | mainPath => .text s.sources.mainPath
  | connectionsPath => .text s.sources.connectionsPath
  | readEnvironment => .flag s.sources.readEnvironment
  | policy => .policy s.sources.policy
  | historyEnabled => .flag s.history.enabled
  | redactExports => .flag s.history.redactExports
  | logEnabled => .flag s.logging.enabled
  | logPath => .text s.logging.path
  | logRotation => .text s.logging.rotation

/-- The variable that overrides a setting. -/
def variableName : Setting → String
  | legacyPaths => "CONFLUX_SOURCES_LEGACY_CONFIG_PATHS"
  | mainPath => "CONFLUX_SOURCES_CONFIG_TOML_PATH"
  | connectionsPath => "CONFLUX_SOURCES_CONNECTIONS_TOML_PATH"
  | readEnvironment => "CONFLUX_SOURCES_ENVIRONMENT_ENABLED"
  | policy => "CONFLUX_SOURCES_PERMISSION_POLICY"
  | historyEnabled => "CONFLUX_HISTORY_ENABLED"
  | redactExports => "CONFLUX_HISTORY_REDACT_EXPORTS"
  | logEnabled => "CONFLUX_LOGGING_LOCAL_ENABLED"
  | logPath => "CONFLUX_LOGGING_LOCAL_PATH"
  | logRotation => "CONFLUX_LOGGING_LOCAL_ROTATION"

/-- What the text of a variable sets. Only a policy may be none. -/
def ofVariable : Setting → String → Option Given
  | legacyPaths, text => some (.texts (pathList text))
  | mainPath, text | connectionsPath, text | logPath, text | logRotation, text => some (.text text)
  | readEnvironment, text | historyEnabled, text | redactExports, text =>
    some (.flag (flagOr true text))
  | logEnabled, text => some (.flag (flagOr false text))
  | policy, text => (Policy.ofName? (Text.lower text)).map .policy

/-- The section that a setting is in, and the fields of this section in order. -/
def part : Setting → String × List String
  | legacyPaths | mainPath | connectionsPath | readEnvironment | policy => ("sources", sourceFields)
  | historyEnabled | redactExports => ("history", historyFields)
  | logEnabled | logPath | logRotation => ("logging", logFields)

/-- The field of a setting. -/
def field : Setting → String
  | legacyPaths => "legacy_config_paths"
  | mainPath => "config_toml_path"
  | connectionsPath => "connections_toml_path"
  | readEnvironment => "environment_enabled"
  | policy => "permission_policy"
  | historyEnabled => "enabled"
  | redactExports => "redact_exports"
  | logEnabled => "local_enabled"
  | logPath => "local_path"
  | logRotation => "local_rotation"

/-- What a value in a document sets. -/
def ofValue (x : Setting) (v : Value) : Except SyntaxRule Given :=
  match x with
  | legacyPaths => (asTexts x.field v).map .texts
  | mainPath | connectionsPath | logPath | logRotation => (asText x.field v).map .text
  | readEnvironment | historyEnabled | redactExports | logEnabled => (asFlag x.field v).map .flag
  | policy => (asPolicy x.field v).map .policy

/-- What a section holds for a setting: the field by name, or in a list what is in its place. -/
def fieldIn? (x : Setting) : Value → Option Value
  | .table fields => Keyed.get? x.field fields
  | .array values => values[x.part.2.idxOf x.field]?
  | _ => none

/-- What a document holds for a setting. -/
def written? (t : Table) (x : Setting) : Option Value :=
  (Keyed.get? x.part.1 t).bind x.fieldIn?

/-- A setting is what a value sets, or else the default. -/
structure Follows (x : Setting) (given : Option Value) (s : Settings) : Prop where
  written : ∀ v, given = some v → x.ofValue v = .ok (x.get s)
  omitted : given = none → x.get s = x.get {}

end Setting

/-! ### Reading a document -/

variable {α β : Type} {v : Value} {t : Table} {s : Settings} {x : Setting}

private theorem follows_of_readField {read : String → Value → Except SyntaxRule α} {default a : α}
    (f : α → Given) (h : readField x.part.2 v x.field read default = .ok a)
    (hv : ∀ u, x.ofValue u = (read x.field u).map f) (hs : x.get s = f a)
    (hd : x.get {} = f default) : x.Follows (x.fieldIn? v) s := by
  obtain ⟨found, hfound, h⟩ := bind_eq_ok_iff.mp h
  have heq : found = x.fieldIn? v := by
    cases v with
    | table fields => exact (Except.ok.inj hfound).symm
    | array values => exact (Except.ok.inj hfound).symm
    | _ => cases hfound
  subst heq
  constructor
  · intro u hu
    rw [hu] at h
    rw [hv, hs, show read x.field u = .ok a from h]
    rfl
  · intro hn
    rw [hn] at h
    rw [hs, hd, Except.ok.inj h]

private theorem follows_of_section {section? : Value → Except SyntaxRule β}
    {read : String → Value → Except SyntaxRule α} {r r₀ : β} {a default : α} (f : α → Given)
    (h : (match Keyed.get? x.part.1 t with
      | some v => section? v
      | none => .ok r₀) = .ok r)
    (hfield : ∀ v, section? v = .ok r → readField x.part.2 v x.field read default = .ok a)
    (hv : ∀ u, x.ofValue u = (read x.field u).map f) (hs : x.get s = f a)
    (hd : x.get {} = f default) (homitted : r₀ = r → x.get s = x.get {}) :
    x.Follows (x.written? t) s := by
  rw [Setting.written?]
  cases hp : Keyed.get? x.part.1 t with
  | some v =>
    rw [hp] at h
    exact follows_of_readField f (hfield v h) hv hs hd
  | none =>
    rw [hp] at h
    exact ⟨nofun, fun _ ↦ homitted (Except.ok.inj h)⟩

private theorem of_sourceSection {r : SourceSettings} (h : sourceSection v = .ok r) :
    readField sourceFields v "legacy_config_paths" asTexts ({} : SourceSettings).legacyPaths =
        .ok r.legacyPaths ∧
      readField sourceFields v "config_toml_path" asText ({} : SourceSettings).mainPath =
        .ok r.mainPath ∧
      readField sourceFields v "connections_toml_path" asText
        ({} : SourceSettings).connectionsPath = .ok r.connectionsPath ∧
      readField sourceFields v "environment_enabled" asFlag ({} : SourceSettings).readEnvironment =
        .ok r.readEnvironment ∧
      readField sourceFields v "permission_policy" asPolicy ({} : SourceSettings).policy =
        .ok r.policy := by
  simp only [sourceSection, bind_eq_ok_iff] at h
  obtain ⟨_, hlegacy, _, hmain, _, hconnections, _, henvironment, _, hpolicy, heq⟩ := h
  cases heq
  exact ⟨hlegacy, hmain, hconnections, henvironment, hpolicy⟩

private theorem of_historySection {r : HistorySettings} (h : historySection v = .ok r) :
    readField historyFields v "enabled" asFlag ({} : HistorySettings).enabled = .ok r.enabled ∧
      readField historyFields v "redact_exports" asFlag ({} : HistorySettings).redactExports =
        .ok r.redactExports := by
  simp only [historySection, bind_eq_ok_iff] at h
  obtain ⟨_, henabled, _, hredact, heq⟩ := h
  cases heq
  exact ⟨henabled, hredact⟩

private theorem of_logSection {r : LogSettings} (h : logSection v = .ok r) :
    readField logFields v "local_enabled" asFlag ({} : LogSettings).enabled = .ok r.enabled ∧
      readField logFields v "local_path" asText ({} : LogSettings).path = .ok r.path ∧
      readField logFields v "local_rotation" asText ({} : LogSettings).rotation =
        .ok r.rotation := by
  simp only [logSection, bind_eq_ok_iff] at h
  obtain ⟨_, henabled, _, hpath, _, hrotation, heq⟩ := h
  cases heq
  exact ⟨henabled, hpath, hrotation⟩

private theorem follows_of_ofTable (h : ofTable t = .ok s) (x : Setting) :
    x.Follows (x.written? t) s := by
  simp only [ofTable, bind_eq_ok_iff] at h
  obtain ⟨sources, hsources, history, hhistory, logging, hlogging, heq⟩ := h
  cases heq
  have source := fun v ↦ of_sourceSection (v := v) (r := sources)
  have histories := fun v ↦ of_historySection (v := v) (r := history)
  have logs := fun v ↦ of_logSection (v := v) (r := logging)
  cases x with
  | legacyPaths =>
    exact follows_of_section .texts hsources (fun v hv ↦ (source v hv).1) (fun _ ↦ rfl) rfl rfl
      (by rintro rfl; rfl)
  | mainPath =>
    exact follows_of_section .text hsources (fun v hv ↦ (source v hv).2.1) (fun _ ↦ rfl) rfl rfl
      (by rintro rfl; rfl)
  | connectionsPath =>
    exact follows_of_section .text hsources (fun v hv ↦ (source v hv).2.2.1) (fun _ ↦ rfl) rfl rfl
      (by rintro rfl; rfl)
  | readEnvironment =>
    exact follows_of_section .flag hsources (fun v hv ↦ (source v hv).2.2.2.1) (fun _ ↦ rfl) rfl rfl
      (by rintro rfl; rfl)
  | policy =>
    exact follows_of_section .policy hsources (fun v hv ↦ (source v hv).2.2.2.2) (fun _ ↦ rfl) rfl
      rfl (by rintro rfl; rfl)
  | historyEnabled =>
    exact follows_of_section .flag hhistory (fun v hv ↦ (histories v hv).1) (fun _ ↦ rfl) rfl rfl
      (by rintro rfl; rfl)
  | redactExports =>
    exact follows_of_section .flag hhistory (fun v hv ↦ (histories v hv).2) (fun _ ↦ rfl) rfl rfl
      (by rintro rfl; rfl)
  | logEnabled =>
    exact follows_of_section .flag hlogging (fun v hv ↦ (logs v hv).1) (fun _ ↦ rfl) rfl rfl
      (by rintro rfl; rfl)
  | logPath =>
    exact follows_of_section .text hlogging (fun v hv ↦ (logs v hv).2.1) (fun _ ↦ rfl) rfl rfl
      (by rintro rfl; rfl)
  | logRotation =>
    exact follows_of_section .text hlogging (fun v hv ↦ (logs v hv).2.2) (fun _ ↦ rfl) rfl rfl
      (by rintro rfl; rfl)

/-! ### Variables -/

/-- A setting is what its variable sets, or else what it was. -/
structure Overridden (w : World) (s s' : Settings) (x : Setting) : Prop where
  set : ∀ text, w.lookupVariable? x.variableName = some text → x.ofVariable text = some (x.get s')
  unset : w.lookupVariable? x.variableName = none → x.get s' = x.get s

variable {w w' : World} {s' : Settings} {path path' text : String}

private theorem overridden_of_eq (rule : Option String → Given)
    (h : x.get s' = rule (w.lookupVariable? x.variableName))
    (hset : ∀ text, x.ofVariable text = some (rule (some text))) (hunset : rule none = x.get s) :
    Overridden w s s' x where
  set text ht := by rw [hset, h, ht]
  unset hn := by rw [h, hn, hunset]

private theorem of_policyOverride {current p : Policy} {found : Option String}
    (h : policyOverride current found = .ok p) :
    (∀ text, found = some text → Policy.ofName? (Text.lower text) = some p) ∧
      (found = none → p = current) := by
  cases found with
  | none =>
    cases h
    exact ⟨nofun, fun _ ↦ rfl⟩
  | some text =>
    refine ⟨?_, nofun⟩
    intro text' ht
    obtain rfl := Option.some.inj ht
    rw [policyOverride] at h
    cases hp : Policy.ofName? (Text.lower text) with
    | none =>
      rw [hp] at h
      cases h
    | some p' =>
      rw [hp] at h
      cases h
      rfl

private theorem overridden_of_override (h : override w s = .ok s') (x : Setting) :
    Overridden w s s' x := by
  simp only [override, bind_eq_ok_iff] at h
  obtain ⟨policy, hpolicy, heq⟩ := h
  cases heq
  cases x with
  | legacyPaths =>
    exact overridden_of_eq (fun o ↦ .texts ((o.map pathList).getD s.sources.legacyPaths)) rfl
      (fun _ ↦ rfl) rfl
  | mainPath =>
    exact overridden_of_eq (fun o ↦ .text (o.getD s.sources.mainPath)) rfl (fun _ ↦ rfl) rfl
  | connectionsPath =>
    exact overridden_of_eq (fun o ↦ .text (o.getD s.sources.connectionsPath)) rfl (fun _ ↦ rfl) rfl
  | readEnvironment =>
    exact overridden_of_eq (fun o ↦ .flag ((o.map (flagOr true)).getD s.sources.readEnvironment))
      rfl (fun _ ↦ rfl) rfl
  | policy =>
    obtain ⟨hset, hunset⟩ := of_policyOverride hpolicy
    exact ⟨fun text ht ↦ congrArg (Option.map Given.policy) (hset text ht),
      fun hn ↦ congrArg Given.policy (hunset hn)⟩
  | historyEnabled =>
    exact overridden_of_eq (fun o ↦ .flag ((o.map (flagOr true)).getD s.history.enabled)) rfl
      (fun _ ↦ rfl) rfl
  | redactExports =>
    exact overridden_of_eq (fun o ↦ .flag ((o.map (flagOr true)).getD s.history.redactExports)) rfl
      (fun _ ↦ rfl) rfl
  | logEnabled =>
    exact overridden_of_eq (fun o ↦ .flag ((o.map (flagOr false)).getD s.logging.enabled)) rfl
      (fun _ ↦ rfl) rfl
  | logPath =>
    exact overridden_of_eq (fun o ↦ .text (o.getD s.logging.path)) rfl (fun _ ↦ rfl) rfl
  | logRotation =>
    exact overridden_of_eq (fun o ↦ .text (o.getD s.logging.rotation)) rfl (fun _ ↦ rfl) rfl

/-! ### Sound settings -/

/-- Settings that make sense: no path of a source is blank, and no log in files is refused for how
often its file is changed. -/
structure Sound (s : Settings) : Prop where
  valid : s.invalid? = none
  paths : ∀ p ∈ s.sources.mainPath :: s.sources.connectionsPath :: s.sources.legacyPaths,
    Text.allBlank p = false
  rotation : ∀ w level text, Logging.start w level s.logging ≠ .error (.logRotation text)

private theorem paths_of_valid {sources : SourceSettings} (h : sources.invalid? = none) :
    ∀ p ∈ sources.mainPath :: sources.connectionsPath :: sources.legacyPaths,
      Text.allBlank p = false := by
  rw [SourceSettings.invalid?] at h
  split at h
  · cases h
  · next hmain =>
    split at h
    · cases h
    · next hconnections =>
      rw [Option.map_eq_none_iff, List.find?_eq_none] at h
      simp only [List.forall_mem_cons]
      refine ⟨Bool.eq_false_iff.mpr hmain, Bool.eq_false_iff.mpr hconnections, ?_⟩
      exact fun p hp ↦ Bool.eq_false_iff.mpr (h p hp)

private theorem rotation_of_valid {logging : LogSettings} (h : logging.invalid? = none) :
    rotations.contains logging.rotation = true := by
  rw [LogSettings.invalid?] at h
  split at h
  · cases h
  · next hr => rwa [Bool.not_eq_true, Bool.not_eq_false'] at hr

private theorem start_ne_logRotation {logging : LogSettings}
    (h : rotations.contains logging.rotation = true) (w : World) (level text : String) :
    Logging.start w level logging ≠ .error (.logRotation text) := by
  rw [Logging.start, h]
  split
  · nofun
  · split
    · nofun
    · rw [Bool.not_true, if_neg Bool.false_ne_true]
      split
      · nofun
      · nofun

/-- Settings that are not refused are sound. -/
theorem sound_of_valid (h : s.invalid? = none) : s.Sound := by
  have hboth : s.sources.invalid? = none ∧ s.logging.invalid? = none := by
    rw [invalid?] at h
    cases hs : s.sources.invalid? with
    | some cause =>
      rw [hs] at h
      cases h
    | none =>
      rw [hs] at h
      exact ⟨rfl, h⟩
  exact ⟨h, paths_of_valid hboth.1, start_ne_logRotation (rotation_of_valid hboth.2)⟩

/-! ### Loading -/

/-- A file that can be read is there. -/
theorem exists_of_readText (h : w.files.readText path = .ok text) :
    w.files.exists? path = true := by
  obtain ⟨n, hn, -⟩ := bind_eq_ok_iff.mp h
  rw [FileTree.exists?, hn]

/-- Only the variables count for how settings are overridden. -/
theorem finish_congr (h : w.environment = w'.environment) (s : Settings) :
    finish w s = finish w' s := by
  have hlookup : w.lookupVariable? = w'.lookupVariable? := by
    funext name
    rw [World.lookupVariable?, World.lookupVariable?, h]
  rw [finish, finish, override, override, hlookup]

/-- Without a file the settings are those of a file with silent lines only. -/
theorem loadOrDefault_eq_load (h : w.environment = w'.environment)
    (habsent : w.files.exists? path = false) (htext : w'.files.readText path' = .ok text)
    (hs : ∀ line ∈ Text.lines text.toList, Toml.isSilent line = true) :
    loadOrDefault w path = load w' path' := by
  have hload : loadFound w' path' = finish w' {} := by
    rw [loadFound, htext]
    change (do finish w' (← parse w' text)) = _
    rw [parse_of_isSilent w' hs]
    rfl
  rw [loadOrDefault, habsent, load, exists_of_readText htext, if_neg Bool.false_ne_true, if_pos rfl,
    hload, finish_congr h]

private theorem of_parse (h : parse w text = .ok s) :
    ∃ read t, Placeholder.substitute w.lookupVariable? text = .ok read ∧
      Toml.readPlain read = .ok t ∧ ofTable t = .ok s := by
  rw [parse] at h
  cases hread : Placeholder.substitute w.lookupVariable? text with
  | error missing =>
    rw [hread] at h
    cases h
  | ok read =>
    rw [hread] at h
    have h := eq_ok_of_mapError h
    rw [ofText] at h
    cases ht : Toml.readPlain read with
    | error e =>
      rw [ht] at h
      cases h
    | ok t =>
      rw [ht] at h
      cases hs : ofTable t with
      | error rule =>
        simp only [hs] at h
        cases h
      | ok s' =>
        simp only [hs] at h
        cases h
        exact ⟨read, t, rfl, ht, hs⟩

private theorem of_validate (h : validate s = .ok s') : s = s' ∧ s.invalid? = none := by
  rw [validate] at h
  split at h
  · cases h
  · next hnone => exact ⟨Except.ok.inj h, hnone⟩

private theorem of_load (h : load w path = .ok s) :
    ∃ text read t s₀, w.files.readText path = .ok text ∧
      Placeholder.substitute w.lookupVariable? text = .ok read ∧ Toml.readPlain read = .ok t ∧
      ofTable t = .ok s₀ ∧ override w s₀ = .ok s ∧ s.invalid? = none := by
  rw [load] at h
  split at h
  · obtain ⟨text, htext, h⟩ := bind_eq_ok_iff.mp h
    obtain ⟨s₀, hparse, h⟩ := bind_eq_ok_iff.mp h
    obtain ⟨s₁, hoverride, hvalid⟩ := bind_eq_ok_iff.mp h
    obtain ⟨read, t, hread, ht, hs₀⟩ := of_parse hparse
    obtain ⟨rfl, hnone⟩ := of_validate hvalid
    exact ⟨text, read, t, s₀, eq_ok_of_mapError htext, hread, ht, hs₀, hoverride, hnone⟩
  · cases h

/-- A missing settings file counts for a silent one, and whatever is loaded is sound. A variable
that is set decides its setting alone; otherwise the setting is what the document says once its
placeholders are replaced, or the default where it says nothing. -/
theorem load_lawful :
    (∀ {w w' : World} {path path' text : String}, w.environment = w'.environment →
      w.files.exists? path = false → w'.files.readText path' = .ok text →
      (∀ line ∈ Text.lines text.toList, Toml.isSilent line = true) →
      loadOrDefault w path = load w' path') ∧
    (∀ {w : World} {path : String} {s : Settings}, load w path = .ok s → s.Sound ∧
      ∃ text read t, w.files.readText path = .ok text ∧
        Placeholder.substitute w.lookupVariable? text = .ok read ∧ Toml.readPlain read = .ok t ∧
        ∀ x : Setting,
          (∀ value, w.lookupVariable? x.variableName = some value →
            x.ofVariable value = some (x.get s)) ∧
          (w.lookupVariable? x.variableName = none → x.Follows (x.written? t) s)) ∧
    ∀ (x : Setting) (value : String), ∃ given, ∀ (w : World) (path : String) (s : Settings),
      load w path = .ok s → w.lookupVariable? x.variableName = some value → x.get s = given := by
  refine ⟨loadOrDefault_eq_load, ?_, ?_⟩
  · intro w path s h
    obtain ⟨text, read, t, s₀, htext, hread, ht, hs₀, hoverride, hvalid⟩ := of_load h
    refine ⟨sound_of_valid hvalid, text, read, t, htext, hread, ht, fun x ↦ ⟨?_, ?_⟩⟩
    · exact (overridden_of_override hoverride x).set
    · intro hn
      have hx := (overridden_of_override hoverride x).unset hn
      have hf := follows_of_ofTable hs₀ x
      exact ⟨fun v hv ↦ hx ▸ hf.written v hv, fun hv ↦ hx.trans (hf.omitted hv)⟩
  · intro x value
    refine ⟨(x.ofVariable value).getD (x.get {}), ?_⟩
    intro w path s h hw
    obtain ⟨_, _, _, _, _, _, _, _, hoverride, _⟩ := of_load h
    rw [(overridden_of_override hoverride x).set value hw]
    rfl

/-- Surroundings with one file and two variables. -/
def withSettings (text : String) : World where
  environment := [("CONFLUX_LOGGING_LOCAL_ROTATION", "hourly"), ("M", "m")]
  files := ⟨[(["c"], .file 0o600 text.toUTF8)]⟩

private theorem find_withSettings (text : String) :
    (withSettings text).files.find "c" = .ok (.file 0o600 text.toUTF8) := by
  rw [withSettings]
  cbv

private theorem readText_withSettings (text : String) :
    (withSettings text).files.readText "c" = .ok text := by
  have htext : String.fromUTF8? text.toUTF8 = some text := by
    rw [String.fromUTF8?, String.toUTF8_eq_toByteArray, dif_pos text.isValidUTF8]
    rfl
  rw [FileTree.readText, bind_eq_ok_iff]
  exact ⟨_, find_withSettings text, by rw [Node.text, htext]⟩

/-- The path of a log comes from a placeholder, its rotation from a variable, and all else is as in
a missing file, for which a comment stands in. -/
theorem load_lawful_hourly :
    let w := withSettings "logging=[true,'$\x7bM\x7d']"
    ∃ s, load w "c" = .ok s ∧ s.Sound ∧ Setting.logPath.get s = .text "m" ∧
      Setting.logRotation.get s = .text "hourly" ∧
      Setting.mainPath.get s = Setting.mainPath.get {} ∧
      loadOrDefault w "d" = load (withSettings "# $\x7bN\x7d") "c" := by
  intro w
  let s : Settings := { logging := { enabled := true, path := "m", rotation := "hourly" } }
  have hread : Placeholder.substitute w.lookupVariable? "logging=[true,'$\x7bM\x7d']" =
      .ok "logging=[true,'m']\n" := by cbv
  have ht : Toml.readPlain "logging=[true,'m']\n" =
      .ok [("logging", .array [.bool true, .string "m"])] := by cbv
  have hparse : parse w "logging=[true,'$\x7bM\x7d']" =
      .ok { logging := { enabled := true, path := "m" } } := by
    rw [parse, hread]
    simp only [ofText, ht]
    rfl
  have hoverride : override w { logging := { enabled := true, path := "m" } } = .ok s := rfl
  have hvalid : s.invalid? = none := by decide
  have hfinish : finish w { logging := { enabled := true, path := "m" } } = .ok s := by
    refine bind_eq_ok_iff.mpr ⟨s, hoverride, ?_⟩
    rw [validate, hvalid]
  have hload : load w "c" = .ok s := by
    rw [load, exists_of_readText (readText_withSettings _), if_pos rfl, loadFound,
      readText_withSettings, bind_eq_ok_iff]
    refine ⟨_, rfl, bind_eq_ok_iff.mpr ⟨_, hparse, hfinish⟩⟩
  obtain ⟨habsent, hloaded, -⟩ := load_lawful
  refine ⟨s, hload, (hloaded hload).1, rfl, rfl, rfl, ?_⟩
  exact habsent rfl (by cbv) (readText_withSettings _) (by decide)

end LayeredConfig.Settings
