import LayeredConfig.Command.Program
import LayeredConfig.Proofs.ConnectionFiles
import LayeredConfig.Proofs.Delivery
import LayeredConfig.Proofs.LoadedSettings

/-!
# How runs end

Once settings are loaded and a pass has come to a configuration, a run ends with an error only if the
file for an export cannot be written. Otherwise its code tells whether what was asked for is there. A
pass can be ended by a source with malformed output and by nothing else. The task that shows the
configuration has a code for this, but the tasks about histories end with the error.
-/

namespace LayeredConfig

/-! ### Writing files -/

namespace FileTree

private theorem writeText_eq_map (t : FileTree) (path : String) :
    ∃ place : Except FileError (List String × Nat), ∀ text,
      t.writeText path text = place.map fun e ↦ t.set e.1 (.file e.2 text.toUTF8) := by
  unfold writeText
  cases Path.ofText path with
  | error cause => exact ⟨.error cause, fun _ ↦ rfl⟩
  | ok p =>
    simp only [bind, Except.bind]
    split
    · cases t.walk p.start (p.parts.dropLast ++ ["."]) with
      | error cause => exact ⟨.error cause, fun _ ↦ rfl⟩
      | ok _ => exact ⟨.error .isDirectory, fun _ ↦ rfl⟩
    · cases t.resolve p with
      | error cause => exact ⟨.error cause, fun _ ↦ rfl⟩
      | ok place =>
        dsimp only
        split
        · exact ⟨.error .isDirectory, fun _ ↦ rfl⟩
        · next mode _ _ => exact ⟨.ok (place, mode), fun _ ↦ rfl⟩
        · exact ⟨.ok (place, 0o644), fun _ ↦ rfl⟩

private theorem writeText_error {t : FileTree} {path text : String} {cause : FileError}
    (h : t.writeText path text = .error cause) (text' : String) :
    t.writeText path text' = .error cause := by
  obtain ⟨place, hplace⟩ := t.writeText_eq_map path
  rw [hplace] at h ⊢
  cases place with
  | error _ => exact h
  | ok _ => cases h

end FileTree

/-! ### Errors of a pass -/

private theorem Pass.malformed_of_error {reports : List Report} {e : Error}
    (h : (run reports none none).result = .error e) :
    ∃ source cause, e = .malformedOutput source cause := by
  by_cases hm : ∃ r ∈ reports, r.Malformed
  · obtain ⟨before, r, after, rfl, hb, hm⟩ := exists_first hm
    obtain ⟨cause, hcause⟩ := Option.isSome_iff_exists.mp (r.malformed?_isSome_iff.mpr hm)
    obtain ⟨hl, -⟩ := merge_first (fun b hmem ↦ b.malformed?_eq_none_iff.mpr (hb b hmem)) hcause
      after {}
    rw [run_of_error hl] at h
    exact ⟨r.source, cause, (Except.error.inj h).symm⟩
  · obtain ⟨l, hl⟩ := exists_merge_layers
      (fun r hr ↦ r.malformed?_eq_none_iff.mpr fun h ↦ hm ⟨r, hr, h⟩) {}
    rw [run_of_ok hl, conclude, place_none] at h
    cases h

namespace Command

/-! ### Tasks -/

/-- Whether a task shows the configuration. -/
def Task.shows : Task → Bool
  | .resolve .. => true
  | .history .. | .exportHistory .. => false

/-- What a task asks for is not there: the connection to show, or the history of a key. -/
inductive Task.Missing (c : Config) (r : Resolver) : Task → Prop where
  | connection {name : String} {showSecrets : Bool} (h : c.connection? name = none) :
    Missing c r (.resolve (some name) showSecrets)
  | history {key : String} {showSecrets : Bool} (h : r.history? key = none) :
    Missing c r (.history key showSecrets)

/-- The file of an export cannot be written. -/
inductive Task.Unwritable (files : FileTree) (cause : FileError) : Task → Prop where
  | file {path : String} {redact : Option Bool}
    (h : ∀ text, files.writeText path text = .error cause) :
    Unwritable files cause (.exportHistory (some path) redact)

variable {r r' : Resolver} {t : Transcript} {c : Config}

/-- An export asks for nothing that could be missing. -/
theorem Task.Unwritable.not_missing {files : FileTree} {cause : FileError} {task : Task}
    (h : task.Unwritable files cause) : ¬ task.Missing c r := by
  cases h
  nofun

private theorem Task.Unwritable.eq {files : FileTree} {cause cause' : FileError} {task : Task}
    (h : task.Unwritable files cause) (h' : task.Unwritable files cause') : cause = cause' := by
  cases h with
  | file h =>
    cases h' with
    | file hother => exact Except.error.inj ((h "").symm.trans (hother ""))

private theorem Transcript.world_report (t : Transcript) (ds : List Diagnostic) :
    (t.report ds).world = t.world := by
  rw [report]
  induction ds.filter isReported generalizing t with
  | nil => rfl
  | cons d ds ih => rw [List.foldl_cons, ih, warn]

/-- Showing a configuration ends well unless the connection is missing. -/
theorem runResolve_of_ok (h : resolveAll r t.world = (.ok c, r')) (connection : Option String)
    (showSecrets : Bool) :
    (runResolve r connection showSecrets t).result = .ok
      (if connection.any fun name ↦ (c.connection? name).isNone then configurationError
      else success) := by
  rw [runResolve, h]
  cases connection with
  | none => rfl
  | some name =>
    rw [Option.any_some]
    dsimp only
    rw [Config.requireConnection]
    cases c.connection? name <;> rfl

/-- So does showing a history unless it is missing. -/
theorem runHistory_of_ok (h : resolveAll r t.world = (.ok c, r')) (key : String)
    (showSecrets : Bool) :
    (runHistory r key showSecrets t).result = .ok
      (if (r'.history? key).isNone then configurationError else success) := by
  rw [runHistory, h]
  dsimp only
  cases r'.history? key <;> rfl

/-- So does an export as output. -/
theorem runExport_output (h : resolveAll r t.world = (.ok c, r')) (redact : Bool) :
    (runExport r none redact t).result = .ok success := by
  rw [runExport, h]
  rfl

/-- So does an export into a file unless that cannot be written. -/
theorem runExport_file (h : resolveAll r t.world = (.ok c, r')) (path : String) (redact : Bool) :
    ∃ text, (runExport r (some path) redact t).result =
      match t.world.files.writeText path text with
      | .ok _ => .ok success
      | .error cause => .error (.io cause) := by
  refine ⟨(r'.observers.history.getD {}).documentText redact, ?_⟩
  rw [runExport, h]
  dsimp only
  rw [Transcript.world_report]
  cases t.world.files.writeText path _ <;> rfl

namespace Invocation

variable {i : Invocation} {w w' : World} {s : Settings} {e : Error} {code : Nat}

/-- What the pass over the standard chain comes to. Its sources depend on the settings and on the
options for connection parameters, not on the task. -/
def merged (i : Invocation) (s : Settings) (w : World) : Except Error Config :=
  (Resolver.resolve { sources := s.sources.chain w (some i.overrides.flags) } w none none).1

/-- The resolver of a run after its pass. -/
def passed (i : Invocation) (s : Settings) (w : World) : Resolver :=
  (resolveAll (i.resolver s w) w).2

/-- The pass of a run comes to what the pass over the chain comes to, whoever follows it. -/
theorem resolveAll_resolver (i : Invocation) (s : Settings) (w : World) :
    resolveAll (i.resolver s w) w = (i.merged s w, i.passed s w) := rfl

/-- If the pass is ended, then by malformed output. The task that shows the configuration ends with a
code, the others with the error. -/
theorem run_of_error (hs : Settings.loadOrDefault w i.settingsPath = .ok s)
    (he : i.merged s w = .error e) :
    (∃ source cause, e = .malformedOutput source cause) ∧
      (i.run w).result = if i.task.shows then .ok configurationError else .error e := by
  obtain ⟨source, cause, rfl⟩ := Pass.malformed_of_error he
  refine ⟨⟨source, cause, rfl⟩, ?_⟩
  have hr := i.resolveAll_resolver s w
  rw [he] at hr
  rw [run, hs]
  cases i.task with
  | resolve connection showSecrets =>
    dsimp only
    rw [runResolve, hr]
    rfl
  | history key showSecrets =>
    dsimp only
    rw [runHistory, hr]
    rfl
  | exportHistory output redact =>
    dsimp only
    rw [runExport, hr]
    rfl

/-- Once there is a configuration a run ends in one of three ways: what was asked for is missing, the
file of an export cannot be written, or all is well. -/
theorem run_of_ok (hs : Settings.loadOrDefault w i.settingsPath = .ok s)
    (hc : i.merged s w = .ok c) :
    (i.task.Missing c (i.passed s w) ∧ (i.run w).result = .ok configurationError) ∨
      (∃ cause, i.task.Unwritable w.files cause ∧ (i.run w).result = .error (.io cause)) ∨
      (¬ i.task.Missing c (i.passed s w) ∧ (∀ cause, ¬ i.task.Unwritable w.files cause) ∧
        (i.run w).result = .ok success) := by
  let t : Transcript := { world := w }
  have hr : resolveAll (i.resolver s w) t.world = (.ok c, i.passed s w) := by
    rw [← hc]
    exact i.resolveAll_resolver s w
  rw [run, hs]
  cases i.task with
  | resolve connection showSecrets =>
    dsimp only
    rw [runResolve_of_ok hr]
    cases connection with
    | none => exact Or.inr (Or.inr ⟨nofun, nofun, rfl⟩)
    | some name =>
      rw [Option.any_some]
      cases hn : c.connection? name with
      | none => exact Or.inl ⟨.connection hn, rfl⟩
      | some record =>
        refine Or.inr (Or.inr ⟨?_, nofun, rfl⟩)
        intro hm
        cases hm with
        | connection h => cases hn.symm.trans h
  | history key showSecrets =>
    dsimp only
    rw [runHistory_of_ok hr]
    cases hh : (i.passed s w).history? key with
    | none => exact Or.inl ⟨.history hh, rfl⟩
    | some h =>
      refine Or.inr (Or.inr ⟨?_, nofun, rfl⟩)
      intro hm
      cases hm with
      | history hn => cases hh.symm.trans hn
  | exportHistory output redact =>
    dsimp only
    cases output with
    | none =>
      rw [runExport_output hr]
      exact Or.inr (Or.inr ⟨nofun, nofun, rfl⟩)
    | some path =>
      obtain ⟨text, hends⟩ := runExport_file hr path (redact.getD s.history.redactExports)
      rw [hends]
      cases hw : w.files.writeText path text with
      | error cause => exact Or.inr (Or.inl ⟨cause, .file (FileTree.writeText_error hw), rfl⟩)
      | ok files =>
        refine Or.inr (Or.inr ⟨nofun, ?_, rfl⟩)
        rintro cause ⟨hn⟩
        cases hw.symm.trans (hn text)

/-- Once there is a configuration only an export whose file cannot be written ends with an error. -/
theorem run_eq_error_iff (hs : Settings.loadOrDefault w i.settingsPath = .ok s)
    (hc : i.merged s w = .ok c) :
    (i.run w).result = .error e ↔ ∃ cause, e = .io cause ∧ i.task.Unwritable w.files cause := by
  constructor
  · intro he
    rcases run_of_ok hs hc with ⟨-, hr⟩ | ⟨cause, hu, hr⟩ | ⟨-, -, hr⟩
    · cases he.symm.trans hr
    · exact ⟨cause, Except.error.inj (he.symm.trans hr), hu⟩
    · cases he.symm.trans hr
  · rintro ⟨cause, rfl, hu⟩
    rcases run_of_ok hs hc with ⟨hm, -⟩ | ⟨cause', hu', hr⟩ | ⟨-, hn, -⟩
    · exact absurd hm hu.not_missing
    · rw [hr, hu.eq hu']
    · exact absurd hu (hn cause)

/-- And only what is missing is refused. -/
theorem run_eq_configurationError_iff (hs : Settings.loadOrDefault w i.settingsPath = .ok s)
    (hc : i.merged s w = .ok c) :
    (i.run w).result = .ok configurationError ↔ i.task.Missing c (i.passed s w) := by
  constructor
  · intro hcode
    rcases run_of_ok hs hc with ⟨hm, -⟩ | ⟨cause, -, hr⟩ | ⟨-, -, hr⟩
    · exact hm
    · cases hcode.symm.trans hr
    · cases hcode.symm.trans hr
  · intro hm
    rcases run_of_ok hs hc with ⟨-, hr⟩ | ⟨cause, hu, -⟩ | ⟨hn, -, -⟩
    · exact hr
    · exact absurd hm hu.not_missing
    · exact absurd hm hn

/-- A run that ends with a code ends with one of two. -/
theorem code_of_run (h : (i.run w).result = .ok code) :
    code = success ∨ code = configurationError := by
  cases hs : Settings.loadOrDefault w i.settingsPath with
  | error fault =>
    rw [run, hs] at h
    exact Or.inr (Except.ok.inj h).symm
  | ok s =>
    cases hc : i.merged s w with
    | error e =>
      rw [(run_of_error hs hc).2] at h
      cases hshows : i.task.shows with
      | true =>
        rw [hshows, if_pos rfl] at h
        exact Or.inr (Except.ok.inj h).symm
      | false =>
        rw [hshows, if_neg Bool.false_ne_true] at h
        cases h
    | ok c =>
      rcases run_of_ok hs hc with ⟨-, hr⟩ | ⟨cause, -, hr⟩ | ⟨-, -, hr⟩
      · exact Or.inr (Except.ok.inj (h.symm.trans hr))
      · cases h.symm.trans hr
      · exact Or.inl (Except.ok.inj (h.symm.trans hr))

private theorem code_session
    (h : Logging.start w (i.logLevel.getD "warn") (logSettings w i) = .ok w') :
    (i.session w).code = fatalError ↔ ∃ e, (i.run w').result = .error e := by
  rw [session, h]
  dsimp only
  cases hr : (i.run w').result with
  | error e => exact iff_of_true rfl ⟨e, rfl⟩
  | ok code =>
    refine iff_of_false ?_ nofun
    rcases code_of_run hr with rfl | rfl
    · exact (by decide : success ≠ fatalError)
    · exact (by decide : configurationError ≠ fatalError)

/-- A run with settings ends by what its pass comes to. A pass is ended by malformed output only, which
is a configuration that cannot be used for the task that shows it, and an error for the tasks about
histories. If the pass comes to a configuration, a run ends with an error exactly if the file of an
export cannot be written, and otherwise its code tells whether what was asked for is missing. The
errors are what the program ends with its fatal code for, once it has started logging. -/
theorem run_classifies (i : Invocation) (w : World) (s : Settings)
    (hs : Settings.loadOrDefault w i.settingsPath = .ok s) :
    (∀ e, i.merged s w = .error e →
      (∃ source cause, e = .malformedOutput source cause) ∧
        (i.run w).result = if i.task.shows then .ok configurationError else .error e) ∧
      (∀ c, i.merged s w = .ok c →
        (∀ e, (i.run w).result = .error e ↔
          ∃ cause, e = .io cause ∧ i.task.Unwritable w.files cause) ∧
        ((i.run w).result = .ok configurationError ↔ i.task.Missing c (i.passed s w)) ∧
        ∀ code, (i.run w).result = .ok code → code = success ∨ code = configurationError) ∧
      ∀ before, Logging.start before (i.logLevel.getD "warn") (logSettings before i) = .ok w →
        ((i.session before).code = fatalError ↔ ∃ e, (i.run w).result = .error e) := by
  refine ⟨fun e ↦ run_of_error hs, fun c hc ↦ ?_, fun before ↦ code_session⟩
  exact ⟨fun e ↦ run_eq_error_iff hs hc, run_eq_configurationError_iff hs hc, fun code ↦ code_of_run⟩

/-- Surroundings with a main file, and variables that leave only that, a file that is not there and
flags as sources. -/
def withMain (text : String) : World where
  environment :=
    [("CONFLUX_SOURCES_CONFIG_TOML_PATH", "c"), ("CONFLUX_SOURCES_CONNECTIONS_TOML_PATH", "d"),
      ("CONFLUX_SOURCES_ENVIRONMENT_ENABLED", "false"), ("CONFLUX_SOURCES_LEGACY_CONFIG_PATHS", "")]
  files := ⟨[(["c"], .file 0o600 text.toUTF8)]⟩

/-- The settings that these variables make. -/
def mainOnly : Settings where
  sources := { legacyPaths := [], mainPath := "c", connectionsPath := "d", readEnvironment := false }

/-- A task without options. -/
def plain (task : Task) : Invocation :=
  { settingsPath := "s", logLevel := none, task, overrides := {} }

/-- Without a file the settings are those of the variables. -/
theorem loadOrDefault_withMain (text : String) (task : Task) :
    Settings.loadOrDefault (withMain text) (plain task).settingsPath = .ok mainOnly := by
  have habsent : (withMain text).files.exists? "s" = false := by
    rw [withMain]
    cbv
  have hoverride : Settings.override (withMain text) {} = .ok mainOnly := rfl
  have hvalid : mainOnly.invalid? = none := by decide
  rw [Settings.loadOrDefault, plain, habsent, if_neg Bool.false_ne_true, Settings.finish,
    Settings.bind_eq_ok_iff]
  exact ⟨mainOnly, hoverride, by rw [Settings.validate, hvalid]⟩

private theorem start_withMain (text : String) (task : Task) :
    Logging.start (withMain text) ((plain task).logLevel.getD "warn")
      (logSettings (withMain text) (plain task)) = .ok (withMain text) := by
  have hlevel : Logging.levels.contains (Text.lower "warn") = true := by cbv
  rw [logSettings, loadOrDefault_withMain, plain, Option.getD_none, Logging.start, hlevel]
  rfl

/-- What the main file of these surroundings reports. -/
def mainReport (text : String) : Report :=
  (Source.ask (withMain text) none
    (.file { name := "cli_config_toml", path := "c", layout := .nested })).1

/-- What is asked for after it. -/
def laterReports (text : String) : List Report :=
  [(Source.ask (withMain text) none
      (.file { name := "connections_toml", path := "d", layout := .connectionsOnly })).1,
    (Source.ask (withMain text) none (.flags {})).1]

/-- The pass is over these reports. -/
theorem merged_withMain (text : String) (task : Task) :
    (plain task).merged mainOnly (withMain text) =
      (Pass.run (mainReport text :: laterReports text) none none).result := by
  rw [merged, Resolver.result_resolve, Resolver.reports_askAll]
  rfl

/-- The main file reports what it is read as. -/
theorem outcome_mainReport {text : String} {t : Table}
    (htext : (Node.file 0o600 text.toUTF8).text = .ok text) (hread : Toml.read text = .ok t) :
    (mainReport text).outcome = .ok t := by
  have hfind : (withMain text).files.find "c" = .ok (.file 0o600 text.toUTF8) := by
    rw [withMain]
    cbv
  apply FileSource.discover_of_read "cli_config_toml" hfind FileSource.not_skipped htext
  rw [Layout.read, hread]
  rfl

/-- A number in the place of the connections ends the pass. -/
theorem merged_misnamed (task : Task) :
    (plain task).merged mainOnly (withMain "connections = 5") =
      .error (.malformedOutput "cli_config_toml" (.branch .number)) := by
  have hread : Toml.read "connections = 5" = .ok [("connections", .int 5)] := by cbv
  have hmain := outcome_mainReport (by cbv) hread
  have hm : (mainReport "connections = 5").malformed? = some (.branch .number) :=
    Report.malformed?_of_not_split hmain rfl
  have hsource : (mainReport "connections = 5").source = "cli_config_toml" :=
    Source.source_ask _ _ _
  have hnone : ∀ r ∈ ([] : List Report), r.malformed? = none := fun _ hr ↦
    absurd hr List.not_mem_nil
  obtain ⟨hl, -⟩ := Pass.merge_first hnone hm (laterReports "connections = 5") {}
  rw [List.nil_append] at hl
  rw [merged_withMain, Pass.run_of_error hl, hsource]

private theorem merged_empty (task : Task) :
    (plain task).merged mainOnly (withMain "") = .ok {} := by
  have hread : Toml.read "" = .ok [] := by cbv
  have hmain := outcome_mainReport (by cbv) hread
  have habsent : (withMain "").files.find "d" = .error .notFound := by
    rw [withMain]
    cbv
  have hconnections : (Source.ask (withMain "") none
      (.file { name := "connections_toml", path := "d", layout := .connectionsOnly })).1.outcome =
        .ok [] := by
    change (FileSource.discover _ (withMain "") none).1 = _
    rw [FileSource.discover, habsent]
    rfl
  have hflags : (Source.ask (withMain "") none (.flags {})).1.outcome = .ok [] := rfl
  rw [merged_withMain, laterReports, Pass.run, Pass.merge_answered hmain rfl,
    Pass.merge_answered hconnections rfl, Pass.merge_answered hflags rfl]
  rfl

/-- After malformed output the configuration is refused with a code, and a history with an error, which
is fatal. When all is read, a connection that is missing is refused with the same code, and an export
into a directory that is missing with an error. -/
theorem run_classifies_misnamed :
    let w := withMain "connections = 5"
    ((plain (.resolve none false)).run w).result = .ok 2 ∧
      ((plain (.history "user" false)).run w).result =
        .error (.malformedOutput "cli_config_toml" (.branch .number)) ∧
      ((plain (.history "user" false)).session w).code = 5 ∧
      ((plain (.resolve (some "dev") false)).run (withMain "")).result = .ok 2 ∧
      ((plain (.exportHistory (some "d/e") none)).run (withMain "")).result =
        .error (.io .notFound) := by
  intro w
  have hends (text : String) (task : Task) :=
    run_classifies (plain task) (withMain text) mainOnly (loadOrDefault_withMain text task)
  have hwrite : ∀ text, (withMain "").files.writeText "d/e" text = .error .notFound := by
    intro text
    rw [withMain]
    cbv
  have hhistory := ((hends "connections = 5" (.history "user" false)).1 _ (merged_misnamed _)).2
  refine ⟨?_, hhistory, ?_, ?_, ?_⟩
  · exact ((hends _ _).1 _ (merged_misnamed _)).2
  · exact ((hends _ _).2.2 w (start_withMain _ _)).mpr ⟨_, hhistory⟩
  · exact ((hends _ _).2.1 _ (merged_empty _)).2.1.mpr (.connection rfl)
  · exact (((hends _ _).2.1 _ (merged_empty _)).1 _).mpr ⟨.notFound, rfl, .file hwrite⟩

/-- The tasks about histories do not end with a code after malformed output, as showing the
configuration does. -/
theorem run_misnamed :
    let w := withMain "connections = 5"
    let e := Error.malformedOutput "cli_config_toml" (.branch .number)
    Settings.loadOrDefault w "s" = .ok mainOnly ∧
      (∀ task, (plain task).merged mainOnly w = .error e) ∧
      ((plain (.resolve none false)).run w).result = .ok configurationError ∧
      ((plain (.history "user" false)).run w).result = .error e ∧
      ((plain (.exportHistory none none)).run w).result = .error e := by
  intro w e
  have hends (task : Task) :=
    (run_of_error (loadOrDefault_withMain _ task) (merged_misnamed task)).2
  exact ⟨loadOrDefault_withMain _ (.resolve none false), merged_misnamed, hends _, hends _, hends _⟩

end Invocation

end Command

end LayeredConfig
