import BracketLint.Proofs.Placement
import BracketLint.Proofs.ReportLimit
import BracketLint.Proofs.ScanSettings
import BracketLint.Session

/-! How a run ends and what it reports. The exit code says whether the settings load, the input is
a file of text and the check accepts it. What only changes how things are shown does not change
it. -/

namespace BracketLint

/-- The events that are errors, in order. -/
def Event.errors (es : List Event) : List Event := es.filter (·.level = .error)

theorem Event.errors_append (es es' : List Event) :
    errors (es ++ es') = errors es ++ errors es' :=
  List.filter_append ..

theorem Event.errors_map_failure (reports : List String) :
    errors (reports.map .failure) = reports.map .failure := by
  apply List.filter_eq_self.mpr
  intro e he
  obtain ⟨report, -, rfl⟩ := List.mem_map.mp he
  rfl

/-- Unless nothing at all is shown, every error is. -/
theorem Event.errors_shown {v : Verbosity} (h : v ≠ .off) (es : List Event) :
    errors (es.filter fun e => v.shows e.level) = errors es := by
  unfold errors
  rw [List.filter_filter]
  apply List.filter_congr
  intro e _
  by_cases he : e.level = .error
  · cases v with
    | off => exact absurd rfl h
    | upTo most =>
      have hmost : Level.error.rank ≤ most.rank := by cases most <;> decide
      simp [Verbosity.shows, he, hmost]
  · simp [he]

namespace Logged

variable {α β : Type} {x : Logged α}

/-- None of the events is an error. -/
def Quiet (x : Logged α) : Prop := Event.errors x.events = []

theorem Quiet.note {e : Event} (h : Event.errors [e] = []) : (Logged.note e).Quiet := h

theorem Quiet.bind {f : α → Logged β} (hx : x.Quiet) (hf : (f x.value).Quiet) :
    (x >>= f).Quiet := by
  unfold Quiet at hx hf ⊢
  rw [events_bind, Event.errors_append, hx, hf]
  rfl

theorem Quiet.errors_bind {f : α → Logged β} (hx : x.Quiet) :
    Event.errors (x >>= f).events = Event.errors (f x.value).events := by
  rw [events_bind, Event.errors_append, hx, List.nil_append]

end Logged

open Logged

theorem Finding.quiet_events (f : Finding) : Event.errors f.events = [] := by
  unfold Finding.events
  split <;> rfl

theorem RecordList.quiet_appendLogged (l : RecordList) (message : List UInt8) (position : UInt32)
    (memory : Memory) : (l.appendLogged message position memory).Quiet := by
  unfold RecordList.appendLogged
  dsimp only
  split <;> rfl

theorem Finding.quiet_recordAll (memory : Nat → Memory) (attempt : Nat) (l : RecordList)
    (fs : List Finding) : (recordAll memory attempt l fs).Quiet := by
  induction fs generalizing attempt l with
  | nil => rfl
  | cons f rest ih =>
    have hf := f.quiet_events
    have happend := l.quiet_appendLogged f.message f.position (memory attempt)
    unfold Quiet at happend ih ⊢
    unfold recordAll
    dsimp only
    split
    · simp only [Event.errors_append, hf, happend, ih, List.append_nil]
    · simp only [Event.errors_append, hf, happend, List.append_nil]

theorem quiet_scanInto (o : ScanOptions) (source : List Char) (memory : Nat → Memory)
    (l : RecordList) : (scanInto o source memory l).Quiet := by
  apply Quiet.bind (Finding.quiet_recordAll ..)
  split <;> rfl

theorem quiet_check (o : ScanOptions) (source : List Char) (memory : Nat → Memory) :
    (check o source memory).Quiet := by
  apply Quiet.bind (quiet_scanInto ..)
  split
  rename_i outcome l _
  cases outcome with
  | error e => rfl
  | ok u =>
    dsimp only
    split <;> rfl

theorem quiet_lint (settings : Settings) (source : String) (memory : Nat → Memory) :
    (lint settings source memory).Quiet := by
  apply Quiet.bind (Quiet.note rfl)
  apply Quiet.bind (quiet_check ..)
  split <;> rfl

theorem quiet_lintFile (files : Files) (settings : Settings) (input : String) :
    (lintFile files settings input).Quiet := by
  apply Quiet.bind (Quiet.note rfl)
  split
  · rfl
  · apply Quiet.bind (quiet_lint ..)
    split <;> rfl

theorem Settings.quiet_load (files : Files) (systemPath explicitPath : Option String) :
    (load files systemPath explicitPath).Quiet := by
  cases hd : deciding? files systemPath explicitPath with
  | none =>
    rw [load_of_no_deciding hd]
    cases systemPath <;> rfl
  | some path =>
    obtain ⟨origin, he⟩ := load_of_deciding hd
    rw [he]
    rfl

theorem flatMap_newline_eq_intercalate (separator text : List Char) :
    text.flatMap (fun c => if c = '\n' then separator else [c]) =
      separator.intercalate (text.splitOn '\n') := by
  induction text with
  | nil => rfl
  | cons c rest ih =>
    obtain ⟨l, ls, hl⟩ := List.exists_cons_of_ne_nil (List.splitOn_ne_nil '\n' rest)
    rw [List.flatMap_cons, ih, List.splitOn_cons_eq_if_modifyHead, hl]
    by_cases hc : c = '\n'
    · simp [hc]
    · cases ls <;> simp [hc, List.intercalate]

theorem indent_eq (s : String) :
    indent s = String.ofList ("\n    ".toList.intercalate (s.toList.splitOn '\n')) :=
  congrArg String.ofList (flatMap_newline_eq_intercalate "\n    ".toList s.toList)

namespace Logger

/-- A report is written under its level, with the lines after the first one indented. -/
theorem line_failure (g : Logger) (i : Nat) (report : String) : g.line i (.failure report) =
    g.shown (g.heading i .error "quire" ++
      String.ofList ("\n    ".toList.intercalate (report.toList.splitOn '\n')) ++ "\n") := by
  rw [← indent_eq, line, Event.fields, g.values_nil, String.append_empty]
  rfl

/-- For a reader that is no terminal, a report without control characters is shown whole. -/
theorem plain_line_failure (i : Nat) {report : String}
    (h : ∀ c ∈ report.toList, 0x80 ≤ c.toNat ∨ PlainText.isVisible c = true) :
    plain.line i (.failure report) = "[ERROR quire] " ++ indent report ++ "\n" := by
  have hline : plain.line i (.failure report) =
      PlainText.strip ("[ERROR quire] " ++ indent report ++ "\n") := by
    rw [plain.line_failure, ← indent_eq]
    rfl
  rw [hline]
  apply PlainText.strip_of_visible
  intro c hc
  simp only [String.toList_append, List.mem_append, indent, String.toList_ofList,
    List.mem_flatMap] at hc
  have hheading : "[ERROR quire] ".toList.all PlainText.isVisible = true := by decide
  have hmargin : "\n    ".toList.all PlainText.isVisible = true := by decide
  have hend : "\n".toList.all PlainText.isVisible = true := by decide
  rcases hc with (hc | ⟨d, hd, hc⟩) | hc
  · exact .inr (List.all_eq_true.mp hheading c hc)
  · split at hc
    · exact .inr (List.all_eq_true.mp hmargin c hc)
    · rw [List.mem_singleton.mp hc]
      exact h d hd
  · exact .inr (List.all_eq_true.mp hend c hc)

end Logger

theorem value_lintFile_of_unreadable {files : Files} {input : String} {e : FileError}
    (settings : Settings) (h : files.read input = .error e) :
    (lintFile files settings input).value = .error (.io e.message) := by
  simp only [lintFile, value_bind, h, value_pure]

theorem value_lintFile_of_read {files : Files} {input text : String} (settings : Settings)
    (h : files.read input = .ok text) :
    (lintFile files settings input).value =
      match (check settings.scan text.toList fun _ => .plenty).value with
      | .ok () => .ok ()
      | .error e => .error (.check e text) := by
  have hlint := value_lint settings text fun _ => .plenty
  cases hcheck : (check settings.scan text.toList fun _ => .plenty).value with
  | error e =>
    rw [hcheck] at hlint
    simp only [lintFile, value_bind, h, hlint, value_pure]
  | ok u =>
    rw [hcheck] at hlint
    simp only [lintFile, value_bind, h, hlint, value_pure]

namespace Session

variable {files files' : Files} {systemPath : Option String} {a a' : Arguments}
  {r : ReportSettings} {e : LintError}

/-- Everything goes well in a run: the settings load, the input is a file of text, and the check
accepts it. -/
def Succeeds (files : Files) (systemPath : Option String) (a : Arguments) : Prop :=
  ∃ settings source, (Settings.load files systemPath a.config).value = .ok settings ∧
    files a.input = .ok (.file (Utf8.encode source)) ∧
    (check settings.scan source fun _ => .plenty).value = .ok ()

/-- What goes wrong in a run, and the settings under which it is reported. -/
inductive Fails (files : Files) (systemPath : Option String) (a : Arguments) :
    ReportSettings → LintError → Prop where
  | settings {e : LintError} (h : (Settings.load files systemPath a.config).value = .error e) :
    Fails files systemPath a {} e
  | input {settings : Settings} {e : FileError}
      (h : (Settings.load files systemPath a.config).value = .ok settings)
      (hread : files.read a.input = .error e) :
    Fails files systemPath a settings.report (.io e.message)
  | check {settings : Settings} {text : String} {e : CheckError}
      (h : (Settings.load files systemPath a.config).value = .ok settings)
      (hread : files.read a.input = .ok text)
      (hcheck : (check settings.scan text.toList fun _ => .plenty).value = .error e) :
    Fails files systemPath a settings.report (.check e text)

/-- A project file that cannot be read is not passed over for other settings. -/
theorem Fails.of_unreadable_project {why : FileError} (hconfig : a.config = none)
    (h : files Settings.projectPath = .ok (.unreadable why)) :
    Fails files systemPath a {} (.io why.message) := by
  apply Fails.settings
  rw [hconfig, Settings.load_project systemPath (Files.contains_of_ok h),
    Settings.ofFile_of_read_error h (Files.read_of_unreadable h)]

theorem succeeds_iff : Succeeds files systemPath a ↔
    ∃ settings text, (Settings.load files systemPath a.config).value = .ok settings ∧
      files.read a.input = .ok text ∧
      (check settings.scan text.toList fun _ => .plenty).value = .ok () := by
  constructor
  · rintro ⟨settings, source, hload, hfile, hcheck⟩
    rw [← String.toList_ofList (l := source)] at hfile hcheck
    exact ⟨settings, String.ofList source, hload, Files.read_of_text hfile, hcheck⟩
  · rintro ⟨settings, text, hload, hread, hcheck⟩
    exact ⟨settings, text.toList, hload, Files.read_eq_ok_iff.mp hread, hcheck⟩

theorem succeeds_or_fails (files : Files) (systemPath : Option String) (a : Arguments) :
    Succeeds files systemPath a ∨ ∃ r e, Fails files systemPath a r e := by
  cases hload : (Settings.load files systemPath a.config).value with
  | error e => exact .inr ⟨{}, e, .settings hload⟩
  | ok settings =>
    cases hread : files.read a.input with
    | error e => exact .inr ⟨settings.report, .io e.message, .input hload hread⟩
    | ok text =>
      cases hcheck : (check settings.scan text.toList fun _ => .plenty).value with
      | error e => exact .inr ⟨settings.report, .check e text, .check hload hread hcheck⟩
      | ok u => exact .inl (succeeds_iff.mpr ⟨settings, text, hload, hread, hcheck⟩)

/-- Some work ends with an exit code, and these are the errors on the way. -/
def Ends (x : Logged Nat) (code : Nat) (reports : List String) : Prop :=
  x.value = code ∧ Event.errors x.events = reports.map .failure

theorem Ends.bind {α : Type} {x : Logged α} {f : α → Logged Nat} {code : Nat}
    {reports : List String} (hx : x.Quiet) (h : Ends (f x.value) code reports) :
    Ends (x >>= f) code reports := by
  obtain ⟨hvalue, herrors⟩ := h
  exact ⟨hvalue, by rw [hx.errors_bind, herrors]⟩

theorem ends_report (handler : Handler) (settings : ReportSettings) (path : String)
    (e : LintError) :
    Ends (report handler settings path e) failed
      ((⟨handler, settings, path⟩ : Printer).print e) :=
  ⟨rfl, Event.errors_map_failure _⟩

theorem ends_work_of_load_error (handler : Handler) (v : Verbosity)
    (h : (Settings.load files systemPath a.config).value = .error e) :
    Ends (work handler files systemPath v a) failed
      ((⟨handler, {}, a.input⟩ : Printer).print e) := by
  apply Ends.bind (Quiet.note rfl)
  apply Ends.bind (Quiet.note rfl)
  apply Ends.bind (Settings.quiet_load ..)
  rw [h]
  exact ends_report handler {} a.input e

theorem ends_work_of_lint_error {settings : Settings} (handler : Handler) (v : Verbosity)
    (h : (Settings.load files systemPath a.config).value = .ok settings)
    (hlint : (lintFile files settings a.input).value = .error e) :
    Ends (work handler files systemPath v a) failed
      ((⟨handler, settings.report, a.input⟩ : Printer).print e) := by
  apply Ends.bind (Quiet.note rfl)
  apply Ends.bind (Quiet.note rfl)
  apply Ends.bind (Settings.quiet_load ..)
  rw [h]
  apply Ends.bind (quiet_lintFile ..)
  rw [hlint]
  exact ends_report handler settings.report a.input e

theorem ends_work_of_lint_ok {settings : Settings} (handler : Handler) (v : Verbosity)
    (h : (Settings.load files systemPath a.config).value = .ok settings)
    (hlint : (lintFile files settings a.input).value = .ok ()) :
    Ends (work handler files systemPath v a) accepted [] := by
  apply Ends.bind (Quiet.note rfl)
  apply Ends.bind (Quiet.note rfl)
  apply Ends.bind (Settings.quiet_load ..)
  rw [h]
  apply Ends.bind (quiet_lintFile ..)
  rw [hlint]
  exact Ends.bind (Quiet.note rfl) ⟨rfl, rfl⟩

theorem Succeeds.ends (h : Succeeds files systemPath a) (handler : Handler) (v : Verbosity) :
    Ends (work handler files systemPath v a) accepted [] := by
  obtain ⟨settings, text, hload, hread, hcheck⟩ := succeeds_iff.mp h
  have hlint := value_lintFile_of_read settings hread
  rw [hcheck] at hlint
  exact ends_work_of_lint_ok handler v hload hlint

theorem Fails.ends (h : Fails files systemPath a r e) (handler : Handler) (v : Verbosity) :
    Ends (work handler files systemPath v a) failed
      ((⟨handler, r, a.input⟩ : Printer).print e) := by
  cases h with
  | settings hload => exact ends_work_of_load_error handler v hload
  | @input settings e hload hread =>
    exact ends_work_of_lint_error handler v hload (value_lintFile_of_unreadable settings hread)
  | @check settings text e hload hread hcheck =>
    have hlint := value_lintFile_of_read settings hread
    rw [hcheck] at hlint
    exact ends_work_of_lint_error handler v hload hlint

/-- The verbosity that is in force in a run. -/
def verbosity (a : Arguments) : Verbosity :=
  (Verbosity.ofName? a.logLevel).getD fallbackVerbosity

/-- The events that a run writes. -/
def written (handler : Handler) (files : Files) (systemPath : Option String) (a : Arguments) :
    List Event :=
  (work handler files systemPath (verbosity a) a).events.filter fun e =>
    (verbosity a).shows e.level

theorem stderr_start (t : Terminal) (files : Files) (systemPath : Option String) (a : Arguments) :
    (start t files systemPath a).stderr =
      (if (Verbosity.ofName? a.logLevel).isSome then "" else badLevelText a.logLevel) ++
        String.join ((written t.handler files systemPath a).mapIdx t.logger.line) := rfl

section ExitCode

variable {t t' : Terminal}

theorem Succeeds.exitCode_start (h : Succeeds files systemPath a) :
    (start t files systemPath a).exitCode = accepted :=
  (h.ends t.handler (verbosity a)).1

theorem exitCode_start_of_not_succeeds (h : ¬ Succeeds files systemPath a) :
    (start t files systemPath a).exitCode = failed := by
  rcases succeeds_or_fails files systemPath a with hs | ⟨r, e, hf⟩
  · exact absurd hs h
  · exact (hf.ends t.handler (verbosity a)).1

theorem Fails.not_succeeds (h : Fails files systemPath a r e) : ¬ Succeeds files systemPath a := by
  intro hs
  have hcode := (h.ends .ascii (verbosity a)).1
  rw [(hs.ends .ascii (verbosity a)).1] at hcode
  cases hcode

theorem exitCode_start_eq_accepted_iff :
    (start t files systemPath a).exitCode = accepted ↔ Succeeds files systemPath a := by
  constructor
  · intro hcode
    by_contra h
    rw [exitCode_start_of_not_succeeds h] at hcode
    cases hcode
  · exact Succeeds.exitCode_start

/-- Success does not depend on what is set for reports, nor on the log level. -/
theorem Succeeds.congr (hinput : a'.input = a.input) (hconfig : a'.config = a.config)
    (hsame : Settings.SameAt files files' a.input)
    (hfiles : ∀ path ∈ Settings.sources systemPath a.config,
      Settings.SameButReport files files' path)
    (h : Succeeds files systemPath a) : Succeeds files' systemPath a' := by
  obtain ⟨settings, source, hload, hfile, hcheck⟩ := h
  have hscan := Settings.scan_load_congr hfiles
  rw [hload, ← hconfig] at hscan
  cases hload' : (Settings.load files' systemPath a'.config).value with
  | error e =>
    rw [hload'] at hscan
    cases hscan
  | ok settings' =>
    rw [hload'] at hscan
    have hsettings : settings'.scan = settings.scan := Option.some.inj hscan
    refine ⟨settings', source, hload', ?_, ?_⟩
    · rw [hinput]
      exact hsame.ok hfile
    · rw [hsettings]
      exact hcheck

theorem exitCode_start_congr (hinput : a'.input = a.input) (hconfig : a'.config = a.config)
    (hsame : Settings.SameAt files files' a.input)
    (hfiles : ∀ path ∈ Settings.sources systemPath a.config,
      Settings.SameButReport files files' path) :
    (start t' files' systemPath a').exitCode = (start t files systemPath a).exitCode := by
  by_cases h : Succeeds files systemPath a
  · rw [h.exitCode_start, (h.congr hinput hconfig hsame hfiles).exitCode_start]
  · have h' : ¬ Succeeds files' systemPath a' := by
      intro hs
      apply h
      apply hs.congr hinput.symm hconfig.symm
      · rw [hinput]
        exact hsame.symm
      · rw [hconfig]
        exact fun path hpath => (hfiles path hpath).symm
    rw [exitCode_start_of_not_succeeds h, exitCode_start_of_not_succeeds h']

end ExitCode

theorem Ends.errors_written {handler : Handler} {code : Nat} {reports : List String}
    (hv : verbosity a ≠ .off)
    (h : Ends (work handler files systemPath (verbosity a) a) code reports) :
    Event.errors (written handler files systemPath a) = reports.map .failure := by
  rw [written, Event.errors_shown hv, h.2]

/-- At the level of errors a run that fails writes its report, and nothing else. -/
theorem Fails.stderr_start (t : Terminal) (h : Fails files systemPath a r e)
    (hnamed : Verbosity.ofName? a.logLevel = some (.upTo .error)) :
    (start t files systemPath a).stderr =
      String.join ((((⟨t.handler, r, a.input⟩ : Printer).print e).map .failure).mapIdx
        t.logger.line) := by
  have hv : verbosity a = .upTo .error := by rw [verbosity, hnamed, Option.getD_some]
  have hall : written t.handler files systemPath a =
      Event.errors (written t.handler files systemPath a) := by
    have hshows (l : Level) : (Verbosity.upTo .error).shows l = decide (l = .error) := by
      cases l <;> rfl
    simp only [written, hv, hshows, Event.errors, List.filter_filter, Bool.and_self]
  rw [Session.stderr_start, hnamed, hall, (h.ends _ _).errors_written (by rw [hv]; decide)]
  exact String.empty_append

theorem runOn_of_read {t : Terminal} {arguments : List String}
    (h : CommandLine.read arguments = .run a) :
    runOn t files systemPath arguments = start t files systemPath a := by
  rw [runOn, h]

/-- Wherever a run is read, it ends with 0 if everything goes well and with 1 otherwise. Runs on one
input with the same arguments but for the log level, and with the same configuration but for what
it says about reports, end alike. The errors that are written, if anything is, are what is printed
of what goes wrong, each on a line of its own under its level, with the lines after the first one
indented. -/
theorem run_outcome (t : Terminal) (files : Files) (systemPath : Option String)
    (arguments : List String) (a : Arguments) (hread : CommandLine.read arguments = .run a) :
    ((runOn t files systemPath arguments).exitCode = 0 ↔ Succeeds files systemPath a) ∧
    (¬ Succeeds files systemPath a → (runOn t files systemPath arguments).exitCode = 1) ∧
    (∀ (t' : Terminal) (files' : Files) (arguments' : List String) (a' : Arguments),
      CommandLine.read arguments' = .run a' → a'.input = a.input → a'.config = a.config →
      Settings.SameAt files files' a.input →
      (∀ path ∈ Settings.sources systemPath a.config, Settings.SameButReport files files' path) →
      (runOn t' files' systemPath arguments').exitCode =
        (runOn t files systemPath arguments).exitCode) ∧
    (runOn t files systemPath arguments).stderr =
      (if (Verbosity.ofName? a.logLevel).isSome then "" else badLevelText a.logLevel) ++
        String.join ((written t.handler files systemPath a).mapIdx t.logger.line) ∧
    (∀ i report, t.logger.line i (.failure report) =
      t.logger.shown (t.logger.heading i .error "quire" ++
        String.ofList ("\n    ".toList.intercalate (report.toList.splitOn '\n')) ++ "\n")) ∧
    (verbosity a ≠ .off →
      (Succeeds files systemPath a → Event.errors (written t.handler files systemPath a) = []) ∧
      (¬ Succeeds files systemPath a → ∃ r e, Fails files systemPath a r e) ∧
      ∀ r e, Fails files systemPath a r e → Event.errors (written t.handler files systemPath a) =
        ((⟨t.handler, r, a.input⟩ : Printer).print e).map .failure) := by
  rw [runOn_of_read hread]
  refine ⟨exitCode_start_eq_accepted_iff, exitCode_start_of_not_succeeds, ?_, ?_, ?_, ?_⟩
  · intro t' files' arguments' a' hread' hinput hconfig hsame hfiles
    rw [runOn_of_read hread']
    exact exitCode_start_congr hinput hconfig hsame hfiles
  · exact stderr_start t files systemPath a
  · exact t.logger.line_failure
  · intro hv
    refine ⟨fun hs => (hs.ends _ _).errors_written hv, ?_,
      fun r e hf => (hf.ends _ _).errors_written hv⟩
    intro hs
    exact (succeeds_or_fails files systemPath a).resolve_left hs

/-- An open bracket is rejected and only counted. It is rejected as well when the log level is none
and the style is set instead of the limit. A project file that may not be read ends a run too,
whatever else there is. -/
theorem run_outcome_only_counted :
    let files (project : String) : Files := (⟨[(["in"], Utf8.encode ['(']),
      (["quire", "config.toml"], Utf8.encode project.toList)], []⟩ : FileTree).toFiles "/w"
    let counted := run (files "[report]\nlimit = 0\n") none ["in", "--log-level", "error"]
    counted.exitCode = 1 ∧ counted.stderr = "[ERROR quire] 1 more diagnostics not shown\n" ∧
    (run (files "[report]\nstyle = \x22short\x22\n") none
      ["in", "--log-level", "loud"]).exitCode = 1 ∧
    ∀ others : Files, (run (fun path => if path = Settings.projectPath then
      .ok (.unreadable .permissionDenied) else others path) none ["in"]).exitCode = 1 := by
  intro files counted
  have hthere : ∀ project, files project "in" = .ok (.file (Utf8.encode "(".toList)) :=
    fun _ => rfl
  have hin : ∀ project, (files project).read "in" = .ok "(" :=
    fun project => Files.read_of_text (hthere project)
  have hproject : ∀ project, (files project).read Settings.projectPath = .ok project :=
    fun _ => Files.read_of_text rfl
  have hload : (Settings.load (files "[report]\nlimit = 0\n") none none).value =
      .ok { report := { limit := some 0 } } := by
    have htext : Settings.ofText "[report]\nlimit = 0\n" =
        .ok { report := { limit := some 0 } } := by decide +kernel
    have hread := hproject "[report]\nlimit = 0\n"
    rw [Settings.load_project none (Files.contains_of_read hread), Settings.ofFile_of_read hread,
      htext]
  have hscan : (scan {} "(".toList).map Finding.record =
      [.point (Utf8.encode "unclosed \x60(\x60".toList) 0] := by decide +kernel
  obtain ⟨-, hfailed, hcongr, -⟩ := run_outcome .plain (files "[report]\nlimit = 0\n") none
    ["in", "--log-level", "error"] ⟨"in", none, "error"⟩ rfl
  rcases check_granted {} "(".toList with ⟨hnil, -⟩ | ⟨-, l, hcheck, hl⟩
  · rw [hnil] at hscan
    cases hscan
  · have hfails : Fails (files "[report]\nlimit = 0\n") none ⟨"in", none, "error"⟩
        { limit := some 0 } (.check (.rejected l) "(") :=
      @Fails.check _ none ⟨"in", none, "error"⟩ { report := { limit := some 0 } } "(" _ hload
        (hin _) hcheck
    have hcode := hfailed hfails.not_succeeds
    refine ⟨hcode, ?_, ?_, ?_⟩
    · have hcount : (LintError.check (.rejected l) "(").reportCount = 1 := by
        rw [LintError.reportCount, ← l.length_toList, hl, hscan]
        rfl
      have hprint : (⟨.ascii, { limit := some 0 }, "in"⟩ : Printer).print
          (.check (.rejected l) "(") = ["1 more diagnostics not shown"] := by
        rw [Printer.print_of_limit_zero _ _ rfl (by rw [hcount]; decide), hcount]
        rfl
      have hvisible : "1 more diagnostics not shown".toList.all PlainText.isVisible = true := by
        decide
      have hline := Logger.plain_line_failure 0 fun c hc => .inr (List.all_eq_true.mp hvisible c hc)
      change (start .plain _ none ⟨"in", none, "error"⟩).stderr = _
      rw [hfails.stderr_start .plain rfl]
      change String.join ((((⟨.ascii, { limit := some 0 }, "in"⟩ : Printer).print _).map _).mapIdx
        Logger.plain.line) = _
      rw [hprint]
      simp only [List.map_cons, List.map_nil, List.mapIdx_cons, List.mapIdx_nil, hline]
      rfl
    · have hsame : Settings.SameAt (files "[report]\nlimit = 0\n")
          (files "[report]\nstyle = \x22short\x22\n") "in" := by
        rw [Settings.SameAt, hthere, hthere]
      rw [← hcode]
      apply hcongr .plain _ _ ⟨"in", none, "loud"⟩ rfl rfl rfl hsame
      intro path hpath
      obtain rfl : path = Settings.projectPath := List.mem_singleton.mp hpath
      have hparse : Toml.Document.parse "[report]\nlimit = 0\n" =
          .ok ⟨⟨0, 19⟩, .header, [(⟨"report", ⟨1, 7⟩⟩, .table ⟨0, 8⟩ .header
            [(⟨"limit", ⟨9, 14⟩⟩, .integer ⟨17, 18⟩ 0)])]⟩ := by decide +kernel
      have hparse' : Toml.Document.parse "[report]\nstyle = \x22short\x22\n" =
          .ok ⟨⟨0, 25⟩, .header, [(⟨"report", ⟨1, 7⟩⟩, .table ⟨0, 8⟩ .header
            [(⟨"style", ⟨9, 14⟩⟩, .string ⟨17, 24⟩ "short")])]⟩ := by decide +kernel
      apply Settings.SameButReport.documents (hproject _) (hproject _) hparse hparse' rfl
      · intro e he _
        obtain rfl := List.mem_singleton.mp he
        exact ⟨{ limit := some 0 }, rfl⟩
      · intro e he _
        obtain rfl := List.mem_singleton.mp he
        exact ⟨{ style := .short }, rfl⟩
    · intro others
      obtain ⟨-, hfailed, -⟩ := run_outcome .plain (fun path => if path = Settings.projectPath then
        .ok (.unreadable .permissionDenied) else others path) none ["in"] ⟨"in", none, "info"⟩ rfl
      exact hfailed (Fails.of_unreadable_project rfl (if_pos rfl)).not_succeeds

end Session

end BracketLint
