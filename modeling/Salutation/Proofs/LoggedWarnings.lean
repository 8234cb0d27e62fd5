/-
The warnings that a run logs.

The unknown keys of a file are found before it is settled what is logged, and logged afterwards.
So what counts is the verbosity that all layers come to, not the one that the file asks for.
Without the variable for it, an event is shown exactly if the verbosity goes up to its level.
Unknown keys are the only events on the level of warnings, and no event is above that level.  So a
verbosity that shows warnings shows all unknown keys and no other warning, and the only verbosity
below shows no event at all.

What else is said on the standard error is a report of a failure.  Once the configuration is
settled nothing can fail but the output, so without such a failure a quiet run says nothing.
-/
import Salutation.Proofs.Config.Unknown
import Salutation.Proofs.PrintedConfig

namespace Salutation

/-! ### What is loaded -/

namespace Config

/-- The warnings of a configuration are those of the file that it was loaded from: one for each
unknown key, in the order in which the keys are visited. -/
def Loaded.WarnsOf (files : Files) (loaded : Loaded) : Prop :=
  match loaded.source.path? with
  | none => loaded.warnings = []
  | some path => ∃ content table unknown, files.readText path = .ok content ∧
      Toml.document content = .ok table ∧ ofTable table = .ok (loaded.config, unknown) ∧
      (HasTables table → unknown = unknownKeys table) ∧
      loaded.warnings = unknown.map (warn path (Text.lines content))

/-- The source of a candidate is the candidate. -/
theorem ranking_source {environment : Environment} {explicit? : Option Path} {root path : Path}
    {source : Source} (h : (path, source) ∈ ranking environment explicit? root) :
    source.path? = some path := by
  unfold ranking at h
  cases explicit? with
  | some named =>
      cases List.mem_singleton.mp h
      rfl
  | none =>
      rcases List.mem_cons.mp h with hproject | huser
      · cases hproject
        rfl
      · obtain ⟨user, -, hsame⟩ := List.mem_map.mp huser
        cases hsame
        rfl

/-- **What is found warns of the unknown keys of the file that was selected**, and of nothing
if none was. -/
theorem warnsOf_of_discover {files : Files} {environment : Environment} {explicit? : Option Path}
    {root : Path} {loaded : Loaded} (h : discover files environment explicit? root = .ok loaded) :
    loaded.WarnsOf files := by
  rw [discover_eq_find?] at h
  split at h
  case h_1 path source hfind =>
    have hsource : source.path? = some path := ranking_source (List.mem_of_find?_eq_some hfind)
    obtain ⟨⟨config, warnings⟩, hload, rfl⟩ := map_eq_ok.mp h
    obtain ⟨content, table, unknown, htext, hdocument, htable, hwarnings⟩ := load_ok_cases hload
    unfold Loaded.WarnsOf
    rw [hsource]
    exact ⟨content, table, unknown, htext, hdocument, htable,
      fun htables => putTables_unknown htables htable, hwarnings⟩
  case h_2 =>
    unfold unfound at h
    split at h
    · cases h
    · cases h
      rfl

end Config

/-- What is loaded for a configuration that is settled warns of the unknown keys of its file. -/
theorem warnsOf_of_resolve {world : World} {request : CommandLine.Request} {resolved : Resolved}
    (h : resolve world request = .ok resolved) : resolved.loaded.WarnsOf world.files := by
  cases hdiscover : Config.discover world.files world.environment request.file
      world.workingDirectory with
  | error failure =>
      rw [resolve_of_discover_error hdiscover] at h
      cases h
  | ok loaded =>
      have hloaded : resolved.loaded = loaded := by
        rw [resolve_of_discover_ok hdiscover] at h
        split at h <;> cases h
        rfl
      rw [hloaded]
      exact Config.warnsOf_of_discover hdiscover

/-! ### What is shown

A verbosity is compared with the levels of events, and warnings are the most important events that
there are.  So for warnings there are two kinds of verbosity only: one that shows no event, and
those that show all warnings whatever else they show.
-/

namespace Log

/-- Without the variable, the verbosity alone decides what is shown. -/
theorem reading_unset {environment : Environment} (h : environment "RUST_LOG" = none)
    (verbosity : Verbosity) :
    reading environment verbosity = ⟨[{ threshold := some (Level.ofVerbosity verbosity) }], []⟩ := by
  have htext : environment.text? "RUST_LOG" = none := by simp [Environment.text?, h]
  have hend : String.Pos.Raw.atEnd "" 0 = true := rfl
  have hextract : String.Pos.Raw.extract "" 0 0 = "" := rfl
  have hsplit : "".splitOn "," = [""] := by
    unfold String.splitOn String.splitOnAux
    simp [hend, hextract]
  have hempty : Reading.ofText "" = ⟨[], []⟩ := by simp [Reading.ofText, hsplit]
  simp [reading, htext, hempty]

/-- No event is more important than a warning. -/
theorem warn_le_level (event : Event) : Level.warn.rank ≤ event.level.rank := by
  cases event <;> simp [Event.level, Level.rank]

/-- Every verbosity but the lowest shows warnings. -/
theorem warn_le_ofVerbosity {verbosity : Verbosity} (h : verbosity ≠ .quiet) :
    Level.warn.rank ≤ (Level.ofVerbosity verbosity).rank := by
  cases verbosity with
  | quiet => exact absurd rfl h
  | normal => exact Nat.le_refl _
  | verbose => exact Nat.le_succ _
  | debug => exact Nat.le_add_right 2 2

end Log

/-- A line of diagnostics that is an event on the level of warnings. -/
def Diagnostic.isWarning : Diagnostic → Bool
  | .logged event => event.level = .warn
  | .text _ => false

/-- Of the events that a verbosity shows, the warnings are all that there are. -/
theorem filter_isWarning_shown {verbosity : Verbosity} (h : verbosity ≠ .quiet)
    (events : List Log.Event) :
    ((events.filter fun event => event.level.rank ≤ (Log.Level.ofVerbosity verbosity).rank).map
        Diagnostic.logged).filter Diagnostic.isWarning =
      (events.filter fun event => event.level = .warn).map .logged := by
  rw [List.filter_map, List.filter_filter]
  congr 1
  refine List.filter_congr fun event _ => ?_
  have hshown : event.level = .warn → event.level.rank ≤ (Log.Level.ofVerbosity verbosity).rank := by
    intro hlevel
    rw [hlevel]
    exact Log.warn_le_ofVerbosity h
  simpa [Diagnostic.isWarning] using hshown

/-- The warnings among the events about loading are the unknown keys. -/
theorem filter_warn_loadEvents (loaded : Config.Loaded) :
    (loadEvents loaded).filter (fun event => event.level = .warn) =
      loaded.warnings.map .unknownKey := by
  have hwarnings : (loaded.warnings.map Log.Event.unknownKey).filter
      (fun event => event.level = .warn) = loaded.warnings.map .unknownKey := by
    simp [List.filter_eq_self, Log.Event.level]
  unfold loadEvents
  rw [List.filter_cons, hwarnings]
  cases loaded.source.path? <;> rfl

/-- The events of a command are no warnings. -/
theorem filter_warn_perform (world : World) (request : CommandLine.Request) (config : Config) :
    (perform world request config).events.filter (fun event => event.level = .warn) = [] := by
  unfold perform
  split
  · unfold performPrint
    split <;> rfl
  · unfold performGreeting carryOut
    dsimp only
    split <;> rfl

/-! ### How a command ends

Behind the settled configuration only the output can fail.  `Takes` and `Refuses` say from the
output and from what is to be written whether it does, and with which error, and that error settles
the report.
-/

/-- What a request writes to the output. -/
def CommandLine.Request.written (request : CommandLine.Request) (config : Config) : Bytes :=
  if request.printsConfig then Utf8.encode (printedConfig config) else config.greetingRecord

/-- An output that takes all that a request writes, and can be flushed if that is a greeting. -/
structure Writer.Takes (output : Writer) (request : CommandLine.Request) (config : Config) :
    Prop where
  room : exceeds output.limit (request.written config).length = false
  flushes : request.printsConfig = false → output.flushError = none

/-- Why an output does not take what a request writes: there is no room for it, or there is and a
greeting cannot be flushed. -/
inductive Writer.Refuses (output : Writer) (request : CommandLine.Request) (config : Config) :
    IoError → Prop where
  | noRoom (hfull : exceeds output.limit (request.written config).length = true) :
      Refuses output request config output.fullError
  | noFlush {error : IoError}
      (hroom : exceeds output.limit (request.written config).length = false)
      (hgreets : request.printsConfig = false) (hflush : output.flushError = some error) :
      Refuses output request config error

/-- What is reported where the output refuses what a request writes.  Of a greeting it is the
failure to write it, with the error as its own second cause. -/
def CommandLine.Request.refusalReport (request : CommandLine.Request) (error : IoError) : String :=
  if request.printsConfig then "failed printing to stdout: " ++ error.message ++ "\n"
  else "Error: failed to write greeting\n\nCaused by:\n    0: IO error: " ++ error.message ++
    "\n    1: " ++ error.message ++ "\n"

/-- An ending at which a failure is reported, and nothing else. -/
def Ending.Reports (ending : Ending) (report : String) : Prop :=
  ending.exitCode ≠ 0 ∧ ending.said = [.text report]

/-- What goes wrong outside of the program is said on one line. -/
theorem IoError.lineFeed_not_mem_message (error : IoError) : '\n' ∉ error.message.toList := by
  cases error <;> decide +kernel

/-- A text on one line has nothing to indent. -/
theorem indentRest_of_line (indentation : String) {text : List Char} (h : '\n' ∉ text) :
    indentRest indentation text = text := by
  induction text with
  | nil => rfl
  | cons c more ih =>
      rw [List.mem_cons, not_or] at h
      have hmore := ih h.2
      unfold indentRest at hmore ⊢
      rw [List.flatMap_cons, if_neg (Ne.symm h.1), hmore, List.singleton_append]

/-- A failed read or write is listed with its own message as its cause. -/
theorem listCauses_io (error : IoError) :
    listCauses (Failure.io error).causes =
      "    0: IO error: " ++ error.message ++ "\n    1: " ++ error.message ++ "\n" := by
  have hline := error.lineFeed_not_mem_message
  have hinner : indentRest "       " error.message.toList = error.message.toList :=
    indentRest_of_line _ hline
  have houter : indentRest "       " ("IO error: " ++ error.message).toList =
      ("IO error: " ++ error.message).toList := by
    refine indentRest_of_line _ ?_
    rw [String.toList_append, List.mem_append, not_or]
    exact ⟨by decide, hline⟩
  calc listCauses (Failure.io error).causes
      = "" ++ ("    0: " ++ String.ofList (indentRest "       "
          ("IO error: " ++ error.message).toList) ++ "\n") ++
        ("    1: " ++ String.ofList (indentRest "       " error.message.toList) ++ "\n") := rfl
    _ = "    0: IO error: " ++ error.message ++ "\n    1: " ++ error.message ++ "\n" := by
        have hfront : "    0: IO error: " = "    0: " ++ "IO error: " := by decide
        have hbetween : "\n    1: " = "\n" ++ "    1: " := by decide
        rw [hinner, houter, String.ofList_toList, String.ofList_toList]
        simp only [hfront, hbetween, String.empty_append, String.append_assoc]

theorem failureReport_writing (error : IoError) :
    failureReport .writing (.io error) =
      "Error: failed to write greeting\n\nCaused by:\n    0: IO error: " ++ error.message ++
        "\n    1: " ++ error.message ++ "\n" := by
  have hwhole : "Error: failed to write greeting\n\nCaused by:\n    0: IO error: " =
      "Error: " ++ Stage.writing.phrase ++ "\n\nCaused by:\n" ++ "    0: IO error: " := by decide
  rw [failureReport, listCauses_io, hwhole]
  simp only [String.append_assoc]

section

variable {world : World} {request : CommandLine.Request} {config : Config}
  (hworld : world.output.written = [])

include hworld

/-- Printing a configuration ends well if the output takes it. -/
theorem performPrint_ending (hprints : request.printsConfig = true) :
    (world.output.Takes request config → (performPrint world.output config).ending = .good) ∧
      (¬world.output.Takes request config → ∃ error, world.output.Refuses request config error ∧
        (performPrint world.output config).ending.Reports (request.refusalReport error)) := by
  have hwritten : request.written config = Utf8.encode (printedConfig config) := if_pos hprints
  have hwrite := Writer.filled_write world.output [] (Utf8.encode (printedConfig config))
  rw [Writer.filled_nil hworld, List.nil_append] at hwrite
  have htakes : world.output.Takes request config ↔
      exceeds world.output.limit (Utf8.encode (printedConfig config)).length = false := by
    rw [← hwritten]
    exact ⟨fun h => h.room, fun h => ⟨h, by simp [hprints]⟩⟩
  unfold performPrint
  rw [htakes, hwrite]
  refine ⟨fun hroom => ?_, fun hfull => ⟨_, .noRoom ?_, ?_⟩⟩
  · rw [if_pos (Or.inr hroom)]
  · rw [hwritten]
    simpa using hfull
  · have hne : Utf8.encode (printedConfig config) ≠ [] := by
      intro hempty
      rw [hempty] at hfull
      cases hlimit : world.output.limit <;> simp [hlimit] at hfull
    rw [if_neg (by simp [hne, hfull])]
    refine ⟨by simp [Ending.abrupt], ?_⟩
    simp [Ending.abrupt, CommandLine.Request.refusalReport, hprints]

/-- A greeting ends well if the output takes its record. -/
theorem performGreeting_ending (hgreets : request.printsConfig = false) :
    (world.output.Takes request config → (performGreeting world.output config).ending = .good) ∧
      (¬world.output.Takes request config → ∃ error, world.output.Refuses request config error ∧
        (performGreeting world.output config).ending.Reports (request.refusalReport error)) := by
  have hwritten : request.written config = config.greetingRecord := by
    simp [CommandLine.Request.written, hgreets]
  have htakes : world.output.Takes request config ↔
      world.output.verdict config.greetingRecord.length = .ok () := by
    rw [verdict_eq_ok_iff, ← hwritten]
    exact ⟨fun h => ⟨h.room, h.flushes hgreets⟩, fun h => ⟨h.1, fun _ => h.2⟩⟩
  rw [htakes]
  unfold performGreeting carryOut
  dsimp only
  rw [deliver_greetingRecord hworld config]
  cases hverdict : world.output.verdict config.greetingRecord.length with
  | ok => exact ⟨fun _ => rfl, fun hfails => absurd rfl hfails⟩
  | error error =>
      refine ⟨nofun, fun _ => ⟨error, ?_, by simp [RunFailure.ending], ?_⟩⟩
      · rw [verdict_eq_error_iff, ← hwritten] at hverdict
        rcases hverdict with ⟨hfull, rfl⟩ | ⟨hroom, hflush⟩
        · exact .noRoom hfull
        · exact .noFlush hroom hgreets hflush
      · simp [RunFailure.ending, CommandLine.Request.refusalReport, hgreets, failureReport_writing]

/-- A command ends without a word exactly if the output takes what it writes. -/
theorem perform_ending :
    (world.output.Takes request config → (perform world request config).ending = .good) ∧
      (¬world.output.Takes request config → ∃ error, world.output.Refuses request config error ∧
        (perform world request config).ending.Reports (request.refusalReport error)) := by
  unfold perform
  cases hprints : request.printsConfig with
  | true => exact performPrint_ending hworld hprints
  | false => exact performGreeting_ending hworld hprints

end

/-! ### What a run says -/

/-- A run whose configuration is settled says the events that the verbosity shows, and then what
its command ends with. -/
theorem run_diagnostics {world : World} {arguments : List Bytes} {request : CommandLine.Request}
    {resolved : Resolved} (hlog : world.environment "RUST_LOG" = none)
    (hparse : CommandLine.parse arguments = .ok request)
    (hresolve : resolve world request = .ok resolved) :
    (run world arguments).diagnostics =
      ((loadEvents resolved.loaded ++ (perform world request resolved.config).events).filter
          fun event => event.level.rank ≤
            (Log.Level.ofVerbosity resolved.config.output.verbosity).rank).map .logged ++
        (perform world request resolved.config).ending.said := by
  simp only [run, hparse, runRequest, hresolve, Log.reading_unset hlog, ignoredDirectives,
    List.map_nil, List.nil_append]
  -- The one directive is for everything, so an event is shown by its level alone.
  rfl

/-- The line of an unknown key names the key, the file with the line in it if that is known, and
the suggestion if there is one. -/
theorem print_unknownKey (time : String) (warning : Config.Warning) :
    (Diagnostic.logged (.unknownKey warning)).print time =
      time ++ "  WARN " ++ String.ofList (("unknown config key '" ++ warning.key ++ "' in " ++
        warning.file.display ++ (warning.line.elim "" fun line => ":" ++ toString line) ++
        warning.suggestion.elim "" fun suggestion =>
          " (did you mean '" ++ suggestion ++ "'?)").toList.flatMap Log.harmless) ++ "\n" := by
  have hlabel : " " ++ (" WARN" ++ " ") = "  WARN " := rfl
  have hmessage : Log.unknownKeyMessage warning = "unknown config key '" ++ warning.key ++
      "' in " ++ warning.file.display ++ (warning.line.elim "" fun line => ":" ++ toString line) ++
      warning.suggestion.elim "" fun suggestion => " (did you mean '" ++ suggestion ++ "'?)" := by
    unfold Log.unknownKeyMessage
    cases warning.line <;> cases warning.suggestion <;> simp [String.append_assoc]
  have hprint : (Diagnostic.logged (.unknownKey warning)).print time = time ++ " " ++ " WARN" ++
      " " ++ String.ofList ((Log.unknownKeyMessage warning).toList.flatMap Log.harmless) ++
      "\n" := rfl
  rw [hprint, hmessage, ← hlabel]
  simp only [String.append_assoc]

/-- **A run that is not quiet logs the unknown keys of its file as warnings**, one for each and in
order, each with what is known of it, and no other warning, whichever command it is for.  **A run
that is quiet says nothing**, unless the output does not take what is written: then it reports why,
and nothing else, and its exit code says that it failed. -/
theorem run_warnings {world : World} {arguments : List Bytes} {request : CommandLine.Request}
    {resolved : Resolved} (hworld : world.output.written = [])
    (hlog : world.environment "RUST_LOG" = none)
    (hparse : CommandLine.parse arguments = .ok request)
    (hresolve : resolve world request = .ok resolved) :
    let outcome := run world arguments
    let warnings := resolved.loaded.warnings
    resolved.loaded.WarnsOf world.files ∧
    (resolved.config.output.verbosity ≠ .quiet →
      outcome.diagnostics.filter Diagnostic.isWarning =
        warnings.map fun warning => .logged (.unknownKey warning)) ∧
    (∀ time, ∀ warning ∈ warnings, (Diagnostic.logged (.unknownKey warning)).print time =
      time ++ "  WARN " ++ String.ofList (("unknown config key '" ++ warning.key ++ "' in " ++
        warning.file.display ++ (warning.line.elim "" fun line => ":" ++ toString line) ++
        warning.suggestion.elim "" fun suggestion =>
          " (did you mean '" ++ suggestion ++ "'?)").toList.flatMap Log.harmless) ++ "\n") ∧
    (resolved.config.output.verbosity = .quiet →
      (world.output.Takes request resolved.config → outcome.diagnostics = []) ∧
      (¬world.output.Takes request resolved.config → outcome.exitCode ≠ 0 ∧
        ∃ error, world.output.Refuses request resolved.config error ∧
          outcome.diagnostics = [.text (request.refusalReport error)])) := by
  intro outcome warnings
  have hsaid : outcome.diagnostics = _ := run_diagnostics hlog hparse hresolve
  have hcode : outcome.exitCode =
      (perform world request resolved.config).ending.exitCode := by
    simp [outcome, run, hparse, runRequest, hresolve]
  obtain ⟨htaken, hrefused⟩ : (_ → (perform world request resolved.config).ending = .good) ∧ _ :=
    perform_ending hworld
  refine ⟨warnsOf_of_resolve hresolve, fun hverbosity => ?_,
    fun time warning _ => print_unknownKey time warning, fun hquiet => ?_⟩
  · have hending : (perform world request resolved.config).ending.said.filter
        Diagnostic.isWarning = [] := by
      by_cases htakes : world.output.Takes request resolved.config
      · rw [htaken htakes]
        rfl
      · obtain ⟨_, -, -, hreport⟩ := hrefused htakes
        rw [hreport]
        rfl
    rw [hsaid, List.filter_append, hending, List.append_nil, filter_isWarning_shown hverbosity,
      List.filter_append, filter_warn_loadEvents, filter_warn_perform, List.append_nil,
      List.map_map]
    rfl
  · have hevents : (loadEvents resolved.loaded ++
        (perform world request resolved.config).events).filter (fun event => event.level.rank ≤
          (Log.Level.ofVerbosity resolved.config.output.verbosity).rank) = [] := by
      rw [hquiet]
      refine List.filter_eq_nil_iff.mpr fun event _ => ?_
      have habove : 2 ≤ event.level.rank := Log.warn_le_level event
      have hlimit : (Log.Level.ofVerbosity .quiet).rank = 1 := rfl
      simp only [hlimit, decide_eq_true_eq]
      omega
    rw [hsaid, hevents, hcode, List.map_nil, List.nil_append]
    refine ⟨fun htakes => by rw [htaken htakes]; rfl, fun htakes => ?_⟩
    obtain ⟨error, hrefuses, hfails, hreport⟩ := hrefused htakes
    exact ⟨hfails, error, hrefuses, hreport⟩

/-- A quiet file with two unknown keys.  An option that raises the verbosity has both logged, the
second with a suggestion, and without the option nothing is said. -/
theorem run_warnings_of_two_keys :
    let world : World := ⟨fun path => if path = .ofString "/work/greeter.toml" then .file (bytesOf
          "odd = 2\n[greeting]\nnmae = 1\n[output]\nverbosity = 'quiet'\n") else .missing,
      fun _ => none, .ofString "/work", {}⟩
    let odd : Config.Warning := ⟨"odd", .ofString "/work/greeter.toml", some 1, none⟩
    let nmae : Config.Warning := ⟨"nmae", .ofString "/work/greeter.toml", some 3, some "name"⟩
    (run world [bytesOf "-v", bytesOf "config"]).diagnostics.filter Diagnostic.isWarning =
      [.logged (.unknownKey odd), .logged (.unknownKey nmae)] ∧
    (Diagnostic.logged (.unknownKey nmae)).print "T" =
      "T  WARN unknown config key 'nmae' in /work/greeter.toml:3 (did you mean 'name'?)\n" ∧
    (run world [bytesOf "config"]).diagnostics = [] := by
  intro world odd nmae
  let loaded : Config.Loaded :=
    ⟨{ output := { verbosity := .quiet } }, .project (.ofString "/work/greeter.toml"), [odd, nmae]⟩
  have hraised : CommandLine.parse [bytesOf "-v", bytesOf "config"] =
      .ok { verbose := 1, printsConfig := true } := by decide +kernel
  have hplain : CommandLine.parse [bytesOf "config"] = .ok { printsConfig := true } := by
    decide +kernel
  have hnormal : resolve world { verbose := 1, printsConfig := true } = .ok ⟨loaded, {}⟩ := by
    decide +kernel
  have hquiet : resolve world { printsConfig := true } =
      .ok ⟨loaded, { output := { verbosity := .quiet } }⟩ := by decide +kernel
  obtain ⟨-, hlogged, hprinted, -⟩ := run_warnings rfl rfl hraised hnormal
  obtain ⟨-, -, -, hsilent⟩ := run_warnings rfl rfl hplain hquiet
  refine ⟨hlogged (by decide), ?_, (hsilent rfl).1 ⟨rfl, nofun⟩⟩
  rw [hprinted "T" nmae (by simp [loaded])]
  decide +kernel

/-- An output that is full makes a quiet run speak: no other fault stands in its way. -/
theorem quiet_run_reports :
    let world : World := ⟨fun _ => .missing,
      fun name => if name = "GREETER_VERBOSITY" then some (bytesOf "quiet") else none,
      .ofString "/work", { limit := some 0, fullError := .noSpace }⟩
    world.environment "RUST_LOG" = none ∧ CommandLine.parse [] = .ok {} ∧
      resolve world {} = .ok ⟨⟨{}, .defaults, []⟩, { output := { verbosity := .quiet } }⟩ ∧
      (run world []).diagnostics = [.text ("Error: failed to write greeting\n\nCaused by:\n" ++
        "    0: IO error: No space left on device (os error 28)\n" ++
        "    1: No space left on device (os error 28)\n")] := by
  intro world
  have hresolve : resolve world {} =
      .ok ⟨⟨{}, .defaults, []⟩, { output := { verbosity := .quiet } }⟩ := by decide +kernel
  refine ⟨by decide, rfl, hresolve, ?_⟩
  rw [run_diagnostics (by decide) rfl hresolve]
  decide +kernel

end Salutation
