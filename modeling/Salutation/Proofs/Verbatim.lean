/-
A greeting that the command line gives word for word.

The message stands in an argument of its own, which is taken whatever it looks like, and the name
is attached to its option, where it is everything behind the first equals sign.  So neither is
ever read as an option, a command or an end of options.  Both are above every other layer, and the
greeting puts one space between them; what is written for it gives it back.
-/
import Salutation.Proofs.CommandLine.Spelling
import Salutation.Proofs.Output

namespace Salutation

namespace CommandLine

/-! ### The command line -/

/-- A message and a name, each with the long name of its option. -/
def sayingArguments (message name : String) : List Bytes :=
  [bytesOf "--message", bytesOf message, bytesOf ("--name=" ++ name)]

/-- The long name of the option awaits the message in the argument behind it. -/
theorem scan_message_apart {state : State} {uses : List Use} (h : Leads .main state uses)
    (value : String) (hfresh : Opt.message ∉ uses.map Use.opt) :
    ∃ next, (∀ rest, scan .main false state (bytesOf "--message" :: bytesOf value :: rest) =
        scan .main false next rest) ∧
      Leads .main next (uses ++ [.messageApart value]) := by
  obtain ⟨hawaiting, settled, hsettle, hholds⟩ := h
  have hform : Argument.ofBytes (bytesOf "--message") = .long Opt.message.longBytes none := by
    decide
  have hread : state.readLong .main Opt.message.longBytes none =
      .ok { settled with pending := some (.message, none) } := by
    rw [readLong_apart rfl rfl]
    simp only [State.await, hsettle]
  refine ⟨_, fun rest => ?_, hholds.leads_message value hfresh⟩
  rw [scan_long hawaiting hform hread, scan_message rfl]

/-- Behind uses of other options, the message and the name are read whatever they are. -/
theorem scan_sayingArguments {state : State} {uses : List Use} (h : Leads .main state uses)
    (hother : ∀ use ∈ uses, use.opt ≠ .message ∧ use.opt ≠ .name) (message name : String) :
    ∃ next, scan .main false state (sayingArguments message name) = .ok (next, none) ∧
      Leads .main next (uses ++ [.messageApart message] ++ [.name name]) := by
  have hfresh : Opt.message ∉ uses.map Use.opt := by
    rw [List.mem_map]
    rintro ⟨use, huse, hopt⟩
    exact (hother use huse).1 hopt
  obtain ⟨between, hmessage, hbetween⟩ := scan_message_apart h message hfresh
  have hscope : (Use.name name).opt.isIn .main = true := rfl
  have hclash : ∀ earlier ∈ uses ++ [.messageApart message], ¬Clash earlier (.name name) := by
    intro earlier hearlier
    rintro ⟨hsame, -⟩
    rcases List.mem_append.mp hearlier with hmem | hmem
    · exact (hother earlier hmem).2 hsame
    · rw [List.mem_singleton.mp hmem] at hsame
      cases hsame
  obtain ⟨next, hname, hnext⟩ := scan_use hbetween hscope hclash
  refine ⟨next, ?_, hnext⟩
  rw [sayingArguments, hmessage]
  exact (hname []).trans (by rw [scan])

/-- Arguments that lead to uses are read as the request that the uses spell. -/
theorem parse_of_leads {arguments : List Bytes} {state : State} {uses : List Use}
    (hscan : scan .main false {} arguments = .ok (state, none)) (h : Leads .main state uses) :
    parse arguments = .ok {
      name := (uses.filterMap Use.name?).getLast?
      message := (uses.filterMap Use.message?).getLast?
      json := decide (.json ∈ uses.map Use.opt)
      verbose := min 255 (verboseCount uses)
      file := (uses.filterMap Use.file?).getLast? } := by
  obtain ⟨-, settled, hsettle, hholds⟩ := h
  unfold parse
  simp only [hscan, hsettle, Except.map, State.request, hholds.name, hholds.message,
    hholds.json, hholds.verbose, hholds.file]

/-- **A message and a name are accepted whatever they are, and are what is asked for**, behind
the flag for JSON or without it. -/
theorem parse_saying (message name : String) :
    parse (sayingArguments message name) = .ok { message := some message, name := some name } ∧
      parse (bytesOf "--json" :: sayingArguments message name) =
        .ok { message := some message, name := some name, json := true } := by
  have hnone : Leads .main {} [] := holds_nil.leads
  obtain ⟨flagged, hflag, hflagged⟩ := extends_json hnone (by simp)
  obtain ⟨plain, hplain, hplain'⟩ := scan_sayingArguments hnone (by simp) message name
  obtain ⟨json, hjson, hjson'⟩ :=
    scan_sayingArguments hflagged (by simp [Use.opt]) message name
  exact ⟨parse_of_leads hplain hplain', parse_of_leads ((hflag _).trans hjson) hjson'⟩

end CommandLine

/-! ### The run -/

section

variable {world : World} {arguments : List Bytes} {request : CommandLine.Request}
  {loaded : Config.Loaded} {config : Config}

/-- A request with a message and a name is greeted with them, whatever was settled below them. -/
theorem run_of_saying {message name : String}
    (hparse : CommandLine.parse arguments = .ok request)
    (hmessage : request.message = some message) (hname : request.name = some name)
    (hgreets : request.printsConfig = false)
    (hdiscover : Config.discover world.files world.environment request.file
      world.workingDirectory = .ok loaded)
    (hoverride : Config.override world.environment loaded.config = .ok config)
    (hwritten : world.output.written = []) (hlimit : world.output.limit = none)
    (hflush : world.output.flushError = none) :
    (run world arguments).exitCode = 0 ∧
      (run world arguments).output =
        (if request.json then Format.json else config.output.format).record
          (message ++ " " ++ name) := by
  have hresolve : resolve world request = .ok ⟨loaded, request.apply config⟩ := by
    rw [resolve_of_discover_ok hdiscover, hoverride]
  have hrecord : (request.apply config).greetingRecord =
      (if request.json then Format.json else config.output.format).record
        (message ++ " " ++ name) := by
    simp [Config.greetingRecord, CommandLine.Request.apply, hmessage, hname]
  obtain ⟨hzero, houtput⟩ := run_of_greets hwritten ⟨request, hparse, hgreets, hresolve⟩
  have hgood : (run world arguments).exitCode = 0 := hzero.mpr ⟨by simp [hlimit], hflush⟩
  exact ⟨hgood, (houtput hgood).trans hrecord⟩

end

/-- **A message and a name on the command line are greeted with word for word**, whatever they
are, in every world in which a configuration is loaded and the variables can be used.  As text
the output is the message, one space, the name and a line feed; with the flag for JSON in front it
is one line, and the message of the event that it means is the same without the line feed. -/
theorem run_saying {world : World} {loaded : Config.Loaded} {config : Config}
    (hdiscover : Config.discover world.files world.environment none world.workingDirectory =
      .ok loaded)
    (hoverride : Config.override world.environment loaded.config = .ok config)
    (hwritten : world.output.written = []) (hlimit : world.output.limit = none)
    (hflush : world.output.flushError = none) (message name : String) :
    let plain := [bytesOf "--message", bytesOf message, bytesOf ("--name=" ++ name)]
    let json := bytesOf "--json" :: plain
    CommandLine.parse plain = .ok { message := some message, name := some name } ∧
      CommandLine.parse json = .ok { message := some message, name := some name, json := true } ∧
      (run world plain).exitCode = 0 ∧
      (config.output.format = .text →
        (run world plain).output = bytesOf (message ++ " " ++ name ++ "\n")) ∧
      (run world json).exitCode = 0 ∧
      ∃ line, (run world json).output = line ++ [lineFeed] ∧ lineFeed ∉ line ∧
        readLine? line = some (.object [("event", .string "greeting"),
          ("message", .string (message ++ " " ++ name))]) := by
  intro plain json
  obtain ⟨hplain, hjson⟩ := CommandLine.parse_saying message name
  obtain ⟨hgood, htext⟩ :=
    run_of_saying hplain rfl rfl rfl hdiscover hoverride hwritten hlimit hflush
  obtain ⟨hgood', hevent⟩ :=
    run_of_saying hjson rfl rfl rfl hdiscover hoverride hwritten hlimit hflush
  refine ⟨hplain, hjson, hgood, ?_, hgood', eventLine (message ++ " " ++ name), ?_,
    lineFeed_not_mem_eventLine _, readLine?_eventLine _⟩
  · intro hformat
    rw [← record_text, ← hformat]
    exact htext
  · rw [← record_json]
    exact hevent

/-- A message that is a double dash, and a name that looks like an option with a value and ends in
a line feed, over a file that names someone else. -/
theorem run_saying_dashes :
    let world : World := ⟨fun _ => .file (bytesOf "[greeting]\nname = 'Ada'\nmessage = 'Hi'\n"),
      fun name => if name = "GREETER_MESSAGE" then some (bytesOf "Good day") else none,
      .ofString "/work", {}⟩
    let plain := ["--message", "--", "--name=--help=config\n"].map bytesOf
    (run world plain).output = bytesOf "-- --help=config\n\n" ∧
      ∃ line, (run world (bytesOf "--json" :: plain)).output = line ++ [lineFeed] ∧
        lineFeed ∉ line ∧
        readLine? line = some (.object [("event", .string "greeting"),
          ("message", .string "-- --help=config\n")]) := by
  intro world plain
  have hdiscover : Config.discover world.files world.environment none world.workingDirectory =
      .ok ⟨⟨⟨"Ada", "Hi"⟩, {}⟩, .project (.ofString "/work/greeter.toml"), []⟩ := by
    decide +kernel
  have hoverride : Config.override world.environment ⟨⟨"Ada", "Hi"⟩, {}⟩ =
      .ok ⟨⟨"Ada", "Good day"⟩, {}⟩ := by decide +kernel
  obtain ⟨-, -, -, htext, -, hevent⟩ :=
    run_saying hdiscover hoverride rfl rfl rfl "--" "--help=config\n"
  exact ⟨htext rfl, hevent⟩

end Salutation
