/-
Variables that are set and hold no text.

There are two places where a run reads variables of its own.  Overriding reads four of them in
order and stops at the first that it cannot use, so one that it comes to and that holds no
text is what the run fails of, and in any case nothing is settled.

The search for the user's file is different: it asks only for a text, and a variable that holds
none is to it as good as unset.  So it looks in the place that it would look in otherwise, and
the run may well be settled by a file that the variable was to replace.
-/
import Salutation.Proofs.Resolve
import Salutation.Proofs.Text.Utf8

namespace Salutation

/-- A variable that is set to bytes that no text is encoded in. -/
def Environment.IsUndecodable (environment : Environment) (name : String) : Prop :=
  ∃ bytes, environment name = some bytes ∧ ∀ text, Utf8.encode text ≠ bytes

/-- An environment with one variable unset. -/
def Environment.without (environment : Environment) (name : String) : Environment :=
  fun other => if other = name then none else environment other

/-- Whether a text may stand in a variable that overrides a field. -/
def mayHold (name text : String) : Bool :=
  if name = "GREETER_FORMAT" then (Format.parse? text).isSome
  else if name = "GREETER_VERBOSITY" then (Verbosity.parse? text).isSome
  else true

/-- A variable that is read where a configuration is settled: the user's directory if there is
no file before the user's, and of the variables that override the first, and each one for which
those in front of it are usable. -/
inductive IsRead (world : World) (request : CommandLine.Request) : String → Prop where
  | home (hexplicit : request.file = none)
      (hproject : world.files.isFile (Config.projectPath world.workingDirectory) = false) :
      IsRead world request Config.configHomeVariable
  | override {loaded : Config.Loaded} {name : String}
      (hdiscover : Config.discover world.files world.environment request.file
        world.workingDirectory = .ok loaded)
      (hname : name ∈ overrideVariables)
      (hbefore : ∀ earlier ∈ overrideVariables.takeWhile (· ≠ name),
        Config.isUsable world.environment earlier (mayHold earlier) = true) :
      IsRead world request name

/-! ### Overriding -/

namespace Config

variable {environment : Environment} {name : String} {bytes : Bytes}

theorem mem_overrideVariables : name ∈ overrideVariables ↔ name = "GREETER_NAME" ∨
    name = "GREETER_MESSAGE" ∨ name = "GREETER_FORMAT" ∨ name = "GREETER_VERBOSITY" := by
  simp [overrideVariables]

/-- A variable that holds no text cannot be read as one. -/
theorem readVariable_of_undecodable (hvalue : environment name = some bytes)
    (htext : ∀ text, Utf8.encode text ≠ bytes) :
    readVariable environment name =
      .error (.invalidVariable name (String.ofList (Utf8.decodeLossy bytes)) .validText) := by
  simp [readVariable, hvalue, Utf8.decode?_eq_none_iff.mpr htext]

theorem readChoice_of_undecodable {α : Type} {parse? : String → Option α} {allowed : List String}
    (hvalue : environment name = some bytes) (htext : ∀ text, Utf8.encode text ≠ bytes) :
    readChoice environment name parse? allowed =
      .error (.invalidVariable name (String.ofList (Utf8.decodeLossy bytes)) .validText) := by
  simp [readChoice, readVariable_of_undecodable hvalue htext]

/-- A variable that holds no text is not usable, whatever may stand in it. -/
theorem not_isUsable_of_undecodable (h : environment.IsUndecodable name)
    (allows : String → Bool) : isUsable environment name allows = false := by
  obtain ⟨bytes, hvalue, htext⟩ := h
  simp [isUsable, Environment.text?, hvalue, Utf8.decode?_eq_none_iff.mpr htext]

/-- Reading a variable fails, the one for a choice as a choice. -/
def ReadingFails (environment : Environment) (name : String) (failure : Failure) : Prop :=
  if name = "GREETER_FORMAT" then
    readChoice environment name Format.parse? Format.names = .error failure
  else if name = "GREETER_VERBOSITY" then
    readChoice environment name Verbosity.parse? Verbosity.names = .error failure
  else readVariable environment name = .error failure

/-- Overriding fails of the first variable that cannot be read. -/
theorem override_of_readingFails {failure : Failure} (hname : name ∈ overrideVariables)
    (hbefore : ∀ earlier ∈ overrideVariables.takeWhile (· ≠ name),
      isUsable environment earlier (mayHold earlier) = true)
    (h : ReadingFails environment name failure) (config : Config) :
    override environment config = .error failure := by
  unfold override
  rcases mem_overrideVariables.mp hname with rfl | rfl | rfl | rfl
  · have hfails : readVariable environment "GREETER_NAME" = .error failure := h
    rw [hfails]
    rfl
  · have hfirst := readVariable_of_isUsable (hbefore "GREETER_NAME" (by decide))
    have hfails : readVariable environment "GREETER_MESSAGE" = .error failure := h
    rw [hfirst, hfails]
    rfl
  · have hfirst := readVariable_of_isUsable (hbefore "GREETER_NAME" (by decide))
    have hsecond := readVariable_of_isUsable (hbefore "GREETER_MESSAGE" (by decide))
    have hfails : readChoice environment "GREETER_FORMAT" Format.parse? Format.names =
      .error failure := h
    rw [hfirst, hsecond, hfails]
    rfl
  · have hfirst := readVariable_of_isUsable (hbefore "GREETER_NAME" (by decide))
    have hsecond := readVariable_of_isUsable (hbefore "GREETER_MESSAGE" (by decide))
    have hthird : readChoice environment "GREETER_FORMAT" Format.parse? Format.names = _ :=
      readChoice_of_isUsable (hbefore "GREETER_FORMAT" (by decide))
    have hfails : readChoice environment "GREETER_VERBOSITY" Verbosity.parse? Verbosity.names =
      .error failure := h
    rw [hfirst, hsecond, hthird, hfails]
    rfl

/-- Overriding fails of the first variable that is unusable, if that holds no text. -/
theorem override_of_undecodable (hname : name ∈ overrideVariables)
    (hbefore : ∀ earlier ∈ overrideVariables.takeWhile (· ≠ name),
      isUsable environment earlier (mayHold earlier) = true)
    (hvalue : environment name = some bytes) (htext : ∀ text, Utf8.encode text ≠ bytes)
    (config : Config) :
    override environment config =
      .error (.invalidVariable name (String.ofList (Utf8.decodeLossy bytes)) .validText) := by
  refine override_of_readingFails hname hbefore ?_ config
  unfold ReadingFails
  split
  case isTrue => exact readChoice_of_undecodable hvalue htext
  case isFalse =>
    split
    case isTrue => exact readChoice_of_undecodable hvalue htext
    case isFalse => exact readVariable_of_undecodable hvalue htext

/-- Nothing is overridden if one of the variables holds no text. -/
theorem override_not_ok_of_undecodable (hname : name ∈ overrideVariables)
    (h : environment.IsUndecodable name) (config : Config) :
    ∃ failure, override environment config = .error failure := by
  refine override_of_not_areUsable ?_ config
  intro husable
  have hunusable := not_isUsable_of_undecodable h
  rcases mem_overrideVariables.mp hname with rfl | rfl | rfl | rfl
  · simpa [hunusable] using husable.name
  · simpa [hunusable] using husable.message
  · simpa [hunusable] using husable.format
  · simpa [hunusable] using husable.verbosity

/-- Overriding reads four variables. -/
theorem override_congr {other : Environment}
    (h : ∀ name ∈ overrideVariables, environment name = other name) (config : Config) :
    override environment config = override other config := by
  have hname := h "GREETER_NAME" (by decide)
  have hmessage := h "GREETER_MESSAGE" (by decide)
  have hformat := h "GREETER_FORMAT" (by decide)
  have hverbosity := h "GREETER_VERBOSITY" (by decide)
  simp only [override, readVariable, readChoice, hname, hmessage, hformat, hverbosity]

/-! ### The search -/

/-- The path of the user's file is the same as without a variable that holds no text. -/
theorem userPath?_without (h : environment.IsUndecodable configHomeVariable) :
    userPath? environment = userPath? (environment.without configHomeVariable) := by
  obtain ⟨bytes, hvalue, htext⟩ := h
  have hnothing : environment.text? configHomeVariable = none := by
    simp [Environment.text?, hvalue, Utf8.decode?_eq_none_iff.mpr htext]
  have hunset : (environment.without configHomeVariable).text? configHomeVariable = none := by
    simp [Environment.text?, Environment.without]
  have hdesktop : desktopConfigHome? (environment.without configHomeVariable) =
      desktopConfigHome? environment := by
    simp [desktopConfigHome?, desktopConfigHome?.home?, Environment.without, configHomeVariable]
  unfold userPath?
  rw [hnothing, hunset, hdesktop]

theorem discover_without (h : environment.IsUndecodable configHomeVariable) (files : Files)
    (explicit? : Option Path) (root : Path) :
    discover files environment explicit? root =
      discover files (environment.without configHomeVariable) explicit? root := by
  unfold discover
  rw [userPath?_without h]

end Config

/-! ### Settling a configuration -/

/-- **A variable that overrides a field and holds no text is never skipped**: if it is read, it
is what the run fails of, with its bytes as far as they are text, and in any case nothing is
settled.  **The variable for the user's directory is**: if it holds no text, everything is settled
as if it were unset. -/
theorem resolve_undecodable (world : World) (request : CommandLine.Request) :
    (∀ name bytes, IsRead world request name → name ≠ Config.configHomeVariable →
      world.environment name = some bytes → (∀ text, Utf8.encode text ≠ bytes) →
      resolve world request = .error ⟨.overriding,
        .invalidVariable name (String.ofList (Utf8.decodeLossy bytes)) .validText⟩) ∧
    (∀ name ∈ overrideVariables, world.environment.IsUndecodable name →
      ∃ failure, resolve world request = .error failure) ∧
    (world.environment.IsUndecodable Config.configHomeVariable →
      resolve world request = resolve
        { world with environment := world.environment.without Config.configHomeVariable }
        request) := by
  refine ⟨?_, ?_, ?_⟩
  · intro name bytes hread hother hvalue htext
    cases hread with
    | home => exact absurd rfl hother
    | override hdiscover hname hbefore =>
        rw [resolve_of_discover_ok hdiscover,
          Config.override_of_undecodable hname hbefore hvalue htext]
  · intro name hname hundecodable
    cases hdiscover : Config.discover world.files world.environment request.file
        world.workingDirectory with
    | error failure => exact ⟨_, resolve_of_discover_error hdiscover⟩
    | ok loaded =>
        obtain ⟨failure, hfailure⟩ :=
          Config.override_not_ok_of_undecodable hname hundecodable loaded.config
        refine ⟨⟨.overriding, failure⟩, ?_⟩
        rw [resolve_of_discover_ok hdiscover, hfailure]
  · intro hundecodable
    have hoverride : ∀ config, Config.override
        (world.environment.without Config.configHomeVariable) config =
          Config.override world.environment config := by
      refine Config.override_congr ?_
      intro name hname
      have hother : name ≠ Config.configHomeVariable := by
        rintro rfl
        exact absurd hname (by decide)
      simp [Environment.without, hother]
    unfold resolve
    simp only [← Config.discover_without hundecodable, hoverride]

/-- A message that is no text is what the run fails of, though the format behind it is none and
the user's directory is passed over. -/
theorem resolve_undecodable_message :
    let world : World := ⟨fun _ => .missing,
      fun name => if name = "GREETER_MESSAGE" then some [0x48, 0xFF]
        else if name = "GREETER_FORMAT" then some (bytesOf "xml")
        else if name = "GREETER_CONFIG_HOME" then some [0xC0] else none,
      .ofString "/work", {}⟩
    resolve world { message := some "Hi" } =
        .error ⟨.overriding, .invalidVariable "GREETER_MESSAGE" "H\uFFFD" .validText⟩ ∧
      (∃ failure, resolve world {} = .error failure) ∧
      resolve world {} = resolve
        { world with environment := world.environment.without "GREETER_CONFIG_HOME" } {} := by
  intro world
  have hbytes : ∀ text, Utf8.encode text ≠ [0x48, 0xFF] :=
    Utf8.decode?_eq_none_iff.mp (by decide +kernel)
  have hhome : ∀ text, Utf8.encode text ≠ [0xC0] :=
    Utf8.decode?_eq_none_iff.mp (by decide +kernel)
  have hdiscover : Config.discover world.files world.environment none world.workingDirectory =
      .ok ⟨{}, .defaults, []⟩ := by decide +kernel
  have hread : IsRead world { message := some "Hi" } "GREETER_MESSAGE" :=
    .override hdiscover (by decide) (by decide +kernel)
  obtain ⟨hfails, -, -⟩ := resolve_undecodable world { message := some "Hi" }
  obtain ⟨-, hnothing, hskips⟩ := resolve_undecodable world {}
  refine ⟨?_, hnothing "GREETER_MESSAGE" (by decide) ⟨_, rfl, hbytes⟩, hskips ⟨_, rfl, hhome⟩⟩
  rw [hfails _ _ hread (by decide) rfl hbytes]
  decide +kernel

/-- A variable for the user's directory that is read and holds no text does not keep a run from
being settled by another file. -/
theorem undecodable_home_passed_over :
    let world : World := ⟨fun path =>
        if path = .ofString "/home/.config/greeter/config.toml" then
          .file (bytesOf "[greeting]\nname = 'Ada'\n")
        else .missing,
      fun name => if name = "GREETER_CONFIG_HOME" then some [0xFF]
        else if name = "HOME" then some (bytesOf "/home") else none,
      .ofString "/work", {}⟩
    IsRead world {} "GREETER_CONFIG_HOME" ∧
      world.environment.IsUndecodable "GREETER_CONFIG_HOME" ∧
      resolve world {} = .ok ⟨⟨⟨⟨"Ada", "Hello"⟩, {}⟩,
        .user (.ofString "/home/.config/greeter/config.toml"), []⟩, ⟨⟨"Ada", "Hello"⟩, {}⟩⟩ := by
  intro world
  have hbytes : ∀ text, Utf8.encode text ≠ [0xFF] :=
    Utf8.decode?_eq_none_iff.mp (by decide +kernel)
  exact ⟨.home rfl (by decide +kernel), ⟨_, rfl, hbytes⟩, by decide +kernel⟩

end Salutation
