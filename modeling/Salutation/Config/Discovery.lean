/-
Finding the configuration file of a run.

A file that is named is the only candidate and must exist.  Otherwise the project's file is
taken if there is one, else the user's, else the defaults hold.  Only a missing candidate is
passed over: a file that is chosen and cannot be used is an error.
-/
import Salutation.Config.Load
import Salutation.World.Environment

namespace Salutation.Config

/-- Where a configuration comes from. -/
inductive Source where
  | explicit (path : Path)
  | project (path : Path)
  | user (path : Path)
  | defaults
  deriving Repr, DecidableEq

/-- The file that a configuration comes from. -/
def Source.path? : Source → Option Path
  | .explicit path => some path
  | .project path => some path
  | .user path => some path
  | .defaults => none

/-- A configuration with where it comes from and what was odd about it. -/
structure Loaded where
  config : Config
  source : Source
  warnings : List Warning
  deriving Repr, DecidableEq

/-- The variable that names the user's configuration directory. -/
def configHomeVariable : String := "GREETER_CONFIG_HOME"

/-- The directory for configurations by the conventions of the desktop: a variable's value
if it is absolute, else a directory in the home directory.  The home directory is the one that a
variable names.  Where that is unset or empty the system may still know one for the account, and
that one is left out: here there is none then. -/
def desktopConfigHome? (environment : Environment) : Option Path :=
  match (environment "XDG_CONFIG_HOME").map Path.mk with
  | some path => if path.isAbsolute then some path else home?
  | none => home?
where
  /-- The directory in the home directory, if there is a home directory. -/
  home? : Option Path :=
    match environment "HOME" with
    | some [] => none
    | home => home.map fun bytes => (Path.mk bytes).join ".config"

/-- The path of the user's configuration file. -/
def userPath? (environment : Environment) : Option Path :=
  let home? :=
    match environment.text? configHomeVariable with
    | some home => some (Path.ofString home)
    | none => desktopConfigHome? environment
  home?.map fun home => (home.join "greeter").join "config.toml"

/-- The path of a project's configuration file. -/
def projectPath (root : Path) : Path := root.join "greeter.toml"

/-- The paths that matter for a run, in the order in which they are tried. -/
def candidates (environment : Environment) (explicit? : Option Path) (root : Path) : List Path :=
  match explicit? with
  | some path => [path]
  | none => projectPath root :: (userPath? environment).toList

/-- Loads a chosen file. -/
def loadFrom (files : Files) (source : Path → Source) (path : Path) : Except Failure Loaded :=
  match load files path with
  | .ok (config, warnings) => .ok ⟨config, source path, warnings⟩
  | .error failure => .error failure

/-- Finds and loads the configuration for a project. -/
def discover (files : Files) (environment : Environment) (explicit? : Option Path)
    (root : Path) : Except Failure Loaded :=
  match explicit? with
  | some path =>
    if files.isFile path then loadFrom files .explicit path else .error (.configNotFound path)
  | none =>
    if files.isFile (projectPath root) then loadFrom files .project (projectPath root)
    else
      match userPath? environment with
      | some path =>
        if files.isFile path then loadFrom files .user path else .ok ⟨{}, .defaults, []⟩
      | none => .ok ⟨{}, .defaults, []⟩

end Salutation.Config
