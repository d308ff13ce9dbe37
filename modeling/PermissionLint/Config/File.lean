/-
Configurations that are kept in files, and which of them a check goes by: the file that is named on
the command line, else one in the folder that is checked, else one for all projects, else the
built-in one.
-/
import PermissionLint.Command.Outcome
import PermissionLint.Config

namespace PermissionLint

/-- The configuration in the file at a path. -/
def Config.load (fs : FileSystem) (path : Path) : Except ConfigError Config :=
  match fs.readText path with
  | .ok text => Config.parse (String.ofList text)
  | .error e => .error (.unreadable (String.ofList path) e.message)

namespace Command

/-- What a command finds around it. -/
structure Surroundings where
  files : FileSystem
  /-- The folder that may hold a configuration for all projects. -/
  globalFolder : Option Path := none

/-- Where a configuration comes from. -/
inductive ConfigSource where
  /-- It is named on the command line. -/
  | named (path : Path)
  /-- It is kept with the files that are checked. -/
  | project (path : Path)
  /-- It is for all projects. -/
  | global (path : Path)
  /-- There is no file. -/
  | builtIn
  deriving DecidableEq, Repr

/-- The name of a configuration for one project. -/
def projectConfigName : Name := "drf-lint.toml".toList

/-- The names of configurations for one project, the one to be preferred first. -/
def projectConfigNames : List Name := [projectConfigName, ".drf-lint.toml".toList]

/-- The name of a configuration for all projects. -/
def globalConfigName : Name := "config.toml".toList

/-- The folder that may hold a configuration for all projects: the one that is named, else one in
the home of the user. -/
def globalFolderOf (named home : Option String) : Option Path :=
  match named with
  | some folder => some folder.toList
  | none => home.map fun h => Path.join h.toList ".drf-lint".toList

/-- The folder that a path is about: the path itself, or the folder of a file. -/
def projectFolder (fs : FileSystem) (path : Path) : Path :=
  if fs.isFile path then
    match path.directory? with
    | some folder => if folder.isEmpty then ['.'] else folder
    | none => ['.']
  else path

/-- Where the configuration for a folder comes from. -/
def findConfig (s : Surroundings) (folder : Path) (named : Option Path) : ConfigSource :=
  match named with
  | some path => .named path
  | none =>
    match (projectConfigNames.map folder.join).find? s.files.contains with
    | some path => .project path
    | none =>
      match (s.globalFolder.map fun g => g.join globalConfigName).filter s.files.contains with
      | some path => .global path
      | none => .builtIn

namespace ConfigSource

/-- The remarks on finding a configuration and on using it. -/
def log : ConfigSource → List LogLine
  | project path => [.debug ("Found project config: " ++ String.ofList path)]
  | global path =>
    [.debug ("Found global config: " ++ String.ofList path),
      .info ("Using global config: " ++ String.ofList path)]
  | named _ | builtIn => []

/-- The file of a configuration. -/
def path? : ConfigSource → Option Path
  | named path | project path | global path => some path
  | builtIn => none

/-- The configuration, or the failure to load it. -/
def load (fs : FileSystem) (source : ConfigSource) : Except Failure Config :=
  match source.path? with
  | none => .ok {}
  | some path =>
    match Config.load fs path with
    | .ok c => .ok c
    | .error e =>
      let causes := match e with
        | .unreadable _ reason => [e.message, reason]
        | .invalid => [e.message]
      .error ⟨"Failed to load config: " ++ String.ofList path, causes⟩

end ConfigSource

end Command

end PermissionLint
