import DefinitionSite.Log
import DefinitionSite.Settings.Document
import DefinitionSite.Workspace

/-! Loading the settings. The defaults come first, then the user's own file, then that of the
workspace, then the environment; what comes later overrides what came before. A file that cannot be
applied is reported and does not keep the others from counting. -/
namespace DefinitionSite

/-- Where settings came from: the files that were loaded, the last source that counted, and what
went wrong. -/
structure SettingsSource where
  globalFile : Option String
  localFile : Option String
  loadedFrom : String
  errors : List String
  deriving Repr, DecidableEq

namespace SettingsSource

def initial : SettingsSource := ⟨none, none, "default", []⟩

def text (s : SettingsSource) : String :=
  " | ".intercalate <|
    (s.globalFile.map ("Global: " ++ ·)).toList ++
    (s.localFile.map ("Local: " ++ ·)).toList ++
    ["Active: " ++ s.loadedFrom] ++
    (if s.errors.isEmpty then [] else ["Errors: " ++ ", ".intercalate s.errors])

end SettingsSource

structure Configuration where
  settings : Settings
  source : SettingsSource

inductive Layer where
  | user
  | workspace
  deriving Repr, DecidableEq

def Layer.name : Layer → String
  | .user => "global"
  | .workspace => "local"

def SettingsSource.loaded (s : SettingsSource) (layer : Layer) (path : String) : SettingsSource :=
  match layer with
  | .user => { s with globalFile := some path, loadedFrom := layer.name }
  | .workspace => { s with localFile := some path, loadedFrom := layer.name }

namespace Settings

/-- The engine that the environment asks for; a name that no engine has does not count. -/
def engineOverride (env : Environment) : Option (Settings → Settings) :=
  ((env.given? "HSDEF_ENGINE").bind EngineChoice.ofName?).map fun engine s => { s with engine }

def ripgrepPathOverride (env : Environment) : Option (Settings → Settings) :=
  (env.given? "HSDEF_RG_PATH").map fun ripgrepPath s => { s with ripgrepPath }

def timeoutOverride (env : Environment) : Option (Settings → Settings) :=
  ((env.given? "HSDEF_SEARCH_TIMEOUT").bind fun v => Decimal.readFloat? v.toList).map
    fun timeout s => { s with timeout }

def workersOverride (env : Environment) : Option (Settings → Settings) :=
  ((env.given? "HSDEF_MAX_WORKERS").bind fun v => (Decimal.readInt v.toList).toOption).map
    fun maxWorkers s => { s with maxWorkers }

def debugOverride (env : Environment) : Option (Settings → Settings) :=
  let asked := String.ofList (((env.get? "HSDEF_DEBUG").getD "").toList.map Char.toLower)
  if ["1", "true", "yes"].contains asked then some fun s => { s with debug := true } else none

/-- The variables that override settings, in order, each with its change. -/
def overrides (env : Environment) : List (String × (Settings → Settings)) :=
  [("HSDEF_ENGINE", engineOverride env), ("HSDEF_RG_PATH", ripgrepPathOverride env),
    ("HSDEF_SEARCH_TIMEOUT", timeoutOverride env), ("HSDEF_MAX_WORKERS", workersOverride env),
    ("HSDEF_DEBUG", debugOverride env)].filterMap fun e => e.2.map fun change => (e.1, change)

end Settings

inductive LoadFault where
  | noHome (e : NoHome)
  | file (e : FileError)
  | overflow (o : Overflow)
  deriving Repr, DecidableEq

def LoadFault.message : LoadFault → String
  | .noHome e => e.message
  | .file e => e.message
  | .overflow o => o.message

namespace Configuration

def initial : Configuration := ⟨.initial, .initial⟩

/-- Loads one layer and says what became of it. Only a path that cannot be asked about and a number
that overflows end the loading. -/
def loadLayer (tree : FileTree) (c : Configuration) (layer : Layer) (path : Path) :
    Except LoadFault Configuration × Log :=
  let shown := path.toString
  match tree.unaskable? path with
  | some e => (.error (.file e), [])
  | none =>
    if !tree.exists? path then
      (.ok c, [⟨.debug, "No " ++ layer.name ++ " config at: " ++ shown⟩])
    else
      match c.settings.applyFile tree path with
      | (settings, none) =>
        (.ok ⟨settings, c.source.loaded layer shown⟩,
          [⟨.debug, "Loaded " ++ layer.name ++ " config: " ++ shown⟩])
      | (_, some (.overflow o)) => (.error (.overflow o), [])
      | (settings, some fault) =>
        let error := layer.name ++ ": " ++ fault.message
        (.ok ⟨settings, { c.source with errors := c.source.errors ++ [error] }⟩,
          [⟨.warning,
            "Error loading " ++ layer.name ++ " config " ++ shown ++ ": " ++ fault.message⟩])

def loadLayers (tree : FileTree) (c : Configuration) :
    List (Layer × Path) → Except LoadFault Configuration × Log
  | [] => (.ok c, [])
  | (layer, path) :: rest =>
    match loadLayer tree c layer path with
    | (.error f, log) => (.error f, log)
    | (.ok c, log) =>
      let (result, more) := loadLayers tree c rest
      (result, log ++ more)

def applyEnvironment (c : Configuration) (env : Environment) : Configuration × Log :=
  match Settings.overrides env with
  | [] => (c, [])
  | overrides =>
    (⟨overrides.foldl (fun s e => e.2 s) c.settings, { c.source with loadedFrom := "env" }⟩,
      [⟨.debug, "Env overrides: " ++ ", ".intercalate (overrides.map (·.1))⟩])

def layers (globalFile : Path) (workspace : Option Workspace) : List (Layer × Path) :=
  (.user, globalFile) ::
    ((workspace.bind Workspace.configFile).map fun p => (Layer.workspace, p)).toList

def load (tree : FileTree) (platform : Platform) (env : Environment)
    (workspace : Option Workspace) : Except LoadFault Configuration × Log :=
  match globalConfigFile platform env with
  | .error e => (.error (.noHome e), [])
  | .ok globalFile =>
    match loadLayers tree initial (layers globalFile workspace) with
    | (.error f, log) => (.error f, log)
    | (.ok c, log) =>
      let (c, more) := c.applyEnvironment env
      (.ok c, log ++ more)

def info (c : Configuration) (globalFile : String) : Except Decimal.TooManyDigits String := do
  let s := c.settings
  let workers ← Decimal.writeInt s.maxWorkers
  let skipped := ", ".intercalate s.skipDirs
  let languages := s.languages.mergeSort fun a b => !decide (b.1 < a.1)
  return "\n".intercalate <|
    ["Configuration:", "  Engine: " ++ s.engine.name, "  ripgrep: " ++ s.ripgrepPath,
      "  Timeout: " ++ Decimal.text s.timeout ++ "s", "  Workers: " ++ workers,
      "  Skip dirs: " ++ (if skipped.isEmpty then "(none)" else skipped), "  Languages:"] ++
    languages.map (fun e => "    " ++ e.1 ++ ": " ++ ", ".intercalate e.2) ++
    ["", "Sources:",
      match c.source.globalFile with
      | some path => "  Global: " ++ path
      | none => "  Global: (not found at " ++ globalFile ++ ")",
      match c.source.localFile with
      | some path => "  Local: " ++ path
      | none => "  Local: (none)",
      "  Active source: " ++ c.source.loadedFrom] ++
    (if c.source.errors.isEmpty then [] else ["  Errors: " ++ ", ".intercalate c.source.errors])

end Configuration
end DefinitionSite
