import DefinitionSite.EngineChoice

/-! The settings of the program and their defaults. -/
namespace DefinitionSite

/-- The settings: how to search, which files belong to a language, which directories are skipped,
and whether everything is logged. Languages are in the order in which they were first set. -/
structure Settings where
  engine : EngineChoice
  ripgrepPath : String
  timeout : Float
  maxWorkers : Int
  languages : List (String × List String)
  skipDirs : List String
  debug : Bool

namespace Settings

def initial : Settings :=
  { engine := .ripgrep
    ripgrepPath := "rg"
    timeout := 5.0
    maxWorkers := 4
    languages := [("haskell", defaultGlobs)]
    skipDirs := defaultSkipDirs
    debug := false }

def language? (s : Settings) (language : String) : Option (List String) :=
  (s.languages.find? (·.1 == language)).map (·.2)

def setLanguage (s : Settings) (language : String) (globs : List String) : Settings :=
  let languages :=
    if s.languages.any (·.1 == language) then
      s.languages.map fun e => if e.1 == language then (language, globs) else e
    else s.languages ++ [(language, globs)]
  { s with languages }

/-- The file name patterns of a language; one without any has those of the default language. -/
def globsFor (s : Settings) (language : String) : List String :=
  match s.language? language with
  | some (g :: gs) => g :: gs
  | _ => defaultGlobs

def engineSetup (s : Settings) : EngineSetup := .of s.engine s.timeout s.ripgrepPath

end Settings
end DefinitionSite
