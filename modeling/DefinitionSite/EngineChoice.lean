import DefinitionSite.InProcess
import DefinitionSite.Ripgrep.Running

/-! The engines that can be chosen by name, and how a chosen one is set up. -/
namespace DefinitionSite

inductive EngineChoice where
  | ripgrep
  | inProcess
  deriving Repr, DecidableEq

namespace EngineChoice

def all : List EngineChoice := [.ripgrep, .inProcess]

def name : EngineChoice → String
  | .ripgrep => "ripgrep"
  | .inProcess => "python"

def ofName? (name : String) : Option EngineChoice := all.find? (·.name == name)

end EngineChoice

/-- An engine set up: the limit for a search in seconds, and the external program if it is one. -/
structure EngineSetup where
  choice : EngineChoice
  timeout : Float
  executable : Option String

structure UnknownEngine where
  name : String
  deriving Repr, DecidableEq

def UnknownEngine.message (e : UnknownEngine) : String := "Unknown engine: " ++ e.name

namespace EngineSetup

/-- Sets up an engine; the path of the external program counts for that engine only. -/
def of (choice : EngineChoice) (timeout : Float) (ripgrepPath : String) : EngineSetup :=
  ⟨choice, timeout, if choice == .ripgrep then some ripgrepPath else none⟩

def named (name : String) (timeout : Float) (ripgrepPath : String) :
    Except UnknownEngine EngineSetup :=
  match EngineChoice.ofName? name with
  | some choice => .ok (of choice timeout ripgrepPath)
  | none => .error ⟨name⟩

/-- The engine over a file system on a machine without the external program. -/
def engine (s : EngineSetup) (tree : FileTree) : Engine :=
  match s.executable with
  | some executable => Ripgrep.engine false executable s.timeout fun _ _ => .quiet
  | none => InProcess.engine tree s.timeout

end EngineSetup
end DefinitionSite
