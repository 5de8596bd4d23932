import DefinitionSite.CommandLine.Given
import DefinitionSite.Text.Word

/-! The commands of the program, and reading them from the command line. -/
namespace DefinitionSite.CommandLine

structure FindOptions where
  identifier : Option String
  file : Option Path
  position : Option String
  root : Option Path
  language : String
  engine : Option EngineChoice
  timeout : Option Float
  json : Bool
  debug : Bool

structure DumpOptions where
  file : Path
  root : Option Path
  language : String
  output : Option Path
  debug : Bool

inductive Command where
  | help (form : CommandForm)
  | version
  | find (o : FindOptions)
  | dump (o : DumpOptions)
  | init (path : Option Path)
  | config (globalOnly : Bool)

def defaultLanguage : String := "haskell"

/-- Reads the arguments of a command; asking for help comes before everything but an option that
does not exist. -/
def readCommand (tree : FileTree) (c : CommandForm) (arguments : List String)
    (build : Given → Option Value → Option Command) : Except Refusal Command :=
  match readArguments c arguments with
  | .error f => .error ⟨c, f⟩
  | .ok g =>
    if g.has helpOption then .ok (.help c)
    else
      match checkArgument tree c g with
      | .error f => .error ⟨c, f⟩
      | .ok v => .ok ((build g v).getD (.help c))

def Value.path? : Option Value → Option Path
  | some (.path p) => some p
  | _ => none

def Value.text? : Option Value → Option String
  | some (.text s) => some s
  | _ => none

def readFind (tree : FileTree) (arguments : List String) : Except Refusal Command :=
  readCommand tree findForm arguments fun g v => some <| .find
    { identifier := Value.text? v
      file := g.path? tree fileOption
      position := g.text? tree atOption
      root := g.path? tree rootOption
      language := (g.text? tree languageOption).getD defaultLanguage
      engine := (g.text? tree engineOption).bind EngineChoice.ofName?
      timeout := g.number? tree timeoutOption
      json := g.has jsonOption
      debug := g.has debugOption }

def readDump (tree : FileTree) (arguments : List String) : Except Refusal Command :=
  readCommand tree dumpForm arguments fun g v => (Value.path? v).map fun file => .dump
    { file
      root := g.path? tree rootOption
      language := (g.text? tree languageOption).getD defaultLanguage
      output := g.path? tree outputOption
      debug := g.has debugOption }

/-- Reads the arguments after the name of a command, if there is such a command. -/
def readNamed? (tree : FileTree) (name : String) (arguments : List String) :
    Option (Except Refusal Command) :=
  match name with
  | "find" => some (readFind tree arguments)
  | "dump" => some (readDump tree arguments)
  | "init" => some (readCommand tree initForm arguments fun _ v => some (.init (Value.path? v)))
  | "config" =>
    some (readCommand tree configForm arguments fun g _ => some (.config (g.has globalOption)))
  | _ => none

def startsWithSign (word : String) : Bool :=
  match word.toList with
  | [] => false
  | c :: _ => c == '_' || !Text.isWord c

def read (tree : FileTree) (arguments : List String) : Except Refusal Command :=
  match readArguments programForm arguments with
  | .error f => .error ⟨programForm, f⟩
  | .ok g =>
    match g.options.head?, g.arguments with
    | some (option, _), _ =>
      .ok (if option == versionOption then .version else .help programForm)
    | none, [] =>
      if arguments.isEmpty then .ok (.help programForm) else .error ⟨programForm, .commandNeeded⟩
    | none, name :: rest =>
      match readNamed? tree name rest with
      | some result => result
      | none =>
        if startsWithSign name then .ok (.help programForm)
        else .error ⟨programForm, .noSuchCommand name⟩

end DefinitionSite.CommandLine
