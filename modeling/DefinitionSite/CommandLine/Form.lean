import DefinitionSite.EngineChoice

/-! What can stand on the command line: for each command its options and its argument. -/
namespace DefinitionSite.CommandLine

/-- What a path on the command line has to lead to. -/
structure PathRule where
  mustExist : Bool
  fileAllowed : Bool
  dirAllowed : Bool
  deriving Repr, DecidableEq

def PathRule.noun (r : PathRule) : String :=
  if r.dirAllowed then if r.fileAllowed then "Path" else "Directory" else "File"

inductive ValueKind where
  | text
  | number
  | choice (names : List String)
  | path (rule : PathRule)
  deriving Repr, DecidableEq

/-- An option: its names, and the kind of its value unless it is a mere flag. -/
structure OptionForm where
  names : List String
  value : Option ValueKind
  deriving Repr, DecidableEq

structure ArgumentForm where
  name : String
  required : Bool
  value : ValueKind
  deriving Repr, DecidableEq

def ArgumentForm.shown (a : ArgumentForm) : String :=
  if a.required then a.name else "[" ++ a.name ++ "]"

/-- A command: the words that call it, its options and its argument. -/
structure CommandForm where
  words : String
  options : List OptionForm
  argument : Option ArgumentForm
  /-- Whether the arguments begin another command. -/
  isGroup : Bool
  deriving Repr, DecidableEq

def CommandForm.usage (c : CommandForm) : String :=
  "Usage: " ++ c.words ++ " [OPTIONS]" ++
    (if c.isGroup then " COMMAND [ARGS]..." else "") ++
    (c.argument.map fun a => " " ++ a.shown).getD ""

def existingFile : PathRule := ⟨true, true, false⟩

def existingDir : PathRule := ⟨true, false, true⟩

def helpOption : OptionForm := ⟨["--help"], none⟩

def versionOption : OptionForm := ⟨["--version", "-v"], none⟩

def fileOption : OptionForm := ⟨["--file", "-f"], some (.path existingFile)⟩

def atOption : OptionForm := ⟨["--at"], some .text⟩

def rootOption : OptionForm := ⟨["--root", "-r"], some (.path existingDir)⟩

def languageOption : OptionForm := ⟨["--language", "-l"], some .text⟩

def engineOption : OptionForm :=
  ⟨["--engine", "-e"], some (.choice (EngineChoice.all.map (·.name)))⟩

def timeoutOption : OptionForm := ⟨["--timeout"], some .number⟩

def jsonOption : OptionForm := ⟨["--json"], none⟩

def debugOption : OptionForm := ⟨["--debug"], none⟩

def outputOption : OptionForm := ⟨["--output", "-o"], some (.path ⟨false, true, false⟩)⟩

def globalOption : OptionForm := ⟨["--global"], none⟩

def programForm : CommandForm := ⟨"hsdef", [versionOption, helpOption], none, true⟩

def findForm : CommandForm :=
  { words := "hsdef find"
    options := [fileOption, atOption, rootOption, languageOption, engineOption, timeoutOption,
      jsonOption, debugOption, helpOption]
    argument := some ⟨"IDENTIFIER", false, .text⟩
    isGroup := false }

def dumpForm : CommandForm :=
  { words := "hsdef dump"
    options := [rootOption, languageOption, outputOption, debugOption, helpOption]
    argument := some ⟨"FILE_PATH", true, .path existingFile⟩
    isGroup := false }

def initForm : CommandForm :=
  { words := "hsdef init"
    options := [helpOption]
    argument := some ⟨"PATH", false, .path ⟨false, false, true⟩⟩
    isGroup := false }

def configForm : CommandForm :=
  { words := "hsdef config"
    options := [globalOption, helpOption]
    argument := none
    isGroup := false }

end DefinitionSite.CommandLine
