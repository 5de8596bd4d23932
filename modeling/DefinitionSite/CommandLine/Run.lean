import DefinitionSite.CommandLine.Command
import DefinitionSite.Dump
import DefinitionSite.Json.Writer
import DefinitionSite.Position
import DefinitionSite.Settings.Load
import DefinitionSite.Style

/-! Running a command: what it prints, how it ends, and what it leaves in the file system. -/
namespace DefinitionSite.CommandLine

/-- Where a command runs: the file system and the environment, how the external program answers when
it is asked for its version (it does not exist, unless something is said), and the moment in words.
-/
structure Machine where
  tree : FileTree
  env : Environment
  platform : Platform
  versionRun : Option Ripgrep.Behaviour
  now : String

inductive CommandFault where
  | load (f : LoadFault)
  | file (e : FileError)
  | path (f : PathFault)
  | location (f : LocationFault)
  | unwritable (e : Decimal.TooManyDigits)

def CommandFault.message : CommandFault → String
  | .load f => f.message
  | .file e => e.message
  | .path f => f.message
  | .location f => f.message
  | .unwritable e => e.message

/-- How a command ended: its exit code, what it printed, the fault that ended it, and the file
system after it. -/
structure Outcome where
  exitCode : Nat
  stdout : String
  stderr : String
  raised : Option CommandFault
  tree : FileTree

namespace Outcome

def printed (tree : FileTree) (stdout : String) : Outcome := ⟨0, plain stdout, "", none, tree⟩

def failed (tree : FileTree) (exitCode : Nat) (stderr : String) : Outcome :=
  ⟨exitCode, "", plain stderr, none, tree⟩

def ofFault (tree : FileTree) (fault : CommandFault) : Outcome := ⟨1, "", "", some fault, tree⟩

def refused (tree : FileTree) (form : CommandForm) (fault : UsageFault) : Outcome :=
  failed tree 2 (Refusal.text ⟨form, fault⟩)

def after (err : String) (o : Outcome) : Outcome := { o with stderr := err ++ o.stderr }

end Outcome

/-- The name of a level in the log, padded to a width of eight. -/
def levelName : LogLevel → String
  | .debug => "DEBUG   "
  | .info => "INFO    "
  | .warning => "WARNING "

/-- A log as it is printed: everything, or warnings alone. -/
def logText (verbose : Bool) (log : Log) : String :=
  String.join ((log.filter fun line => verbose || line.level == .warning).map fun line =>
    levelName line.level ++ " | " ++ Dump.shownName line.message ++ "\n")

/-- The workspace to search: the given root, or the project around the file or the current
directory, or else the current directory. -/
def openWorkspace (tree : FileTree) (root file : Option Path) :
    Except PathFault Workspace := do
  match root with
  | some root => Workspace.ofRoot tree root
  | none =>
    let found ← Workspace.discover tree ((file.map Path.parent).getD tree.here)
    if found.root.isSome then return found else Workspace.ofRoot tree tree.here

structure Prepared where
  configuration : Configuration
  verbose : Bool

/-- Loads the settings and prints what is said about them. They may ask themselves to log
everything, which counts after they are loaded. -/
def prepare (m : Machine) (workspace : Option Workspace) (debug : Bool) :
    Except LoadFault Prepared × String :=
  let (result, log) := Configuration.load m.tree m.platform m.env workspace
  (result.map fun c => ⟨c, debug || c.settings.debug⟩, logText debug log)

def locatorFor (tree : FileTree) (s : Settings) : Locator :=
  { tree, engine := s.engineSetup.engine tree, skipDirs := s.skipDirs }

inductive AskFault where
  | usage (f : UsageFault)
  | file (e : FileError)

/-- The identifier to locate: the one at the position, or else the one that is named. -/
def identifierOf (tree : FileTree) (o : FindOptions) : Except AskFault Text := do
  match o.position.filter (!·.isEmpty) with
  | none =>
    match o.identifier.filter (!·.isEmpty) with
    | none => throw (.usage .nothingAsked)
    | some name => return name.toList
  | some position =>
    match o.file with
    | none => throw (.usage .fileNeeded)
    | some file =>
      let p ← (Position.read position).mapError fun f => .usage (.badValue "--at" f.message)
      let text ← (tree.readText file).mapError .file
      match Identifier.at? text p.line p.column with
      | none => throw (.usage (.noIdentifierAt position file))
      | some name => return name

def labelJson : FileLabel → Json
  | .name t => .str (Dump.shownName t)
  | .value v => v

/-- A location as JSON; its line counts from 1. -/
def locationJson (l : Location) : Json :=
  .obj [("file", labelJson l.file), ("line", .int (l.lineIndex + 1)), ("length", .int l.length),
    ("text", .str (String.ofList l.text))]

def locationLines (workspace : Workspace) (locations : List Location) : String :=
  String.join (locations.map fun l =>
    resultLine false (workspace.shown (.ofString (Dump.shownName l.file.shown))) (l.lineIndex + 1)
      (String.ofList l.text) ++ "\n")

/-- Prints what was located; finding nothing is a failure. -/
def showLocations (tree : FileTree) (workspace : Workspace) (identifier : Text) (json : Bool)
    (locations : List Location) : Outcome :=
  if json then
    { Outcome.printed tree ((Json.arr (locations.map locationJson)).written ++ "\n") with
      exitCode := if locations.isEmpty then 1 else 0 }
  else if locations.isEmpty then
    let told := Tone.dim.paint false
      ("No definition found for '" ++ String.ofList identifier ++ "'")
    .failed tree 1 (told ++ "\n")
  else .printed tree (locationLines workspace locations)

def overridden (s : Settings) (o : FindOptions) : Settings :=
  { s with engine := o.engine.getD s.engine, timeout := o.timeout.getD s.timeout }

def findIn (m : Machine) (o : FindOptions) (workspace : Workspace) (identifier : Text)
    (p : Prepared) : Outcome :=
  let settings := overridden p.configuration.settings o
  let look : Except CommandFault (Option Text × Option Path) :=
    match o.file with
    | none => .ok (none, none)
    | some file => do
      let text ← (m.tree.readText file).mapError .file
      let real ← (m.tree.resolve file).mapError .path
      return (some text, some real)
  match look with
  | .error f => .ofFault m.tree f
  | .ok (buffer, file) =>
    let request : Request :=
      { identifier := some identifier
        buffer
        root := workspace.root
        globs := some (settings.globsFor o.language)
        currentFile := file.map Path.toString }
    let (result, run) := (locatorFor m.tree settings).locate request .fresh
    let told := logText p.verbose run.log
    Outcome.after told <|
      match result with
      | .error (.location f) => .ofFault m.tree (.location f)
      | .error .noRoot =>
        .failed m.tree 2 (Tone.red.paint false LocateFault.noRoot.message ++ "\n")
      | .ok locations => showLocations m.tree workspace identifier o.json locations

def find (m : Machine) (o : FindOptions) : Outcome :=
  match identifierOf m.tree o with
  | .error (.usage f) => .refused m.tree findForm f
  | .error (.file e) => .ofFault m.tree (.file e)
  | .ok identifier =>
    match openWorkspace m.tree o.root o.file with
    | .error f => .ofFault m.tree (.path f)
    | .ok workspace =>
      match prepare m (some workspace) o.debug with
      | (.error f, told) => (Outcome.ofFault m.tree (.load f)).after told
      | (.ok p, told) => (findIn m o workspace identifier p).after told

def deliver (m : Machine) (output : Option Path) (report : String) : Outcome :=
  match output with
  | none => .printed m.tree (report ++ "\n")
  | some path =>
    match m.tree.writeText path report.toList with
    | .error e => .ofFault m.tree (.file e)
    | .ok tree =>
      .printed tree
        (Tone.green.paint false ("Definition dump written to " ++ path.toString) ++ "\n")

def dumpIn (m : Machine) (o : DumpOptions) (workspace : Workspace) (p : Prepared) : Outcome :=
  let settings := p.configuration.settings
  match m.tree.resolve o.file with
  | .error f => .ofFault m.tree (.path f)
  | .ok file =>
    let run := Run.fresh.say .info ("Starting definition dump for " ++ o.file.toString)
    let (result, run) := Dump.collect (locatorFor m.tree settings) file workspace.root
      (some (settings.globsFor o.language)) run
    Outcome.after (logText p.verbose run.log) <|
      match result with
      | .error (.path f) => .ofFault m.tree (.path f)
      | .error (.file e) => .ofFault m.tree (.file e)
      | .error (.location f) => .ofFault m.tree (.location f)
      | .ok d => deliver m o.output (d.render o.file m.now)

def dump (m : Machine) (o : DumpOptions) : Outcome :=
  match openWorkspace m.tree o.root (some o.file) with
  | .error f => .ofFault m.tree (.path f)
  | .ok workspace =>
    match prepare m (some workspace) o.debug with
    | (.error f, told) => (Outcome.ofFault m.tree (.load f)).after told
    | (.ok p, told) => (dumpIn m o workspace p).after told

/-- Makes a workspace, unless it has a configuration already. -/
def init (m : Machine) (path : Option Path) : Outcome :=
  let path := path.getD m.tree.here
  match Workspace.ofRoot m.tree path with
  | .error f => .ofFault m.tree (.path f)
  | .ok workspace =>
    let shown := fun (w : Workspace) => (w.root.map Path.toString).getD ""
    match workspace.configFile.bind m.tree.unaskable? with
    | some e => .ofFault m.tree (.file e)
    | none =>
      if workspace.configFile.any m.tree.exists? then
        .printed m.tree ("Workspace already initialized at: " ++ shown workspace ++ "\n")
      else
        let made := workspace.init m.tree path
        match made.result with
        | .error (.notDirectory p) =>
          .failed made.tree 1 ("Error: " ++ (Workspace.InitFault.notDirectory p).message ++ "\n")
        | .error (.file e) => .ofFault made.tree (.file e)
        | .error (.path f) => .ofFault made.tree (.path f)
        | .ok _ =>
          .printed made.tree ("Workspace initialized at: " ++ shown made.workspace ++ "\nEdit " ++
            (made.workspace.configFile.map Path.toString).getD "" ++ " to configure searches.\n")

/-- Why the external program does not start where nothing is said about it: it does not exist, or
what its path leads to is no program. -/
def startError (tree : FileTree) (executable : String) : Ripgrep.StartError :=
  let named := fun (code : Int) (reason : String) =>
    (⟨code, reason ++ ": " ++ Text.quotedString executable⟩ : Ripgrep.StartError)
  let missing := named FileFault.notFound.code FileFault.notFound.reason
  if !executable.toList.contains '/' then missing
  else
    match tree.statString executable with
    | .ok _ => named 13 "Permission denied"
    | .error fault => named fault.code fault.reason

def versionLine (m : Machine) (executable : String) : Except PathFault String :=
  let behaviour := m.versionRun.getD
    { Ripgrep.Behaviour.quiet with startError := some (startError m.tree executable) }
  if m.versionRun.isNone && executable.toList.contains '\x00' then .error .holdsNull
  else
    match Ripgrep.version behaviour executable 5.0 with
    | .ok version => .ok ("ripgrep: " ++ String.ofList version)
    | .error f =>
      .ok ("ripgrep unavailable (" ++ f.message ++ "); the fallback line scan will be used")

def showSettings (m : Machine) (c : Configuration) (globalFile : Path) : Outcome :=
  match c.info globalFile.toString with
  | .error e => .ofFault m.tree (.unwritable e)
  | .ok info =>
    let printed := info ++ "\n"
    if c.settings.engine == .ripgrep then
      match versionLine m c.settings.ripgrepPath with
      | .error f => { Outcome.ofFault m.tree (.path f) with stdout := plain printed }
      | .ok version => .printed m.tree (printed ++ "\n" ++ version ++ "\n")
    else .printed m.tree printed

def config (m : Machine) (globalOnly : Bool) : Outcome :=
  let workspace : Except PathFault (Option Workspace) :=
    if globalOnly then .ok none else (Workspace.discover m.tree m.tree.here).map some
  match workspace with
  | .error f => .ofFault m.tree (.path f)
  | .ok workspace =>
    match prepare m workspace false, globalConfigFile m.platform m.env with
    | (.error f, told), _ => (Outcome.ofFault m.tree (.load f)).after told
    | _, .error e => .ofFault m.tree (.load (.noHome e))
    | (.ok p, told), .ok globalFile => (showSettings m p.configuration globalFile).after told

def versionText : String := "hsdef, version 0.1.0\n"

def Command.run (m : Machine) : Command → Outcome
  | .help form => .printed m.tree (form.usage ++ "\n")
  | .version => .printed m.tree versionText
  | .find o => CommandLine.find m o
  | .dump o => CommandLine.dump m o
  | .init path => CommandLine.init m path
  | .config globalOnly => CommandLine.config m globalOnly

def run (m : Machine) (arguments : List String) : Outcome :=
  match read m.tree arguments with
  | .error ⟨form, fault⟩ =>
    match fault with
    | .badPath f => .ofFault m.tree (.path f)
    | fault => .refused m.tree form fault
  | .ok command => command.run m

end DefinitionSite.CommandLine
