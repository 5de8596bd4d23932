import DefinitionSite.Environment
import DefinitionSite.FileTree.Edit
import DefinitionSite.FileTree.Resolve

/-! The project that is searched. Its root is given, or it is the nearest directory upwards that
holds a project marker. Below the root stands the project's own configuration. -/
namespace DefinitionSite

structure Workspace where
  root : Option Path
  deriving Repr, DecidableEq

def configDirName : String := ".hsdef"

def configFileName : String := "config.toml"

def rootMarkers : List String :=
  [configDirName, "cabal.project", "stack.yaml", "package.yaml", ".git"]

def isPackageFile (name : String) : Bool := name.endsWith ".cabal"

/-- Whether one of some entries of a directory exists. The first one that cannot be asked about ends
the question. -/
def FileTree.holdsAny (t : FileTree) (dir : Path) : List String → Except FileError Bool
  | [] => .ok false
  | name :: rest =>
    match t.unaskable? (dir.child name) with
    | some e => .error e
    | none => if t.exists? (dir.child name) then .ok true else t.holdsAny dir rest

/-- Whether a directory has an entry of any kind that is named like a package description. -/
def FileTree.holdsPackage (t : FileTree) (dir : Path) : Bool :=
  (t.stat dir).toOption.any fun
    | (_, .dir entries) => entries.any (isPackageFile ·.1)
    | _ => false

/-- Whether a directory is the root of a project: one of the markers exists in it, or it holds a
package. -/
def FileTree.isProjectRoot (t : FileTree) (dir : Path) : Except FileError Bool :=
  match t.holdsAny dir rootMarkers with
  | .error e => .error e
  | .ok marked => .ok (marked || t.holdsPackage dir)

def FileTree.firstProjectRoot (t : FileTree) : List Path → Except FileError (Option Path)
  | [] => .ok none
  | dir :: rest =>
    match t.isProjectRoot dir with
    | .error e => .error e
    | .ok true => .ok (some dir)
    | .ok false => t.firstProjectRoot rest

def Path.selfAndAbove (p : Path) : List Path :=
  (List.range (p.parts.length + 1)).map fun n => ⟨p.root, p.parts.take (p.parts.length - n)⟩

def FileTree.here (t : FileTree) : Path := .absolute t.cwd

namespace Workspace

def ofRoot (t : FileTree) (root : Path) : Except PathFault Workspace :=
  (t.resolve root).map fun p => ⟨some p⟩

/-- The workspace around a path: the path itself or the nearest directory above it that is the root
of a project. A file counts as its directory. -/
def discover (t : FileTree) (start : Path) : Except PathFault Workspace :=
  match t.resolve start with
  | .error f => .error f
  | .ok p =>
    match t.unaskable? p with
    | some e => .error (.file e)
    | none =>
      let dir := if t.isFile p then p.parent else p
      match t.firstProjectRoot dir.selfAndAbove with
      | .error e => .error (.file e)
      | .ok root => .ok ⟨root⟩

def configDir (w : Workspace) : Option Path := w.root.map (·.child configDirName)

def configFile (w : Workspace) : Option Path := w.configDir.map (·.child configFileName)

def shown (w : Workspace) (path : Path) : String :=
  ((w.root.bind path.relativeTo?).getD path).toString

def configTemplate : String :=
  "# hsdef local configuration\n" ++
  "# Overrides the global config for this project\n" ++
  "\n" ++
  "[search]\n" ++
  "# engine = \"ripgrep\"   # or \"python\"\n" ++
  "# timeout = 5.0\n" ++
  "\n" ++
  "[languages]\n" ++
  "# haskell = [\"*.hs\", \"*.lhs\"]\n" ++
  "\n" ++
  "[workspace]\n" ++
  "# skip_dirs = [\"dist-newstyle\", \".stack-work\"]\n"

inductive InitFault where
  | notDirectory (path : Path)
  | file (e : FileError)
  | path (f : PathFault)
  deriving Repr, DecidableEq

def InitFault.message : InitFault → String
  | .notDirectory p => "Not a directory: " ++ p.toString
  | .file e => e.message
  | .path f => f.message

structure Initialized where
  result : Except InitFault Path
  workspace : Workspace
  tree : FileTree

/-- Writes the configuration that a new workspace starts with, unless there is one. -/
def addConfig (t : FileTree) (file : Path) : Except FileError FileTree :=
  if t.exists? file then .ok t else t.writeText file configTemplate.toList

/-- Makes a workspace of a directory, which is made itself if it is missing. A configuration that is
there already stays as it is, and so does the workspace if a fault ends it. -/
def init (w : Workspace) (t : FileTree) (path : Path) : Initialized :=
  match t.resolve path with
  | .error f => ⟨.error (.path f), w, t⟩
  | .ok root =>
    match t.unaskable? root with
    | some e => ⟨.error (.file e), w, t⟩
    | none =>
      if t.exists? root && !t.isDir root then ⟨.error (.notDirectory root), w, t⟩
      else
        match t.makeDirs (root.child configDirName) with
        | (.error e, made) => ⟨.error (.file e), w, made⟩
        | (.ok (), made) =>
          match addConfig made ((root.child configDirName).child configFileName) with
          | .error e => ⟨.error (.file e), w, made⟩
          | .ok tree => ⟨.ok root, ⟨some root⟩, tree⟩

end Workspace

structure NoHome where
  deriving Repr, DecidableEq

def NoHome.message (_ : NoHome) : String := "Could not determine home directory."

/-- The home directory of the user, that of the account where none is set; slashes at its end do not
count. -/
def homeDir (env : Environment) : Except NoHome Path :=
  match (env.get? "HOME").or env.accountHome with
  | none => .error ⟨⟩
  | some given =>
    let home := given.toList.reverse.dropWhile (· == '/') |>.reverse
    if home.headD '/' == '~' then .error ⟨⟩
    else .ok (Path.ofString (if home.isEmpty then "/" else String.ofList home))

def globalConfigDir (platform : Platform) (env : Environment) : Except NoHome Path :=
  match platform, env.given? "APPDATA" with
  | .windows, some dir => .ok ((Path.ofString dir).child "hsdef")
  | _, _ => (homeDir env).map (·.child configDirName)

def globalConfigFile (platform : Platform) (env : Environment) : Except NoHome Path :=
  (globalConfigDir platform env).map (·.child configFileName)

end DefinitionSite
