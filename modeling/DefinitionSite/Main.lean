import DefinitionSite.CommandLine.Run
import DefinitionSite.Moment
import Std.Time

/-! The program. It looks at the real file system once, runs the command on what it saw, and then
prints what there is to print and writes what changed. -/
namespace DefinitionSite.Program

/-- How deep below a directory files are looked at. -/
def maxDepth : Nat := 64

/-- Whether only the presence of a directory counts, and not what it holds. -/
def isClosed (name : String) : Bool := name.startsWith "." && name != configDirName

/-- Reads an entry of the file system and, down to a depth, what is below it. What cannot be read
counts as empty, and so do files if only the names count. -/
def readNode (namesOnly : Bool) : Nat → IO.FS.DirEntry → IO Node
  | 0, _ => return .dir []
  | depth + 1, entry => do
    match (← entry.path.symlinkMetadata).type with
    | .dir =>
      if depth == 0 || isClosed entry.fileName then return .dir []
      let below ← try entry.path.readDir catch _ => pure #[]
      let nodes ← below.toList.mapM fun e => do return (e.fileName, ← readNode namesOnly depth e)
      return .dir nodes
    | .symlink =>
      let target ← try pure (← IO.FS.realPath entry.path).toString catch _ => pure ""
      return .link target
    | _ =>
      if namesOnly then return .file []
      let bytes ← try IO.FS.readBinFile entry.path catch _ => pure ByteArray.empty
      return .file bytes.toList

def mount (namesOnly : Bool) (depth : Nat) (top : Node) (names : List String) : IO Node := do
  let entry : IO.FS.DirEntry := ⟨"/", "/".intercalate names⟩
  if !(← entry.path.pathExists) then return top
  let node ← try readNode namesOnly depth entry catch _ => pure (.dir [])
  let parents := (List.range names.length).map fun n => names.take n
  let made := parents.foldl
    (fun top names => if (top.at? names).isSome then top else Node.put (.dir []) names top) top
  return Node.put node names made

def namesFrom (cwd : Path) (given : String) : List String :=
  FileTree.tidy [] (cwd.join (.ofString given)).parts

/-- What is looked at in full for a place: the project around it, or else the place itself. -/
def rootOf (tree : FileTree) (place : List String) : List String :=
  match Workspace.discover tree (.absolute place) with
  | .ok ⟨some root⟩ => root.parts
  | _ => place

/-- Looks at the file system: first at the names in all directories on the way to the current
directory and to the paths among the arguments, then at their projects in full, and at the
configuration of the user. -/
def look (cwd : Path) (home : String) (arguments : List String) : IO FileTree := do
  let places := cwd.parts :: (arguments.filter (!·.startsWith "-")).map (namesFrom cwd)
  let above := (places.flatMap fun p => (Path.absolute p).selfAndAbove.map (·.parts)).eraseDups
  let outerFirst := above.mergeSort fun a b => a.length ≤ b.length
  let names ← outerFirst.foldlM (mount true 2) (Node.dir [])
  let roots := (places.map (rootOf ⟨names, cwd.parts⟩)).eraseDups
  let full ← roots.foldlM (mount false maxDepth) names
  let top ← mount false 3 full (namesFrom cwd (home ++ "/" ++ configDirName))
  return ⟨top, cwd.parts⟩

def save (before after : FileTree) : IO Unit := do
  let old := before.top.files []
  for (names, bytes) in after.top.files [] do
    unless old.contains (names, bytes) do
      IO.FS.createDirAll ("/" ++ "/".intercalate names.dropLast)
      IO.FS.writeBinFile ("/" ++ "/".intercalate names) ⟨bytes.toArray⟩

def askedVariables : List String :=
  ["HOME", "HSDEF_ENGINE", "HSDEF_RG_PATH", "HSDEF_SEARCH_TIMEOUT", "HSDEF_MAX_WORKERS",
    "HSDEF_DEBUG"]

def accountHome : IO (Option String) := do
  let status ← try IO.FS.readFile "/proc/self/status" catch _ => pure ""
  let accounts ← try IO.FS.readFile "/etc/passwd" catch _ => pure ""
  let user := (status.splitOn "\n").findSome? fun line =>
    match line.splitOn "\t" with
    | "Uid:" :: user :: _ => some user
    | _ => none
  return user.bind fun user => (accounts.splitOn "\n").findSome? fun line =>
    match line.splitOn ":" with
    | [_, _, number, _, _, home, _] => if number == user then some home else none
    | _ => none

def readEnvironment : IO Environment := do
  let values ← askedVariables.mapM fun name => do return (← IO.getEnv name).map fun v => (name, v)
  return ⟨values.filterMap id, ← accountHome⟩

def currentMoment : IO Moment := do
  let t ← Std.Time.PlainDateTime.now
  return { date := ⟨t.year.toInt.toNat, t.month.val.toNat, t.day.val.toNat⟩
           clock := ⟨t.hour.val.toNat, t.minute.val.toNat, t.second.val.toNat,
             t.nanosecond.val.toNat / 1000⟩
           offset := none }

end DefinitionSite.Program

open DefinitionSite DefinitionSite.Program in
def main (arguments : List String) : IO UInt32 := do
  let env ← readEnvironment
  let cwd := Path.ofString (← IO.currentDir).toString
  let tree ← look cwd (((env.get? "HOME").or env.accountHome).getD "/") arguments
  let machine : CommandLine.Machine :=
    { tree, env, platform := .posix, versionRun := none
      now := (← currentMoment).textWith "T" }
  let outcome := CommandLine.run machine arguments
  IO.print outcome.stdout
  IO.eprint outcome.stderr
  if let some fault := outcome.raised then IO.eprintln fault.message
  save tree outcome.tree
  return outcome.exitCode.toUInt32
