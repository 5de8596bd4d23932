import DefinitionSite.LineScan
import DefinitionSite.Search
import DefinitionSite.SourceFiles

/-! The line scan over files: the best definition of each file below a directory. -/
namespace DefinitionSite.LineScan

def scanFile (tree : FileTree) (identifier : Text) (path : Path) (run : Run) : Option Match × Run :=
  match tree.readText path with
  | .error e =>
    (none, run.say .warning ("Error reading file " ++ path.toString ++ ": " ++ e.message))
  | .ok text => (Match.best (scan identifier text (.name (.text path.toString))), run)

/-- The best definition in the file that a path names. -/
def scanNamed (tree : FileTree) (identifier : Text) (path : Path) (run : Run) :
    Except PathFault (Option Match) × Run :=
  if path.holdsNull then (.error .holdsNull, run)
  else
    let (found, run) := scanFile tree identifier path run
    (.ok found, run)

/-- The best definition of each file; a scan that is cancelled finds nothing. -/
def scanFiles (tree : FileTree) (identifier : Text) (found : List Match) (run : Run) :
    List Path → List Match × Run
  | [] => (found, run)
  | path :: rest =>
    if run.cancelled then ([], run.say .debug "Fallback scan cancelled")
    else
      match scanFile tree identifier path run with
      | (none, run) => scanFiles tree identifier found run.tick rest
      | (some m, run) =>
        let run := run.say .debug
          ("Found " ++ m.kind.name ++ " in " ++ path.toString ++ " at line " ++
          toString (m.lineIndex + 1))
        scanFiles tree identifier (found ++ [m]) run.tick rest

/-- Why the files below a root are not scanned: it is no directory, or it cannot be asked about. -/
inductive ScanFault where
  | notDirectory (root : Path)
  | unaskable (e : FileError)
  deriving Repr, DecidableEq

def ScanFault.message : ScanFault → String
  | .notDirectory root => "Workspace root is not a directory: " ++ root.toString
  | .unaskable e => e.message

/-- The best definition of each source file below a directory, in enumeration order. -/
def scanDirectory (tree : FileTree) (identifier : Text) (root : Path)
    (globs skipDirs : List String) (run : Run) : Except ScanFault (List Match) × Run :=
  match tree.askDir root with
  | .error e => (.error (.unaskable e), run)
  | .ok false => (.error (.notDirectory root), run)
  | .ok true =>
    let (found, run) := scanFiles tree identifier [] run (tree.sourceFiles root globs skipDirs)
    (.ok found, run)

end DefinitionSite.LineScan
