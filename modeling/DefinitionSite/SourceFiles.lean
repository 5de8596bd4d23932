import DefinitionSite.FileTree.Basic
import DefinitionSite.Glob

/-! The source files below a directory: those whose name matches a pattern, without hidden ones and
without the directories to skip. A directory's own files come first, then its subdirectories, both
in name order. -/
namespace DefinitionSite

def defaultSkipDirs : List String :=
  [".git", ".stack-work", "__pycache__", "dist", "dist-newstyle", "node_modules"]

def defaultGlobs : List String := ["*.hs"]

def sortNames (names : List String) : List String := names.mergeSort fun a b => !decide (b < a)

namespace SourceFiles

/-- What to look for: which file names count, which directory names are skipped, and which links
lead to a directory. -/
structure Wanted where
  globs : List String
  skipDirs : List String
  leadsToDir : List String → Bool

def isHidden (name : String) : Bool := name.startsWith "."

def Wanted.takes (w : Wanted) (name : String) : Bool :=
  !isHidden name && w.globs.any (globMatches · name)

def Wanted.enters (w : Wanted) (name : String) : Bool :=
  !isHidden name && !w.skipDirs.contains name

/-- Whether an entry counts as a file: anything but a directory or a link to one. -/
def Wanted.isFile (w : Wanted) (here : List String) : String × Node → Bool
  | (_, .file _) => true
  | (_, .dir _) => false
  | (name, .link _) => !w.leadsToDir (here ++ [name])

mutual

/-- The files below an entry, as the names that lead from it to them. -/
def below (w : Wanted) (here : List String) : Node → List (List String)
  | .dir entries =>
    (sortNames ((entries.filter fun e => w.isFile here e && w.takes e.1).map (·.1))).map
      (fun name => [name]) ++
      ((branches w here entries).mergeSort fun a b => !decide (b.1 < a.1)).flatMap (·.2)
  | _ => []

def branches (w : Wanted) (here : List String) :
    List (String × Node) → List (String × List (List String))
  | [] => []
  | (name, node) :: rest =>
    if node.isDir && w.enters name then
      (name, (below w (here ++ [name]) node).map (name :: ·)) :: branches w here rest
    else branches w here rest

end

end SourceFiles

def FileTree.sourceFiles (t : FileTree) (root : Path) (globs skipDirs : List String) : List Path :=
  match t.stat root with
  | .error _ => []
  | .ok (real, node) =>
    let wanted : SourceFiles.Wanted :=
      { globs, skipDirs, leadsToDir := fun names => t.isDir (.absolute names) }
    (SourceFiles.below wanted real node).map fun names => ⟨root.root, root.parts ++ names⟩

def FileTree.listSourceFiles (t : FileTree) (root : Path) (globs skipDirs : List String) :
    Except PathFault (List Path) :=
  if root.holdsNull then .error .holdsNull else .ok (t.sourceFiles root globs skipDirs)

end DefinitionSite
