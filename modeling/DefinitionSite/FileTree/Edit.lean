import DefinitionSite.FileTree.Basic

/-! Changing a file system: making directories and writing files. -/
namespace DefinitionSite

namespace Node

def putEntry (entries : List (String × Node)) (name : String) (node : Node) :
    List (String × Node) :=
  if entries.any (·.1 == name) then
    entries.map fun e => if e.1 == name then (name, node) else e
  else entries ++ [(name, node)]

/-- The tree with an entry put at the end of a list of names; it stays as it is where the names on
the way are no directories. -/
def put (new : Node) : List String → Node → Node
  | [], _ => new
  | name :: rest, .dir entries =>
    match rest, Node.child? name (.dir entries) with
    | [], _ => .dir (putEntry entries name new)
    | _ :: _, some child => .dir (putEntry entries name (put new rest child))
    | _ :: _, none => .dir entries
  | _ :: _, node => node

mutual

def files (here : List String) : Node → List (List String × List UInt8)
  | .file bytes => [(here, bytes)]
  | .dir entries => filesIn here entries
  | .link _ => []

def filesIn (here : List String) : List (String × Node) → List (List String × List UInt8)
  | [] => []
  | (name, node) :: rest => files (here ++ [name]) node ++ filesIn here rest

end

end Node

namespace FileTree

def putAt (t : FileTree) (names : List String) (node : Node) : FileTree :=
  { t with top := Node.put node names t.top }

def makeDir (t : FileTree) (p : Path) : Except FileError FileTree :=
  match t.walk linkLimit false (t.start p) p.parts with
  | .ok _ => .error ⟨.exists, p.toString⟩
  | .error .notFound =>
    match p.parts.getLast?, t.walk linkLimit true (t.start p) p.parts.dropLast with
    | some name, .ok (parent, .dir _) =>
      if name == ".." then .error ⟨.notFound, p.toString⟩
      else .ok (t.putAt (parent ++ [name]) (.dir []))
    | _, .ok _ => .error ⟨.notDirectory, p.toString⟩
    | _, .error fault => .error ⟨fault, p.toString⟩
  | .error fault => .error ⟨fault, p.toString⟩

def ensureDir (t : FileTree) (p : Path) : Except FileError Unit × FileTree :=
  match t.makeDir p with
  | .ok made => (.ok (), made)
  | .error e => if t.isDir p then (.ok (), t) else (.error e, t)

/-- Makes a directory and those above it that are missing; one that is there already is left as it
is, and what was made before a fault stays. `depth` bounds how many are missing. -/
def makeDirsUpTo (t : FileTree) (p : Path) : Nat → Except FileError Unit × FileTree
  | 0 => t.ensureDir p
  | depth + 1 =>
    match t.makeDir p with
    | .ok made => (.ok (), made)
    | .error e =>
      if e.fault == .notFound && !p.parts.isEmpty then
        match t.makeDirsUpTo p.parent depth with
        | (.ok (), made) => made.ensureDir p
        | (.error e, made) => (.error e, made)
      else if t.isDir p then (.ok (), t)
      else (.error e, t)

def makeDirs (t : FileTree) (p : Path) : Except FileError Unit × FileTree :=
  t.makeDirsUpTo p p.parts.length

def namesDir (name : String) : Bool := name == "" || name == "." || name == ".."

/-- The place at which writing to a path creates or replaces a file. A link at its end is followed,
and a target that ends in a slash asks for a directory, which cannot be written to. -/
def placeToWrite (t : FileTree) (links : Nat) (here : List String) (names : List String) :
    Except FileFault (List String) :=
  let asked := (names.reverse.dropWhile (· == "")).reverse
  match asked.getLast?, t.walk linkLimit true here asked.dropLast with
  | none, _ => .error .isDirectory
  | some _, .error fault => .error fault
  | some name, .ok (parent, .dir _) =>
    if namesDir name || asked.length < names.length then .error .isDirectory
    else if isTooLong name then .error .nameTooLong
    else
      match t.node? (parent ++ [name]), links with
      | none, _ => .ok (parent ++ [name])
      | some (.file _), _ => .ok (parent ++ [name])
      | some (.dir _), _ => .error .isDirectory
      | some (.link _), 0 => .error .tooManyLinks
      | some (.link target), links + 1 =>
        let (start, names) := targetFrom parent target
        t.placeToWrite links start names
  | some _, .ok _ => .error .notDirectory
termination_by links

def writeBytes (t : FileTree) (p : Path) (bytes : List UInt8) : Except FileError FileTree :=
  match t.placeToWrite linkLimit (t.start p) p.parts with
  | .ok real => .ok (t.putAt real (.file bytes))
  | .error fault => .error ⟨fault, p.toString⟩

def writeText (t : FileTree) (p : Path) (text : Text) : Except FileError FileTree :=
  t.writeBytes p (Text.encode text)

end FileTree
end DefinitionSite
