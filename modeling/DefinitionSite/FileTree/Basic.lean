import DefinitionSite.Path
import DefinitionSite.Text.Lines
import DefinitionSite.Text.Quoted

/-! A file system as a value: files, directories and symbolic links below one root, and a current
directory. Looking a path up follows links the way an operating system does. -/
namespace DefinitionSite

inductive Node where
  | file (bytes : List UInt8)
  | dir (entries : List (String × Node))
  | link (target : String)

namespace Node

instance : Inhabited Node := ⟨.dir []⟩

def isDir : Node → Bool
  | .dir _ => true
  | _ => false

def child? (name : String) : Node → Option Node
  | .dir entries => (entries.find? (·.1 == name)).map (·.2)
  | _ => none

/-- The entry at the end of a list of names, no link followed. -/
def at? : List String → Node → Option Node
  | [], node => some node
  | name :: rest, node => (node.child? name).bind (at? rest)

end Node

/-- A file system and its current directory, whose names hold no link. -/
structure FileTree where
  top : Node
  cwd : List String
  deriving Inhabited

inductive FileFault where
  | notFound
  | exists
  | notDirectory
  | isDirectory
  | nameTooLong
  | tooManyLinks
  deriving Repr, DecidableEq

def FileFault.code : FileFault → Nat
  | .notFound => 2
  | .exists => 17
  | .notDirectory => 20
  | .isDirectory => 21
  | .nameTooLong => 36
  | .tooManyLinks => 40

def FileFault.reason : FileFault → String
  | .notFound => "No such file or directory"
  | .exists => "File exists"
  | .notDirectory => "Not a directory"
  | .isDirectory => "Is a directory"
  | .nameTooLong => "File name too long"
  | .tooManyLinks => "Too many levels of symbolic links"

structure FileError where
  fault : FileFault
  path : String
  deriving Repr, DecidableEq

def FileError.message (e : FileError) : String :=
  "[Errno " ++ toString e.fault.code ++ "] " ++ e.fault.reason ++ ": " ++ Text.quotedString e.path

inductive PathFault where
  | loop (path : String)
  | holdsNull
  /-- It cannot even be asked whether there is anything. -/
  | file (e : FileError)
  deriving Repr, DecidableEq

def PathFault.message : PathFault → String
  | .loop path => "Symlink loop from " ++ Text.quotedString path
  | .holdsNull => "embedded null byte"
  | .file e => e.message

namespace FileTree

/-- The most bytes that a name may have. -/
def nameLimit : Nat := 255

/-- The most bytes that a whole path may have. -/
def pathLimit : Nat := 4095

def isTooLong (name : String) : Bool := decide (nameLimit < name.utf8ByteSize)

/-- How many links one look-up may follow. -/
def linkLimit : Nat := 40

/-- The entry with exactly these names, no link followed. -/
def node? (t : FileTree) (names : List String) : Option Node := t.top.at? names

/-- Where a target leads from a directory. -/
def targetFrom (here : List String) (target : String) : List String × List String :=
  let names := (Text.splitAt '/' target.toList).map String.ofList
  if target.startsWith "/" then ([], names) else (here, names)

/-- Looks names up from a directory, following links: the real names of the entry and the entry
itself. A link at the end is followed on demand. -/
def walk (t : FileTree) (links : Nat) (followLast : Bool) (here : List String) :
    List String → Except FileFault (List String × Node)
  | [] =>
    match t.node? here with
    | some node => .ok (here, node)
    | none => .error .notFound
  | name :: rest =>
    match t.node? here with
    | some (.dir entries) =>
      if name == "" || name == "." then t.walk links followLast here rest
      else if name == ".." then t.walk links followLast here.dropLast rest
      else if isTooLong name then .error .nameTooLong
      else
        match Node.child? name (.dir entries) with
        | none => .error .notFound
        | some (.link target) =>
          if rest.isEmpty && !followLast then .ok (here ++ [name], .link target)
          else
            match links with
            | 0 => .error .tooManyLinks
            | links + 1 =>
              let (start, names) := targetFrom here target
              t.walk links followLast start (names ++ rest)
        | some _ => t.walk links followLast (here ++ [name]) rest
    | some _ => .error .notDirectory
    | none => .error .notFound
termination_by names => (links, names.length)

def start (t : FileTree) (p : Path) : List String := if p.isAbsolute then [] else t.cwd

def stat (t : FileTree) (p : Path) : Except FileFault (List String × Node) :=
  t.walk linkLimit true (t.start p) p.parts

/-- The entry a string leads to when it is taken as it is: a slash at its end asks for a
directory, and the empty string leads nowhere. -/
def statString (t : FileTree) (s : String) : Except FileFault (List String × Node) :=
  if s.isEmpty then .error .notFound
  else
    let names := (Text.splitAt '/' s.toList).map String.ofList
    let asked := if s.endsWith "/" then names ++ ["."] else names
    t.walk linkLimit true (if s.startsWith "/" then [] else t.cwd) asked

def exists? (t : FileTree) (p : Path) : Bool := (t.stat p).toOption.isSome

def unaskable? (t : FileTree) (p : Path) : Option FileError :=
  match t.stat p with
  | .error .nameTooLong => some ⟨.nameTooLong, p.toString⟩
  | _ => none

def isDir (t : FileTree) (p : Path) : Bool := (t.stat p).toOption.any (·.2.isDir)

/-- Whether a path leads to a directory, asked before what is in it is listed. A path with the null
character leads nowhere; one that is too long, or one of whose names is, cannot be asked about. The
length of a whole path is looked at here alone. -/
def askDir (t : FileTree) (p : Path) : Except FileError Bool :=
  if p.holdsNull then .ok false
  else if pathLimit < p.toString.utf8ByteSize then .error ⟨.nameTooLong, p.toString⟩
  else
    match t.unaskable? p with
    | some e => .error e
    | none => .ok (t.isDir p)

def isFile (t : FileTree) (p : Path) : Bool :=
  (t.stat p).toOption.any fun
    | (_, .file _) => true
    | _ => false

def readBytes (t : FileTree) (p : Path) : Except FileError (List UInt8) :=
  match t.stat p with
  | .ok (_, .file bytes) => .ok bytes
  | .ok _ => .error ⟨.isDirectory, p.toString⟩
  | .error fault => .error ⟨fault, p.toString⟩

/-- The text of bytes as source files are read: invalid bytes dropped, every line break a line
feed. -/
def sourceText (bytes : List UInt8) : Text := Text.normalizeBreaks (Text.decodeDropping bytes)

def readText (t : FileTree) (p : Path) : Except FileError Text := (t.readBytes p).map sourceText

end FileTree
end DefinitionSite
