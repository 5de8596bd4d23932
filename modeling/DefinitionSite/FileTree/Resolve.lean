import DefinitionSite.FileTree.Basic

/-! The real path of a path: absolute, without `..` and without links. What does not exist stands as
it is, so every path has a real path, unless its links run in a circle or it holds the null
character. -/
namespace DefinitionSite.FileTree

/-- A step of resolving a path: a name, or the end of a link's target. -/
inductive Step where
  | name (s : String)
  | linkEnd
  deriving Repr, DecidableEq

def tidy (done : List String) : List String → List String
  | [] => done
  | name :: rest =>
    if name == "" || name == "." then tidy done rest
    else if name == ".." then tidy done.dropLast rest
    else tidy (done ++ [name]) rest

def namesOf (t : FileTree) (p : Path) : List String := tidy [] (t.start p ++ p.parts)

/-- A path after one step up; a relative one may lead above the directory it starts from. -/
def stepUp (p : Path) : Path :=
  if p.isAbsolute || p.parts.getLast?.any (· != "..") then p.parent else p.child ".."

/-- A path with the unread rest of a target put behind it. A rest that starts with a slash takes the
place of the path. -/
def behind (p : Path) : List String → Path
  | "" :: name :: rest => .absolute (name :: rest)
  | rest => { p with parts := p.parts ++ rest }

def putBack (p : Path) (target : List String) : List Step → Path
  | [] => behind p target
  | .name name :: rest => putBack p (target ++ [name]) rest
  | .linkEnd :: rest => putBack (behind p target) [] rest

/-- Works names off from a path without links. `active` are the links whose targets are being worked
off; one that comes up again runs in a circle, and the path is left as it stands there. -/
def realFrom (t : FileTree) (fuel : Nat) (active : List Path) (here : Path) : List Step → Path
  | [] => here
  | .linkEnd :: rest => t.realFrom fuel active.tail here rest
  | .name name :: rest =>
    if name == "" || name == "." then t.realFrom fuel active here rest
    else if name == ".." then t.realFrom fuel active (stepUp here) rest
    else
      match t.node? (t.namesOf (here.child name)) with
      | some (.link target) =>
        if active.contains (here.child name) then putBack (here.child name) [] rest
        else
          match fuel with
          | 0 => putBack (here.child name) [] rest
          | fuel + 1 =>
            let names := (Text.splitAt '/' target.toList).map String.ofList
            let start := if target.startsWith "/" then .absolute [] else here
            t.realFrom fuel (here.child name :: active) start (names.map .name ++ .linkEnd :: rest)
      | _ => t.realFrom fuel active (here.child name) rest
termination_by steps => (fuel, steps.length)

def resolveLimit : Nat := 1000

def resolve (t : FileTree) (p : Path) : Except PathFault Path :=
  let start : Path := if p.isAbsolute then .absolute [] else ⟨"", []⟩
  let real := Path.absolute (t.namesOf (t.realFrom resolveLimit [] start (p.parts.map .name)))
  if p.holdsNull then .error .holdsNull
  else
    match t.stat real with
    | .error .tooManyLinks => .error (.loop real.toString)
    | _ => .ok real

end DefinitionSite.FileTree
