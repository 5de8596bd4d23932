import DefinitionSite.Text.Raw

/-! File paths: a root and the names below it. A path keeps `..`, and drops `.` and repeated
slashes. -/
namespace DefinitionSite

/-- A path. The root is empty for a relative path, and else one slash or two. -/
structure Path where
  root : String
  parts : List String
  deriving Repr, DecidableEq, Inhabited

namespace Path

def names (text : Text) : List String :=
  ((Text.splitAt '/' text).map String.ofList).filter fun name => name != "" && name != "."

/-- The root that leading slashes stand for: two are kept, more count as one. -/
def rootOf (text : Text) : String :=
  match (text.takeWhile (· == '/')).length with
  | 0 => ""
  | 2 => "//"
  | _ => "/"

def ofString (s : String) : Path := ⟨rootOf s.toList, names s.toList⟩

def absolute (parts : List String) : Path := ⟨"/", parts⟩

def toString (p : Path) : String :=
  if p.root.isEmpty && p.parts.isEmpty then "." else p.root ++ "/".intercalate p.parts

def isAbsolute (p : Path) : Bool := !p.root.isEmpty

def holdsNull (p : Path) : Bool := p.parts.any fun name => name.toList.contains '\x00'

def join (p q : Path) : Path := if q.isAbsolute then q else ⟨p.root, p.parts ++ q.parts⟩

def child (p : Path) (name : String) : Path := ⟨p.root, p.parts ++ [name]⟩

def parent (p : Path) : Path := ⟨p.root, p.parts.dropLast⟩

def relativeTo? (p base : Path) : Option Path :=
  if p.root == base.root && base.parts.isPrefixOf p.parts then
    some ⟨"", p.parts.drop base.parts.length⟩
  else none

def byteNames : List UInt8 → List (List UInt8)
  | [] => [[]]
  | b :: rest =>
    match byteNames rest with
    | [] => [[b]]
    | name :: names => if b == 47 then [] :: name :: names else (b :: name) :: names

/-- The path that a name spells. A component that is no valid text is kept behind a slash, which no
real component holds: it names no file and is like no other component. -/
def ofRaw : RawText → Path
  | .text s => ofString s
  | .bytes bytes =>
    let part := fun b =>
      match RawText.ofBytes b with
      | .text s => s
      | .bytes b => "/" ++ ",".intercalate (b.map fun n => ToString.toString n.toNat)
    let slashes := (bytes.takeWhile (· == 47)).length
    ⟨if slashes == 0 then "" else if slashes == 2 then "//" else "/",
      ((byteNames bytes).map part).filter fun name => name != "" && name != "."⟩

end Path
end DefinitionSite
