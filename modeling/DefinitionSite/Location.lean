import DefinitionSite.Decimal.Written
import DefinitionSite.FileTree.Resolve
import DefinitionSite.Match
import DefinitionSite.Search

/-! Where to jump: the locations that matches stand for, one for each place, in file order. -/
namespace DefinitionSite

/-- A place to jump to; its line counts from 0, and its length is that of the text. -/
structure Location where
  file : FileLabel
  lineIndex : Int
  length : Nat
  text : Text

inductive LocationFault where
  | search (f : SearchFault)
  | shape (f : ShapeFault)
  | path (f : PathFault)

def LocationFault.message : LocationFault → String
  | .search f => f.message
  | .shape f => f.message
  | .path f => f.message

def FileLabel.shown : FileLabel → RawText
  | .name t => t
  | .value (.bool b) => if b then "True" else "False"
  | .value (.int n) => toString n
  | .value (.float x) => Decimal.text x
  | .value v => v.typeName

namespace Location

def ofMatchIn (file : FileLabel) (m : Match) : Location :=
  ⟨file, m.lineIndex, m.text.length, m.text⟩

def ofMatch (m : Match) : Location := ofMatchIn m.file m

/-- The real path of a label, by which two names of one file are told to be the same. -/
def keyOf (tree : FileTree) : FileLabel → Except LocationFault Path
  | .name t =>
    match tree.resolve (.ofRaw t) with
    | .ok p => .ok p
    | .error f => .error (.path f)
  | .value v => .error (.shape (.pathNeeded v))

def isIn (tree : FileTree) (excluded : Option Path) (m : Match) : Except LocationFault Bool :=
  match excluded with
  | none => .ok false
  | some path => (keyOf tree m.file).map (· == path)

def samePlace (a b : Match) : Bool := a.file.same b.file && a.lineIndex == b.lineIndex

/-- The matches that are not in the excluded file, each place once; `seen` are the places before. -/
def distinct (tree : FileTree) (excluded : Option Path) (seen : List Match) :
    List Match → Except LocationFault (List Match) × List Match
  | [] => (.ok [], [])
  | m :: rest =>
    match isIn tree excluded m with
    | .error f => (.error f, [])
    | .ok true => distinct tree excluded seen rest
    | .ok false =>
      if seen.any (samePlace m) then distinct tree excluded seen rest
      else
        let (result, said) := distinct tree excluded (m :: seen) rest
        (result.map (m :: ·), m :: said)

def firstUnordered : List Location → Option (Location × Location)
  | [] => none
  | [_] => none
  | a :: b :: rest => if a.file.comparable b.file then firstUnordered (b :: rest) else some (b, a)

def sort (locations : List Location) : Except LocationFault (List Location) :=
  match firstUnordered locations with
  | some (later, earlier) =>
    .error (.shape (.orderNeeded later.file.typeName earlier.file.typeName))
  | none => .ok (locations.mergeSort fun a b => !b.file.before a.file)

def foundLine (m : Match) : LogLine :=
  ⟨.debug, RawText.text ("Found " ++ m.kind.name ++ " in ") ++ m.file.shown ++
    RawText.text (" at line " ++ toString (m.lineIndex + 1))⟩

/-- The locations of matches, without those in the current file. -/
def ofMatches (tree : FileTree) (currentFile : Option String) (candidates : List Match)
    (run : Run) : Except LocationFault (List Location) × Run :=
  let excluded : Except LocationFault (Option Path) :=
    match currentFile with
    | none => .ok none
    | some file =>
      if file.isEmpty then .ok none else (keyOf tree (.name (.text file))).map some
  match excluded with
  | .error f => (.error f, run)
  | .ok excluded =>
    let (kept, said) := distinct tree excluded [] candidates
    let run := { run with log := run.log ++ said.map foundLine }
    (kept.bind fun ms => sort (ms.map ofMatch), run)

end Location
end DefinitionSite
