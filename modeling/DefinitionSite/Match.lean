import DefinitionSite.Event
import DefinitionSite.Kind

/-! Matches: occurrences narrowed to the line that names the definition, and the best of several. -/
namespace DefinitionSite

/-- A definition site: its kind, file, line (counted from 0) and the text of that line. -/
structure Match where
  kind : Kind
  file : FileLabel
  lineIndex : Int
  text : Text

namespace Match

/-- The line of an occurrence that names the definition. A constructor stands at the end of its
span, after the `data` line and the lines that continue it; every other kind starts with the name.
-/
def ofLines (kind : Kind) (path : Option FileLabel) (line : Int) (text : Text) : Match :=
  let lines := text.splitLines
  let offset := if kind = .constructor then lines.length - 1 else 0
  { kind
    file := path.getD .buffer
    lineIndex := max 0 (line - 1 + offset)
    text := lines.getD offset [] }

def ofEvent (kind : Kind) (event : Event) : Except ShapeFault Match :=
  match event.text with
  | .text t => .ok (ofLines kind event.path event.line.toInt t)
  | .value v => .error (.textNeeded v)

def ofEvents (kind : Kind) (events : List Event) : Except ShapeFault (List Match) :=
  events.mapM (ofEvent kind)

def firstBest : List Match → Option Match
  | [] => none
  | m :: rest =>
    match firstBest rest with
    | none => some m
    | some best => if best.kind.priority < m.kind.priority then some best else some m

/-- The best match. A signature outranks a bare value binding, so assignments do not count beside
one; then the most authoritative kind wins, and within a kind the earliest match. -/
def best (candidates : List Match) : Option Match :=
  if candidates.any (·.kind.isSignature) then
    firstBest (candidates.filter (·.kind != .assignment))
  else firstBest candidates

abbrev Groups := List (FileLabel × List Match)

def Groups.add : Groups → Match → Groups
  | [], m => [(m.file, [m])]
  | (file, ms) :: groups, m =>
    if file.same m.file then (file, ms ++ [m]) :: groups else (file, ms) :: Groups.add groups m

def groupByFile (candidates : List Match) : Except ShapeFault Groups :=
  candidates.foldlM (fun groups m => do m.file.checkKey; return groups.add m) []

def bestPerFile (candidates : List Match) : Except ShapeFault (List Match) := do
  let groups ← groupByFile candidates
  return groups.filterMap fun g => best g.2

end Match
end DefinitionSite
