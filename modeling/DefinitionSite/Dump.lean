import DefinitionSite.Identifier
import DefinitionSite.Locator

/-! The report on a file: for each value name that it uses, where the name is defined. -/
namespace DefinitionSite

/-- The names of a file with their locations, and those without any, both in order of first
occurrence. -/
structure Dump where
  found : List (Text × List Location)
  missing : List Text

inductive DumpFault where
  | path (f : PathFault)
  | file (e : FileError)
  | location (f : LocationFault)

namespace Run

/-- The course of the next look-up: only the clock and the log go on. -/
def next (r : Run) : Run := { r with cancelled := false, step := 0, cancelAt := none }

end Run

namespace Dump

def empty : Dump := ⟨[], []⟩

def add (name : Text) (locations : List Location) (d : Dump) : Dump :=
  if locations.isEmpty then { d with missing := name :: d.missing }
  else { d with found := (name, locations) :: d.found }

/-- Locates names one after the other; `request` says what is the same for all of them. A name that
the engine has nowhere to look for is skipped. -/
def locateAll (l : Locator) (request : Request) (run : Run) :
    List Text → Except LocationFault Dump × Run
  | [] => (.ok empty, run)
  | name :: rest =>
    match l.locate { request with identifier := some name } run.next with
    | (.error (.location f), run) => (.error f, run)
    | (.error .noRoot, run) =>
      let run := run.say .warning
        ("Skipping '" ++ String.ofList name ++ "': " ++ LocateFault.noRoot.message)
      let (result, run) := locateAll l request run rest
      (result.map (add name []), run)
    | (.ok locations, run) =>
      let (result, run) := locateAll l request run rest
      (result.map (add name locations), run)

def collect (l : Locator) (file : Path) (root : Option Path) (globs : Option (List String))
    (run : Run) : Except DumpFault Dump × Run :=
  if file.holdsNull then (.error (.path .holdsNull), run)
  else
    match l.tree.readText file with
    | .error e => (.error (.file e), run)
    | .ok text =>
      let names := Identifier.used text true
      let run := run.say .debug
        ("Found " ++ toString names.length ++ " potential identifiers in " ++ file.toString)
      let request : Request :=
        { identifier := none, buffer := some text, root, globs, currentFile := some file.toString }
      let (result, run) := locateAll l request run names
      (result.mapError .location, run)

/-- A name that came from bytes, in words. -/
def shownName : RawText → String
  | .text s => s
  | .bytes b => String.ofList (Text.decodeReplacing b)

def locationLines (name : Text) (l : Location) : List String :=
  let place := shownName l.file.shown ++ ":" ++ toString (l.lineIndex + 1)
  ["\"" ++ String.ofList name ++ "\": " ++ place,
    "    " ++ String.ofList (Text.trim l.text), ""]

def missingLines (missing : List Text) : List String :=
  if missing.isEmpty then []
  else
    ["## Identifiers Without Definitions", "",
      "**" ++ toString missing.length ++ " identifier(s) with no definitions found:**", "",
      ", ".intercalate (missing.map String.ofList), ""]

/-- The report as Markdown; `generated` is the moment it was made, in words. -/
def render (file : Path) (generated : String) (d : Dump) : String :=
  "\n".intercalate <|
    ["# Definition Dump for " ++ file.toString, "", "Generated on: " ++ generated, "",
      "## Definitions Found", ""] ++
    d.found.flatMap (fun e => e.2.flatMap (locationLines e.1)) ++
    missingLines d.missing

end Dump
end DefinitionSite
