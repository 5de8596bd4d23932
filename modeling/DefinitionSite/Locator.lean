import DefinitionSite.Catalog
import DefinitionSite.DirectoryScan
import DefinitionSite.Location

/-! Finding the definition of an identifier: in the buffer first, where a hit is the only answer,
and else in the workspace, where the best match of each file is one. When the engine cannot run, the
line scan takes its place. -/
namespace DefinitionSite

structure Locator where
  tree : FileTree
  engine : Engine
  skipDirs : List String

/-- What to locate: the identifier, the text being edited and its file, and the workspace with the
file name patterns that count there. -/
structure Request where
  identifier : Option Text
  buffer : Option Text
  root : Option Path
  globs : Option (List String)
  currentFile : Option String

inductive LocateFault where
  | noRoot
  | location (f : LocationFault)

def LocateFault.message : LocateFault → String
  | .noRoot => "No workspace root to search"
  | .location f => f.message

/-- What the searches of all kinds give together: their matches, or that the engine cannot run. -/
inductive Pooled where
  | unavailable (why : String)
  | found (candidates : List Match)

namespace Locator

def searchKinds (engine : Engine) (source : Source) (run : Run) :
    List (Kind × Text) → List (Kind × Except SearchFault SearchResult) × Run
  | [] => ([], run)
  | (kind, pattern) :: rest =>
    let (outcome, run) := engine.search kind pattern source run
    let (outcomes, run) := searchKinds engine source run.tick rest
    ((kind, outcome) :: outcomes, run)

def allResults : List (Kind × Except SearchFault SearchResult) →
    Except SearchFault (List (Kind × SearchResult))
  | [] => .ok []
  | (_, .error f) :: _ => .error f
  | (kind, .ok result) :: rest => (allResults rest).map ((kind, result) :: ·)

/-- Puts the results of the searches together, in order of preference. A search that failed does not
keep the others from counting; one whose engine cannot run ends them all. -/
def pool (found : List Match) (run : Run) :
    List (Kind × SearchResult) → Except ShapeFault Pooled × Run
  | [] => (.ok (.found found), run)
  | (kind, result) :: rest =>
    if result.status == .unavailable then (.ok (.unavailable result.error), run)
    else if result.status == .cancelled then
      pool found (run.say .debug ("Search for " ++ kind.name ++ " cancelled")) rest
    else if !result.success then
      pool found (run.say .warning ("Search for " ++ kind.name ++ " failed: " ++ result.error)) rest
    else
      match Match.ofEvents kind result.events with
      | .error f => (.error f, run)
      | .ok ms => pool (found ++ ms) run rest

def gather (run : Run) (outcomes : List (Kind × Except SearchFault SearchResult)) :
    Except LocationFault Pooled × Run :=
  match allResults outcomes with
  | .error f => (.error (.search f), run)
  | .ok results =>
    let (pooled, run) := pool [] run results
    (pooled.mapError .shape, run)

def searchAll (engine : Engine) (identifier : Text) (source : Source) (run : Run) :
    Except LocationFault Pooled × Run :=
  let (outcomes, run) := searchKinds engine source run (Catalog.patterns identifier)
  gather run outcomes

def wanted (identifier : Option Text) : Text := Text.trim (identifier.getD [])

def bufferFile (currentFile : Option String) : FileLabel :=
  match currentFile with
  | some file => if file.isEmpty then .buffer else .name (.text file)
  | none => .buffer

def globsOf (globs : Option (List String)) : List String :=
  match globs with
  | some (g :: gs) => g :: gs
  | _ => defaultGlobs

def someText (text : Option Text) : Option Text := text.filter (!·.isEmpty)

/-- The look-up with the line scan: in the buffer, then in the workspace if there is one. -/
def locateByScan (l : Locator) (identifier : Text) (request : Request) (run : Run) :
    Except LocateFault (List Location) × Run :=
  let inBuffer := (someText request.buffer).bind fun text =>
    Match.best (LineScan.scan identifier text .buffer)
  if (someText request.buffer).isSome && run.cancelled then (.ok [], run)
  else
    match inBuffer with
    | some m => (.ok [.ofMatchIn (bufferFile request.currentFile) m], run)
    | none =>
      match request.root with
      | none =>
        (.ok [], run.say .warning "Fallback search skipped: no workspace root to search")
      | some root =>
        let globs := globsOf request.globs
        match LineScan.scanDirectory l.tree identifier root globs l.skipDirs run with
        | (.error (.unaskable e), run) => (.error (.location (.search (.unaskable e))), run)
        | (.error e, run) => (.ok [], run.say .warning ("Fallback search failed: " ++ e.message))
        | (.ok found, run) =>
          if run.cancelled then (.ok [], run)
          else
            let (result, run) := Location.ofMatches l.tree request.currentFile found run
            (result.mapError .location, run)

/-- What a step of a look-up leads to: an answer, the line scan, or the next step. -/
inductive Next where
  | answer (result : Except LocateFault (List Location))
  | scan (why : String)
  | goOn

def inBuffer (l : Locator) (identifier : Text) (request : Request) (run : Run) : Next × Run :=
  match someText request.buffer with
  | none => (.goOn, run)
  | some text =>
    let run := run.say .debug
      ("Looking for definition of '" ++ String.ofList identifier ++ "' in current buffer")
    match searchAll l.engine identifier (.buffer text) run with
    | (.error f, run) => (.answer (.error (.location f)), run)
    | (.ok (.unavailable why), run) => (.scan why, run)
    | (.ok (.found candidates), run) =>
      if run.cancelled then (.answer (.ok []), run)
      else
        match Match.best candidates with
        | none => (.goOn, run)
        | some m =>
          let run := run.say .debug
            ("Found " ++ m.kind.name ++ " at line " ++ toString (m.lineIndex + 1))
          (.answer (.ok [.ofMatchIn (bufferFile request.currentFile) m]), run)

def inWorkspace (l : Locator) (identifier : Text) (request : Request) (run : Run) : Next × Run :=
  match request.root with
  | none => (.answer (.error .noRoot), run)
  | some root =>
    let globs := globsOf request.globs
    let run := run.say .debug
      ("Not found in current buffer, searching " ++ root.toString ++ " in: " ++
        ", ".intercalate globs)
    match searchAll l.engine identifier (.directory root globs l.skipDirs) run with
    | (.error f, run) => (.answer (.error (.location f)), run)
    | (.ok (.unavailable why), run) => (.scan why, run)
    | (.ok (.found candidates), run) =>
      if run.cancelled then (.answer (.ok []), run)
      else
        match Match.bestPerFile candidates with
        | .error f => (.answer (.error (.location (.shape f))), run)
        | .ok found =>
          let (result, run) := Location.ofMatches l.tree request.currentFile found run
          (.answer (result.mapError .location), run)

def locateByEngine (l : Locator) (identifier : Text) (request : Request) (run : Run) : Next × Run :=
  match inBuffer l identifier request run with
  | (.goOn, run) => inWorkspace l identifier request run
  | other => other

/-- Locates the definition of an identifier; there is at most one location for each file. -/
def locate (l : Locator) (request : Request) (run : Run) :
    Except LocateFault (List Location) × Run :=
  let identifier := wanted request.identifier
  if identifier.isEmpty then (.ok [], run)
  else if !l.engine.available then
    locateByScan l identifier request
      (run.say .info (l.engine.name ++ " not available, using fallback line scan"))
  else
    match locateByEngine l identifier request run with
    | (.answer result, run) => (result, run)
    | (.scan why, run) =>
      locateByScan l identifier request (run.say .warning (why ++ "; using fallback line scan"))
    | (.goOn, run) => (.ok [], run)

def scanText (identifier text : Text) : Option Match :=
  Match.best (LineScan.scan identifier text .buffer)

def findInText (engine : Engine) (identifier text : Option Text) (run : Run) :
    Except LocationFault (Option Match) × Run :=
  let identifier := wanted identifier
  match someText text with
  | none => (.ok none, run)
  | some text =>
    if identifier.isEmpty then (.ok none, run)
    else if !engine.available then (.ok (scanText identifier text), run)
    else
      match searchAll engine identifier (.buffer text) run with
      | (.error f, run) => (.error f, run)
      | (.ok (.found candidates), run) => (.ok (Match.best candidates), run)
      | (.ok (.unavailable why), run) =>
        (.ok (scanText identifier text), run.say .warning (why ++ "; using fallback line scan"))

end Locator
end DefinitionSite
