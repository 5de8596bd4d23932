import DefinitionSite.Deadline
import DefinitionSite.Decimal.Written
import DefinitionSite.Regex.Reader
import DefinitionSite.Search
import DefinitionSite.SourceFiles

/-! The engine that needs no other program: it reads the files itself. Limit and cancellation are
looked at between files only, so one file is always searched to its end. -/
namespace DefinitionSite.InProcess

/-- What can be seen before a file is read: whether the search is cancelled, and the clock. -/
structure Sight where
  cancelled : Bool
  now : Float

/-- Searches files one after another with what finds matches in a text; `sight` tells what can be
seen before the file of each number, and `found` is what the files before gave. -/
def searchFiles (find : Text → List Regex.Span) (deadline : Deadline Float) (sight : Nat → Sight)
    (number : Nat) (found : List Event) (log : Log) :
    List (Path × Except FileError Text) → SearchResult × Log
  | [] => (.ofEvents found, log)
  | (path, content) :: rest =>
    if (sight number).cancelled then (.fail .cancelled "Search cancelled", log)
    else if deadline.expired (sight number).now then
      (.fail .timeout ("Search timed out after " ++ Decimal.text deadline.limit ++ "s"), log)
    else
      match content with
      | .error e =>
        let line : LogLine :=
          ⟨.debug, "Skipping unreadable file " ++ path.toString ++ ": " ++ e.message⟩
        searchFiles find deadline sight (number + 1) found (log ++ [line]) rest
      | .ok text =>
        let events := Event.ofSpans (find text) text (some (.name (.text path.toString)))
        searchFiles find deadline sight (number + 1) (found ++ events) log rest

def searchWith (compile : Regex.Compiler) (tree : FileTree) (timeout : Float) (pattern : Text)
    (source : Source) (run : Run) : Except SearchFault SearchResult × Run :=
  match compile pattern with
  | .error (.refused why) => (.ok (.fail .failed ("Invalid regex pattern: " ++ why)), run)
  | .error (.broken why) => (.error (.expression why), run)
  | .ok find =>
    match source with
    | .buffer text => (.ok (.ofEvents (Event.ofSpans (find text) text none)), run)
    | .directory root globs skipDirs =>
      match tree.askDir root with
      | .error e => (.error (.unaskable e), run)
      | .ok false => (.ok (.fail .failed ("Path not found: " ++ root.toString)), run)
      | .ok true =>
        let files := (tree.sourceFiles root globs skipDirs).map fun p => (p, tree.readText p)
        let (result, log) :=
          searchFiles find (.startingAt run.clock timeout) (fun _ => ⟨run.cancelled, run.clock⟩) 0
            [] [] files
        (.ok result, { run with log := run.log ++ log })

def search : FileTree → Float → Text → Source → Run → Except SearchFault SearchResult × Run :=
  searchWith Regex.compile

def engine (tree : FileTree) (timeout : Float) : Engine :=
  { name := "python", available := true, search := fun _ => search tree timeout }

end DefinitionSite.InProcess
