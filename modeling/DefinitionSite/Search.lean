import DefinitionSite.Event
import DefinitionSite.Kind
import DefinitionSite.Log
import DefinitionSite.FileTree.Basic

/-! What is searched, what a search gives, and what an engine is. -/
namespace DefinitionSite

inductive Source where
  | buffer (text : Text)
  | directory (root : Path) (globs skipDirs : List String)

inductive SearchStatus where
  | ok
  | noMatches
  | unavailable
  | failed
  | timeout
  | cancelled
  deriving Repr, DecidableEq

def SearchStatus.name : SearchStatus → String
  | .ok => "ok"
  | .noMatches => "no_matches"
  | .unavailable => "unavailable"
  | .failed => "failed"
  | .timeout => "timeout"
  | .cancelled => "cancelled"

/-- The outcome of one search: events only if it found some, and a reason only if it failed. -/
structure SearchResult where
  status : SearchStatus
  events : List Event
  error : String

namespace SearchResult

def success (r : SearchResult) : Bool := r.status == .ok || r.status == .noMatches

def ofEvents (events : List Event) : SearchResult :=
  if events.isEmpty then ⟨.noMatches, [], ""⟩ else ⟨.ok, events, ""⟩

def fail (status : SearchStatus) (error : String) : SearchResult := ⟨status, [], error⟩

end SearchResult

/-- Why a search has no outcome at all: its expression breaks the compiler, or its root cannot be
asked about. -/
inductive SearchFault where
  | expression (why : String)
  | unaskable (e : FileError)
  deriving Repr, DecidableEq

def SearchFault.message : SearchFault → String
  | .expression why => why
  | .unaskable e => e.message

/-- The course of a look-up: whether it is cancelled, how many searches and scans were made, the
step at which its caller cancels it, the clock, and what was logged. -/
structure Run where
  cancelled : Bool
  step : Nat
  cancelAt : Option Nat
  clock : Float
  log : Log

namespace Run

def fresh : Run := ⟨false, 0, none, 0.0, []⟩

def say (r : Run) (level : LogLevel) (message : RawText) : Run :=
  { r with log := r.log ++ [⟨level, message⟩] }

def cancel (r : Run) : Run := { r with cancelled := true }

/-- One search or scan was made; the caller may cancel at this moment. -/
def tick (r : Run) : Run :=
  { r with step := r.step + 1, cancelled := r.cancelled || r.cancelAt == some (r.step + 1) }

end Run

/-- A search engine: its name, whether it can run, and how it searches a source for the definitions
of one kind, given by the text of their expression. -/
structure Engine where
  name : String
  available : Bool
  search : Kind → Text → Source → Run → Except SearchFault SearchResult × Run

end DefinitionSite
