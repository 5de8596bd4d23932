import DefinitionSite.Deadline
import DefinitionSite.Decimal.Written
import DefinitionSite.Ripgrep.Command
import DefinitionSite.Ripgrep.Record

/-! Running the external engine: its process is looked after in short rounds, so that a limit or a
cancellation ends it soon. -/
namespace DefinitionSite.Ripgrep

structure StartError where
  code : Int
  reason : String
  deriving Repr, DecidableEq

def StartError.message (e : StartError) : String := "[Errno " ++ toString e.code ++ "] " ++ e.reason

/-- Whether the program is missing or may not be run, and not merely failed to start. -/
def StartError.isUnavailable (e : StartError) : Bool := e.code == 1 || e.code == 2 || e.code == 13

/-- How a process behaves: whether it starts, how many rounds of waiting it outlasts (all of them,
if none are given), in which round the search is cancelled from outside, and what it leaves. -/
structure Behaviour where
  startError : Option StartError
  hang : Option Nat
  cancelAfter : Option Nat
  exitCode : Int
  stdout : Text
  stderr : Text
  deriving Repr

namespace Behaviour

def quiet : Behaviour := ⟨none, some 0, none, 1, [], []⟩

def outlasts (p : Behaviour) (round : Nat) : Bool := p.hang.all (round ≤ ·)

end Behaviour

structure Round (τ : Type) where
  input : Option Text
  wait : τ

inductive Call (τ : Type) where
  | communicate (input : Option Text) (wait : Option τ)
  | kill

namespace Call

def round? {τ : Type} : Call τ → Option (Round τ)
  | communicate input (some wait) => some ⟨input, wait⟩
  | _ => none

def isKill {τ : Type} : Call τ → Bool
  | kill => true
  | _ => false

end Call

def Round.call {τ : Type} (r : Round τ) : Call τ := .communicate r.input (some r.wait)

/-- The end of a process that is not waited for any longer: it is killed, and its pipes are drained
so that nothing of it is left. -/
def killing {τ : Type} : List (Call τ) := [.kill, .communicate none none]

inductive Outcome where
  | returned
  | cancelled
  | timedOut
  deriving Repr, DecidableEq

structure Attended (τ : Type) where
  outcome : Outcome
  rounds : List (Round τ)
  now : τ
  cancelled : Bool

variable {τ : Type} [TimeScale τ]

/-- Looks after a process from a round on: cancellation is seen before the limit, the buffer is
handed over in the first round only, and a round that the process outlasts moves the clock by the
time it waited. There is no answer yet if that takes more rounds than given. -/
def attend (p : Behaviour) (deadline : Deadline τ) (round : Nat) (input : Option Text) (now : τ)
    (cancelled : Bool) : Nat → Option (Attended τ)
  | 0 => none
  | rounds + 1 =>
    if cancelled then some ⟨.cancelled, [], now, cancelled⟩
    else if deadline.expired now then some ⟨.timedOut, [], now, cancelled⟩
    else
      let wait := deadline.nextWait now
      let cancelled := cancelled || p.cancelAfter == some round
      if p.outlasts round then
        let rest? := attend p deadline (round + 1) none (TimeScale.add now wait) cancelled rounds
        rest?.map fun rest => { rest with rounds := ⟨input, wait⟩ :: rest.rounds }
      else some ⟨.returned, [⟨input, wait⟩], now, cancelled⟩

def Behaviour.roundsFor (p : Behaviour) (limit : τ) : Nat :=
  match p.hang, p.cancelAfter with
  | some n, _ => n + 2
  | none, some n => max n (TimeScale.rounds limit) + 2
  | none, none => TimeScale.rounds limit + 2

def inputOf : Source → Option Text
  | .buffer text => some text
  | .directory .. => none

/-- What became of the process of a search: whether it read from a pipe, and what was done to it. -/
structure Trace (τ : Type) where
  piped : Bool
  calls : List (Call τ)

namespace Trace

def killed {τ : Type} (t : Trace τ) : Bool := t.calls.any Call.isKill

def rounds {τ : Type} (t : Trace τ) : List (Round τ) := t.calls.filterMap Call.round?

end Trace

def Attended.calls {τ : Type} (done : Attended τ) : List (Call τ) :=
  done.rounds.map Round.call ++
    match done.outcome with
    | .returned => []
    | .cancelled | .timedOut => killing

/-- What a process that returned has found: exit code 0 is matches, 1 is none, and any other is a
failure with what it said. -/
def resultOf (p : Behaviour) (fromBuffer : Bool) : SearchResult :=
  if p.exitCode == 0 then .ofEvents (parse p.stdout fromBuffer)
  else if p.exitCode == 1 then ⟨.noMatches, [], ""⟩
  else
    let said := if p.stderr.isEmpty then p.stdout else p.stderr
    .fail .failed
      ("rg exited with code " ++ toString p.exitCode ++ ": " ++ String.ofList (Text.trim said))

/-- What a search with a process comes to. `shownLimit` is the limit in words. -/
def concluded (p : Behaviour) (fromBuffer : Bool) (shownLimit : String) : Outcome → SearchResult
  | .returned => resultOf p fromBuffer
  | .cancelled => .fail .cancelled "Search cancelled"
  | .timedOut => .fail .timeout ("rg timed out after " ++ shownLimit ++ "s")

/-- A search that has ended: its result, what became of its process if that was started, the clock
and whether the search is cancelled now. -/
structure Searched (τ : Type) where
  result : SearchResult
  trace : Option (Trace τ)
  now : τ
  cancelled : Bool

/-- Searches with a process that behaves as given, unless that takes more rounds than given. -/
def searchWith (p : Behaviour) (executable shownLimit : String) (source : Source) (limit now : τ)
    (cancelled : Bool) (rounds : Nat) : Option (Searched τ) :=
  let piped := (inputOf source).isSome
  match p.startError with
  | some e =>
    let status := if e.isUnavailable then SearchStatus.unavailable else .failed
    some ⟨.fail status (executable ++ ": " ++ e.message), none, now, cancelled⟩
  | none =>
    (attend p (.startingAt now limit) 1 (inputOf source) now cancelled rounds).map fun done =>
      ⟨concluded p piped shownLimit done.outcome, some ⟨piped, done.calls⟩, done.now,
        done.cancelled⟩

/-- Searches with a process that behaves as given, in seconds. A process that nothing ever ends
gives no result; nothing is seen of the value that stands for it. -/
def search (p : Behaviour) (executable : String) (timeout : Float) (pattern : Text)
    (source : Source) (run : Run) : SearchResult × Option (Trace Float) × Run :=
  let run := run.say .debug ("Executing: " ++ shown (args executable pattern source))
  let searched := searchWith p executable (Decimal.text timeout) source timeout run.clock
    run.cancelled (p.roundsFor timeout)
  match searched with
  | some done =>
    (done.result, done.trace, { run with clock := done.now, cancelled := done.cancelled })
  | none => (.fail .timeout "", none, run)

def engine (available : Bool) (executable : String) (timeout : Float)
    (processFor : Kind → Source → Behaviour) : Engine :=
  { name := "ripgrep"
    available
    search := fun kind pattern source run =>
      let (result, _, run) := search (processFor kind source) executable timeout pattern source run
      (.ok result, run) }

inductive VersionFault where
  | unavailable (executable : String) (e : StartError)
  | timedOut (executable : String) (timeout : Float)
  | exited (executable : String) (code : Int)

def VersionFault.message : VersionFault → String
  | .unavailable executable e => executable ++ ": " ++ e.message
  | .timedOut executable timeout =>
    executable ++ " --version timed out after " ++ Decimal.text timeout ++ "s"
  | .exited executable code => executable ++ " --version exited with code " ++ toString code

def version (p : Behaviour) (executable : String) (timeout : Float) : Except VersionFault Text :=
  match p.startError with
  | some e => .error (.unavailable executable e)
  | none =>
    if p.outlasts 1 then .error (.timedOut executable timeout)
    else if p.exitCode != 0 then .error (.exited executable p.exitCode)
    else .ok ((Text.recordLines (Text.trim p.stdout)).headD [])

end DefinitionSite.Ripgrep
