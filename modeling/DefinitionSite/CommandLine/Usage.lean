import DefinitionSite.CommandLine.Form
import DefinitionSite.FileTree.Basic

/-! What can be wrong with a command line, and how the user is told. -/
namespace DefinitionSite.CommandLine

inductive UsageFault where
  | noSuchOption (name : String) (close : List String)
  | valueNeeded (option : String)
  | noValueTaken (option : String)
  | badValue (hint : String) (reason : String)
  | badPath (f : PathFault)
  | argumentNeeded (argument : String)
  | unexpected (arguments : List String)
  | noSuchCommand (name : String)
  | commandNeeded
  | fileNeeded
  | noIdentifierAt (position : String) (file : Path)
  | nothingAsked
  deriving Repr, DecidableEq

namespace UsageFault

def message : UsageFault → String
  | .noSuchOption name close =>
    "No such option: " ++ name ++
      match close with
      | [] => ""
      | [one] => " Did you mean " ++ one ++ "?"
      | several => " (Possible options: " ++ ", ".intercalate several ++ ")"
  | .valueNeeded option => "Option " ++ Text.quotedString option ++ " requires an argument."
  | .noValueTaken option => "Option " ++ Text.quotedString option ++ " does not take a value."
  | .badPath f => f.message
  | .badValue hint reason => "Invalid value for " ++ hint ++ ": " ++ reason
  | .argumentNeeded argument => "Missing argument '" ++ argument ++ "'."
  | .unexpected arguments =>
    "Got unexpected extra argument" ++ (if arguments.length == 1 then "" else "s") ++ " (" ++
      " ".intercalate arguments ++ ")"
  | .noSuchCommand name => "No such command " ++ Text.quotedString name ++ "."
  | .commandNeeded => "Missing command."
  | .fileNeeded => "--at requires --file"
  | .noIdentifierAt position file => "No identifier at " ++ position ++ " in " ++ file.toString
  | .nothingAsked => "Give an IDENTIFIER or --file with --at"

/-- Whether the fault is told without the usage line: one in the value of an option is. -/
def isBare : UsageFault → Bool
  | .valueNeeded _ => true
  | .noValueTaken _ => true
  | _ => false

end UsageFault

/-- A command line that was not understood: the command it was read for, and what is wrong. -/
structure Refusal where
  form : CommandForm
  fault : UsageFault
  deriving Repr, DecidableEq

def Refusal.text (r : Refusal) : String :=
  (if r.fault.isBare then ""
    else r.form.usage ++ "\nTry '" ++ r.form.words ++ " --help' for help.\n\n") ++
  "Error: " ++ r.fault.message ++ "\n"

end DefinitionSite.CommandLine
