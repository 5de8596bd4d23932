import DefinitionSite.CommandLine.Usage
import DefinitionSite.Decimal.Numeral
import DefinitionSite.FileTree.Basic
import DefinitionSite.Text.Similar

/-! What is given on the command line. Options may stand anywhere among the arguments, up to a
double dash; values are checked in the order in which their options first stand there. -/
namespace DefinitionSite.CommandLine

/-- The options that were given, with their values as they stand there, and the arguments. -/
structure Given where
  options : List (OptionForm × String)
  arguments : List String
  deriving Repr, DecidableEq

def isOption (s : String) : Bool := s.startsWith "-" && 1 < s.length

def CommandForm.option? (c : CommandForm) (name : String) : Option OptionForm :=
  c.options.find? (·.names.contains name)

def CommandForm.longNames (c : CommandForm) : List String :=
  c.options.flatMap fun o => o.names.filter (·.startsWith "--")

/-- The value of an option that takes one: attached to it, or the next argument, of which the second
component tells. -/
def valueOf (name : String) (attached next : Option String) : Except UsageFault (String × Bool) :=
  match attached, next with
  | some v, _ => .ok (v, false)
  | none, some v => .ok (v, true)
  | none, none => .error (.valueNeeded name)

/-- Reads options of one letter that stand together. The first that takes a value takes the rest of
the letters, or the next argument if there are none. -/
def readLetters (c : CommandForm) (next : Option String) :
    Text → Except UsageFault (List (OptionForm × String) × Bool)
  | [] => .ok ([], false)
  | letter :: rest =>
    let name := String.ofList ['-', letter]
    match c.option? name with
    | none => .error (.noSuchOption name [])
    | some option =>
      if option.value.isNone then
        (readLetters c next rest).map fun (given, used) => ((option, "") :: given, used)
      else
        let attached := if rest.isEmpty then none else some (String.ofList rest)
        (valueOf name attached next).map fun (v, used) => ([(option, v)], used)

/-- Reads one argument that is an option, or several of one letter: what it gives, and whether the
next argument belongs to it. -/
def readOption (c : CommandForm) (argument : String) (next : Option String) :
    Except UsageFault (List (OptionForm × String) × Bool) :=
  let (name, attached) :=
    match Text.cut? '=' argument.toList with
    | some (name, v) => (String.ofList name, some (String.ofList v))
    | none => (argument, none)
  if c.longNames.contains name then
    match c.option? name with
    | none => .ok ([], false)
    | some option =>
      if option.value.isSome then
        (valueOf name attached next).map fun (v, used) => ([(option, v)], used)
      else if attached.isSome then .error (.noValueTaken name)
      else .ok ([(option, "")], false)
  else if argument.startsWith "--" then
    let close := (Text.closest name.toList (c.longNames.map String.toList)).map String.ofList
    .error (.noSuchOption name (close.mergeSort fun a b => !decide (b < a)))
  else readLetters c next (argument.toList.drop 1)

/-- Reads arguments. Those of a group end its options. -/
def readArguments (c : CommandForm) : List String → Except UsageFault Given
  | [] => .ok ⟨[], []⟩
  | argument :: rest =>
    if argument == "--" then .ok ⟨[], rest⟩
    else if isOption argument then
      match readOption c argument rest.head? with
      | .error f => .error f
      | .ok (given, used) =>
        (readArguments c (if used then rest.tail else rest)).map fun g =>
          { g with options := given ++ g.options }
    else if c.isGroup then .ok ⟨[], argument :: rest⟩
    else (readArguments c rest).map fun g => { g with arguments := argument :: g.arguments }
termination_by arguments => arguments.length
decreasing_by
  · split <;> simp only [List.length_tail, List.length_cons] <;> omega
  · simp

inductive Value where
  | text (s : String)
  | number (x : Float)
  | path (p : Path)

/-- What is wrong with a value: it is refused for a reason, or it is a path that cannot be followed.
-/
inductive ValueFault where
  | refused (reason : String)
  | path (f : PathFault)

def ValueFault.usage (hint : String) : ValueFault → UsageFault
  | .refused reason => .badValue hint reason
  | .path f => .badPath f

def ValueKind.check (tree : FileTree) (given : String) : ValueKind → Except ValueFault Value
  | .text => .ok (.text given)
  | .number =>
    match Decimal.readFloat? given.toList with
    | some x => .ok (.number x)
    | none => .error (.refused (Text.quotedString given ++ " is not a valid float."))
  | .choice names =>
    if names.contains given then .ok (.text given)
    else
      .error (.refused (Text.quotedString given ++ " is not one of " ++
        ", ".intercalate (names.map Text.quotedString) ++ "."))
  | .path rule =>
    let path := Path.ofString given
    let wrong := fun what =>
      ValueFault.refused (rule.noun ++ " " ++ Text.quotedString given ++ " " ++ what ++ ".")
    if path.holdsNull then .error (.path .holdsNull)
    else
      match tree.statString given with
      | .error _ => if rule.mustExist then .error (wrong "does not exist") else .ok (.path path)
      | .ok (_, node) =>
        if node.isDir then
          if rule.dirAllowed then .ok (.path path) else .error (wrong "is a directory")
        else if rule.fileAllowed then .ok (.path path)
        else .error (wrong "is a file")

namespace Given

def has (g : Given) (option : OptionForm) : Bool := g.options.any (·.1 == option)

/-- The value of an option as it was given; the last one counts. -/
def last? (g : Given) (option : OptionForm) : Option String :=
  (g.options.reverse.find? (·.1 == option)).map (·.2)

def value? (tree : FileTree) (g : Given) (option : OptionForm) : Option (Except UsageFault Value) :=
  match option.value, g.last? option with
  | some kind, some given =>
    let hint := " / ".intercalate (option.names.map fun n => "'" ++ n ++ "'")
    some ((kind.check tree given).mapError (ValueFault.usage hint))
  | _, _ => none

/-- The first fault in the values of options, by the places where the options first stand. -/
def optionFault? (tree : FileTree) (g : Given) : Option UsageFault :=
  g.options.findSome? fun (option, _) =>
    match g.value? tree option with
    | some (.error f) => some f
    | _ => none

def text? (tree : FileTree) (g : Given) (option : OptionForm) : Option String :=
  match g.value? tree option with
  | some (.ok (.text s)) => some s
  | _ => none

def path? (tree : FileTree) (g : Given) (option : OptionForm) : Option Path :=
  match g.value? tree option with
  | some (.ok (.path p)) => some p
  | _ => none

def number? (tree : FileTree) (g : Given) (option : OptionForm) : Option Float :=
  match g.value? tree option with
  | some (.ok (.number x)) => some x
  | _ => none

end Given

/-- The checked argument of a command. The options are checked before it, and arguments that are too
many are told last. -/
def checkArgument (tree : FileTree) (c : CommandForm) (g : Given) :
    Except UsageFault (Option Value) :=
  match g.optionFault? tree with
  | some f => .error f
  | none =>
    match c.argument, g.arguments with
    | none, [] => .ok none
    | none, extra => .error (.unexpected extra)
    | some a, [] => if a.required then .error (.argumentNeeded a.shown) else .ok none
    | some a, given :: extra =>
      match a.value.check tree given with
      | .error f => .error (f.usage ("'" ++ a.shown ++ "'"))
      | .ok v => if extra.isEmpty then .ok (some v) else .error (.unexpected extra)

end DefinitionSite.CommandLine
