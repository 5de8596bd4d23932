import DefinitionSite.Settings.Basic
import DefinitionSite.Settings.Fault

/-! Applying a configuration file to the settings. A file is a list of changes that are made one
after the other; when one of them fails, those before it stay. -/
namespace DefinitionSite.Settings

open Toml (Value Table)

abbrev Change := Settings → Except SettingsFault Settings

/-- Makes changes one after the other, up to the first that fails. -/
def applyAll (s : Settings) : List Change → Settings × Option SettingsFault
  | [] => (s, none)
  | change :: rest =>
    match change s with
    | .ok s => applyAll s rest
    | .error f => (s, some f)

/-- What stands under a key, if anything does. Only a table can be looked into; a string or an array
that holds the key is taken for one, and then the look-up fails. -/
def member? (key : String) : Value → Except SettingsFault (Option Value)
  | .table entries => .ok (Toml.entry? key entries)
  | .string s => if Text.holds key.toList s.toList then .error .stringIndexed else .ok none
  | .array items =>
    let isKey : Value → Bool
      | .string s => s == key
      | _ => false
    if items.any isKey then .error .arrayIndexed else .ok none
  | v => .error (.noMembers v.typeName)

def floatOf : Value → Except SettingsFault Float
  | .float x => .ok x
  | .bool b => .ok (if b then 1.0 else 0.0)
  | .int n =>
    match Decimal.ofInt? n with
    | some x => .ok x
    | none => .error (.overflow .wholeToFloat)
  | .string s =>
    match Decimal.readFloat? s.toList with
    | some x => .ok x
    | none => .error (.floatText s)
  | v => .error (.floatType v.typeName)

def wholeOf : Value → Except SettingsFault Int
  | .int n => .ok n
  | .bool b => .ok (if b then 1 else 0)
  | .float x =>
    match (Decimal.Parts.ofFloat x).whole? with
    | some n => .ok n
    | none => .error (if x.isNaN then .wholeOfNaN else .overflow .infinityToWhole)
  | .string s =>
    match Decimal.readInt s.toList with
    | .ok n => .ok n
    | .error .malformed => .error (.wholeText s)
    | .error (.tooLong digits) => .error (.wholeTooLong digits)
  | v => .error (.wholeType v.typeName)

def stringOf (v : Value) : Except SettingsFault String := v.shown.mapError .unwritable

/-- The items of a value as strings: those of an array, the keys of a table, or the characters of a
string. -/
def itemsOf : Value → Except SettingsFault (List String)
  | .array items => items.mapM stringOf
  | .table entries => .ok (entries.map (·.1))
  | .string s => .ok (s.toList.map fun c => String.ofList [c])
  | v => .error (.noItems v.typeName)

def engineChange (search : Value) : Change := fun s => do
  match (← member? "engine" search) with
  | none => return s
  | some v =>
    if !v.isTruthy then return s
    let name ← stringOf v
    match EngineChoice.ofName? name with
    | some engine => return { s with engine }
    | none => throw (.unknownEngine ⟨name⟩)

def ripgrepPathChange (search : Value) : Change := fun s => do
  match (← member? "ripgrep_path" search) with
  | none => return s
  | some v => if v.isTruthy then return { s with ripgrepPath := ← stringOf v } else return s

def timeoutChange (search : Value) : Change := fun s => do
  match (← member? "timeout" search) with
  | none => return s
  | some v => return { s with timeout := ← floatOf v }

def workersChange (search : Value) : Change := fun s => do
  match (← member? "max_workers" search) with
  | none => return s
  | some v => return { s with maxWorkers := ← wholeOf v }

/-- The file name patterns of one language; a single string is a single pattern. -/
def languageChange (language : String) (globs : Value) : Change := fun s => do
  match globs with
  | .string glob => return s.setLanguage language [glob]
  | v => return s.setLanguage language (← itemsOf v)

def languageChanges : Value → List Change
  | .table entries => entries.map fun e => languageChange e.1 e.2
  | v => [fun _ => .error (.noEntries v.typeName)]

def skipDirsChange (workspace : Value) : Change := fun s => do
  match (← member? "skip_dirs" workspace) with
  | none => return s
  | some v => return { s with skipDirs := ← itemsOf v }

def debugChange (v : Value) : Change := fun s => .ok { s with debug := v.isTruthy }

def changesUnder (document : Table) (key : String) (changes : Value → List Change) : List Change :=
  match Toml.entry? key document with
  | none => []
  | some v => changes v

/-- The changes that a document makes, in the order in which they are made. -/
def changes (document : Table) : List Change :=
  changesUnder document "search" (fun v =>
    [engineChange v, ripgrepPathChange v, timeoutChange v, workersChange v]) ++
  changesUnder document "languages" languageChanges ++
  changesUnder document "workspace" (fun v => [skipDirsChange v]) ++
  changesUnder document "debug" (fun v => [debugChange v])

def applyDocument (s : Settings) (document : Table) : Settings × Option SettingsFault :=
  applyAll s (changes document)

def applyFile (s : Settings) (tree : FileTree) (path : Path) : Settings × Option SettingsFault :=
  match tree.readBytes path with
  | .error e => (s, some (.unreadable e))
  | .ok bytes =>
    match Toml.readBytes bytes with
    | .error f => (s, some (.document f))
    | .ok document => s.applyDocument document

end DefinitionSite.Settings
